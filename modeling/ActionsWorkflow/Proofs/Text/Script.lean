import ActionsWorkflow.Proofs.Validity.Job

/-!
# Scripts without their indentation

Taking the indentation off a script changes nothing else.  The lines of the scanner make up
the whole script, the lines that start inside quotes stay as they are, and all the others that
are not blank lose the same spaces, as many as the line with the fewest of them has.
-/

namespace ActionsWorkflow.Text

variable {scanner : Scanner} {text : List Char}

theorem escaped_advance_of_ne {c : Char} (hc : c ≠ '\\') :
    (scanner.advance c).escaped = false := by
  fun_cases Scanner.advance scanner c with
  | case1 => rfl
  | _ => simp_all

def marks : List Char := ['\\', '\'', '"']

theorem isWhiteSpace_eq_false_of_mem_marks : ∀ c ∈ marks, isWhiteSpace c = false := by
  rw [marks, List.forall_mem_cons, List.forall_mem_cons, List.forall_mem_singleton]
  decide

namespace Scanner

theorem advance_of_not_mem_marks (hescaped : scanner.escaped = false) {c : Char}
    (hc : c ∉ marks) : scanner.advance c = scanner := by
  simp only [marks, List.mem_cons, List.not_mem_nil, or_false, not_or] at hc
  fun_cases Scanner.advance scanner c <;> simp_all

theorem advance_newline (hescaped : scanner.escaped = false) :
    scanner.advance '\n' = scanner :=
  advance_of_not_mem_marks hescaped (by decide)

theorem advance_of_isWhiteSpace (hescaped : scanner.escaped = false) {c : Char}
    (hc : isWhiteSpace c = true) : scanner.advance c = scanner := by
  refine advance_of_not_mem_marks hescaped fun hmark => ?_
  rw [isWhiteSpace_eq_false_of_mem_marks c hmark] at hc
  cases hc

end Scanner

theorem scriptLinesFrom_cons (scanner : Scanner) (c : Char) (rest : List Char) :
    scriptLinesFrom scanner (c :: rest) =
      let (line, lines) := scriptLinesFrom (scanner.advance c) rest
      if scanner.endsLine c then (⟨[], scanner.quote.isSome⟩, line :: lines)
      else (⟨c :: line.text, scanner.quote.isSome⟩, lines) := rfl

theorem quoted_scriptLinesFrom (scanner : Scanner) (text : List Char) :
    (scriptLinesFrom scanner text).1.quoted = scanner.quote.isSome := by
  cases text with
  | nil => rfl
  | cons c rest =>
      rw [scriptLinesFrom_cons]
      dsimp only
      split <;> rfl

theorem intercalate_scriptLinesFrom {line : ScriptLine} {lines : List ScriptLine}
    (h : scriptLinesFrom scanner text = (line, lines)) :
    ['\n'].intercalate ((line :: lines).map ScriptLine.text) = text := by
  induction text generalizing scanner line lines with
  | nil =>
      cases h
      rfl
  | cons c rest ih =>
      rcases hnext : scriptLinesFrom (scanner.advance c) rest with ⟨next, after⟩
      have hrest := ih hnext
      rw [scriptLinesFrom_cons, hnext] at h
      dsimp only at h
      split at h
      next hends =>
          cases h
          have hc : c = '\n' := by
            simp only [Scanner.endsLine, Bool.and_eq_true, decide_eq_true_eq] at hends
            exact hends.1
          rw [hc, ← hrest, List.map_cons, List.map_cons, List.intercalate_cons_cons]
          rfl
      next =>
          cases h
          rw [← hrest, List.map_cons, List.map_cons, List.intercalate_cons_cons_left]

theorem scriptLinesFrom_of_newline_not_mem (h : '\n' ∉ text) :
    scriptLinesFrom scanner text = (⟨text, scanner.quote.isSome⟩, []) := by
  induction text generalizing scanner with
  | nil => rfl
  | cons c rest ih =>
      obtain ⟨hc, hrest⟩ := List.ne_and_not_mem_of_not_mem_cons h
      have hends : ¬ scanner.endsLine c = true := by simp [Scanner.endsLine, hc.symm]
      rw [scriptLinesFrom_cons, ih hrest]
      exact if_neg hends

theorem scriptLinesFrom_append_newline {rest : List Char} {line : ScriptLine}
    {lines : List ScriptLine} (htext : '\n' ∉ text)
    (hrest : scriptLinesFrom ((text.foldl Scanner.advance scanner).advance '\n') rest =
      (line, lines)) :
    scriptLinesFrom scanner (text ++ '\n' :: rest) =
      if (text.foldl Scanner.advance scanner).escaped then
        (⟨text ++ '\n' :: line.text, scanner.quote.isSome⟩, lines)
      else (⟨text, scanner.quote.isSome⟩, line :: lines) := by
  induction text generalizing scanner with
  | nil =>
      rw [List.foldl_nil] at hrest ⊢
      rw [List.nil_append, scriptLinesFrom_cons, hrest]
      cases hescaped : scanner.escaped <;> simp [Scanner.endsLine, hescaped]
  | cons c text ih =>
      obtain ⟨hc, htext⟩ := List.ne_and_not_mem_of_not_mem_cons htext
      have hends : ¬ scanner.endsLine c = true := by simp [Scanner.endsLine, hc.symm]
      rw [List.foldl_cons] at hrest ⊢
      rw [List.cons_append, scriptLinesFrom_cons, ih htext hrest]
      dsimp only
      rw [if_neg hends]
      split <;> rfl

theorem toList_dedent (script : String) :
    (dedent script).toList =
      ['\n'].intercalate (outdentLines (scriptLines script.toList)) := by
  rw [dedent]
  split
  next => exact String.toList_ofList
  next hnewline =>
      have hmem : '\n' ∉ script.toList := by simpa using hnewline
      simp [scriptLines, scriptLinesFrom_of_newline_not_mem hmem, outdentLines]

/-! ## Indentation -/

/-- A line of code that indentation is taken off. -/
def ScriptLine.Moves (line : ScriptLine) : Prop :=
  line.quoted = false ∧ isBlank line.text = false

theorem indentation_cons (c : Char) (rest : List Char) :
    indentation (c :: rest) = if c = ' ' then indentation rest + 1 else 0 := by
  by_cases hc : c = ' ' <;> simp [indentation, hc]

theorem spaces_append_drop {width : Nat} (h : width ≤ indentation text) :
    List.replicate width ' ' ++ text.drop width = text ∧
      indentation (text.drop width) + width = indentation text := by
  induction width generalizing text with
  | zero => exact ⟨rfl, rfl⟩
  | succ width ih =>
      cases text with
      | nil => simp [indentation] at h
      | cons c rest =>
          rw [indentation_cons] at h ⊢
          split at h
          next hc =>
              obtain ⟨htext, hindent⟩ := ih (Nat.le_of_succ_le_succ h)
              rw [if_pos hc, List.drop_succ_cons, ← hindent, hc]
              exact ⟨congrArg (' ' :: ·) htext, rfl⟩
          next => exact absurd h (Nat.not_succ_le_zero width)

theorem isValid_after_spaces (width : Nat) (rest : List Char) :
    (String.Pos.Raw.mk width).IsValid
      (String.ofList (List.replicate width ' ' ++ rest)) := by
  have hbytes : (String.ofList (List.replicate width ' ')).utf8ByteSize = width := by
    induction width with
    | zero => rfl
    | succ width ih =>
        rw [List.replicate_succ', String.ofList_append, String.utf8ByteSize_append, ih]
        rfl
  rw [String.Pos.Raw.isValid_iff_exists_append]
  exact ⟨_, _, String.ofList_append, String.Pos.Raw.ext hbytes.symm⟩

section
variable {lines : List ScriptLine}

def indentations (lines : List ScriptLine) : List Nat :=
  (lines.filter fun line => !line.quoted && !isBlank line.text).map fun line =>
    indentation line.text

theorem commonIndentation_eq : commonIndentation lines = (indentations lines).min?.getD 0 := rfl

theorem indentations_cons (line : ScriptLine) (lines : List ScriptLine) :
    indentations (line :: lines) =
      if !line.quoted && !isBlank line.text then indentation line.text :: indentations lines
      else indentations lines := by
  rw [indentations, List.filter_cons]
  split <;> rfl

theorem mem_indentations_iff {width : Nat} :
    width ∈ indentations lines ↔
      ∃ line ∈ lines, line.Moves ∧ indentation line.text = width := by
  simp [indentations, ScriptLine.Moves, and_assoc]

theorem commonIndentation_le {width : Nat} (h : width ∈ indentations lines) :
    commonIndentation lines ≤ width := by
  rw [commonIndentation_eq]
  cases hleast : (indentations lines).min? with
  | none => exact Nat.zero_le width
  | some least => exact (List.min?_eq_some_iff.1 hleast).2 width h

theorem commonIndentation_mem (h : indentations lines ≠ []) :
    commonIndentation lines ∈ indentations lines := by
  rw [commonIndentation_eq]
  cases hleast : (indentations lines).min? with
  | none => exact absurd (List.min?_eq_none_iff.1 hleast) h
  | some least => exact List.min?_mem hleast

end

/-- What is left of a line: a quoted line stays, a blank one becomes empty, and any other loses
`width` spaces. -/
inductive Outdented (width : Nat) (line : ScriptLine) (shown : List Char) : Prop
  | quoted (hquoted : line.quoted = true) (hshown : shown = line.text)
  | blank (hquoted : line.quoted = false) (hblank : isBlank line.text = true)
      (hshown : shown = [])
  | moved (hmoves : line.Moves) (htext : List.replicate width ' ' ++ shown = line.text)
      (hvalid : (String.Pos.Raw.mk width).IsValid (String.ofList line.text))

theorem outdented_outdent {width : Nat} {line : ScriptLine}
    (hwidth : line.Moves → width ≤ indentation line.text) :
    Outdented width line (line.outdent width) := by
  rw [ScriptLine.outdent]
  split
  next hquoted => exact .quoted hquoted rfl
  next hquoted =>
      rw [Bool.not_eq_true] at hquoted
      split
      next hblank => exact .blank hquoted hblank rfl
      next hblank =>
          have hmoves : line.Moves := ⟨hquoted, by simpa using hblank⟩
          have htext := (spaces_append_drop (hwidth hmoves)).1
          refine .moved hmoves htext ?_
          have hvalid := isValid_after_spaces width (line.text.drop width)
          rwa [htext] at hvalid

def visible (text : List Char) : List Char := text.filter fun c => !isWhiteSpace c

theorem visible_append (front back : List Char) :
    visible (front ++ back) = visible front ++ visible back :=
  List.filter_append ..

theorem visible_eq_nil_iff : visible text = [] ↔ isBlank text = true := by
  simp [visible, isBlank, List.filter_eq_nil_iff]

theorem visible_replicate_space (width : Nat) : visible (List.replicate width ' ') = [] := by
  rw [visible_eq_nil_iff, isBlank, List.all_replicate]
  cases width <;> rfl

theorem visible_intercalate (lines : List (List Char)) :
    visible (['\n'].intercalate lines) = lines.flatMap visible := by
  induction lines with
  | nil => rfl
  | cons line lines ih =>
      cases lines with
      | nil => simp
      | cons next lines =>
          rw [List.intercalate_cons_cons, visible_append, visible_append, ih]
          simp [visible, show isWhiteSpace '\n' = true by decide]

theorem Outdented.visible_eq {width : Nat} {line : ScriptLine} {shown : List Char}
    (h : Outdented width line shown) : visible shown = visible line.text := by
  cases h with
  | quoted _ hshown => rw [hshown]
  | blank _ hblank hshown => rw [hshown, visible_eq_nil_iff.2 hblank, visible, List.filter_nil]
  | moved _ htext _ => rw [← htext, visible_append, visible_replicate_space, List.nil_append]

theorem flatMap_visible_outdent {width : Nat} {lines : List ScriptLine}
    (hwidth : ∀ line ∈ lines, line.Moves → width ≤ indentation line.text) :
    (lines.map (ScriptLine.outdent width)).flatMap visible =
      (lines.map ScriptLine.text).flatMap visible := by
  induction lines with
  | nil => rfl
  | cons line lines ih =>
      obtain ⟨hline, hlines⟩ := List.forall_mem_cons.1 hwidth
      rw [List.map_cons, List.map_cons, List.flatMap_cons, List.flatMap_cons, ih hlines,
        (outdented_outdent hline).visible_eq]

/-! ## Whole scripts -/

theorem exists_scriptLines (script : List Char) :
    ∃ first rest, scriptLines script = first :: rest ∧ first.quoted = false ∧
      ['\n'].intercalate ((first :: rest).map ScriptLine.text) = script := by
  rcases hlines : scriptLinesFrom .start script with ⟨first, rest⟩
  have hquoted := quoted_scriptLinesFrom .start script
  rw [hlines] at hquoted
  exact ⟨first, rest, by rw [scriptLines, hlines], hquoted, intercalate_scriptLinesFrom hlines⟩

variable {first : ScriptLine} {rest : List ScriptLine}

theorem commonIndentation_le_of_moves :
    ∀ line ∈ rest, line.Moves → commonIndentation rest ≤ indentation line.text :=
  fun line hline hmoves =>
    commonIndentation_le (mem_indentations_iff.2 ⟨line, hline, hmoves, rfl⟩)

theorem exists_moves_iff :
    (∃ line ∈ rest, line.Moves) ↔
      ∃ line ∈ rest, line.Moves ∧
        indentation (line.outdent (commonIndentation rest)) = 0 := by
  constructor
  · rintro ⟨line, hline, hmoves⟩
    have hne : indentations rest ≠ [] :=
      List.ne_nil_of_mem (mem_indentations_iff.2 ⟨line, hline, hmoves, rfl⟩)
    obtain ⟨least, hleast, hmoves, hwidth⟩ := mem_indentations_iff.1 (commonIndentation_mem hne)
    have hdrop := (spaces_append_drop (Nat.le_of_eq hwidth.symm)).2
    refine ⟨least, hleast, hmoves, ?_⟩
    rw [ScriptLine.outdent, hmoves.1, hmoves.2, if_neg Bool.false_ne_true,
      if_neg Bool.false_ne_true]
    omega
  · rintro ⟨line, hline, hmoves, -⟩
    exact ⟨line, hline, hmoves⟩

theorem outdentLines_cons :
    outdentLines (first :: rest) =
      let body := rest.map (ScriptLine.outdent (commonIndentation rest))
      if isBlank first.text && !rest.isEmpty then body else first.text :: body := by
  rw [outdentLines, List.isEmpty_map]

theorem visible_outdentLines :
    (outdentLines (first :: rest)).flatMap visible =
      ((first :: rest).map ScriptLine.text).flatMap visible := by
  rw [outdentLines_cons, List.map_cons, List.flatMap_cons]
  dsimp only
  split
  next hblank =>
      rw [flatMap_visible_outdent commonIndentation_le_of_moves,
        visible_eq_nil_iff.2 (Bool.and_eq_true_iff.1 hblank).1, List.nil_append]
  next => rw [List.flatMap_cons, flatMap_visible_outdent commonIndentation_le_of_moves]

theorem visible_dedent (script : String) :
    visible (dedent script).toList = visible script.toList := by
  obtain ⟨first, rest, hlines, -, htext⟩ := exists_scriptLines script.toList
  rw [toList_dedent, hlines, visible_intercalate, visible_outdentLines, ← visible_intercalate,
    htext]

theorem blank_dedent_iff (script : String) : Blank (dedent script) ↔ Blank script := by
  rw [← isBlank_iff, ← isBlank_iff, ActionsWorkflow.isBlank, ActionsWorkflow.isBlank,
    ← visible_eq_nil_iff, ← visible_eq_nil_iff, visible_dedent]

/-- A script loses nothing but indentation. -/
theorem dedent_loses_only_indentation (script : String) :
    ∃ first rest width shown,
      scriptLines script.toList = first :: rest ∧ first.quoted = false ∧
      ['\n'].intercalate ((first :: rest).map ScriptLine.text) = script.toList ∧
      (dedent script).toList =
        ['\n'].intercalate (if isBlank first.text && !rest.isEmpty then rest.map shown
          else first.text :: rest.map shown) ∧
      List.Forall₂ (Outdented width) rest (rest.map shown) ∧
      ((∃ line ∈ rest, line.Moves) ↔
        ∃ line ∈ rest, line.Moves ∧ indentation (shown line) = 0) ∧
      visible (dedent script).toList = visible script.toList ∧
      ∀ path, check path (Step.run script).action = .ok () ↔ ¬ Blank script := by
  obtain ⟨first, rest, hlines, hquoted, htext⟩ := exists_scriptLines script.toList
  refine ⟨first, rest, commonIndentation rest, ScriptLine.outdent (commonIndentation rest),
    hlines, hquoted, htext, ?_, ?_, exists_moves_iff, visible_dedent script, fun path => ?_⟩
  · rw [toList_dedent, hlines, outdentLines_cons]
  · rw [List.forall₂_map_right_iff, List.forall₂_same]
    exact fun line hline => outdented_outdent (commonIndentation_le_of_moves line hline)
  · rw [← blank_dedent_iff]
    exact checkNotBlank_eq_ok_iff

end ActionsWorkflow.Text
