import ActionsWorkflow.Proofs.Text.Script

/-!
# Continued lines

A backslash before a newline continues the line behind it.  The scanner takes both lines for
one, so the second of them keeps its indentation, as a line that starts inside quotes does.
If no line is continued outside quotes, the lines of the scanner are what stands between the
newlines, and each of those that is not quoted loses its indentation.
-/

namespace ActionsWorkflow.Text

/-- What stands between two newlines. -/
structure PhysicalLine where
  text : List Char
  /-- The line starts inside an open quote. -/
  quoted : Bool
  /-- A backslash protects the newline before the line. -/
  continued : Bool
  deriving DecidableEq, Repr

def physicalLinesFrom (scanner : Scanner) (continued : Bool) :
    List (List Char) → List PhysicalLine
  | [] => []
  | text :: texts =>
      let after := text.foldl Scanner.advance scanner
      ⟨text, scanner.quote.isSome, continued⟩ ::
        physicalLinesFrom (after.advance '\n') after.escaped texts

def physicalLines (script : List Char) : List PhysicalLine :=
  physicalLinesFrom .start false (script.splitOn '\n')

/-- A fixed line stays, a blank one becomes empty, and any other loses `width` characters. -/
def PhysicalLine.outdent (fixed : PhysicalLine → Bool) (width : Nat) (line : PhysicalLine) :
    List Char :=
  if fixed line then line.text
  else if isBlank line.text then []
  else line.text.drop width

/-- Number of leading spaces of the lines that are neither fixed nor blank. -/
def PhysicalLine.indentations (fixed : PhysicalLine → Bool) (lines : List PhysicalLine) :
    List Nat :=
  (lines.filter fun line => !fixed line && !isBlank line.text).map fun line =>
    (line.text.takeWhile (· = ' ')).length

/-- The script in which the lines after the first, the fixed ones apart, stand as far to the
left as the one of them with the fewest spaces allows.  A blank first line goes. -/
def reindent (fixed : PhysicalLine → Bool) : List PhysicalLine → List Char
  | [] => []
  | first :: rest =>
      let width := ((PhysicalLine.indentations fixed rest).min?).getD 0
      let body := rest.map (PhysicalLine.outdent fixed width)
      ['\n'].intercalate
        (if isBlank first.text && !rest.isEmpty then body else first.text :: body)

theorem PhysicalLine.indentations_cons (fixed : PhysicalLine → Bool) (line : PhysicalLine)
    (lines : List PhysicalLine) :
    indentations fixed (line :: lines) =
      if !fixed line && !isBlank line.text then
        indentation line.text :: indentations fixed lines
      else indentations fixed lines := by
  rw [indentations, List.filter_cons]
  split <;> rfl

variable {scanner : Scanner} {text tail : List Char}

theorem backslash_mem_of_escaped (hstart : scanner.escaped = false)
    (h : (text.foldl Scanner.advance scanner).escaped = true) : '\\' ∈ text := by
  induction text generalizing scanner with
  | nil =>
      rw [List.foldl_nil, hstart] at h
      cases h
  | cons c text ih =>
      by_cases hc : c = '\\'
      · exact hc ▸ List.mem_cons_self
      · exact List.mem_cons_of_mem c (ih (escaped_advance_of_ne hc) h)

/-! ## Lines of the scanner from lines between newlines -/

/-- The lines of the scanner are `first` with `tail` behind it and then `lines`: a line goes
on with the next one if that is continued. -/
inductive Joined : List Char → List ScriptLine → PhysicalLine → List PhysicalLine → Prop
  | last (first : PhysicalLine) : Joined [] [] first []
  | ends (first : PhysicalLine) {next : PhysicalLine} {rest : List PhysicalLine}
      {tail : List Char} {lines : List ScriptLine} (hnext : next.continued = false)
      (hrest : Joined tail lines next rest) :
      Joined [] (⟨next.text ++ tail, next.quoted⟩ :: lines) first (next :: rest)
  | goesOn {first next : PhysicalLine} {rest : List PhysicalLine} {tail : List Char}
      {lines : List ScriptLine} (hbackslash : '\\' ∈ first.text)
      (hnext : next.continued = true) (hrest : Joined tail lines next rest) :
      Joined ('\n' :: (next.text ++ tail)) lines first (next :: rest)

theorem joined_physicalLinesFrom {texts : List (List Char)} (hne : texts ≠ [])
    (htexts : ∀ text ∈ texts, '\n' ∉ text) (hstart : scanner.escaped = false)
    (continued : Bool) :
    ∃ tail lines first rest,
      scriptLinesFrom scanner (['\n'].intercalate texts) =
        (⟨first.text ++ tail, first.quoted⟩, lines) ∧
      physicalLinesFrom scanner continued texts = first :: rest ∧
      first.continued = continued ∧ Joined tail lines first rest := by
  induction texts generalizing scanner continued with
  | nil => exact absurd rfl hne
  | cons text texts ih =>
      obtain ⟨htext, hrest⟩ := List.forall_mem_cons.1 htexts
      by_cases hnil : texts = []
      · subst hnil
        rw [List.intercalate_singleton, scriptLinesFrom_of_newline_not_mem htext]
        refine ⟨[], _, ⟨text, _, continued⟩, _, ?_, rfl, rfl, .last _⟩
        rw [List.append_nil]
      · have hafter : ((text.foldl Scanner.advance scanner).advance '\n').escaped = false :=
          escaped_advance_of_ne (by decide)
        obtain ⟨tail, lines, next, rest, hlines, hphysical, hnext, hjoined⟩ :=
          ih hnil hrest hafter (text.foldl Scanner.advance scanner).escaped
        rw [List.intercalate_cons_of_ne_nil hnil, List.append_assoc, List.singleton_append,
          scriptLinesFrom_append_newline htext hlines, physicalLinesFrom, hphysical]
        split
        next hescaped =>
            exact ⟨_, _, ⟨text, _, continued⟩, _, rfl, rfl, rfl,
              .goesOn (backslash_mem_of_escaped hstart hescaped) (hnext.trans hescaped) hjoined⟩
        next hescaped =>
            rw [Bool.not_eq_true] at hescaped
            refine ⟨[], _, ⟨text, _, continued⟩, _, ?_, rfl, rfl,
              .ends _ (hnext.trans hescaped) hjoined⟩
            rw [List.append_nil]

theorem newline_not_mem_of_mem_splitOn (script : List Char) :
    ∀ text ∈ script.splitOn '\n', '\n' ∉ text := by
  induction script with
  | nil => simp
  | cons c script ih =>
      rw [List.splitOn_cons_eq_if_modifyHead]
      split
      next => exact List.forall_mem_cons.2 ⟨List.not_mem_nil, ih⟩
      next hc =>
          obtain ⟨first, rest, hsplit⟩ :=
            List.exists_cons_of_ne_nil (List.splitOn_ne_nil '\n' script)
          rw [hsplit, List.forall_mem_cons] at ih
          rw [hsplit, List.modifyHead_cons, List.forall_mem_cons, List.mem_cons, not_or]
          exact ⟨⟨fun heq => hc (beq_iff_eq.2 heq.symm), ih.1⟩, ih.2⟩

theorem joined_physicalLines (script : List Char) :
    ∃ tail lines first rest,
      scriptLines script = ⟨first.text ++ tail, first.quoted⟩ :: lines ∧
      physicalLines script = first :: rest ∧ Joined tail lines first rest := by
  have hstart : Scanner.start.escaped = false := rfl
  obtain ⟨tail, lines, first, rest, hlines, hphysical, -, hjoined⟩ :=
    joined_physicalLinesFrom (List.splitOn_ne_nil '\n' script)
      (newline_not_mem_of_mem_splitOn script) hstart false
  rw [List.intercalate_splitOn] at hlines
  exact ⟨tail, lines, first, rest, by rw [scriptLines, hlines], hphysical, hjoined⟩

/-! ## Indentation of joined lines -/

theorem isBlank_append_tail (htail : tail = [] ∨ '\\' ∈ text) :
    isBlank (text ++ tail) = isBlank text := by
  rcases htail with rfl | hbackslash
  · rw [List.append_nil]
  · have hblank : isBlank text = false :=
      List.all_eq_false.2 ⟨'\\', hbackslash, by decide⟩
    rw [isBlank, List.all_append, ← isBlank, hblank, Bool.false_and]

theorem indentation_append_tail (htail : tail = [] ∨ '\\' ∈ text) :
    indentation (text ++ tail) = indentation text := by
  rcases htail with rfl | hbackslash
  · rw [List.append_nil]
  · induction text with
    | nil => cases hbackslash
    | cons c text ih =>
        rw [List.cons_append, indentation_cons, indentation_cons]
        split
        next hc =>
            have hrest : '\\' ∈ text := by simpa [hc] using hbackslash
            rw [ih hrest]
        next => rfl

theorem indentation_le_length (text : List Char) : indentation text ≤ text.length :=
  (List.takeWhile_sublist _).length_le

theorem intercalate_append_cons (front text : List Char) (texts : List (List Char)) :
    front ++ ['\n'].intercalate (text :: texts) =
      ['\n'].intercalate ((front ++ text) :: texts) := by
  cases texts <;> simp

/-- A line keeps its indentation if it starts inside quotes or continues another. -/
def PhysicalLine.isHeld (line : PhysicalLine) : Bool := line.quoted || line.continued

namespace Joined

variable {lines : List ScriptLine} {first : PhysicalLine} {rest : List PhysicalLine}

theorem tail_eq_nil_or (h : Joined tail lines first rest) :
    tail = [] ∨ '\\' ∈ first.text := by
  cases h with
  | last => exact .inl rfl
  | ends => exact .inl rfl
  | goesOn hbackslash => exact .inr hbackslash

theorem indentations_eq (h : Joined tail lines first rest) :
    indentations lines = PhysicalLine.indentations PhysicalLine.isHeld rest := by
  induction h with
  | last => rfl
  | ends first hnext hrest ih =>
      rw [indentations_cons, PhysicalLine.indentations_cons, PhysicalLine.isHeld, hnext,
        Bool.or_false, ih, isBlank_append_tail hrest.tail_eq_nil_or,
        indentation_append_tail hrest.tail_eq_nil_or]
  | @goesOn first next rest tail lines hbackslash hnext hrest ih =>
      have hheld : next.isHeld = true := by rw [PhysicalLine.isHeld, hnext, Bool.or_true]
      rw [PhysicalLine.indentations_cons, hheld, Bool.not_true, Bool.false_and,
        if_neg Bool.false_ne_true, ih]

theorem tail_eq_nil_of_blank (h : Joined tail lines first rest)
    (hblank : isBlank first.text = true) : tail = [] := by
  refine h.tail_eq_nil_or.resolve_right fun hbackslash => ?_
  have hspace : isWhiteSpace '\\' = true := List.all_eq_true.1 hblank '\\' hbackslash
  revert hspace
  decide

theorem outdent_append_tail (h : Joined tail lines first rest)
    (hfirst : first.continued = false) {width : Nat}
    (hwidth : ScriptLine.Moves ⟨first.text ++ tail, first.quoted⟩ →
      width ≤ indentation first.text) :
    ScriptLine.outdent width ⟨first.text ++ tail, first.quoted⟩ =
      PhysicalLine.outdent PhysicalLine.isHeld width first ++ tail := by
  have hsame := isBlank_append_tail h.tail_eq_nil_or
  simp only [ScriptLine.outdent, PhysicalLine.outdent, PhysicalLine.isHeld, hfirst,
    Bool.or_false, hsame]
  split
  next => rfl
  next hquoted =>
      split
      next hblank => rw [h.tail_eq_nil_of_blank hblank, List.append_nil]
      next hblank =>
          rw [Bool.not_eq_true] at hquoted hblank
          have hle : width ≤ indentation first.text := hwidth ⟨hquoted, hsame.trans hblank⟩
          exact List.drop_append_of_le_length (Nat.le_trans hle (indentation_le_length _))

theorem intercalate_eq (h : Joined tail lines first rest) {width : Nat}
    (hwidth : ∀ line ∈ lines, line.Moves → width ≤ indentation line.text)
    (shown : List Char) :
    ['\n'].intercalate ((shown ++ tail) :: lines.map (ScriptLine.outdent width)) =
      ['\n'].intercalate
        (shown :: rest.map (PhysicalLine.outdent PhysicalLine.isHeld width)) := by
  induction h generalizing shown with
  | last => simp
  | ends first hnext hrest ih =>
      obtain ⟨hline, hlines⟩ := List.forall_mem_cons.1 hwidth
      rw [indentation_append_tail hrest.tail_eq_nil_or] at hline
      rw [List.map_cons, List.map_cons, List.intercalate_cons_cons, List.intercalate_cons_cons,
        hrest.outdent_append_tail hnext hline, ih hlines, List.append_nil]
  | @goesOn first next rest tail lines hbackslash hnext hrest ih =>
      have hheld : next.isHeld = true := by rw [PhysicalLine.isHeld, hnext, Bool.or_true]
      rw [List.map_cons, List.intercalate_cons_cons, PhysicalLine.outdent, if_pos hheld,
        ← ih hwidth, intercalate_append_cons, List.append_assoc, List.singleton_append]

theorem intercalate_rest_eq (h : Joined tail lines first rest)
    (hblank : isBlank first.text = true) {width : Nat}
    (hwidth : ∀ line ∈ lines, line.Moves → width ≤ indentation line.text) :
    lines.isEmpty = rest.isEmpty ∧
      ['\n'].intercalate (lines.map (ScriptLine.outdent width)) =
        ['\n'].intercalate (rest.map (PhysicalLine.outdent PhysicalLine.isHeld width)) := by
  have hlines := h.intercalate_eq hwidth []
  have htail := h.tail_eq_nil_of_blank hblank
  cases h with
  | last => exact ⟨rfl, rfl⟩
  | ends first hnext hrest =>
      rw [List.map_cons, List.map_cons, List.intercalate_cons_cons,
        List.intercalate_cons_cons] at hlines
      exact ⟨rfl, List.append_cancel_left hlines⟩
  | goesOn => cases htail

theorem intercalate_outdentLines_eq (h : Joined tail lines first rest) :
    ['\n'].intercalate (outdentLines (⟨first.text ++ tail, first.quoted⟩ :: lines)) =
      reindent PhysicalLine.isHeld (first :: rest) := by
  rw [outdentLines_cons, reindent, ← h.indentations_eq, ← commonIndentation_eq,
    isBlank_append_tail h.tail_eq_nil_or]
  dsimp only
  have hkept := h.intercalate_eq commonIndentation_le_of_moves first.text
  cases hblank : isBlank first.text with
  | false => exact hkept
  | true =>
      obtain ⟨hempty, hrest⟩ := h.intercalate_rest_eq hblank commonIndentation_le_of_moves
      rw [hempty]
      split
      next => exact hrest
      next => exact hkept

end Joined

theorem toList_dedent_eq_reindent (script : String) :
    (dedent script).toList = reindent PhysicalLine.isHeld (physicalLines script.toList) := by
  obtain ⟨tail, lines, first, rest, hlines, hphysical, hjoined⟩ :=
    joined_physicalLines script.toList
  rw [toList_dedent, hlines, hphysical, hjoined.intercalate_outdentLines_eq]

theorem reindent_congr {fixed other : PhysicalLine → Bool} {lines : List PhysicalLine}
    (h : ∀ line ∈ lines, fixed line = other line) :
    reindent fixed lines = reindent other lines := by
  cases lines with
  | nil => rfl
  | cons first rest =>
      have hrest := (List.forall_mem_cons.1 h).2
      have hindent :
          PhysicalLine.indentations fixed rest = PhysicalLine.indentations other rest := by
        rw [PhysicalLine.indentations, PhysicalLine.indentations,
          List.filter_congr fun line hline => by rw [hrest line hline]]
      have hbody (width : Nat) : rest.map (PhysicalLine.outdent fixed width) =
          rest.map (PhysicalLine.outdent other width) :=
        List.map_congr_left fun line hline => by
          rw [PhysicalLine.outdent, PhysicalLine.outdent, hrest line hline]
      rw [reindent, reindent, hindent, hbody]

/-- Lines that start inside quotes and lines that are continued keep their indentation.  Where
newlines are protected only inside quotes, every line that starts outside them loses it. -/
theorem dedent_holds_continued_lines (script : String) :
    (dedent script).toList = reindent PhysicalLine.isHeld (physicalLines script.toList) ∧
    ((∀ line ∈ physicalLines script.toList, line.continued = true → line.quoted = true) →
      (dedent script).toList =
        reindent PhysicalLine.quoted (physicalLines script.toList)) := by
  refine ⟨toList_dedent_eq_reindent script, fun h => ?_⟩
  rw [toList_dedent_eq_reindent]
  refine reindent_congr fun line hline => ?_
  rw [PhysicalLine.isHeld, Bool.or_eq_left_iff_imp]
  exact h line hline

def echoThenMake : String := "echo \"a \\\n    b\"\n    make"

theorem dedent_holds_continued_lines_echoThenMake :
    (∀ line ∈ physicalLines echoThenMake.toList,
      line.continued = true → line.quoted = true) ∧
    (dedent echoThenMake).toList =
      reindent PhysicalLine.quoted (physicalLines echoThenMake.toList) ∧
    dedent echoThenMake = "echo \"a \\\n    b\"\nmake" := by
  have hquoted : ∀ line ∈ physicalLines echoThenMake.toList,
      line.continued = true → line.quoted = true := by decide
  exact ⟨hquoted, (dedent_holds_continued_lines echoThenMake).2 hquoted, by decide⟩

def makeThenInstall : String := "make \\\n    all\n    install"

theorem dedent_holds_line_continued_outside_quotes :
    dedent makeThenInstall = "make \\\n    all\ninstall" ∧
    reindent PhysicalLine.quoted (physicalLines makeThenInstall.toList) =
      "make \\\nall\ninstall".toList ∧
    (dedent makeThenInstall).toList ≠
      reindent PhysicalLine.quoted (physicalLines makeThenInstall.toList) := by
  decide

end ActionsWorkflow.Text
