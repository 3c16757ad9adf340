import ActionsWorkflow.Proofs.Text.Script

/-!
# Scripts read again

What is taken off a script is white space at the start of a line, and there the scanner
passes white space without a change.  A script without its indentation is therefore read
line by line as before, and as the line with the fewest spaces has none left, nothing is
taken off a second time.  The exception is a blank first line, which is gone.
-/

namespace ActionsWorkflow.Text

variable {scanner : Scanner} {text : List Char}

namespace Scanner

/-- No character of the text ends the line. -/
def Passes (scanner : Scanner) : List Char → Prop
  | [] => True
  | c :: rest => scanner.endsLine c = false ∧ (scanner.advance c).Passes rest

theorem passes_append {front back : List Char} :
    scanner.Passes (front ++ back) ↔
      scanner.Passes front ∧ (front.foldl advance scanner).Passes back := by
  induction front generalizing scanner with
  | nil => simp [Passes]
  | cons c front ih => simp [Passes, ih, and_assoc]

theorem foldl_advance_of_isBlank (hescaped : scanner.escaped = false)
    (h : isBlank text = true) : text.foldl advance scanner = scanner := by
  induction text with
  | nil => rfl
  | cons c rest ih =>
      rw [isBlank, List.all_cons, Bool.and_eq_true] at h
      rw [List.foldl_cons, advance_of_isWhiteSpace hescaped h.1, ih h.2]

theorem newline_not_mem_of_isBlank (hescaped : scanner.escaped = false)
    (h : isBlank text = true) (hpasses : scanner.Passes text) : '\n' ∉ text := by
  induction text with
  | nil => exact List.not_mem_nil
  | cons c rest ih =>
      rw [isBlank, List.all_cons, Bool.and_eq_true] at h
      obtain ⟨hends, hrest⟩ := hpasses
      rw [advance_of_isWhiteSpace hescaped h.1] at hrest
      have hc : '\n' ≠ c := by
        rintro rfl
        simp [endsLine, hescaped] at hends
      exact List.not_mem_cons_of_ne_of_not_mem hc (ih h.2 hrest)

end Scanner

/-! ## Lines as the scanner reads them -/

/-- The scanner is in the line `first` and reads the lines `rest` after it. -/
inductive Scanned : Scanner → ScriptLine → List ScriptLine → Prop
  | last {scanner : Scanner} {text : List Char} (htext : scanner.Passes text) :
      Scanned scanner ⟨text, scanner.quote.isSome⟩ []
  | cons {scanner : Scanner} {text : List Char} {next : ScriptLine} {rest : List ScriptLine}
      (htext : scanner.Passes text)
      (hend : (text.foldl Scanner.advance scanner).escaped = false)
      (hrest : Scanned (text.foldl Scanner.advance scanner) next rest) :
      Scanned scanner ⟨text, scanner.quote.isSome⟩ (next :: rest)

theorem scanned_scriptLinesFrom {first : ScriptLine} {rest : List ScriptLine}
    (h : scriptLinesFrom scanner text = (first, rest)) : Scanned scanner first rest := by
  induction text generalizing scanner first rest with
  | nil =>
      cases h
      exact .last trivial
  | cons c text ih =>
      rcases hnext : scriptLinesFrom (scanner.advance c) text with ⟨next, after⟩
      have hscanned := ih hnext
      rw [scriptLinesFrom_cons, hnext] at h
      dsimp only at h
      split at h
      next hends =>
          cases h
          simp only [Scanner.endsLine, Bool.and_eq_true, decide_eq_true_eq,
            Bool.not_eq_true'] at hends
          obtain ⟨rfl, hescaped⟩ := hends
          rw [Scanner.advance_newline hescaped] at hscanned
          exact .cons trivial hescaped hscanned
      next hends =>
          cases h
          rw [Bool.not_eq_true] at hends
          cases hscanned with
          | last htext => exact .last ⟨hends, htext⟩
          | cons htext hend hrest => exact .cons ⟨hends, htext⟩ hend hrest

theorem scriptLinesFrom_append_of_passes (htext : scanner.Passes text) (rest : List Char) :
    scriptLinesFrom scanner (text ++ rest) =
      let (line, lines) := scriptLinesFrom (text.foldl Scanner.advance scanner) rest
      (⟨text ++ line.text, scanner.quote.isSome⟩, lines) := by
  induction text generalizing scanner with
  | nil =>
      have hquoted := quoted_scriptLinesFrom scanner rest
      dsimp only [List.foldl_nil, List.nil_append]
      rw [← hquoted]
  | cons c text ih =>
      obtain ⟨hends, htext⟩ := htext
      rw [List.cons_append, scriptLinesFrom_cons, ih htext, hends]
      rfl

theorem scriptLinesFrom_newline (hescaped : scanner.escaped = false) (rest : List Char) :
    scriptLinesFrom scanner ('\n' :: rest) =
      let (line, lines) := scriptLinesFrom scanner rest
      (⟨[], scanner.quote.isSome⟩, line :: lines) := by
  rw [scriptLinesFrom_cons, Scanner.advance_newline hescaped]
  simp [Scanner.endsLine, hescaped]

/-- Lines that are put together again are read as the same lines. -/
theorem Scanned.scriptLinesFrom_intercalate {first : ScriptLine} {rest : List ScriptLine}
    (h : Scanned scanner first rest) :
    scriptLinesFrom scanner (['\n'].intercalate ((first :: rest).map ScriptLine.text)) =
      (first, rest) := by
  induction h with
  | last htext =>
      have hlines := scriptLinesFrom_append_of_passes htext []
      simpa [scriptLinesFrom] using hlines
  | cons htext hend hrest ih =>
      rw [List.map_cons] at ih
      rw [List.map_cons, List.map_cons, List.intercalate_cons_cons, List.append_assoc,
        List.singleton_append, scriptLinesFrom_append_of_passes htext,
        scriptLinesFrom_newline hend, ih]
      simp

def ScriptLine.outdented (width : Nat) (line : ScriptLine) : ScriptLine :=
  ⟨line.outdent width, line.quoted⟩

theorem isBlank_replicate_space (width : Nat) : isBlank (List.replicate width ' ') = true := by
  rw [← visible_eq_nil_iff, visible_replicate_space]

theorem Outdented.read_eq {width : Nat} {line : ScriptLine} {shown : List Char}
    (h : Outdented width line shown) (hescaped : scanner.escaped = false)
    (hpasses : scanner.Passes line.text) :
    scanner.Passes shown ∧
      shown.foldl Scanner.advance scanner = line.text.foldl Scanner.advance scanner := by
  cases h with
  | quoted _ hshown =>
      rw [hshown]
      exact ⟨hpasses, rfl⟩
  | blank _ hblank hshown =>
      rw [hshown, Scanner.foldl_advance_of_isBlank hescaped hblank]
      exact ⟨trivial, rfl⟩
  | moved _ htext _ =>
      have hspaces := Scanner.foldl_advance_of_isBlank hescaped (isBlank_replicate_space width)
      rw [← htext, Scanner.passes_append, hspaces] at hpasses
      rw [← htext, List.foldl_append, hspaces]
      exact ⟨hpasses.2, rfl⟩

section
variable {first : ScriptLine} {rest : List ScriptLine} {width : Nat}

theorem Scanned.outdented (h : Scanned scanner first rest) (hescaped : scanner.escaped = false)
    (hfirst : first.Moves → width ≤ indentation first.text)
    (hrest : ∀ line ∈ rest, line.Moves → width ≤ indentation line.text) :
    Scanned scanner (first.outdented width) (rest.map (ScriptLine.outdented width)) := by
  induction h with
  | last htext => exact .last ((outdented_outdent hfirst).read_eq hescaped htext).1
  | cons htext hend _ ih =>
      obtain ⟨hnext, hlater⟩ := List.forall_mem_cons.1 hrest
      obtain ⟨hpasses, hsame⟩ := (outdented_outdent hfirst).read_eq hescaped htext
      -- both forms of the line end in one state, so the lines after it are read from there
      dsimp only at hsame
      rw [← hsame] at hend ih
      exact .cons hpasses hend (ih hend hnext hlater)

theorem Scanned.outdented_rest (h : Scanned scanner first rest)
    (hrest : ∀ line ∈ rest, line.Moves → width ≤ indentation line.text) :
    Scanned scanner first (rest.map (ScriptLine.outdented width)) := by
  cases h with
  | last htext => exact .last htext
  | cons htext hend hnext =>
      obtain ⟨hline, hlater⟩ := List.forall_mem_cons.1 hrest
      exact .cons htext hend (hnext.outdented hend hline hlater)

theorem map_text_outdented (lines : List ScriptLine) (width : Nat) :
    (lines.map (ScriptLine.outdented width)).map ScriptLine.text =
      lines.map (ScriptLine.outdent width) := by
  simp [Function.comp_def, ScriptLine.outdented]

/-! ## No indentation is left -/

theorem isBlank_outdent {line : ScriptLine}
    (hwidth : line.Moves → width ≤ indentation line.text) :
    isBlank (line.outdent width) = isBlank line.text := by
  rw [Bool.eq_iff_iff, ← visible_eq_nil_iff, ← visible_eq_nil_iff,
    (outdented_outdent hwidth).visible_eq]

theorem outdent_zero_outdented {line : ScriptLine}
    (hwidth : line.Moves → width ≤ indentation line.text) :
    (line.outdented width).outdent 0 = line.outdent width := by
  change (if line.quoted then line.outdent width
    else if isBlank (line.outdent width) then [] else (line.outdent width).drop 0) = _
  split
  next => rfl
  next hquoted =>
      split
      next hblank =>
          rw [isBlank_outdent hwidth] at hblank
          rw [ScriptLine.outdent, if_neg hquoted, if_pos hblank]
      next => rfl

theorem moves_outdented_iff {line : ScriptLine}
    (hwidth : line.Moves → width ≤ indentation line.text) :
    (line.outdented width).Moves ↔ line.Moves := by
  rw [ScriptLine.Moves, ScriptLine.Moves, ScriptLine.outdented, isBlank_outdent hwidth]

theorem commonIndentation_outdented :
    commonIndentation (rest.map (ScriptLine.outdented (commonIndentation rest))) = 0 := by
  have hsame (line : ScriptLine) (hline : line ∈ rest) :=
    moves_outdented_iff (commonIndentation_le_of_moves line hline)
  by_cases hmoves : ∃ line ∈ rest, line.Moves
  · obtain ⟨line, hline, hmoves, hzero⟩ := exists_moves_iff.1 hmoves
    have hmem : 0 ∈ indentations (rest.map (ScriptLine.outdented (commonIndentation rest))) :=
      mem_indentations_iff.2
        ⟨_, List.mem_map_of_mem hline, (hsame line hline).2 hmoves, hzero⟩
    exact Nat.le_zero.1 (commonIndentation_le hmem)
  · have hnone : indentations (rest.map (ScriptLine.outdented (commonIndentation rest))) = [] := by
      refine List.eq_nil_iff_forall_not_mem.2 fun width hmem => hmoves ?_
      obtain ⟨_, hshown, hshownMoves, -⟩ := mem_indentations_iff.1 hmem
      obtain ⟨line, hline, rfl⟩ := List.mem_map.1 hshown
      exact ⟨line, hline, (hsame line hline).1 hshownMoves⟩
    rw [commonIndentation_eq, hnone]
    rfl

theorem outdentLines_outdented :
    outdentLines (first :: rest.map (ScriptLine.outdented (commonIndentation rest))) =
      outdentLines (first :: rest) := by
  have hbody : rest.map (ScriptLine.outdent 0 ∘ ScriptLine.outdented (commonIndentation rest)) =
      rest.map (ScriptLine.outdent (commonIndentation rest)) :=
    List.map_congr_left fun line hline =>
      outdent_zero_outdented (commonIndentation_le_of_moves line hline)
  rw [outdentLines_cons, outdentLines_cons, commonIndentation_outdented, List.isEmpty_map,
    List.map_map, hbody]

end

/-- The first line is not blank, or there is no newline behind it. -/
def KeepsFirstLine (script : String) : Prop :=
  (∃ first rest, scriptLines script.toList = first :: rest ∧ isBlank first.text = false) ∨
    '\n' ∉ script.toList

section
variable {script : String} {first : ScriptLine} {rest : List ScriptLine}

theorem scriptLinesFrom_start_eq (hlines : scriptLines script.toList = first :: rest) :
    scriptLinesFrom .start script.toList = (first, rest) := by
  rcases hfrom : scriptLinesFrom .start script.toList with ⟨line, lines⟩
  rw [scriptLines, hfrom] at hlines
  cases hlines
  rfl

theorem keepsFirstLine_iff (hlines : scriptLines script.toList = first :: rest) :
    KeepsFirstLine script ↔ ¬ (isBlank first.text && !rest.isEmpty) = true := by
  have hfrom := scriptLinesFrom_start_eq hlines
  constructor
  · rintro (⟨line, lines, hsame, hblank⟩ | hnewline) hgone
    · rw [hlines] at hsame
      cases hsame
      simp [hblank] at hgone
    · rw [scriptLinesFrom_of_newline_not_mem hnewline] at hfrom
      cases hfrom
      simp at hgone
  · intro hkept
    cases hblank : isBlank first.text with
    | false => exact .inl ⟨first, rest, hlines, hblank⟩
    | true =>
        have hrest : rest = [] := by simpa [hblank] using hkept
        subst hrest
        have htext := intercalate_scriptLinesFrom hfrom
        rw [List.map_singleton, List.intercalate_singleton] at htext
        cases scanned_scriptLinesFrom hfrom with
        | last hpasses =>
            exact .inr (htext ▸ Scanner.newline_not_mem_of_isBlank rfl hblank hpasses)

theorem scriptLines_dedent (hlines : scriptLines script.toList = first :: rest) :
    scriptLines (dedent script).toList =
      let body := rest.map (ScriptLine.outdented (commonIndentation rest))
      if isBlank first.text && !rest.isEmpty then body else first :: body := by
  have hscanned := scanned_scriptLinesFrom (scriptLinesFrom_start_eq hlines)
  rw [toList_dedent, hlines, outdentLines_cons, ← map_text_outdented]
  dsimp only
  split
  next hgone =>
      cases hscanned with
      | last => simp at hgone
      | cons _ _ hnext =>
          have hblank := (Bool.and_eq_true_iff.1 hgone).1
          rw [Scanner.foldl_advance_of_isBlank rfl hblank] at hnext
          obtain ⟨hline, hlater⟩ := List.forall_mem_cons.1 (commonIndentation_le_of_moves)
          have hbody := hnext.outdented rfl hline hlater
          rw [scriptLines, List.map_cons, hbody.scriptLinesFrom_intercalate]
  next =>
      have hbody := hscanned.outdented_rest commonIndentation_le_of_moves
      rw [scriptLines, ← List.map_cons, hbody.scriptLinesFrom_intercalate]

end

/-- If the first line of a script is kept, taking off the indentation again changes nothing,
and the lines are read as before.  A blank first line before others is gone. -/
theorem dedent_rescanned (script : String) :
    (KeepsFirstLine script → dedent (dedent script) = dedent script) ∧
    (KeepsFirstLine script ↔
      (scriptLines (dedent script).toList).map ScriptLine.quoted =
        (scriptLines script.toList).map ScriptLine.quoted) := by
  obtain ⟨first, rest, hlines, -, -⟩ := exists_scriptLines script.toList
  have hread := scriptLines_dedent hlines
  dsimp only at hread
  rw [keepsFirstLine_iff hlines, hlines]
  by_cases hgone : (isBlank first.text && !rest.isEmpty) = true
  · rw [if_pos hgone] at hread
    rw [hread]
    refine ⟨fun hkept => absurd hgone hkept, iff_of_false (not_not_intro hgone) fun hflags => ?_⟩
    have hlength := congrArg List.length hflags
    simp at hlength
  · rw [if_neg hgone] at hread
    rw [hread]
    refine ⟨fun _ => ?_, iff_of_true hgone ?_⟩
    · rw [← String.toList_inj, toList_dedent, hread, outdentLines_outdented, toList_dedent,
        hlines]
    · simp [Function.comp_def, ScriptLine.outdented]

def printfThenDone : String := "printf 'first\n  second'\n    done\n  "

theorem dedent_rescanned_printfThenDone :
    KeepsFirstLine printfThenDone ∧ dedent printfThenDone = "printf 'first\n  second'\ndone\n" ∧
    dedent (dedent printfThenDone) = dedent printfThenDone ∧
    (scriptLines (dedent printfThenDone).toList).map ScriptLine.quoted =
      [false, true, false, false] := by
  have hkept : KeepsFirstLine printfThenDone := .inl ⟨_, _, rfl, rfl⟩
  obtain ⟨htwice, hflags⟩ := dedent_rescanned printfThenDone
  exact ⟨hkept, by decide, htwice hkept, hflags.1 hkept⟩

example : dedent "\n\n  make" = "\nmake" ∧ dedent "\nmake" = "make" := by decide

end ActionsWorkflow.Text
