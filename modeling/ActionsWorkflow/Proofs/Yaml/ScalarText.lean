import ActionsWorkflow.Proofs.Yaml.Numeral
import Mathlib.Data.List.Basic

/-!
# What the written form of a text tells

Every style writes one character after another, in a form that depends on the character and
on whether a line has just begun.  The output tells each time which character is next, so no
style writes two texts alike.  The first character of the output tells the style, and the
header of a block tells how the block ends.
-/

namespace ActionsWorkflow.Yaml

/-- Writes one character after another, and something at the end. -/
structure Writer (σ : Type) where
  code : σ → Char → List Char
  next : σ → Char → σ
  close : σ → List Char

namespace Writer

variable {σ : Type}

def write (writer : Writer σ) (state : σ) : List Char → List Char
  | [] => writer.close state
  | c :: rest => writer.code state c ++ writer.write (writer.next state c) rest

/-- In every state the output tells whether the text goes on, and with which character. -/
structure Readable (writer : Writer σ) : Prop where
  code_ne_close : ∀ state c rest, writer.code state c ++ rest ≠ writer.close state
  eq_of_code : ∀ state c d left right,
    writer.code state c ++ left = writer.code state d ++ right → c = d

theorem write_inj {writer : Writer σ} (hwriter : writer.Readable) {state : σ}
    {text other : List Char} (h : writer.write state text = writer.write state other) :
    text = other := by
  induction text generalizing state other with
  | nil =>
      cases other with
      | nil => rfl
      | cons d others => exact absurd h.symm (hwriter.code_ne_close state d _)
  | cons c rest ih =>
      cases other with
      | nil => exact absurd h (hwriter.code_ne_close state c _)
      | cons d others =>
          obtain rfl := hwriter.eq_of_code state c d _ _ h
          rw [ih (List.append_cancel_left h)]

end Writer

def lead (indent : Nat) (atLineStart : Bool) : List Char :=
  if atLineStart then spaces indent else []

/-- Lines `indent` columns in, with `echo c` after every `c`; the end is led in as a line
if `closes`. -/
def lineWriter (indent : Nat) (echo : Char → List Char) (closes : Bool) : Writer Bool where
  code atLineStart c := if isBreak c then [c] else lead indent atLineStart ++ c :: echo c
  next _ c := isBreak c
  close atLineStart := lead indent (closes && atLineStart)

def quoteEcho (c : Char) : List Char := if c = '\'' then ['\''] else []

theorem singleQuotedBody_eq_write (indent : Nat) (afterBreak : Bool) (text : List Char) :
    singleQuotedBody indent afterBreak text =
      (lineWriter indent quoteEcho true).write afterBreak text := by
  induction text generalizing afterBreak with
  | nil => rfl
  | cons c rest ih =>
      have hshown : (if c = '\'' then ['\'', '\''] else [c]) = c :: quoteEcho c := by
        unfold quoteEcho
        split
        next h => rw [h]
        next => rfl
      rw [singleQuotedBody, Writer.write, hshown, ih, ih]
      by_cases hbreak : isBreak c = true <;> simp [lineWriter, lead, hbreak]

theorem literalBody_eq_write (indent : Nat) (atLineStart : Bool) (text : List Char) :
    literalBody indent atLineStart text =
      (lineWriter indent (fun _ => []) false).write atLineStart text := by
  induction text generalizing atLineStart with
  | nil => rfl
  | cons c rest ih =>
      rw [literalBody, Writer.write, ih, ih]
      by_cases hbreak : isBreak c = true <;>
        cases atLineStart <;> simp [lineWriter, lead, hbreak]

theorem cons_eq_of_eq_lead_append {indent : Nat} {atLineStart : Bool} {c : Char}
    {left right : List Char} (hc : isBreak c = true)
    (h : c :: left = lead indent atLineStart ++ right) : c :: left = right := by
  cases hlead : lead indent atLineStart with
  | nil => rwa [hlead] at h
  | cons d others =>
      have hd : d = ' ' := by
        have hmem : d ∈ lead indent atLineStart := hlead ▸ List.mem_cons_self
        unfold lead at hmem
        split at hmem
        next => exact List.eq_of_mem_replicate hmem
        next => cases hmem
      rw [hlead, List.cons_append, List.cons.injEq, hd] at h
      rw [h.1] at hc
      cases hc

theorem lineWriter_readable (indent : Nat) (echo : Char → List Char) (closes : Bool) :
    (lineWriter indent echo closes).Readable where
  code_ne_close atLineStart c rest h := by
    dsimp only [lineWriter] at h
    split at h
    next hc => cases cons_eq_of_eq_lead_append hc (h.trans (List.append_nil _).symm)
    next =>
        have hlength := congrArg List.length h
        cases closes <;> cases atLineStart <;> simp [lead] at hlength
  eq_of_code atLineStart c d left right h := by
    dsimp only [lineWriter] at h
    split at h <;> split at h
    next => exact (List.cons.inj h).1
    next hc _ =>
        rw [List.append_assoc] at h
        exact (List.cons.inj (cons_eq_of_eq_lead_append hc h)).1
    next _ hd =>
        rw [List.append_assoc] at h
        exact (List.cons.inj (cons_eq_of_eq_lead_append hd h.symm)).1.symm
    next =>
        rw [List.append_assoc, List.append_assoc] at h
        exact (List.cons.inj (List.append_cancel_left h)).1

theorem singleQuotedBody_inj {indent : Nat} {afterBreak : Bool} {text other : List Char}
    (h : singleQuotedBody indent afterBreak text = singleQuotedBody indent afterBreak other) :
    text = other := by
  rw [singleQuotedBody_eq_write, singleQuotedBody_eq_write] at h
  exact Writer.write_inj (lineWriter_readable indent quoteEcho true) h

theorem literalBody_inj {indent : Nat} {atLineStart : Bool} {text other : List Char}
    (h : literalBody indent atLineStart text = literalBody indent atLineStart other) :
    text = other := by
  rw [literalBody_eq_write, literalBody_eq_write] at h
  exact Writer.write_inj (lineWriter_readable indent (fun _ => []) false) h

/-! ## Escapes -/

def escapeWriter : Writer Unit where
  code _ := escaped
  next _ _ := ()
  close _ := []

theorem flatMap_escaped_eq_write (text : List Char) :
    text.flatMap escaped = escapeWriter.write () text := by
  induction text with
  | nil => rfl
  | cons c rest ih => rw [List.flatMap_cons, ih]; rfl

def letterMeaning? (letter : Char) : Option Char :=
  match letter with
  | '0' => some '\x00'
  | 'a' => some '\x07'
  | 'b' => some '\x08'
  | 't' => some '\t'
  | 'n' => some '\n'
  | 'v' => some '\x0b'
  | 'f' => some '\x0c'
  | 'r' => some '\r'
  | 'e' => some '\x1b'
  | '"' => some '"'
  | '\\' => some '\\'
  | 'N' => some '\u0085'
  | 'L' => some '\u2028'
  | 'P' => some '\u2029'
  | _ => none

def firstEscaped? : List Char → Option Char
  | '\\' :: 'x' :: digits => (natural? 16 (digits.take 2)).map Char.ofNat
  | '\\' :: 'u' :: digits => (natural? 16 (digits.take 4)).map Char.ofNat
  | '\\' :: letter :: _ => letterMeaning? letter
  | c :: _ => some c
  | [] => none

theorem firstEscaped?_letter {c letter : Char} (h : escapeLetter? c = some letter)
    (rest : List Char) : firstEscaped? ('\\' :: letter :: rest) = some c := by
  unfold escapeLetter? at h
  split at h <;> cases h <;> rfl

theorem firstEscaped?_cons {c : Char} (h : c ≠ '\\') (rest : List Char) :
    firstEscaped? (c :: rest) = some c := by
  unfold firstEscaped?
  split
  next heq => exact absurd (List.cons.inj heq).1 h
  next heq => exact absurd (List.cons.inj heq).1 h
  next heq => exact absurd (List.cons.inj heq).1 h
  next heq => rw [(List.cons.inj heq).1]
  next heq => cases heq

theorem natural?_take_hexDigits {c : Char} {width : Nat} (h : c.toNat < Nat.pow 16 (width + 1))
    (rest : List Char) :
    (natural? 16 ((hexDigits c.toNat (width + 1) ++ rest).take (width + 1))).map Char.ofNat =
      some c := by
  rw [List.take_left' (length_hexDigits _ _), natural?_hexDigits, Nat.mod_eq_of_lt h,
    Option.map_some, Char.ofNat_toNat]

theorem toNat_lt_of_isSpecial {c : Char} (h : isSpecial c = true) : c.toNat < Nat.pow 16 4 := by
  simp only [isSpecial, Bool.not_eq_true', Bool.or_eq_false_iff, decide_eq_false_iff_not] at h
  exact Nat.not_le.1 h.2

theorem firstEscaped?_escaped (c : Char) (rest : List Char) :
    firstEscaped? (escaped c ++ rest) = some c := by
  unfold escaped
  split
  next letter hletter => exact firstEscaped?_letter hletter rest
  next hletter =>
      split
      next =>
          refine firstEscaped?_cons ?_ rest
          rintro rfl
          cases hletter
      next hspecial =>
          split
          next hsmall => exact natural?_take_hexDigits (Nat.lt_succ_of_le hsmall) rest
          next =>
              rw [Bool.not_eq_true', Bool.not_eq_false] at hspecial
              exact natural?_take_hexDigits (toNat_lt_of_isSpecial hspecial) rest

theorem escapeWriter_readable : escapeWriter.Readable where
  code_ne_close _ c rest h := by
    have hread := firstEscaped?_escaped c rest
    rw [show escaped c ++ rest = [] from h] at hread
    cases hread
  eq_of_code _ c d left right h := by
    have hread := congrArg firstEscaped? h
    dsimp only [escapeWriter] at hread
    rw [firstEscaped?_escaped, firstEscaped?_escaped] at hread
    exact Option.some.inj hread

theorem flatMap_escaped_inj {text other : List Char}
    (h : text.flatMap escaped = other.flatMap escaped) : text = other := by
  rw [flatMap_escaped_eq_write, flatMap_escaped_eq_write] at h
  exact Writer.write_inj escapeWriter_readable h

/-! ## Styles -/

def announcedStyle (written : List Char) : Style :=
  match written.head? with
  | some '\'' => .singleQuoted
  | some '"' => .doubleQuoted
  | some '|' => .literal
  | _ => .plain

theorem announcedStyle_append {written : List Char} (h : written ≠ []) (rest : List Char) :
    announcedStyle (written ++ rest) = announcedStyle written := by
  rw [announcedStyle, announcedStyle, List.head?_append_of_ne_nil _ h]

theorem announcedStyle_cons {c : Char} (h : c ≠ '\'' ∧ c ≠ '"' ∧ c ≠ '|')
    (rest : List Char) : announcedStyle (c :: rest) = .plain := by
  unfold announcedStyle
  split
  next heq => exact absurd (Option.some.inj heq) h.1
  next heq => exact absurd (Option.some.inj heq) h.2.1
  next heq => exact absurd (Option.some.inj heq) h.2.2
  next => rfl

theorem announcedStyle_of_plainAllowed {text : List Char} (h : plainAllowed text = true) :
    announcedStyle text = .plain := by
  cases text with
  | nil => rfl
  | cons c rest =>
      have hc : indicators.contains c = false := by
        simp only [plainAllowed, plainStart, Bool.and_eq_true, Bool.not_eq_true',
          and_assoc] at h
        exact h.1
      refine announcedStyle_cons ⟨?_, ?_, ?_⟩ rest
      all_goals rintro rfl; cases hc

theorem plain_of_style {text : List Char} (h : style text = .plain) :
    plainAllowed text = true ∧ readsAsText text = true := by
  unfold style at h
  split at h
  next => split at h <;> cases h
  next =>
      split at h
      next hplain => exact Bool.and_eq_true_iff.1 hplain
      next => split at h <;> cases h

theorem announcedStyle_writeText (indent : Nat) (text : List Char) :
    announcedStyle (writeText indent text) = style text := by
  rw [writeText]
  cases hstyle : style text with
  | plain => exact announcedStyle_of_plainAllowed (plain_of_style hstyle).1
  | singleQuoted => rfl
  | doubleQuoted => rfl
  | literal => rfl

theorem writeText_ne_nil (indent : Nat) (text : List Char) : writeText indent text ≠ [] := by
  rw [writeText]
  cases hstyle : style text with
  | plain =>
      rintro rfl
      exact Bool.false_ne_true (plain_of_style hstyle).1
  | singleQuoted => exact List.cons_ne_nil _ _
  | doubleQuoted => exact List.cons_ne_nil _ _
  | literal => exact List.cons_ne_nil _ _

theorem writeText_of_style_plain {text : List Char} (h : style text = .plain) (indent : Nat) :
    writeText indent text = text := by
  rw [writeText, h]

theorem readsAsText_iff {text : List Char} :
    readsAsText text = true ↔ resolve text = .text ∧ hasLeadingZero text = false := by
  rw [readsAsText, Bool.and_eq_true, decide_eq_true_iff, Bool.not_eq_true']

theorem terminator_of_style_ne_literal {text : List Char} (h : style text ≠ .literal) :
    terminator text = ['\n'] := by
  rw [terminator, decide_eq_false h]
  rfl

def literalHints (text : List Char) : List Char :=
  '|' :: ((if text.head?.any isSpaceOrBreak then ['2'] else []) ++ chompingHint text)

theorem break_not_mem_literalHints (text : List Char) : '\n' ∉ literalHints text := by
  have hchomping : '\n' ∉ chompingHint text := by
    fun_cases chompingHint text <;> simp
  unfold literalHints
  split <;> simpa using hchomping

theorem minus_mem_literalHints_iff (text : List Char) :
    '-' ∈ literalHints text ↔ text.getLast?.any isBreak = false := by
  have hchomping : '-' ∈ chompingHint text ↔ text.getLast?.any isBreak = false := by
    rw [List.getLast?_eq_head?_reverse]
    fun_cases chompingHint text <;> simp_all
  rw [← hchomping]
  unfold literalHints
  split <;> simp

theorem terminator_of_literal {text other : List Char} (htext : style text = .literal)
    (hother : style other = .literal) (h : literalHints text = literalHints other) :
    terminator text = terminator other := by
  have hends : text.getLast?.any isBreak = other.getLast?.any isBreak := by
    rw [Bool.eq_iff_iff, ← not_iff_not, Bool.not_eq_true, Bool.not_eq_true,
      ← minus_mem_literalHints_iff, ← minus_mem_literalHints_iff, h]
  rw [terminator, terminator, htext, hother, hends]

theorem append_break_inj {front back other others : List Char} (hfront : '\n' ∉ front)
    (hother : '\n' ∉ other) (h : front ++ '\n' :: back = other ++ '\n' :: others) :
    front = other ∧ back = others := by
  have hlength : front.length = other.length := by
    have hfind := congrArg (List.idxOf '\n') h
    rwa [List.idxOf_append_of_notMem hfront, List.idxOf_append_of_notMem hother,
      List.idxOf_cons_self, List.idxOf_cons_self] at hfind
  obtain ⟨rfl, hrest⟩ := List.append_inj h hlength
  exact ⟨rfl, (List.cons.inj hrest).2⟩

theorem literalHeader_append_inj {text other back others : List Char}
    (h : literalHeader text ++ back = literalHeader other ++ others) :
    literalHints text = literalHints other ∧ back = others := by
  have hbreak (text back : List Char) :
      literalHeader text ++ back = literalHints text ++ '\n' :: back := by
    simp [literalHeader, literalHints]
  rw [hbreak, hbreak] at h
  exact append_break_inj (break_not_mem_literalHints text) (break_not_mem_literalHints other) h

/-! ## Texts -/

theorem terminator_eq_of_written_eq {indent : Nat} {text other : List Char}
    (hstyles : style text = style other)
    (h : writeText indent text ++ terminator text =
      writeText indent other ++ terminator other) : terminator text = terminator other := by
  by_cases hliteral : style text = .literal
  · rw [writeText, writeText, ← hstyles, hliteral, List.append_assoc, List.append_assoc] at h
    exact terminator_of_literal hliteral (hstyles ▸ hliteral) (literalHeader_append_inj h).1
  · rw [terminator_of_style_ne_literal hliteral,
      terminator_of_style_ne_literal (hstyles ▸ hliteral)]

theorem writeText_inj {indent : Nat} {text other : List Char}
    (hstyles : style text = style other) (h : writeText indent text = writeText indent other) :
    text = other := by
  rw [writeText, writeText, ← hstyles] at h
  cases hstyle : style text with
  | plain => rwa [hstyle] at h
  | singleQuoted =>
      rw [hstyle] at h
      exact singleQuotedBody_inj (List.append_cancel_right (List.cons.inj h).2)
  | doubleQuoted =>
      rw [hstyle] at h
      exact flatMap_escaped_inj (List.append_cancel_right (List.cons.inj h).2)
  | literal =>
      rw [hstyle] at h
      exact literalBody_inj (literalHeader_append_inj h).2

theorem writeText_terminator_inj {indent : Nat} {text other : List Char}
    (h : writeText indent text ++ terminator text =
      writeText indent other ++ terminator other) : text = other := by
  have hstyles : style text = style other := by
    rw [← announcedStyle_writeText indent text, ← announcedStyle_writeText indent other,
      ← announcedStyle_append (writeText_ne_nil indent text) (terminator text), h,
      announcedStyle_append (writeText_ne_nil indent other)]
  have hends := terminator_eq_of_written_eq hstyles h
  rw [hends] at h
  exact writeText_inj hstyles (List.append_cancel_right h)

end ActionsWorkflow.Yaml
