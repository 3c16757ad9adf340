import ActionsWorkflow.Encoding.Setting
import ActionsWorkflow.Proofs.Yaml.ScalarText
import ActionsWorkflow.Yaml.Layout

/-!
# Scalars in a rendered document

What stands around a scalar in the output depends on the document around it alone: no scalar
moves another, however deep it stands.  So it is enough to tell scalars apart by what is
written for them, and that never reads as a scalar of another kind.
-/

namespace ActionsWorkflow

namespace Scalar

def kind : Scalar → Yaml.PlainKind
  | .text _ => .text
  | .integer _ => .integer
  | .flag _ => .boolean

/-- A scalar without the end of its last line; further lines of it start in `column`. -/
def written (column : Nat) : Scalar → List Char
  | .text value => Yaml.writeText column value.toList
  | .integer value => (toString value).toList
  | .flag value => (if value then "true" else "false").toList

def lineEnd : Scalar → List Char
  | .text value => Yaml.terminator value.toList
  | _ => ['\n']

/-- Integers are words of 64 bits. -/
def Representable : Scalar → Prop
  | .integer value => Yaml.FitsWord value
  | _ => True

end Scalar

namespace Yaml

/-- What a written scalar is read as: only a plain one can be anything else than a text. -/
def readKind (written : List Char) : PlainKind :=
  if announcedStyle written = .plain then resolve written else .text

section Scalars

variable {column : Nat} {scalar other : Scalar}

theorem announcedStyle_of_isInteger {text : List Char} (h : isInteger text = true) :
    announcedStyle text = .plain := by
  cases text with
  | nil => rfl
  | cons c rest =>
      refine announcedStyle_cons ⟨?_, ?_, ?_⟩ rest
      all_goals rintro rfl; cases h

theorem written_ne_nil (h : scalar.Representable) : scalar.written column ≠ [] := by
  cases scalar with
  | text value => exact writeText_ne_nil column value.toList
  | integer value =>
      intro hnil
      have hinteger : isInteger (toString value).toList = true := isInteger_toString h
      rw [show (toString value).toList = [] from hnil] at hinteger
      cases hinteger
  | flag value => cases value <;> exact List.cons_ne_nil _ _

theorem writeText_of_announced_plain {text : List Char}
    (h : announcedStyle (writeText column text) = .plain) :
    writeText column text = text ∧ resolve text = .text ∧ hasLeadingZero text = false := by
  rw [announcedStyle_writeText] at h
  exact ⟨writeText_of_style_plain h column, readsAsText_iff.1 (plain_of_style h).2⟩

theorem readKind_written (h : scalar.Representable) :
    readKind (scalar.written column) = scalar.kind := by
  cases scalar with
  | text value =>
      rw [Scalar.written, Scalar.kind, readKind]
      split
      next hplain =>
          obtain ⟨hwritten, hresolve, -⟩ := writeText_of_announced_plain hplain
          rw [hwritten, hresolve]
      next => rfl
  | integer value =>
      have hplain := announcedStyle_of_isInteger (isInteger_toString h)
      rw [Scalar.written, Scalar.kind, readKind, if_pos hplain, resolve_toString h]
  | flag value =>
      rw [Scalar.written, Scalar.kind]
      cases value <;> decide

theorem lineEnd_of_plain (h : announcedStyle (scalar.written column) = .plain) :
    scalar.lineEnd = ['\n'] := by
  cases scalar with
  | text value =>
      rw [Scalar.written, announcedStyle_writeText] at h
      exact terminator_of_style_ne_literal (by rw [h]; decide)
  | integer value => rfl
  | flag value => rfl

theorem kind_eq_of_line_eq (hscalar : scalar.Representable) (hother : other.Representable)
    (h : scalar.written column ++ scalar.lineEnd = other.written column ++ other.lineEnd) :
    scalar.kind = other.kind := by
  have hstyles :
      announcedStyle (scalar.written column) = announcedStyle (other.written column) := by
    rw [← announcedStyle_append (written_ne_nil hscalar) scalar.lineEnd, h,
      announcedStyle_append (written_ne_nil hother)]
  have hkind : readKind (scalar.written column) = scalar.kind := readKind_written hscalar
  have hkinds : readKind (other.written column) = other.kind := readKind_written hother
  rw [← hkind, ← hkinds]
  by_cases hplain : announcedStyle (scalar.written column) = .plain
  · rw [lineEnd_of_plain hplain, lineEnd_of_plain (hstyles ▸ hplain)] at h
    rw [List.append_cancel_right h]
  · rw [readKind, readKind, if_neg hplain, if_neg (hstyles ▸ hplain)]

theorem eq_of_line_eq (hscalar : scalar.Representable) (hother : other.Representable)
    (h : scalar.written column ++ scalar.lineEnd = other.written column ++ other.lineEnd) :
    scalar = other := by
  have hkinds := kind_eq_of_line_eq hscalar hother h
  cases scalar with
  | text value =>
      cases other with
      | text otherValue => rw [String.toList_inj.1 (writeText_terminator_inj h)]
      | integer _ => cases hkinds
      | flag _ => cases hkinds
  | integer value =>
      cases other with
      | text _ => cases hkinds
      | integer otherValue => rw [toString_int_inj (List.append_cancel_right h)]
      | flag _ => cases hkinds
  | flag value =>
      cases other with
      | text _ => cases hkinds
      | integer _ => cases hkinds
      | flag otherValue => cases value <;> cases otherValue <;> first | rfl | cases h

end Scalars

/-! ## Places -/

inductive Frame where
  | item (before after : List Document)
  | value (before : List (String × Document)) (key : String)
      (after : List (String × Document))

def Frame.fill : Frame → Document → Document
  | .item before after, document => .sequence (before ++ document :: after)
  | .value before key after, document => .mapping (before ++ (key, document) :: after)

def fill (place : List Frame) (document : Document) : Document :=
  place.foldr Frame.fill document

theorem exists_intercalate_middle (separator : List Char) (front back : List (List Char)) :
    ∃ before after, ∀ piece,
      separator.intercalate (front ++ piece :: back) = before ++ piece ++ after := by
  induction front with
  | nil =>
      cases back with
      | nil => exact ⟨[], [], fun piece => by simp⟩
      | cons next back =>
          exact ⟨[], separator ++ separator.intercalate (next :: back), fun piece => by simp⟩
  | cons first front ih =>
      obtain ⟨before, after, h⟩ := ih
      refine ⟨first ++ separator ++ before, after, fun piece => ?_⟩
      rw [List.append_assoc, List.append_assoc, ← List.append_assoc before, ← h piece]
      cases front <;> simp

theorem blockItems_eq_map (column : Nat) (items : List Document) :
    blockItems column items = items.map fun item => '-' :: ' ' :: block (column + 2) item := by
  induction items with
  | nil => rw [blockItems, List.map_nil]
  | cons item items ih => rw [blockItems, ih, List.map_cons]

theorem blockEntries_eq_map (column : Nat) (entries : List (String × Document)) :
    blockEntries column entries = entries.map fun entry =>
      keyLead column entry.1 entry.2 ++ block (valueColumn column entry.1 entry.2) entry.2 := by
  induction entries with
  | nil => rw [blockEntries, List.map_nil]
  | cons entry entries ih => rw [blockEntries, ih, List.map_cons]

theorem exists_valuePlace (place : List Frame) (column : Nat) (key : String) :
    ∃ before depth, ∀ scalar : Scalar,
      keyLead column key (fill place (toDocument scalar)) = before ∧
        valueColumn column key (fill place (toDocument scalar)) = depth := by
  refine ⟨keyLead column key (fill place (toDocument (Scalar.flag true))),
    valueColumn column key (fill place (toDocument (Scalar.flag true))), fun scalar => ?_⟩
  cases place with
  | nil => cases scalar <;> exact ⟨rfl, rfl⟩
  | cons frame place =>
      cases frame with
      | item before after => cases before <;> exact ⟨rfl, rfl⟩
      | value before key after => cases before <;> exact ⟨rfl, rfl⟩

theorem exists_block_fill (place : List Frame) (column : Nat) :
    ∃ before depth after, ∀ scalar : Scalar,
      block column (fill place (toDocument scalar)) =
        before ++ (scalar.written depth ++ scalar.lineEnd) ++ after := by
  induction place generalizing column with
  | nil =>
      refine ⟨[], column, [], fun scalar => ?_⟩
      cases scalar <;> simp [fill, toDocument, block, textLine, integerLine, booleanLine,
        Scalar.written, Scalar.lineEnd]
  | cons frame place ih =>
      cases frame with
      | item before after =>
          obtain ⟨front, depth, back, hinner⟩ := ih (column + 2)
          obtain ⟨first, last, houter⟩ := exists_intercalate_middle (spaces column)
            (blockItems column before) (blockItems column after)
          refine ⟨first ++ '-' :: ' ' :: front, depth, back ++ last, fun scalar => ?_⟩
          have hblock : block column (fill (.item before after :: place) (toDocument scalar)) =
              (spaces column).intercalate (blockItems column before ++
                ('-' :: ' ' :: block (column + 2) (fill place (toDocument scalar))) ::
                  blockItems column after) := by
            simp [fill, Frame.fill, block, blockItems_eq_map]
          rw [hblock, houter, hinner]
          simp
      | value before key after =>
          obtain ⟨lead, inner, hlead⟩ := exists_valuePlace place column key
          obtain ⟨front, depth, back, hinner⟩ := ih inner
          obtain ⟨first, last, houter⟩ := exists_intercalate_middle (spaces column)
            (blockEntries column before) (blockEntries column after)
          refine ⟨first ++ lead ++ front, depth, back ++ last, fun scalar => ?_⟩
          have hblock :
              block column (fill (.value before key after :: place) (toDocument scalar)) =
                (spaces column).intercalate (blockEntries column before ++
                  (lead ++ block inner (fill place (toDocument scalar))) ::
                    blockEntries column after) := by
            simp [fill, Frame.fill, block, blockEntries_eq_map, ← hlead scalar]
          rw [hblock, houter, hinner]
          simp

theorem exists_render_fill (place : List Frame) :
    ∃ before column after, ∀ scalar : Scalar,
      (render (fill place (toDocument scalar))).toList =
        before ++ (scalar.written column ++ scalar.lineEnd) ++ after := by
  cases place with
  | nil =>
      refine ⟨[], 2, [], fun scalar => ?_⟩
      cases scalar <;> simp [fill, toDocument, render, block, textLine, integerLine,
        booleanLine, Scalar.written, Scalar.lineEnd]
  | cons frame place =>
      obtain ⟨before, column, after, h⟩ := exists_block_fill (frame :: place) 0
      refine ⟨before, column, after, fun scalar => ?_⟩
      rw [← h scalar]
      cases frame <;> exact String.toList_ofList

/-- A scalar that is a document, an item of a list or the value of a key, at any depth, is
written between pieces that do not depend on it.  A text is plain there only if it reads as
a text, no scalar reads as one of another kind, and different scalars make the whole
documents different. -/
theorem render_keeps_scalars (place : List Frame) :
    ∃ before column after,
      (∀ scalar : Scalar, (render (fill place (toDocument scalar))).toList =
        before ++ (scalar.written column ++ scalar.lineEnd) ++ after) ∧
      (∀ text, announcedStyle (writeText column text) = .plain →
        writeText column text = text ∧ resolve text = .text ∧ hasLeadingZero text = false) ∧
      (∀ scalar : Scalar, scalar.Representable →
        readKind (scalar.written column) = scalar.kind) ∧
      ∀ scalar other : Scalar, scalar.Representable → other.Representable → scalar ≠ other →
        render (fill place (toDocument scalar)) ≠ render (fill place (toDocument other)) := by
  obtain ⟨before, column, after, hrender⟩ := exists_render_fill place
  refine ⟨before, column, after, hrender, fun text => writeText_of_announced_plain,
    fun scalar => readKind_written, ?_⟩
  intro scalar other hscalar hother hne hsame
  have hpieces := congrArg String.toList hsame
  rw [hrender, hrender] at hpieces
  have hline := List.append_cancel_left (List.append_cancel_right hpieces)
  exact hne (eq_of_line_eq hscalar hother hline)

theorem render_keeps_scalars_pythonVersion :
    (∃ column, announcedStyle (writeText column "pypy".toList) = .plain ∧
      resolve "pypy".toList = .text ∧ (Scalar.integer 310).Representable ∧
      readKind ((Scalar.integer 310).written column) = .integer) ∧
    (Scalar.text "310").Representable ∧ Scalar.text "310" ≠ .integer 310 ∧
    render (fill [.value [] "env" [], .value [] "PYTHON" []] (toDocument (Scalar.text "310"))) ≠
      render (fill [.value [] "env" [], .value [] "PYTHON" []]
        (toDocument (Scalar.integer 310))) := by
  have hword : (Scalar.integer 310).Representable := ⟨by decide, by decide⟩
  have hne : Scalar.text "310" ≠ .integer 310 := by decide
  obtain ⟨before, column, after, -, hplain, hkind, hdiffer⟩ :=
    render_keeps_scalars [.value [] "env" [], .value [] "PYTHON" []]
  have hannounced : announcedStyle (writeText column "pypy".toList) = .plain := by
    rw [announcedStyle_writeText]
    decide
  exact ⟨⟨column, hannounced, (hplain _ hannounced).2.1, hword, hkind _ hword⟩, trivial, hne,
    hdiffer _ _ trivial hword hne⟩

example : render (fill [.value [] "PYTHON" []] (toDocument (Scalar.text "3.10"))) =
    "PYTHON: '3.10'\n" := by decide +kernel

end Yaml

end ActionsWorkflow
