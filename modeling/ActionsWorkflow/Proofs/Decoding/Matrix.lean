import ActionsWorkflow.Proofs.Decoding.Setting
import ActionsWorkflow.Proofs.Validity.Matrix

/-!
# Reading matrices back

Axes and rows share one mapping.  They are told apart by the two reserved names, which the
axes of a valid matrix do not have.
-/

namespace ActionsWorkflow

namespace Matrix

def isAxis (entry : String × Document) : Bool := !reservedNames.contains entry.1

def readRows (document : Document) (name : String) : Option (List MatrixRow) :=
  (document.optional? name).map (Option.getD · [])

def readAxes (document : Document) (entries : List (String × Document)) : Option Matrix := do
  let table ← fromDocument? (.mapping (entries.filter isAxis))
  let included ← readRows document "include"
  let excluded ← readRows document "exclude"
  some (.axes table included excluded)

instance : FromDocument Matrix where
  fromDocument?
    | .text text => some (.expression text)
    | .mapping entries => readAxes (.mapping entries) entries
    | _ => none

variable {table : Table (List String)} {included excluded : List MatrixRow}

theorem isAxis_eq_true {name : String} {values : List String} (h : ValidAxis name values)
    (document : Document) : isAxis (name, document) = true := by
  simp [isAxis, reservedNames, h.1, h.2.1]

theorem filter_isAxis_axes
    (h : ∀ axis ∈ table.entries, ValidAxis axis.1 axis.2) :
    (table.entries.map fun axis => (axis.1, toDocument axis.2)).filter isAxis =
      table.entries.map fun axis => (axis.1, toDocument axis.2) := by
  rw [List.filter_eq_self]
  intro entry hentry
  obtain ⟨axis, haxis, rfl⟩ := List.mem_map.1 hentry
  exact isAxis_eq_true (h axis haxis) _

theorem filter_isAxis_rowsEntry {name : String} (hname : name ∈ reservedNames)
    (rows : List MatrixRow) : (rowsEntry name rows).filter isAxis = [] := by
  rw [List.filter_eq_nil_iff]
  intro entry hentry
  cases rows with
  | nil => simp [rowsEntry] at hentry
  | cons row rest =>
      simp only [rowsEntry, List.isEmpty_cons, Bool.false_eq_true, if_false,
        List.mem_singleton] at hentry
      simpa [hentry, isAxis] using hname

theorem filter_isAxis_matrix
    (h : ∀ axis ∈ table.entries, ValidAxis axis.1 axis.2) :
    (table.entries.map (fun axis => (axis.1, toDocument axis.2)) ++
        rowsEntry "include" included ++ rowsEntry "exclude" excluded).filter isAxis =
      table.entries.map fun axis => (axis.1, toDocument axis.2) := by
  have hincluded : (rowsEntry "include" included).filter isAxis = [] :=
    filter_isAxis_rowsEntry List.mem_cons_self included
  have hexcluded : (rowsEntry "exclude" excluded).filter isAxis = [] :=
    filter_isAxis_rowsEntry (List.mem_cons_of_mem _ List.mem_cons_self) excluded
  rw [List.filter_append, List.filter_append, filter_isAxis_axes h, hincluded, hexcluded,
    List.append_nil, List.append_nil]

theorem readRows_of_field? {document : Document} {name : String} {rows : List MatrixRow}
    (h : document.field? name = if rows ≠ [] then some (toDocument rows) else none) :
    readRows document name = some rows := by
  unfold readRows Document.optional?
  rw [h]
  by_cases hempty : rows = []
  · subst hempty
    rfl
  · simp [Document.readOptional, hempty]

theorem readRows_included (h : ∀ axis ∈ table.entries, ValidAxis axis.1 axis.2) :
    readRows (toDocument (axes table included excluded)) "include" = some included := by
  have hnone : table.get? "include" = none :=
    table.get?_eq_none_of_ne fun axis haxis => (h axis haxis).1
  apply readRows_of_field?
  simp [Document.field?_matrix, hnone]

theorem readRows_excluded (h : ∀ axis ∈ table.entries, ValidAxis axis.1 axis.2) :
    readRows (toDocument (axes table included excluded)) "exclude" = some excluded := by
  have hnone : table.get? "exclude" = none :=
    table.get?_eq_none_of_ne fun axis haxis => (h axis haxis).2.1
  apply readRows_of_field?
  simp [Document.field?_matrix, hnone]

end Matrix

theorem fromDocument?_matrix {matrix : Matrix} (h : matrix.Valid) :
    fromDocument? (toDocument matrix) = some matrix := by
  cases matrix with
  | expression => rfl
  | axes table included excluded =>
      obtain ⟨-, haxes, -⟩ := h
      have htable : fromDocument? (.mapping (table.entries.map fun axis =>
          (axis.1, toDocument axis.2))) = some table := fromDocument?_toDocument table
      change Matrix.readAxes (toDocument (Matrix.axes table included excluded)) _ = _
      rw [Matrix.readAxes, Matrix.filter_isAxis_matrix haxes, htable,
        Matrix.readRows_included haxes, Matrix.readRows_excluded haxes]
      rfl

end ActionsWorkflow
