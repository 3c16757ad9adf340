import ActionsWorkflow.Proofs.Location.Verdict
import ActionsWorkflow.Proofs.Validity.Matrix

/-!
# Violations in matrices

An axis is found under its name even if it has the name of a list of rows, since the axes
come first.  The rows to exclude are checked once the axes are known to have other names.
-/

namespace ActionsWorkflow

variable {gap : Gap} {path : Path}

namespace Matrix

variable {table : Table (List String)} {included excluded : List MatrixRow}

theorem located_checkAxis {document : Document} {axis : String × List String} :
    Located gap (path.key axis.1) document (checkAxis path axis) := by
  simp only [checkAxis, refuse_then_eq_bind]
  exact .bind (.refuse trivial) fun _ => .bind .notBlank fun _ => .notEmpty

theorem located_axes :
    Located gap path (toDocument (Matrix.axes table included excluded))
      (checkEach (fun _ => checkAxis path) [] table.entries) := by
  refine .each fun front axis back hentries _ => ?_
  have haxis : table.get? axis.1 = some axis.2 :=
    table.get?_eq_some_iff.2 (by simp [hentries])
  refine .field (toDocument axis.2) ?_ located_checkAxis
  simp [Document.field?_matrix, haxis]

theorem located_checkExcluded {row : MatrixRow} :
    Located gap path (toDocument row) (checkExcluded table path row) := by
  refine .each fun front name back hkeys _ => ?_
  have hname : name ∈ row.keys := by simp [hkeys]
  obtain ⟨entry, hentry, rfl⟩ := List.mem_map.1 hname
  split
  · exact .ok
  · exact .field (toDocument entry.2) (Document.field?_table_of_mem hentry) (.violate trivial)

theorem located_excluded (haxes : ∀ axis ∈ table.entries, ValidAxis axis.1 axis.2) :
    Located gap path (toDocument (Matrix.axes table included excluded))
      (checkItems (checkExcluded table) (path.key "exclude") excluded) := by
  cases excluded with
  | nil => exact .ok
  | cons row rest =>
      have hexclude : table.get? "exclude" = none :=
        table.get?_eq_none_of_ne fun axis haxis => (haxes axis haxis).2.1
      refine .field (toDocument (row :: rest)) ?_ (.items fun _ _ _ => located_checkExcluded)
      simp [Document.field?_matrix, hexclude]

end Matrix

theorem located_matrix {matrix : Matrix} :
    Located gap path (toDocument matrix) (check path matrix) := by
  cases matrix with
  | expression => exact .format
  | axes table included excluded =>
      rw [check]
      simp only [instCheckableMatrix, refuse_then_eq_bind]
      refine .bind (.refuse trivial) fun _ => .bind Matrix.located_axes fun haxes => ?_
      exact Matrix.located_excluded (Matrix.checkAxes_eq_ok_iff.1 haxes)

theorem located_strategy {strategy : Strategy} :
    Located gap path (toDocument strategy) (check path strategy) := by
  change Located gap path (.record _) (_ >>= _)
  refine .bind (.field (toDocument strategy.matrix) (by simp) located_matrix) fun _ => ?_
  exact .optionalField (by simp) fun _ _ => .atLeast

end ActionsWorkflow
