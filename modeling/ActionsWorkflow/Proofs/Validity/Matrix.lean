import ActionsWorkflow.Proofs.Table.Entries
import ActionsWorkflow.Proofs.Validity.Rule
import ActionsWorkflow.Validity.Matrix
import Mathlib.Tactic.MkIffOfInductiveProp

/-!
# Which matrices are accepted

A matrix has an axis or a row to include.  Its axes have names of their own and values, and
its rows take away nothing but values of its axes.
-/

namespace ActionsWorkflow

namespace Matrix

def ValidAxis (name : String) (values : List String) : Prop :=
  name ≠ "include" ∧ name ≠ "exclude" ∧ ¬ Blank name ∧ values ≠ []

theorem checkAxis_eq_ok_iff {path : Path} {axis : String × List String} :
    checkAxis path axis = .ok () ↔ ValidAxis axis.1 axis.2 := by
  simp only [checkAxis, refuse_then_eq_bind, bind_eq_ok_iff, ite_violate_eq_ok_iff,
    checkNotBlank_eq_ok_iff, checkNotEmpty_eq_ok_iff, ValidAxis, reservedNames,
    List.contains_iff_mem, List.mem_cons, List.not_mem_nil, or_false, not_or, and_assoc]

theorem checkAxes_eq_ok_iff {path : Path} {axes : List (String × List String)} :
    checkEach (fun _ axis => checkAxis path axis) [] axes = .ok () ↔
      ∀ axis ∈ axes, ValidAxis axis.1 axis.2 := by
  apply checkEach_eq_ok_iff
  intro _ axis
  exact checkAxis_eq_ok_iff

theorem checkExcluded_eq_ok_iff {axes : Table (List String)} {path : Path}
    {row : MatrixRow} :
    checkExcluded axes path row = .ok () ↔ ∀ name ∈ row.keys, name ∈ axes.keys := by
  apply checkEach_eq_ok_iff
  intro _ name
  by_cases h : axes.contains name = true <;>
    simp [h, violate, ← Table.contains_iff_mem_keys]

def Valid : Matrix → Prop
  | .expression text => Format.expression.accepts text = true
  | .axes table included excluded =>
      ¬ (table.entries = [] ∧ included = []) ∧
      (∀ axis ∈ table.entries, ValidAxis axis.1 axis.2) ∧
      ∀ row ∈ excluded, ∀ name ∈ row.keys, name ∈ table.keys

end Matrix

theorem check_matrix_eq_ok_iff {path : Path} {matrix : Matrix} :
    check path matrix = .ok () ↔ matrix.Valid := by
  cases matrix with
  | expression => exact checkFormat_eq_ok_iff
  | axes table included excluded =>
      rw [check]
      simp only [instCheckableMatrix, Matrix.Valid, refuse_then_eq_bind, bind_eq_ok_iff,
        ite_violate_eq_ok_iff, Table.isEmpty, Bool.and_eq_true, List.isEmpty_iff,
        Matrix.checkAxes_eq_ok_iff,
        checkItems_eq_ok_iff (Matrix.checkExcluded table) fun _ _ =>
          Matrix.checkExcluded_eq_ok_iff]

@[mk_iff]
structure Strategy.Valid (strategy : Strategy) : Prop where
  matrix : strategy.matrix.Valid
  maxParallel : ∀ limit ∈ strategy.maxParallel, 1 ≤ limit

theorem check_strategy_eq_ok_iff {path : Path} {strategy : Strategy} :
    check path strategy = .ok () ↔ strategy.Valid := by
  rw [check, Strategy.valid_iff]
  simp only [instCheckableStrategy, bind_eq_ok_iff, check_matrix_eq_ok_iff,
    checkOptional_eq_ok_iff, checkAtLeast_eq_ok_iff]

end ActionsWorkflow
