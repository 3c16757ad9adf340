import ActionsWorkflow.Model.Matrix
import ActionsWorkflow.Validity.Rule

/-!
# Valid matrices

The rows of a matrix are written beside its axes, so no axis may bear the name of a list
of rows.  A row that takes combinations away may only name axes.
-/

namespace ActionsWorkflow

namespace Matrix

def reservedNames : List String := ["include", "exclude"]

def checkAxis (path : Path) (axis : String × List String) : Verdict := do
  let axisPath := path.key axis.1
  if reservedNames.contains axis.1 then
    violate axisPath (.invalid "is reserved; use Matrix::include or Matrix::exclude")
  checkNotBlank axisPath axis.1
  checkNotEmpty axisPath axis.2

def checkExcluded (axes : Table (List String)) (path : Path) (row : MatrixRow) : Verdict :=
  checkEach (fun _ key =>
    if axes.contains key then .ok ()
    else violate (path.key key) (.invalid "is not a matrix axis")) [] row.keys

end Matrix

instance : Checkable Matrix where
  check path
    | .expression text => checkFormat .expression path text
    | .axes axes included excluded => do
        if axes.isEmpty && included.isEmpty then
          violate path .empty
        checkEach (fun _ axis => Matrix.checkAxis path axis) [] axes.entries
        checkItems (Matrix.checkExcluded axes) (path.key "exclude") excluded

instance : Checkable Strategy where
  check path strategy := do
    check (path.key "matrix") strategy.matrix
    checkOptional (checkAtLeast 1) (path.key "max-parallel") strategy.maxParallel

end ActionsWorkflow
