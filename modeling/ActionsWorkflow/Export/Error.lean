import ActionsWorkflow.Dependency.Graph
import ActionsWorkflow.Violation

/-!
# Failures

Why a workflow is not written: it breaks a rule, its jobs cannot be put in order, its text
cannot be handed over, or the file cannot be replaced.
-/

namespace ActionsWorkflow

def cycleText (jobs : List String) : String :=
  String.intercalate " -> " (jobs ++ jobs.take 1)

def DependencyError.report : DependencyError → Report
  | .unknown job dependency =>
      ⟨"job `" ++ job ++ "` needs `" ++ dependency ++ "`, but that job doesn't exist",
        some "ciscript::export::unknown_dependency",
        some "every entry in `needs` must be the id of another job in the same workflow"⟩
  | .cycle jobs =>
      ⟨"circular job dependency: " ++ cycleText jobs,
        some "ciscript::export::dependency_cycle",
        some "remove one of the `needs` entries along this path"⟩

inductive ExportError where
  | invalid (violation : Violation)
  | dependency (error : DependencyError)
  | unserialized
  | unwritable (path : String)
  deriving DecidableEq, Repr

def ExportError.report : ExportError → Report
  | .invalid violation => violation.report
  | .dependency error => error.report
  | .unserialized =>
      ⟨"failed to serialize workflow to YAML", some "ciscript::export::serialize", none⟩
  | .unwritable path =>
      ⟨"failed to write workflow to " ++ path, some "ciscript::export::write", none⟩

inductive Failure where
  | invalid (violation : Violation)
  | refused (error : ExportError)
  deriving DecidableEq, Repr

def Failure.report : Failure → Report
  | .invalid violation => violation.report
  | .refused error => error.report

end ActionsWorkflow
