import ActionsWorkflow.Dependency.RunOrder
import ActionsWorkflow.Encoding.Workflow
import ActionsWorkflow.Export.Error
import ActionsWorkflow.Storage.Replace
import ActionsWorkflow.Validity.Workflow
import ActionsWorkflow.Yaml.Layout

/-!
# Rendering and writing

A workflow is rendered only after it has been checked as a whole, whoever put it together,
and after its jobs have been put in order.  Whatever the output goes to, nothing is
written before both have succeeded.  A file is replaced as a whole or not at all, and a
refused workflow never gets as far as the store of files.
-/

namespace ActionsWorkflow

structure Plan where
  needCount : Nat
  order : List String
  deriving DecidableEq, Repr

def Workflow.runOrder (workflow : Workflow) : Except DependencyError (List String) := do
  workflow.dependencyGraph.verify
  workflow.dependencyGraph.runOrder

def Workflow.plan (workflow : Workflow) : Except ExportError Plan := do
  (check .root workflow).mapError .invalid
  let order ← workflow.runOrder.mapError .dependency
  return ⟨workflow.dependencyGraph.needCount, order⟩

def Workflow.toYaml (workflow : Workflow) : Except ExportError String := do
  let _ ← workflow.plan
  return Yaml.render (toDocument workflow)

section
variable {m : Type → Type} [Monad m]

/-- Hand the rendered text to `append`, which says whether all of it was taken. -/
def Workflow.writeTo (workflow : Workflow) (append : String → m Bool) :
    m (Except ExportError Unit) :=
  match workflow.plan with
  | .error error => return .error error
  | .ok _ => do
      if ← append (Yaml.render (toDocument workflow)) then return .ok ()
      return .error .unserialized

variable [Storage m]

def writeAtomically (path content : String) : m (Except ExportError Unit) := do
  if ← Storage.replaceFile path content then return .ok ()
  return .error (.unwritable path)

/-- Replace the file at `path` by the rendered workflow; the file is left alone if the
workflow is refused. -/
def Workflow.writeFile (workflow : Workflow) (path : String) : m (Except ExportError Unit) :=
  match workflow.toYaml with
  | .error error => return .error error
  | .ok text => writeAtomically path text

end

end ActionsWorkflow
