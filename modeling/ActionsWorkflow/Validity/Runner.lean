import ActionsWorkflow.Model.Runner
import ActionsWorkflow.Model.Setting
import ActionsWorkflow.Validity.Rule

/-!
# Valid runners, containers and groups

Where a job runs and in whose company: the names in use are not blank, and mounts have a
source and a destination.
-/

namespace ActionsWorkflow

instance : Checkable Concurrency where
  check path
    | .group name => checkNotBlank path name
    | .detailed name cancel => do
        checkNotBlank (path.key "group") name
        check (path.key "cancel-in-progress") cancel

/-- The labels beside a runner group are free. -/
instance : Checkable RunsOn where
  check path
    | .label name => checkNotBlank path name
    | .labels names => checkNames path names
    | .group name _ => checkNotBlank (path.key "group") name

instance : Checkable Environment where
  check path
    | .name name => checkNotBlank path name
    | .detailed name _ => checkNotBlank (path.key "name") name

instance : Checkable Container where
  check path container := do
    checkNotBlank (path.key "image") container.image
    checkOptional (checkItems checkNotBlank) (path.key "ports") container.ports
    checkOptional (checkItems (checkFormat .volume)) (path.key "volumes") container.volumes

instance : Checkable JobContainer where
  check path
    | .image name => checkNotBlank path name
    | .detailed container => check path container

end ActionsWorkflow
