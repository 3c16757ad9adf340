import ActionsWorkflow.Model.Workflow
import ActionsWorkflow.Validity.Job
import ActionsWorkflow.Validity.Trigger

/-!
# Valid workflows

The header is checked first; then there is at least one job, and each job has an id of the
right form and is valid at its place.
-/

namespace ActionsWorkflow

instance : Checkable WorkflowHeader where
  check path header := do
    checkNotBlank (path.key "name") header.name
    checkOptional checkNotBlank (path.key "run-name") header.runName
    checkTriggers (path.key "on") header.on
    check (path.key "concurrency") header.concurrency

def checkJob (path : Path) (entry : String × JobEntry) : Verdict := do
  checkFormat .jobId (path.key entry.1) entry.1
  check (path.key entry.1) entry.2

def checkJobs (path : Path) (jobs : Table JobEntry) : Verdict := do
  checkNotEmpty path jobs.entries
  checkEach (fun _ entry => checkJob path entry) [] jobs.entries

instance : Checkable Workflow where
  check path workflow := do
    check path workflow.toWorkflowHeader
    checkJobs (path.key "jobs") workflow.jobs

end ActionsWorkflow
