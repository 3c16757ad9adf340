import ActionsWorkflow.Draft.Job
import ActionsWorkflow.Validity.Workflow

/-!
# Workflow drafts

A workflow draft collects jobs in any state of completion.  Finishing it finishes the jobs
in the order in which they were added, moves a job's violation to the job's place in the
workflow, and checks the whole at the end.
-/

namespace ActionsWorkflow

inductive JobSpec where
  | finished (entry : JobEntry)
  | job (draft : JobDraft)
  | call (draft : CallDraft)

/-- A finished job is checked again, for it may have been put together by hand. -/
def JobSpec.finish : JobSpec → Except Violation JobEntry
  | .finished entry => do
      check .root entry
      return entry
  | .job draft => draft.finish.map .run
  | .call draft => draft.finish.map .call

structure WorkflowDraft extends WorkflowHeader where
  jobs : List (String × JobSpec) := []

inductive WorkflowEdit where
  | runName (name : String)
  | on (trigger : Trigger)
  | permissions (permissions : Permissions)
  | env (key : String) (value : Scalar)
  | defaults (defaults : Defaults)
  | concurrency (concurrency : Concurrency)
  | job (id : String) (spec : JobSpec)

namespace WorkflowDraft

def apply (draft : WorkflowDraft) : WorkflowEdit → WorkflowDraft
  | .runName name => { draft with runName := some name }
  | .on trigger => { draft with on := draft.on ++ [trigger] }
  | .permissions permissions => { draft with permissions := some permissions }
  | .env key value => { draft with env := Table.insertInto draft.env key value }
  | .defaults defaults => { draft with defaults := some defaults }
  | .concurrency concurrency => { draft with concurrency := some concurrency }
  | .job id spec => { draft with jobs := draft.jobs ++ [(id, spec)] }

def ofEdits (name : String) (edits : List WorkflowEdit) : WorkflowDraft :=
  edits.foldl apply { name }

/-- Add one job to the jobs before it; its id must be new. -/
def addJob (jobs : Table JobEntry) (id : String) (spec : JobSpec) :
    Except Violation (Table JobEntry) := do
  let jobsPath := Path.root.key "jobs"
  checkFormat .jobId (jobsPath.key id) id
  if jobs.contains id then
    violate jobsPath (.duplicate id)
  let entry ← spec.finish.mapError (·.within (jobsPath.key id))
  return jobs.insert id entry

def addJobs (jobs : Table JobEntry) :
    List (String × JobSpec) → Except Violation (Table JobEntry)
  | [] => .ok jobs
  | (id, spec) :: rest => do addJobs (← addJob jobs id spec) rest

def finish (draft : WorkflowDraft) : Except Violation Workflow := do
  let jobs ← addJobs .empty draft.jobs
  let workflow : Workflow := { draft with jobs }
  check .root workflow
  return workflow

end WorkflowDraft

end ActionsWorkflow
