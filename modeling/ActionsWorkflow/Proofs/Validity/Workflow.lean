import ActionsWorkflow.Proofs.Validity.Job
import ActionsWorkflow.Proofs.Validity.Trigger
import ActionsWorkflow.Validity.Workflow

/-!
# Which workflows are accepted

The condition under which a workflow passes its check is put together from the conditions
of its records, and it is the same wherever the workflow is taken to stand.
-/

namespace ActionsWorkflow

@[mk_iff]
structure WorkflowHeader.Valid (header : WorkflowHeader) : Prop where
  name : ¬ Blank header.name
  runName : ∀ name ∈ header.runName, ¬ Blank name
  triggered : header.on ≠ []
  distinctEvents : (header.on.map Trigger.eventName).Nodup
  triggers : ∀ trigger ∈ header.on, trigger.Valid
  concurrency : ∀ concurrency ∈ header.concurrency, concurrency.Valid

theorem check_header_eq_ok_iff {path : Path} {header : WorkflowHeader} :
    check path header = .ok () ↔ header.Valid := by
  rw [check, WorkflowHeader.valid_iff]
  simp only [instCheckableWorkflowHeader, check_option, bind_eq_ok_iff,
    checkNotBlank_eq_ok_iff, checkOptional_eq_ok_iff, checkTriggers_eq_ok_iff,
    check_concurrency_eq_ok_iff, and_assoc]

theorem checkJobs_eq_ok_iff {path : Path} {jobs : Table JobEntry} :
    checkJobs path jobs = .ok () ↔
      jobs.entries ≠ [] ∧ ∀ job ∈ jobs.entries,
        Format.jobId.accepts job.1 = true ∧ job.2.Valid := by
  have hrule (_ : List (String × JobEntry)) (job : String × JobEntry) :
      checkJob path job = .ok () ↔ Format.jobId.accepts job.1 = true ∧ job.2.Valid := by
    rw [checkJob, bind_eq_ok_iff, checkFormat_eq_ok_iff, check_jobEntry_eq_ok_iff]
  rw [checkJobs, bind_eq_ok_iff, checkNotEmpty_eq_ok_iff,
    checkEach_eq_ok_iff (fun _ => checkJob path) hrule]

structure Workflow.Valid (workflow : Workflow) : Prop where
  header : workflow.toWorkflowHeader.Valid
  nonempty : workflow.jobs.entries ≠ []
  jobs : ∀ job ∈ workflow.jobs.entries,
    Format.jobId.accepts job.1 = true ∧ job.2.Valid

/-- A workflow passes its check, at any path, exactly if it is valid. -/
theorem check_workflow_eq_ok_iff_valid (path : Path) (workflow : Workflow) :
    check path workflow = .ok () ↔ workflow.Valid := by
  rw [check]
  simp only [instCheckableWorkflow, bind_eq_ok_iff, check_header_eq_ok_iff,
    checkJobs_eq_ok_iff]
  constructor
  · rintro ⟨hheader, hnonempty, hjobs⟩
    exact ⟨hheader, hnonempty, hjobs⟩
  · rintro ⟨hheader, hnonempty, hjobs⟩
    exact ⟨hheader, hnonempty, hjobs⟩

end ActionsWorkflow
