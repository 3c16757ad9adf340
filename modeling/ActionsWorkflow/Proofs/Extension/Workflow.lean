import ActionsWorkflow.Proofs.Extension.Job
import ActionsWorkflow.Proofs.Extension.Trigger

/-!
# Workflows that grow

Validation stops at the first fault.  Wherever a list of a workflow is refused, the workflow
is judged in the same way when that list goes on, and jobs may be added to a workflow that is
refused without a change in what is reported.
-/

namespace ActionsWorkflow

variable {path : Path}

/-- One list that is refused goes on, or jobs with new ids are added to a refused workflow. -/
inductive Workflow.Grows (path : Path) (workflow : Workflow) : Workflow → Prop
  | on {triggers : List Trigger} (h : TriggersGrow (path.key "on") workflow.on triggers) :
      Workflow.Grows path workflow { workflow with on := triggers }
  | job {jobs : Table JobEntry}
      (h : OneChanged (EntryGrows JobEntry.Grows (path.key "jobs")) workflow.jobs.entries
        jobs.entries) :
      Workflow.Grows path workflow { workflow with jobs := jobs }
  | jobs {jobs : Table JobEntry} (hne : workflow.jobs.entries ≠ [])
      (hrefused : check path workflow ≠ .ok ())
      (hmore : workflow.jobs.entries <+: jobs.entries) :
      Workflow.Grows path workflow { workflow with jobs := jobs }

theorem checkJobs_eq_of_grow {jobs others : Table JobEntry}
    (h : OneChanged (EntryGrows JobEntry.Grows path) jobs.entries others.entries) :
    checkJobs path others = checkJobs path jobs := by
  obtain ⟨hjobs, hothers⟩ := h.ne_nil
  rw [checkJobs, checkJobs, notEmpty_then_eq hjobs, notEmpty_then_eq hothers]
  refine h.checkEach_eq ?_ fun _ _ _ _ _ _ => rfl
  rintro - entry other ⟨hid, hgrows⟩
  rw [checkJob, checkJob, hid, hgrows.check_eq]

theorem checkJobs_eq_error_of_more {jobs more : Table JobEntry} {violation : Violation}
    (hne : jobs.entries ≠ []) (hmore : jobs.entries <+: more.entries)
    (h : checkJobs path jobs = .error violation) : checkJobs path more = .error violation := by
  obtain ⟨added, hadded⟩ := hmore
  rw [checkJobs, notEmpty_then_eq hne] at h
  rw [checkJobs, ← hadded, notEmpty_then_eq (List.append_ne_nil_of_left_ne_nil hne added)]
  exact checkEach_append_of_error h added

theorem Workflow.check_eq (path : Path) (workflow : Workflow) :
    check path workflow = (check path workflow.toWorkflowHeader >>= fun _ =>
      checkJobs (path.key "jobs") workflow.jobs) := rfl

theorem WorkflowHeader.check_eq_of_grow {header : WorkflowHeader} {triggers : List Trigger}
    (h : TriggersGrow (path.key "on") header.on triggers) :
    check path { header with on := triggers } = check path header := by
  unfold check
  simp only [instCheckableWorkflowHeader, h.checkTriggers_eq]

theorem Workflow.Grows.check_eq {workflow other : Workflow} (h : workflow.Grows path other) :
    check path other = check path workflow := by
  cases h with
  | on h => rw [Workflow.check_eq, Workflow.check_eq, WorkflowHeader.check_eq_of_grow h]
  | job h => rw [Workflow.check_eq, Workflow.check_eq, checkJobs_eq_of_grow h]
  | jobs hne hrefused hmore =>
      rw [Workflow.check_eq] at hrefused
      rw [Workflow.check_eq, Workflow.check_eq]
      cases hheader : check path workflow.toWorkflowHeader with
      | error violation => rfl
      | ok =>
          rw [hheader] at hrefused
          cases hjobs : checkJobs (path.key "jobs") workflow.jobs with
          | ok => exact absurd hjobs hrefused
          | error violation => exact checkJobs_eq_error_of_more hne hmore hjobs

/-- What a list is refused for is refused again however the list goes on, at the place of the
list and in the whole workflow, and a position in a report is that of the first fault. -/
theorem check_reports_earliest (path : Path) :
    (ReportsPosition path (checkNeeds path) ∧
      ReportsPosition path (checkSteps path) ∧
      ReportsPosition path (fun crons => check path (Trigger.schedule crons)) ∧
      ReportsPosition path (checkNames path) ∧
      ReportsPosition path (fun labels => check path (RunsOn.labels labels)) ∧
      ReportsEarliest path (checkTriggers path)) ∧
    ∀ workflow other : Workflow, workflow.Grows path other →
      check path other = check path workflow :=
  ⟨⟨reportsPosition_needs path, reportsPosition_steps path, reportsPosition_schedule path,
    reportsPosition_names path, reportsPosition_labels path, reportsEarliest_triggers path⟩,
    fun _ _ => Workflow.Grows.check_eq⟩

def testsAfter (needs : List String) : Workflow where
  name := "CI"
  on := [.push {}]
  jobs := ⟨[("test", .run
    { needs := needs
      runsOn := .label "linux"
      steps := [{ action := .run "make test" none none }] })], List.nodup_singleton _⟩

def testNeedsPath : Path := ⟨[.key "jobs", .key "test", .key "needs"]⟩

theorem check_reports_earliest_secondNeed :
    check .root (testsAfter ["build", "2fast", "lint", "build"]) =
      .error ⟨testNeedsPath.index 1, .mismatch "2fast" Format.jobId.shown⟩ ∧
    IsLeast {last | checkNeeds testNeedsPath (["build", "2fast"].take (last + 1)) ≠ .ok ()} 1 := by
  have hneeds : checkNeeds testNeedsPath ["build", "2fast"] =
      .error ⟨testNeedsPath.index 1, .mismatch "2fast" Format.jobId.shown⟩ := rfl
  have hrefused : checkNeeds testNeedsPath ["build", "2fast"] ≠ .ok () := by simp [hneeds]
  have hgrows : (testsAfter ["build", "2fast"]).Grows .root
      (testsAfter ["build", "2fast", "lint", "build"]) :=
    .job (.intro [] [] ⟨rfl, .run (.needs ⟨by simp, hrefused, by simp⟩)⟩)
  refine ⟨?_, ?_⟩
  · exact (check_reports_earliest .root).2 _ _ hgrows
  · exact (check_reports_earliest testNeedsPath).1.1.least (by simp) hneeds (.refl _)

end ActionsWorkflow
