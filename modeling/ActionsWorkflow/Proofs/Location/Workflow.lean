import ActionsWorkflow.Encoding.Workflow
import ActionsWorkflow.Proofs.Location.Job
import ActionsWorkflow.Proofs.Location.Trigger
import ActionsWorkflow.Validity.Workflow

/-!
# Violations in workflows

The path of a violation leads through the document of the workflow to what breaks the rule.
A job id is a key, so a bad one is reported at the job that it is the key of.
-/

namespace ActionsWorkflow

/-- The keys that a violation can say are missing. -/
inductive Workflow.MayLack : Gap
  | workflows (node : Document) :
      MayLack [.key "on", .key "workflow_run"] "workflows" node .required
  | options (event input : String) {node : Document}
      (choice : node.field? "type" = some (.text "choice")) :
      MayLack [.key "on", .key event, .key "inputs", .key input] "options" node
        .optionsRequired

variable {path : Path}

theorem located_header {workflow : Workflow} :
    Located Workflow.MayLack path (toDocument workflow)
      (check path workflow.toWorkflowHeader) := by
  have htriggers : Located (Gap.under Workflow.MayLack (.key "on")) (path.key "on")
      (triggersDocument workflow.on) (checkTriggers (path.key "on") workflow.on) := by
    apply located_triggers
    · exact .workflows
    · exact fun event input _ => .options event input
  change Located _ path (.record _) _
  refine .bind (.field (toDocument workflow.name) ?_ .notBlank) fun _ =>
    .bind (.optionalField ?_ fun _ _ => .notBlank) fun _ =>
    .bind (.field (triggersDocument workflow.on) ?_ htriggers) fun _ =>
    .optionalField ?_ fun _ _ => located_concurrency
  all_goals simp

theorem checkJobs_eq_error {gap : Gap} {jobs : Table JobEntry} {violation : Violation}
    (h : checkJobs path jobs = .error violation) :
    (∃ job ∈ jobs.entries, Format.jobId.accepts job.1 = false ∧
      violation = ⟨path.key job.1, .mismatch job.1 Format.jobId.shown⟩) ∨
    ∃ segments, violation.path.segments = path.segments ++ segments ∧
      (toDocument jobs).Explains gap segments violation.reason := by
  rw [checkJobs, bind_eq_error_iff] at h
  rcases h with hempty | ⟨-, hjobs⟩
  · exact .inr (Located.notEmpty violation hempty)
  · obtain ⟨front, job, back, hentries, -, hjob⟩ := checkEach_eq_error hjobs
    have hmem : job ∈ jobs.entries := by simp [hentries]
    rw [checkJob, bind_eq_error_iff] at hjob
    rcases hjob with hid | ⟨-, hentry⟩
    · left
      refine ⟨job, hmem, ?_⟩
      rw [checkFormat] at hid
      split at hid
      next => cases hid
      next hrefused =>
        cases hid
        exact ⟨Bool.eq_false_iff.2 hrefused, rfl⟩
    · right
      exact Located.field (toDocument job.2) (Document.field?_table_of_mem hmem)
        located_jobEntry violation hentry

theorem check_workflow_eq_error {workflow : Workflow} {violation : Violation}
    (h : check .root workflow = .error violation) :
    (∃ job ∈ workflow.jobs.entries, Format.jobId.accepts job.1 = false ∧
      violation = ⟨(Path.root.key "jobs").key job.1, .mismatch job.1 Format.jobId.shown⟩) ∨
    (toDocument workflow).Explains Workflow.MayLack violation.path.segments
      violation.reason := by
  change (check .root workflow.toWorkflowHeader >>= fun _ =>
    checkJobs (Path.root.key "jobs") workflow.jobs) = _ at h
  rw [bind_eq_error_iff] at h
  rcases h with hheader | ⟨-, hjobs⟩
  · obtain ⟨segments, hsegments, hexplains⟩ := located_header violation hheader
    right
    rw [hsegments]
    exact hexplains
  · rcases checkJobs_eq_error hjobs with hid | ⟨segments, hsegments, hexplains⟩
    · exact .inl hid
    · have hchild : (toDocument workflow).child? (.key "jobs") =
          some (toDocument workflow.jobs) := Document.field?_jobs workflow
      right
      rw [hsegments]
      exact hexplains.descend hchild

/-- The path of a violation leads to a node, which is the value that is reported unless that
is a job id; or all of it but the last key leads to a mapping without this key. -/
theorem check_workflow_located {workflow : Workflow} {violation : Violation}
    (h : check .root workflow = .error violation) :
    (∃ node, (toDocument workflow).resolve violation.path.segments = some node ∧
      (violation.reason.Describes node ∨
        ∃ id, Format.jobId.accepts id = false ∧
          violation = ⟨⟨[.key "jobs", .key id]⟩, .mismatch id Format.jobId.shown⟩)) ∨
    ∃ front name entries, violation.path.segments = front ++ [.key name] ∧
      (toDocument workflow).resolve front = some (.mapping entries) ∧
      (∀ entry ∈ entries, entry.1 ≠ name) ∧
      Workflow.MayLack front name (.mapping entries) violation.reason := by
  rcases check_workflow_eq_error h with ⟨job, hjob, hid, rfl⟩ | ⟨node, hnode, hdescribes⟩ | hgap
  · have hjobs : (toDocument workflow).child? (.key "jobs") =
        some (toDocument workflow.jobs) := Document.field?_jobs workflow
    have hentry : (toDocument workflow.jobs).child? (.key job.1) =
        some (toDocument job.2) := Document.field?_table_of_mem hjob
    left
    refine ⟨toDocument job.2, ?_, .inr ⟨job.1, hid, rfl⟩⟩
    change (toDocument workflow).resolve [.key "jobs", .key job.1] = _
    rw [Document.resolve_cons_of_child? hjobs, Document.resolve_cons_of_child? hentry]
    rfl
  · exact .inl ⟨node, hnode, .inl hdescribes⟩
  · exact .inr hgap

def timelessStep : Workflow where
  name := "CI"
  on := [.push {}, .manual none]
  jobs := ⟨[("test", .run
    { runsOn := .label "linux"
      steps := [{ action := .run "make" none none },
        { action := .run "make test" none none, timeoutMinutes := some 0 }] })], by decide⟩

def timelessStepPath : Path :=
  ⟨[.key "jobs", .key "test", .key "steps", .index 1, .key "timeout-minutes"]⟩

theorem check_workflow_located_timelessStep :
    check .root timelessStep = .error ⟨timelessStepPath, .belowMinimum 1⟩ ∧
    ∃ node, (toDocument timelessStep).resolve timelessStepPath.segments = some node ∧
      (Reason.belowMinimum 1).Describes node := by
  have hcheck : check .root timelessStep = .error ⟨timelessStepPath, .belowMinimum 1⟩ := rfl
  refine ⟨hcheck, ?_⟩
  rcases check_workflow_located hcheck with
    ⟨node, hnode, hdescribes | ⟨id, -, hid⟩⟩ | ⟨_, _, _, -, -, -, hlack⟩
  · exact ⟨node, hnode, hdescribes⟩
  · cases hid
  · cases hlack

end ActionsWorkflow
