import ActionsWorkflow.Draft.Workflow
import ActionsWorkflow.Proofs.Relocation.Record

/-!
# Jobs and workflows at other places

Every record with rules of its own is checked in the same way wherever it stands.  A job
that is finished on its own therefore reports, once its violation is moved to the place of
the job, what a check at that place reports.
-/

namespace ActionsWorkflow

variable (path outer : Path)

instance : Relocatable StepAction where
  check_within path outer action := by
    unfold check
    cases action <;>
      simp only [instCheckableStepAction, ← Path.key_within, checkNotBlank_within]

instance : Relocatable Step where
  check_within path outer step := by
    unfold check
    simp only [instCheckableStep, mapError_bind, ← Path.key_within, check_within,
      checkOptional_within, checkNotBlank_within, checkAtLeast_within, implies_true]

theorem checkStep_within (before : List Step) (step : Step) :
    checkStep (path.within outer) before step =
      (checkStep path before step).mapError (·.within outer) := by
  simp only [checkStep, mapError_bind, ← Path.index_within, check_within]
  cases step.id with
  | none => rfl
  | some id => simp only [mapError_ite, mapError_ok, ← Path.key_within, violate_within]

theorem checkSteps_within (steps : List Step) :
    checkSteps (path.within outer) steps =
      (checkSteps path steps).mapError (·.within outer) := by
  have heach : checkEach (checkStep (path.within outer)) [] steps =
      (checkEach (checkStep path) [] steps).mapError (·.within outer) :=
    checkEach_within outer fun before step => checkStep_within path outer before step
  simp only [checkSteps, mapError_bind, checkNotEmpty_within, heach]

theorem checkNeeds_within (needs : List String) :
    checkNeeds (path.within outer) needs =
      (checkNeeds path needs).mapError (·.within outer) := by
  refine checkEach_within outer fun before need => ?_
  simp only [checkNeed, pure_eq_ok, mapError_bind, mapError_ite, mapError_ok,
    ← Path.index_within, checkFormat_within, violate_within]

theorem JobSettings.checkStart_within (settings : JobSettings) :
    settings.checkStart (path.within outer) =
      (settings.checkStart path).mapError (·.within outer) := by
  simp only [JobSettings.checkStart, mapError_bind, ← Path.key_within, checkOptional_within,
    checkNotBlank_within, checkNeeds_within, implies_true]

theorem JobSettings.checkScheduling_within (settings : JobSettings) :
    settings.checkScheduling (path.within outer) =
      (settings.checkScheduling path).mapError (·.within outer) := by
  simp only [JobSettings.checkScheduling, mapError_bind, ← Path.key_within, check_within]

theorem checkServices_within (services : Table Container) :
    checkServices (path.within outer) services =
      (checkServices path services).mapError (·.within outer) := by
  refine checkEach_within outer fun _ entry => ?_
  simp only [checkService, mapError_bind, ← Path.key_within, checkNotBlank_within,
    check_within]

theorem checkOutputs_within (outputs : Table String) :
    checkOutputs (path.within outer) outputs =
      (checkOutputs path outputs).mapError (·.within outer) := by
  refine checkEach_within outer fun _ entry => ?_
  rw [← Path.key_within, checkNotBlank_within]

instance : Relocatable Job where
  check_within path outer job := by
    unfold check
    simp only [instCheckableJob, mapError_bind, JobSettings.checkStart_within,
      JobSettings.checkScheduling_within, ← Path.key_within, check_within,
      checkOptional_within, checkServices_within, checkOutputs_within, checkAtLeast_within,
      checkSteps_within, implies_true]

instance : Relocatable CallJob where
  check_within path outer job := by
    unfold check
    simp only [instCheckableCallJob, mapError_bind, JobSettings.checkStart_within,
      JobSettings.checkScheduling_within, ← Path.key_within, checkFormat_within]

instance : Relocatable JobEntry where
  check_within path outer entry := by
    cases entry with
    | run job => exact check_within path outer job
    | call job => exact check_within path outer job

instance : Relocatable WorkflowHeader where
  check_within path outer header := by
    unfold check
    simp only [instCheckableWorkflowHeader, mapError_bind, ← Path.key_within, check_within,
      checkNotBlank_within, checkOptional_within, checkTriggers_within, implies_true]

theorem checkJobs_within (jobs : Table JobEntry) :
    checkJobs (path.within outer) jobs =
      (checkJobs path jobs).mapError (·.within outer) := by
  have heach : checkEach (fun _ entry => checkJob (path.within outer) entry) [] jobs.entries =
      (checkEach (fun _ entry => checkJob path entry) [] jobs.entries).mapError
        (·.within outer) := by
    refine checkEach_within outer fun _ entry => ?_
    simp only [checkJob, mapError_bind, ← Path.key_within, checkFormat_within, check_within]
  simp only [checkJobs, mapError_bind, checkNotEmpty_within, heach]

instance : Relocatable Workflow where
  check_within path outer workflow := by
    unfold check
    simp only [instCheckableWorkflow, mapError_bind, check_within, ← Path.key_within,
      checkJobs_within]

/-! ## All kinds of records -/

structure RecordType where
  Record : Type
  check : Path → Record → Verdict

namespace RecordType

def of (α : Type) [Checkable α] : RecordType := ⟨α, Checkable.check⟩

def optional (type : RecordType) : RecordType := ⟨Option type.Record, checkOptional type.check⟩

def Relocatable (type : RecordType) : Prop :=
  ∀ (path outer : Path) (record : type.Record),
    type.check (path.within outer) record =
      (type.check path record).mapError (·.within outer)

theorem relocatable_of (α : Type) [Checkable α] [ActionsWorkflow.Relocatable α] :
    (of α).Relocatable :=
  fun path outer (record : α) => check_within path outer record

theorem relocatable_optional {type : RecordType} (h : type.Relocatable) :
    type.optional.Relocatable := by
  intro path outer record
  exact checkOptional_within path outer record fun path record => h path outer record

end RecordType

/-- The records with rules of their own, and such records where they may be left out. -/
inductive RecordKind where
  | workflow
  | triggers
  | trigger
  | pushFilters
  | pullRequestFilters
  | input
  | job
  | callJob
  | jobEntry
  | runsOn
  | environment
  | concurrency
  | strategy
  | matrix
  | container
  | jobContainer
  | step
  | optional (kind : RecordKind)

namespace RecordKind

def type : RecordKind → RecordType
  | .workflow => .of Workflow
  | .triggers => ⟨List Trigger, checkTriggers⟩
  | .trigger => .of Trigger
  | .pushFilters => .of PushFilters
  | .pullRequestFilters => .of PullRequestFilters
  | .input => .of Input
  | .job => .of Job
  | .callJob => .of CallJob
  | .jobEntry => .of JobEntry
  | .runsOn => .of RunsOn
  | .environment => .of Environment
  | .concurrency => .of Concurrency
  | .strategy => .of Strategy
  | .matrix => .of Matrix
  | .container => .of Container
  | .jobContainer => .of JobContainer
  | .step => .of Step
  | .optional kind => kind.type.optional

theorem relocatable_type (kind : RecordKind) : kind.type.Relocatable := by
  induction kind with
  | triggers => exact checkTriggers_within
  | optional kind ih => exact RecordType.relocatable_optional ih
  | _ => exact RecordType.relocatable_of _

end RecordKind

theorem mapError_eq_ok_iff {α : Type} {result : Except Violation α} {outer : Path} {value : α} :
    result.mapError (·.within outer) = .ok value ↔ result = .ok value := by
  cases result <;> simp [Except.mapError]

theorem mapError_eq_error_iff {α : Type} {result : Except Violation α} {outer : Path}
    {violation : Violation} :
    result.mapError (·.within outer) = .error violation ↔
      ∃ found, result = .error found ∧ violation = found.within outer := by
  cases result <;> simp [Except.mapError, eq_comm]

theorem Violation.eq_within_iff {violation found : Violation} {outer : Path} :
    violation = found.within outer ↔
      violation.path = found.path.within outer ∧ violation.reason = found.reason := by
  obtain ⟨path, reason⟩ := violation
  simp [Violation.within]

/-! ## Finished jobs -/

theorem bind_pure_eq_map {α : Type} (verdict : Verdict) (value : α) :
    (verdict >>= fun _ => pure value) = verdict.map fun _ => value := by
  cases verdict <;> rfl

theorem mapError_map {α β : Type} (result : Except Violation α) (change : α → β)
    (move : Violation → Violation) :
    (result.map change).mapError move = (result.mapError move).map change := by
  cases result <;> rfl

theorem JobSpec.finish_finished (entry : JobEntry) :
    (JobSpec.finished entry).finish = (check .root entry).map fun _ => entry :=
  bind_pure_eq_map _ entry

theorem JobDraft.finish_eq_map {draft : JobDraft} {runsOn : RunsOn}
    (h : draft.runsOn = some runsOn) :
    draft.finish = (check .root ({ draft with runsOn } : Job)).map fun _ =>
      { draft with runsOn } := by
  rw [JobDraft.finish, h]
  exact bind_pure_eq_map _ _

theorem CallDraft.finish_eq_map {draft : CallDraft} {uses : String}
    (h : draft.uses = some uses) :
    draft.finish = (check .root ({ draft with uses } : CallJob)).map fun _ =>
      { draft with uses } := by
  rw [CallDraft.finish, h]
  exact bind_pure_eq_map _ _

/-- A record is accepted at one place if it is at all others, and its violation is the one
found at the root, seen from further out.  So it does not matter whether a job is finished
by itself or checked in its place. -/
theorem check_relocates (path : Path) :
    (∀ (kind : RecordKind) (record : kind.type.Record),
      (kind.type.check path record = .ok () ↔ kind.type.check .root record = .ok ()) ∧
      ∀ violation, kind.type.check path record = .error violation ↔
        ∃ found, kind.type.check .root record = .error found ∧
          violation.path = found.path.within path ∧ violation.reason = found.reason) ∧
    (∀ entry : JobEntry, (JobSpec.finished entry).finish.mapError (·.within path) =
      (check path entry).map fun _ => entry) ∧
    (∀ (body : JobBody) (runsOn : RunsOn),
      let draft : JobDraft := { body with runsOn := some runsOn }
      let job : Job := { body with runsOn }
      draft.finish.mapError (·.within path) = (check path job).map fun _ => job) ∧
    ∀ (body : CallBody) (uses : String),
      let draft : CallDraft := { body with uses := some uses }
      let job : CallJob := { body with uses }
      draft.finish.mapError (·.within path) = (check path job).map fun _ => job := by
  refine ⟨fun kind record => ?_, fun entry => ?_, fun body runsOn => ?_, fun body uses => ?_⟩
  · have hmoved : kind.type.check path record =
        (kind.type.check .root record).mapError (·.within path) := by
      rw [← kind.relocatable_type, Path.root_within]
    rw [hmoved, mapError_eq_ok_iff]
    refine ⟨Iff.rfl, fun violation => ?_⟩
    simp only [mapError_eq_error_iff, Violation.eq_within_iff]
  · rw [JobSpec.finish_finished, mapError_map, ← check_eq_mapError]
  · intro draft job
    rw [JobDraft.finish_eq_map rfl, mapError_map, ← check_eq_mapError]
  · intro draft job
    rw [CallDraft.finish_eq_map rfl, mapError_map, ← check_eq_mapError]

end ActionsWorkflow
