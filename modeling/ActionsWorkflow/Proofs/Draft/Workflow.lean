import ActionsWorkflow.Proofs.Draft.Jobs
import Mathlib.Data.List.Induction

/-!
# Finishing workflow drafts

Jobs that have been finished one by one are not found at fault again when the workflow is
checked at the end, so that check can only complain about the header or about there being
no jobs at all.
-/

namespace ActionsWorkflow

/-- The first field of the header that breaks a rule. -/
inductive WorkflowHeader.Fails (header : WorkflowHeader) : Violation → Prop
  | name (blank : Blank header.name) : Fails header ⟨Path.root.key "name", .empty⟩
  | runName {runName : String} (named : ¬ Blank header.name)
      (set : header.runName = some runName) (blank : Blank runName) :
      Fails header ⟨Path.root.key "run-name", .empty⟩
  | on {violation : Violation} (named : ¬ Blank header.name)
      (runNamed : ∀ runName ∈ header.runName, ¬ Blank runName)
      (failed : checkTriggers .root header.on = .error violation) :
      Fails header (violation.within (Path.root.key "on"))
  | concurrency {violation : Violation} (named : ¬ Blank header.name)
      (runNamed : ∀ runName ∈ header.runName, ¬ Blank runName)
      (triggered : checkTriggers .root header.on = .ok ())
      (failed : check .root header.concurrency = .error violation) :
      Fails header (violation.within (Path.root.key "concurrency"))

theorem checkNotBlank_eq_error_iff {path : Path} {value : String} {violation : Violation} :
    checkNotBlank path value = .error violation ↔ Blank value ∧ violation = ⟨path, .empty⟩ := by
  rw [checkNotBlank, ← isBlank_iff]
  by_cases h : isBlank value = true <;> simp [h, violate, eq_comm]

theorem checkOptional_eq_error_iff {α : Type} {rule : Path → α → Verdict} {path : Path}
    {value? : Option α} {violation : Violation} :
    checkOptional rule path value? = .error violation ↔
      ∃ value, value? = some value ∧ rule path value = .error violation := by
  cases value? <;> simp [checkOptional]

theorem checkTriggers_eq_mapError (path : Path) (triggers : List Trigger) :
    checkTriggers path triggers = (checkTriggers .root triggers).mapError (·.within path) := by
  rw [← checkTriggers_within, Path.root_within]

theorem check_header_eq_error_iff {header : WorkflowHeader} {violation : Violation} :
    check .root header = .error violation ↔ header.Fails violation := by
  unfold check
  simp only [instCheckableWorkflowHeader, bind_eq_error_iff, checkNotBlank_eq_error_iff,
    checkNotBlank_eq_ok_iff, checkOptional_eq_error_iff, checkOptional_eq_ok_iff,
    checkTriggers_eq_mapError (Path.root.key "on"),
    check_eq_mapError (Path.root.key "concurrency"), mapError_eq_error_iff, mapError_eq_ok_iff]
  constructor
  · rintro (⟨hblank, rfl⟩ | ⟨hname, ⟨runName, hset, hblank, rfl⟩ | ⟨hrunName,
      ⟨found, hon, rfl⟩ | ⟨hon, found, hconcurrency, rfl⟩⟩⟩)
    · exact .name hblank
    · exact .runName hname hset hblank
    · exact .on hname hrunName hon
    · exact .concurrency hname hrunName hon hconcurrency
  · intro h
    cases h with
    | name hblank => exact .inl ⟨hblank, rfl⟩
    | runName hname hset hblank => exact .inr ⟨hname, .inl ⟨_, hset, hblank, rfl⟩⟩
    | on hname hrunName hon => exact .inr ⟨hname, .inr ⟨hrunName, .inl ⟨_, hon, rfl⟩⟩⟩
    | concurrency hname hrunName hon hconcurrency =>
        exact .inr ⟨hname, .inr ⟨hrunName, .inr ⟨hon, _, hconcurrency, rfl⟩⟩⟩

namespace WorkflowDraft

theorem checkJobs_of_fit {path : Path} {jobs : List (String × JobSpec)}
    {table : Table JobEntry} (h : JobsFit jobs table.entries) :
    checkJobs path table = if jobs = [] then violate path .empty else .ok () := by
  cases jobs with
  | nil =>
      rw [checkJobs, h.eq_nil]
      rfl
  | cons job rest =>
      obtain ⟨entry, others, hentries, -⟩ := JobsFit.cons_iff.1 h
      have hsome : table.entries ≠ [] := by
        rw [hentries]
        exact List.cons_ne_nil entry others
      rw [if_neg (List.cons_ne_nil job rest), checkJobs_eq_ok_iff]
      exact ⟨hsome, h.valid⟩

variable {header : WorkflowHeader} {jobs : List (String × JobSpec)} {table : Table JobEntry}

theorem check_eq_error_iff_of_fit (h : JobsFit jobs table.entries) {violation : Violation} :
    check .root ({ header with jobs := table } : Workflow) = .error violation ↔
      header.Fails violation ∨
        header.Valid ∧ jobs = [] ∧ violation = ⟨Path.root.key "jobs", .empty⟩ := by
  have hjobs : checkJobs (Path.root.key "jobs") table = .error violation ↔
      jobs = [] ∧ violation = ⟨Path.root.key "jobs", .empty⟩ := by
    rw [checkJobs_of_fit h]
    by_cases hempty : jobs = [] <;> simp [hempty, violate, eq_comm]
  change (check .root header >>= fun _ => checkJobs (Path.root.key "jobs") table) = _ ↔ _
  rw [bind_eq_error_iff, check_header_eq_error_iff, check_header_eq_ok_iff, hjobs]

theorem check_eq_ok_iff_of_fit (h : JobsFit jobs table.entries) :
    check .root ({ header with jobs := table } : Workflow) = .ok () ↔
      header.Valid ∧ jobs ≠ [] := by
  have hjobs : checkJobs (Path.root.key "jobs") table = .ok () ↔ jobs ≠ [] := by
    rw [checkJobs_of_fit h]
    by_cases hempty : jobs = [] <;> simp [hempty, violate]
  change (check .root header >>= fun _ => checkJobs (Path.root.key "jobs") table) = _ ↔ _
  rw [bind_eq_ok_iff, check_header_eq_ok_iff, hjobs]

theorem segments_ne_of_fails {violation : Violation} (h : header.Fails violation)
    (segment : Segment) (rest : List Segment) :
    violation.path.segments ≠ .key "jobs" :: segment :: rest := by
  cases h <;> simp [Path.key, Path.root, Path.within]

/-! ## Outcomes -/

variable {draft : WorkflowDraft}

theorem finish_of_addJobs (h : addJobs .empty draft.jobs = .ok table) :
    draft.finish =
      (check .root ({ draft with jobs := table } : Workflow)).map fun _ =>
        { draft with jobs := table } := by
  rw [finish, h]
  exact bind_pure_eq_map _ _

theorem finish_of_addJobs_eq_error {violation : Violation}
    (h : addJobs .empty draft.jobs = .error violation) : draft.finish = .error violation := by
  rw [finish, h]
  rfl

theorem finish_eq_error_iff {violation : Violation} :
    draft.finish = .error violation ↔
      FirstFails draft.jobs violation ∨
      (∃ entries, JobsFit draft.jobs entries) ∧
        (draft.toWorkflowHeader.Fails violation ∨
          draft.toWorkflowHeader.Valid ∧ draft.jobs = [] ∧
            violation = ⟨Path.root.key "jobs", .empty⟩) := by
  rw [← addJobs_eq_error_iff, ← exists_addJobs_iff]
  cases hadded : addJobs .empty draft.jobs with
  | error found =>
      rw [finish_of_addJobs_eq_error hadded]
      simp
  | ok table =>
      have hfit := addJobs_empty_eq_ok_iff.1 hadded
      rw [finish_of_addJobs hadded, map_const_eq_error_iff, check_eq_error_iff_of_fit hfit]
      simp

theorem finish_eq_ok_iff {workflow : Workflow} :
    draft.finish = .ok workflow ↔
      JobsFit draft.jobs workflow.jobs.entries ∧ draft.toWorkflowHeader.Valid ∧
        draft.jobs ≠ [] ∧ workflow.toWorkflowHeader = draft.toWorkflowHeader := by
  rw [← addJobs_empty_eq_ok_iff]
  cases hadded : addJobs .empty draft.jobs with
  | error found =>
      rw [finish_of_addJobs_eq_error hadded]
      simp
  | ok table =>
      have hfit := addJobs_empty_eq_ok_iff.1 hadded
      rw [finish_of_addJobs hadded, map_const_eq_ok_iff, check_eq_ok_iff_of_fit hfit]
      obtain ⟨header, jobs⟩ := workflow
      constructor
      · rintro ⟨⟨hheader, hjobs⟩, hworkflow⟩
        cases hworkflow
        exact ⟨rfl, hheader, hjobs, rfl⟩
      · rintro ⟨htable, hheader, hjobs, rfl⟩
        cases htable
        exact ⟨⟨hheader, hjobs⟩, rfl⟩

end WorkflowDraft

/-! ## Sequences of edits -/

def WorkflowEdit.job? : WorkflowEdit → Option (String × JobSpec)
  | .job id spec => some (id, spec)
  | _ => none

def WorkflowEdit.runName? : WorkflowEdit → Option String
  | .runName given => some given
  | _ => none

def WorkflowEdit.trigger? : WorkflowEdit → Option Trigger
  | .on given => some given
  | _ => none

def WorkflowEdit.permissions? : WorkflowEdit → Option Permissions
  | .permissions given => some given
  | _ => none

def WorkflowEdit.assignment? : WorkflowEdit → Option (String × Scalar)
  | .env key value => some (key, value)
  | _ => none

def WorkflowEdit.defaults? : WorkflowEdit → Option Defaults
  | .defaults given => some given
  | _ => none

def WorkflowEdit.concurrency? : WorkflowEdit → Option Concurrency
  | .concurrency given => some given
  | _ => none

/-- There is no table before something is put into it. -/
def Table.ofList? {α : Type} : List (String × α) → Option (Table α)
  | [] => none
  | pair :: rest => some (ofList (pair :: rest))

/-- What edits make of the header: the triggers stand in the order in which they came, the
environment holds what was assigned in turn, and of all else the last edit counts. -/
def WorkflowHeader.ofEdits (name : String) (edits : List WorkflowEdit) : WorkflowHeader where
  name := name
  runName := (edits.filterMap WorkflowEdit.runName?).getLast?
  on := edits.filterMap WorkflowEdit.trigger?
  permissions := (edits.filterMap WorkflowEdit.permissions?).getLast?
  env := Table.ofList? (edits.filterMap WorkflowEdit.assignment?)
  defaults := (edits.filterMap WorkflowEdit.defaults?).getLast?
  concurrency := (edits.filterMap WorkflowEdit.concurrency?).getLast?

/-- The same edit, but for a job that is handed over before or after it is finished. -/
inductive WorkflowEdit.SameJob : WorkflowEdit → WorkflowEdit → Prop
  | refl (edit : WorkflowEdit) : SameJob edit edit
  | job {id : String} {draft : JobDraft} {job : Job} (finished : draft.finish = .ok job) :
      SameJob (.job id (.job draft)) (.job id (.finished (.run job)))
  | call {id : String} {draft : CallDraft} {job : CallJob} (finished : draft.finish = .ok job) :
      SameJob (.job id (.call draft)) (.job id (.finished (.call job)))

namespace WorkflowDraft

theorem jobs_apply (draft : WorkflowDraft) (edit : WorkflowEdit) :
    (draft.apply edit).jobs = draft.jobs ++ edit.job?.toList := by
  cases edit <;> simp [apply, WorkflowEdit.job?]

theorem jobs_foldl_apply (draft : WorkflowDraft) (edits : List WorkflowEdit) :
    (edits.foldl apply draft).jobs = draft.jobs ++ edits.filterMap WorkflowEdit.job? := by
  induction edits generalizing draft with
  | nil => simp
  | cons edit rest ih =>
      rw [List.foldl_cons, ih, jobs_apply, List.append_assoc]
      cases h : edit.job? <;> simp [h]

theorem jobs_ofEdits (name : String) (edits : List WorkflowEdit) :
    (ofEdits name edits).jobs = edits.filterMap WorkflowEdit.job? :=
  jobs_foldl_apply { name } edits

theorem insertInto_ofList? {α : Type} (pairs : List (String × α)) (key : String) (value : α) :
    Table.insertInto (Table.ofList? pairs) key value =
      Table.ofList? (pairs ++ [(key, value)]) := by
  cases pairs with
  | nil => rfl
  | cons pair rest =>
      simp [Table.insertInto, Table.ofList?, Table.ofList]

theorem header_apply (name : String) (edits : List WorkflowEdit) (edit : WorkflowEdit)
    {draft : WorkflowDraft} (h : draft.toWorkflowHeader = .ofEdits name edits) :
    (draft.apply edit).toWorkflowHeader = .ofEdits name (edits ++ [edit]) := by
  obtain ⟨header, jobs⟩ := draft
  obtain rfl : header = .ofEdits name edits := h
  cases edit <;>
    simp [apply, WorkflowHeader.ofEdits, WorkflowEdit.runName?, WorkflowEdit.trigger?,
      WorkflowEdit.permissions?, WorkflowEdit.assignment?, WorkflowEdit.defaults?,
      WorkflowEdit.concurrency?, insertInto_ofList?, List.filterMap_cons]

theorem header_ofEdits (name : String) (edits : List WorkflowEdit) :
    (ofEdits name edits).toWorkflowHeader = .ofEdits name edits := by
  induction edits using List.reverseRecOn with
  | nil => rfl
  | append_singleton edits edit ih =>
      rw [ofEdits, List.foldl_concat]
      exact header_apply name edits edit ih

theorem FirstFails.append {jobs : List (String × JobSpec)} {violation : Violation}
    (h : FirstFails jobs violation) (more : List (String × JobSpec)) :
    FirstFails (jobs ++ more) violation := by
  obtain ⟨before, job, after, rfl, hfit, hfails⟩ := h
  exact ⟨before, job, after ++ more, by simp, hfit, hfails⟩

def Alike (first second : WorkflowDraft) : Prop :=
  first.toWorkflowHeader = second.toWorkflowHeader ∧
    List.Forall₂ (fun job other => job.1 = other.1 ∧ job.2.finish = other.2.finish)
      first.jobs second.jobs

theorem addJobs_congr {jobs others : List (String × JobSpec)} (start : Table JobEntry)
    (h : List.Forall₂ (fun job other => job.1 = other.1 ∧ job.2.finish = other.2.finish)
      jobs others) : addJobs start jobs = addJobs start others := by
  induction h generalizing start with
  | nil => rfl
  | @cons job other rest others hjob hrest ih =>
      obtain ⟨id, spec⟩ := job
      obtain ⟨_, otherSpec⟩ := other
      obtain ⟨rfl, hspec⟩ := hjob
      have hstep : addJob start id spec = addJob start id otherSpec := by
        rw [addJob_eq, addJob_eq, hspec]
      rw [addJobs, addJobs, hstep]
      cases addJob start id otherSpec with
      | error => rfl
      | ok changed => exact ih changed

theorem Alike.finish_eq {first second : WorkflowDraft} (h : first.Alike second) :
    first.finish = second.finish := by
  obtain ⟨hheader, hjobs⟩ := h
  rw [finish, finish, addJobs_congr .empty hjobs, hheader]

theorem Alike.apply {first second : WorkflowDraft} (h : first.Alike second)
    {edit other : WorkflowEdit} (hedit : edit.SameJob other) :
    (first.apply edit).Alike (second.apply other) := by
  obtain ⟨header, jobs⟩ := first
  obtain ⟨_, others⟩ := second
  obtain ⟨rfl, hjobs⟩ := h
  cases hedit with
  | refl edit =>
      cases edit with
      | job id spec => exact ⟨rfl, List.rel_append hjobs (.cons ⟨rfl, rfl⟩ .nil)⟩
      | _ => exact ⟨rfl, hjobs⟩
  | job hfinished =>
      exact ⟨rfl, List.rel_append hjobs (.cons ⟨rfl, JobSpec.finish_job_eq hfinished⟩ .nil)⟩
  | call hfinished =>
      exact ⟨rfl, List.rel_append hjobs (.cons ⟨rfl, JobSpec.finish_call_eq hfinished⟩ .nil)⟩

theorem Alike.foldl_apply {first second : WorkflowDraft} (h : first.Alike second)
    {edits others : List WorkflowEdit} (hedits : List.Forall₂ WorkflowEdit.SameJob edits others) :
    (edits.foldl WorkflowDraft.apply first).Alike
      (others.foldl WorkflowDraft.apply second) := by
  induction hedits generalizing first second with
  | nil => exact h
  | cons hedit _ ih => exact ih (h.apply hedit)

theorem Alike.refl (draft : WorkflowDraft) : draft.Alike draft :=
  ⟨rfl, List.forall₂_same.2 fun _ _ => ⟨rfl, rfl⟩⟩

/-- The header is what the edits make of it, and the jobs are finished in the order of the
edits that added them.  The first that cannot be added decides the failure, whatever edits
follow, and it does not matter which jobs were finished before they were handed over.  If
all can be added, the check at the end finds no fault with them: it fails at the first bad
field of the header, or for want of any job. -/
theorem finish_ofEdits (name : String) (edits : List WorkflowEdit) :
    let draft := ofEdits name edits
    let header := WorkflowHeader.ofEdits name edits
    draft.toWorkflowHeader = header ∧
    draft.jobs = edits.filterMap WorkflowEdit.job? ∧
    (∀ violation, draft.finish = .error violation ↔
      FirstFails draft.jobs violation ∨
      (∃ entries, JobsFit draft.jobs entries) ∧
        (header.Fails violation ∨
          header.Valid ∧ draft.jobs = [] ∧ violation = ⟨Path.root.key "jobs", .empty⟩)) ∧
    (∀ workflow, draft.finish = .ok workflow ↔
      JobsFit draft.jobs workflow.jobs.entries ∧ header.Valid ∧ draft.jobs ≠ [] ∧
        workflow.toWorkflowHeader = header) ∧
    (∀ violation, FirstFails draft.jobs violation →
      ∀ later, (ofEdits name (edits ++ later)).finish = .error violation) ∧
    (∀ others, List.Forall₂ WorkflowEdit.SameJob edits others →
      (ofEdits name others).finish = draft.finish) ∧
    ∀ table, addJobs .empty draft.jobs = .ok table → ∀ violation,
      check .root ({ header with jobs := table } : Workflow) = .error violation →
        ∀ segment rest, violation.path.segments ≠ .key "jobs" :: segment :: rest := by
  intro draft header
  have hheader : draft.toWorkflowHeader = header := header_ofEdits name edits
  rw [← hheader]
  refine ⟨rfl, jobs_ofEdits name edits, fun _ => finish_eq_error_iff,
    fun _ => finish_eq_ok_iff, ?later, ?alike, ?closing⟩
  case later =>
    intro violation hfails later
    rw [finish_eq_error_iff]
    left
    rw [jobs_ofEdits] at hfails
    rw [jobs_ofEdits, List.filterMap_append]
    exact hfails.append _
  case alike =>
    intro others hothers
    exact ((Alike.refl _).foldl_apply hothers).finish_eq.symm
  case closing =>
    intro table hadded violation hviolation segment rest
    have hfit := addJobs_empty_eq_ok_iff.1 hadded
    rcases (check_eq_error_iff_of_fit hfit).1 hviolation with hfails | ⟨-, -, rfl⟩
    · exact segments_ne_of_fails hfails segment rest
    · simp [Path.key, Path.root]

def testDraft : JobDraft :=
  .ofEdits [.runsOn (.label "linux"), .steps [{ action := .run "make" none none }]]

def testJob : Job :=
  { runsOn := .label "linux", steps := [{ action := .run "make" none none }] }

def testThenLint (test : JobSpec) : List WorkflowEdit :=
  [.on (.push {}), .job "test" test, .job "lint" (.job {}), .job "test" test]

def lintViolation : Violation :=
  ⟨((Path.root.key "jobs").key "lint").key "runs-on", .required⟩

def noJobsViolation : Violation := ⟨Path.root.key "jobs", .empty⟩

def runNameViolation : Violation := ⟨Path.root.key "run-name", .empty⟩

def renamedTwice : List WorkflowEdit :=
  [.runName "Nightly", .env "MODE" (.text "fast"), .on (.push {}), .runName " ",
    .env "MODE" (.text "slow")]

theorem finish_ofEdits_testThenLint :
    testDraft.finish = .ok testJob ∧
    FirstFails (ofEdits "CI" (testThenLint (.job testDraft))).jobs lintViolation ∧
    (ofEdits "CI" (testThenLint (.job testDraft) ++ [.runName " "])).finish =
      .error lintViolation ∧
    (ofEdits "CI" (testThenLint (.finished (.run testJob)))).finish =
      (ofEdits "CI" (testThenLint (.job testDraft))).finish ∧
    addJobs .empty (ofEdits "CI" [.on (.push {})]).jobs = .ok .empty ∧
    check .root ({ WorkflowHeader.ofEdits "CI" [.on (.push {})] with jobs := .empty } :
      Workflow) = .error noJobsViolation ∧
    noJobsViolation.path.segments ≠ [.key "jobs", .index 0] ∧
    (ofEdits "CI" renamedTwice).env = some (Table.ofList [("MODE", .text "slow")]) ∧
    (ofEdits "CI" renamedTwice).finish = .error runNameViolation := by
  have hfinished : testDraft.finish = .ok testJob := rfl
  have hlint : JobFails ["test"] ("lint", .job {})
      (Violation.within ⟨Path.root.key "runs-on", .required⟩
        ((Path.root.key "jobs").key "lint")) :=
    .spec rfl (by decide) rfl
  have htest : JobsFit [("test", .job testDraft)] [("test", .run testJob)] :=
    ⟨by simp only [List.mem_singleton, forall_eq]; rfl, List.nodup_singleton _,
      .cons ⟨rfl, rfl⟩ .nil⟩
  have hfails : FirstFails (ofEdits "CI" (testThenLint (.job testDraft))).jobs lintViolation :=
    ⟨_, _, [("test", .job testDraft)], rfl, ⟨_, htest⟩, hlint⟩
  have hsame : List.Forall₂ WorkflowEdit.SameJob (testThenLint (.job testDraft))
      (testThenLint (.finished (.run testJob))) :=
    .cons (.refl _) (.cons (.job hfinished) (.cons (.refl _) (.cons (.job hfinished) .nil)))
  have hadded : addJobs .empty (ofEdits "CI" [.on (.push {})]).jobs = .ok .empty := rfl
  have hempty : check .root
      ({ WorkflowHeader.ofEdits "CI" [.on (.push {})] with jobs := .empty } : Workflow) =
        .error noJobsViolation := rfl
  have hrunName : (WorkflowHeader.ofEdits "CI" renamedTwice).Fails runNameViolation :=
    check_header_eq_error_iff.1 rfl
  obtain ⟨-, -, -, -, hlater, hothers, -⟩ :=
    finish_ofEdits "CI" (testThenLint (.job testDraft))
  obtain ⟨-, -, -, -, -, -, hclosing⟩ := finish_ofEdits "CI" [.on (.push {})]
  obtain ⟨hheader, -, hfinish, -⟩ := finish_ofEdits "CI" renamedTwice
  exact ⟨hfinished, hfails, hlater _ hfails _, hothers _ hsame, hadded, hempty,
    hclosing _ hadded _ hempty _ _, congrArg WorkflowHeader.env hheader,
    (hfinish _).2 (.inr ⟨⟨[], JobsFit.nil⟩, .inl hrunName⟩)⟩

end WorkflowDraft

end ActionsWorkflow
