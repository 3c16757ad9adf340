import ActionsWorkflow.Proofs.Relocation.Workflow
import ActionsWorkflow.Proofs.Table.Entries
import ActionsWorkflow.Proofs.Validity.Workflow
import Mathlib.Data.List.Forall2

/-!
# Adding jobs to a draft

The jobs of a draft are finished in the order in which they were added, and the first that
cannot be added decides the failure.  Otherwise each job becomes the entry that it is
finished as, under its id and in its place.
-/

namespace ActionsWorkflow

theorem map_const_eq_ok_iff {α : Type} {verdict : Verdict} {value result : α} :
    (verdict.map fun _ => value) = .ok result ↔ verdict = .ok () ∧ value = result := by
  cases verdict <;> simp [Except.map]

theorem map_const_eq_error_iff {α : Type} {verdict : Verdict} {value : α}
    {violation : Violation} :
    (verdict.map fun _ => value) = .error violation ↔ verdict = .error violation := by
  cases verdict <;> simp [Except.map]

theorem map_eq_ok_iff {α β : Type} {result : Except Violation α} {change : α → β} {value : β} :
    result.map change = .ok value ↔ ∃ found, result = .ok found ∧ change found = value := by
  cases result <;> simp [Except.map]

theorem JobDraft.check_of_finish {draft : JobDraft} {job : Job} (h : draft.finish = .ok job) :
    check .root job = .ok () := by
  cases hrunsOn : draft.runsOn with
  | none =>
      rw [finish, hrunsOn] at h
      cases h
  | some runsOn =>
      rw [finish_eq_map hrunsOn, map_const_eq_ok_iff] at h
      obtain ⟨hcheck, rfl⟩ := h
      exact hcheck

theorem CallDraft.finish_eq_ok {draft : CallDraft} {job : CallJob}
    (h : draft.finish = .ok job) :
    check .root job = .ok () ∧ ∃ uses, draft.uses = some uses ∧ { draft with uses } = job := by
  cases huses : draft.uses with
  | none =>
      rw [finish, huses] at h
      cases h
  | some uses =>
      rw [finish_eq_map huses, map_const_eq_ok_iff] at h
      obtain ⟨hcheck, rfl⟩ := h
      exact ⟨hcheck, uses, rfl, rfl⟩

theorem CallDraft.check_of_finish {draft : CallDraft} {job : CallJob}
    (h : draft.finish = .ok job) : check .root job = .ok () :=
  (finish_eq_ok h).1

namespace JobSpec

theorem check_of_finish {spec : JobSpec} {entry : JobEntry} (h : spec.finish = .ok entry) :
    check .root entry = .ok () := by
  cases spec with
  | finished entry =>
      rw [finish_finished, map_const_eq_ok_iff] at h
      obtain ⟨hcheck, rfl⟩ := h
      exact hcheck
  | job draft =>
      obtain ⟨job, hjob, rfl⟩ := map_eq_ok_iff.1 h
      exact draft.check_of_finish hjob
  | call draft =>
      obtain ⟨job, hjob, rfl⟩ := map_eq_ok_iff.1 h
      exact draft.check_of_finish hjob

theorem valid_of_finish {spec : JobSpec} {entry : JobEntry} (h : spec.finish = .ok entry) :
    entry.Valid :=
  check_jobEntry_eq_ok_iff.1 (check_of_finish h)

theorem finish_of_check {entry : JobEntry} (h : check .root entry = .ok ()) :
    (finished entry).finish = .ok entry := by
  rw [finish_finished, h]
  rfl

theorem finish_job_eq {draft : JobDraft} {job : Job} (h : draft.finish = .ok job) :
    (JobSpec.job draft).finish = (finished (.run job)).finish := by
  have hcheck : check .root (JobEntry.run job) = .ok () := draft.check_of_finish h
  rw [finish_of_check hcheck, finish, h]
  rfl

theorem finish_call_eq {draft : CallDraft} {job : CallJob} (h : draft.finish = .ok job) :
    (JobSpec.call draft).finish = (finished (.call job)).finish := by
  have hcheck : check .root (JobEntry.call job) = .ok () := draft.check_of_finish h
  rw [finish_of_check hcheck, finish, h]
  rfl

end JobSpec

namespace WorkflowDraft

/-- Why a job cannot be added to jobs that have the ids in `used`: the first reason of three. -/
inductive JobFails (used : List String) : String × JobSpec → Violation → Prop
  | malformedId {id : String} {spec : JobSpec} (malformed : Format.jobId.accepts id = false) :
      JobFails used (id, spec)
        ⟨(Path.root.key "jobs").key id, .mismatch id Format.jobId.shown⟩
  | usedId {id : String} {spec : JobSpec} (accepted : Format.jobId.accepts id = true)
      (repeated : id ∈ used) :
      JobFails used (id, spec) ⟨Path.root.key "jobs", .duplicate id⟩
  | spec {id : String} {spec : JobSpec} {violation : Violation}
      (accepted : Format.jobId.accepts id = true) (new : id ∉ used)
      (failed : spec.finish = .error violation) :
      JobFails used (id, spec) (violation.within ((Path.root.key "jobs").key id))

def Becomes (job : String × JobSpec) (entry : String × JobEntry) : Prop :=
  entry.1 = job.1 ∧ job.2.finish = .ok entry.2

theorem addJob_eq (jobs : Table JobEntry) (id : String) (spec : JobSpec) :
    addJob jobs id spec =
      if Format.jobId.accepts id = false then
        .error ⟨(Path.root.key "jobs").key id, .mismatch id Format.jobId.shown⟩
      else if id ∈ jobs.keys then .error ⟨Path.root.key "jobs", .duplicate id⟩
      else match spec.finish with
        | .error violation => .error (violation.within ((Path.root.key "jobs").key id))
        | .ok entry => .ok (jobs.insert id entry) := by
  simp only [← jobs.contains_iff_mem_keys, addJob, checkFormat]
  cases Format.jobId.accepts id <;> cases jobs.contains id <;> cases spec.finish <;> rfl

theorem addJob_eq_error_iff {jobs : Table JobEntry} {id : String} {spec : JobSpec}
    {violation : Violation} :
    addJob jobs id spec = .error violation ↔ JobFails jobs.keys (id, spec) violation := by
  rw [addJob_eq]
  constructor
  · intro h
    split at h
    next hid =>
      cases h
      exact .malformedId hid
    next hid =>
      rw [Bool.not_eq_false] at hid
      split at h
      next hused =>
        cases h
        exact .usedId hid hused
      next hnew =>
        cases hspec : spec.finish with
        | error found =>
            rw [hspec] at h
            cases h
            exact .spec hid hnew hspec
        | ok entry =>
            rw [hspec] at h
            cases h
  · intro h
    cases h with
    | malformedId hid => simp [hid]
    | usedId hid hused => simp [hid, hused]
    | spec hid hnew hspec => simp [hid, hnew, hspec]

theorem addJob_eq_ok_iff {jobs changed : Table JobEntry} {id : String} {spec : JobSpec} :
    addJob jobs id spec = .ok changed ↔
      Format.jobId.accepts id = true ∧ id ∉ jobs.keys ∧
        ∃ entry, spec.finish = .ok entry ∧ jobs.insert id entry = changed := by
  rw [addJob_eq]
  by_cases hid : Format.jobId.accepts id = true
  · by_cases hused : id ∈ jobs.keys
    · simp [hid, hused]
    · cases hspec : spec.finish <;> simp [hid, hused]
  · simp [hid]

/-! ## All jobs in turn -/

theorem addJobs_append (jobs : Table JobEntry) (front back : List (String × JobSpec)) :
    addJobs jobs (front ++ back) = addJobs jobs front >>= fun added => addJobs added back := by
  induction front generalizing jobs with
  | nil => rfl
  | cons job rest ih =>
      obtain ⟨id, spec⟩ := job
      rw [List.cons_append, addJobs, addJobs]
      cases addJob jobs id spec with
      | error => rfl
      | ok changed => exact ih changed

/-- Jobs that can be added one after the other, and the entries that they become. -/
structure JobsFit (jobs : List (String × JobSpec)) (entries : List (String × JobEntry)) :
    Prop where
  ids : ∀ job ∈ jobs, Format.jobId.accepts job.1 = true
  distinct : (jobs.map Prod.fst).Nodup
  become : List.Forall₂ Becomes jobs entries

/-- The first job that cannot be added, all jobs before it having been added. -/
def FirstFails (jobs : List (String × JobSpec)) (violation : Violation) : Prop :=
  ∃ before job after, jobs = before ++ job :: after ∧ (∃ entries, JobsFit before entries) ∧
    JobFails (before.map Prod.fst) job violation

theorem JobsFit.nil : JobsFit [] [] :=
  ⟨fun _ h => absurd h List.not_mem_nil, List.nodup_nil, .nil⟩

theorem JobsFit.eq_nil {entries : List (String × JobEntry)} (h : JobsFit [] entries) :
    entries = [] :=
  List.forall₂_nil_left_iff.1 h.become

theorem JobsFit.cons_iff {job : String × JobSpec} {rest : List (String × JobSpec)}
    {entries : List (String × JobEntry)} :
    JobsFit (job :: rest) entries ↔ ∃ entry others, entries = entry :: others ∧
      Format.jobId.accepts job.1 = true ∧ Becomes job entry ∧ JobsFit rest others ∧
        ∀ other ∈ rest, other.1 ≠ job.1 := by
  constructor
  · rintro ⟨hids, hdistinct, hbecome⟩
    obtain ⟨entry, others, hentry, hothers, rfl⟩ := List.forall₂_cons_left_iff.1 hbecome
    rw [List.forall_mem_cons] at hids
    rw [List.map_cons, List.nodup_cons] at hdistinct
    refine ⟨entry, others, rfl, hids.1, hentry, ⟨hids.2, hdistinct.2, hothers⟩, ?_⟩
    intro other hother hsame
    exact hdistinct.1 (hsame ▸ List.mem_map_of_mem hother)
  · rintro ⟨entry, others, rfl, hid, hentry, ⟨hids, hdistinct, hothers⟩, hnew⟩
    refine ⟨List.forall_mem_cons.2 ⟨hid, hids⟩, ?_, .cons hentry hothers⟩
    rw [List.map_cons, List.nodup_cons]
    refine ⟨fun hmem => ?_, hdistinct⟩
    obtain ⟨other, hother, hsame⟩ := List.mem_map.1 hmem
    exact hnew other hother hsame

theorem JobsFit.keys_eq {jobs : List (String × JobSpec)} {entries : List (String × JobEntry)}
    (h : JobsFit jobs entries) : entries.map Prod.fst = jobs.map Prod.fst := by
  induction jobs generalizing entries with
  | nil => rw [h.eq_nil, List.map_nil, List.map_nil]
  | cons job rest ih =>
      obtain ⟨entry, others, rfl, -, ⟨hkey, -⟩, hothers, -⟩ := cons_iff.1 h
      rw [List.map_cons, List.map_cons, hkey, ih hothers]

theorem JobsFit.valid {jobs : List (String × JobSpec)} {entries : List (String × JobEntry)}
    (h : JobsFit jobs entries) :
    ∀ entry ∈ entries, Format.jobId.accepts entry.1 = true ∧ entry.2.Valid := by
  induction jobs generalizing entries with
  | nil =>
      rw [h.eq_nil]
      exact fun _ hmem => absurd hmem List.not_mem_nil
  | cons job rest ih =>
      obtain ⟨entry, others, rfl, hid, ⟨hkey, hfinish⟩, hothers, -⟩ := cons_iff.1 h
      rw [List.forall_mem_cons]
      exact ⟨⟨hkey ▸ hid, JobSpec.valid_of_finish hfinish⟩, ih hothers⟩

theorem addJobs_eq_ok_iff {start table : Table JobEntry} {jobs : List (String × JobSpec)} :
    addJobs start jobs = .ok table ↔ ∃ entries, table.entries = start.entries ++ entries ∧
      JobsFit jobs entries ∧ ∀ job ∈ jobs, job.1 ∉ start.keys := by
  induction jobs generalizing start with
  | nil =>
      constructor
      · intro h
        cases h
        exact ⟨[], (List.append_nil _).symm, .nil, fun _ h => absurd h List.not_mem_nil⟩
      · rintro ⟨entries, htable, hfit, -⟩
        rw [hfit.eq_nil, List.append_nil] at htable
        rw [addJobs, Table.eq_of_entries_eq htable]
  | cons job rest ih =>
      obtain ⟨id, spec⟩ := job
      have hstep : addJobs start ((id, spec) :: rest) = .ok table ↔
          ∃ changed, addJob start id spec = .ok changed ∧ addJobs changed rest = .ok table := by
        rw [addJobs]
        cases addJob start id spec <;> simp [bind, Except.bind]
      simp only [hstep, addJob_eq_ok_iff, ih]
      constructor
      · rintro ⟨_, ⟨hid, hnew, entry, hentry, rfl⟩, others, htable, hfit, hrest⟩
        rw [Table.entries_insert_of_not_mem hnew] at htable
        simp only [Table.mem_keys_insert, not_or] at hrest
        refine ⟨(id, entry) :: others, ?_, JobsFit.cons_iff.2 ⟨_, _, rfl, hid, ⟨rfl, hentry⟩,
          hfit, fun other hother => (hrest other hother).2⟩, ?_⟩
        · rw [htable, List.append_assoc, List.singleton_append]
        · rw [List.forall_mem_cons]
          exact ⟨hnew, fun other hother => (hrest other hother).1⟩
      · rintro ⟨entries, htable, hfit, hkeys⟩
        obtain ⟨⟨_, entry⟩, others, rfl, hid, ⟨rfl, hentry⟩, hothers, hdistinct⟩ :=
          JobsFit.cons_iff.1 hfit
        rw [List.forall_mem_cons] at hkeys
        refine ⟨_, ⟨hid, hkeys.1, entry, hentry, rfl⟩, others, ?_, hothers, ?_⟩
        · rw [Table.entries_insert_of_not_mem hkeys.1, htable, List.append_assoc,
            List.singleton_append]
        · intro other hother
          rw [Table.mem_keys_insert, not_or]
          exact ⟨hkeys.2 other hother, hdistinct other hother⟩

theorem addJobs_empty_eq_ok_iff {jobs : List (String × JobSpec)} {table : Table JobEntry} :
    addJobs .empty jobs = .ok table ↔ JobsFit jobs table.entries := by
  rw [addJobs_eq_ok_iff]
  constructor
  · rintro ⟨entries, htable, hfit, -⟩
    rwa [htable]
  · intro hfit
    exact ⟨table.entries, rfl, hfit, fun _ _ => List.not_mem_nil⟩

theorem exists_addJobs_iff {jobs : List (String × JobSpec)} :
    (∃ table, addJobs .empty jobs = .ok table) ↔ ∃ entries, JobsFit jobs entries := by
  simp only [addJobs_empty_eq_ok_iff]
  constructor
  · rintro ⟨table, hfit⟩
    exact ⟨table.entries, hfit⟩
  · rintro ⟨entries, hfit⟩
    exact ⟨⟨entries, hfit.keys_eq ▸ hfit.distinct⟩, hfit⟩

theorem exists_step_of_addJobs_eq_error {start : Table JobEntry}
    {jobs : List (String × JobSpec)} {violation : Violation}
    (h : addJobs start jobs = .error violation) :
    ∃ before id spec after added, jobs = before ++ (id, spec) :: after ∧
      addJobs start before = .ok added ∧ addJob added id spec = .error violation := by
  induction jobs generalizing start with
  | nil => cases h
  | cons job rest ih =>
      obtain ⟨id, spec⟩ := job
      cases hjob : addJob start id spec with
      | error found =>
          rw [addJobs, hjob] at h
          cases h
          exact ⟨[], id, spec, rest, start, rfl, rfl, hjob⟩
      | ok changed =>
          rw [addJobs, hjob] at h
          obtain ⟨before, other, otherSpec, after, added, rfl, hadded, hfails⟩ := ih h
          refine ⟨(id, spec) :: before, other, otherSpec, after, added, rfl, ?_, hfails⟩
          rw [addJobs, hjob]
          exact hadded

theorem addJobs_eq_error_iff {jobs : List (String × JobSpec)} {violation : Violation} :
    addJobs .empty jobs = .error violation ↔ FirstFails jobs violation := by
  constructor
  · intro h
    obtain ⟨before, id, spec, after, added, hjobs, hadded, hfails⟩ :=
      exists_step_of_addJobs_eq_error h
    have hfit := addJobs_empty_eq_ok_iff.1 hadded
    rw [addJob_eq_error_iff, Table.keys, hfit.keys_eq] at hfails
    exact ⟨before, (id, spec), after, hjobs, ⟨_, hfit⟩, hfails⟩
  · rintro ⟨before, ⟨id, spec⟩, after, rfl, ⟨entries, hfit⟩, hfails⟩
    obtain ⟨added, hadded⟩ := exists_addJobs_iff.2 ⟨entries, hfit⟩
    have hjob : addJob added id spec = .error violation := by
      rw [addJob_eq_error_iff, Table.keys, (addJobs_empty_eq_ok_iff.1 hadded).keys_eq]
      exact hfails
    rw [addJobs_append, hadded]
    change addJobs _ ((id, spec) :: after) = _
    rw [addJobs, hjob]
    rfl

end WorkflowDraft

end ActionsWorkflow
