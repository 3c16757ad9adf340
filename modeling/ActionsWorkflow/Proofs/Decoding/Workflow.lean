import ActionsWorkflow.Export.Write
import ActionsWorkflow.Proofs.Decoding.Job
import ActionsWorkflow.Proofs.Decoding.Trigger
import ActionsWorkflow.Proofs.Validity.Workflow

/-!
# Reading workflows back

A workflow that is planned has valid jobs and is therefore read back from its document as
it was.  If in addition the texts tell documents apart, they tell workflows apart.
-/

namespace ActionsWorkflow

theorem JobEntry.Valid.settings {entry : JobEntry} (h : entry.Valid) : entry.settings.Valid := by
  cases entry with
  | run => exact Job.Valid.settings h
  | call => exact CallJob.Valid.settings h

namespace Workflow

def read (document : Document) : Option Workflow := do
  let name ← document.required? "name"
  let runName ← document.optional? "run-name"
  let on ← (document.field? "on").bind readTriggers
  let permissions ← document.optional? "permissions"
  let env ← document.optional? "env"
  let defaults ← document.optional? "defaults"
  let concurrency ← document.optional? "concurrency"
  let jobs ← document.required? "jobs"
  some { name, runName, on, permissions, env, defaults, concurrency, jobs }

instance : FromDocument Workflow := ⟨read⟩

theorem fromDocument?_of_valid_jobs {workflow : Workflow}
    (h : ∀ job ∈ workflow.jobs.entries, job.2.Valid) :
    fromDocument? (toDocument workflow) = some workflow := by
  have hjobs : fromDocument? (toDocument workflow.jobs) = some workflow.jobs :=
    fromDocument?_table fun job hjob => fromDocument?_jobEntry (h job hjob).settings
  change read (.record _) = _
  simp [read, Document.required?, Document.optional?, Document.readRequired,
    readTriggers_triggersDocument, hjobs]

theorem check_of_plan {workflow : Workflow} {plan : Plan} (h : workflow.plan = .ok plan) :
    check .root workflow = .ok () := by
  rw [Workflow.plan] at h
  cases hcheck : check .root workflow with
  | ok => rfl
  | error violation => simp [hcheck, Except.mapError, bind, Except.bind] at h

theorem valid_of_plan {workflow : Workflow} {plan : Plan} (h : workflow.plan = .ok plan) :
    workflow.Valid := by
  have hcheck := check_of_plan h
  rw [check] at hcheck
  simp only [instCheckableWorkflow, bind_eq_ok_iff, check_header_eq_ok_iff,
    checkJobs_eq_ok_iff] at hcheck
  obtain ⟨hheader, hnonempty, hjobs⟩ := hcheck
  exact ⟨hheader, hnonempty, hjobs⟩

theorem valid_jobs_of_plan {workflow : Workflow} {plan : Plan}
    (h : workflow.plan = .ok plan) : ∀ job ∈ workflow.jobs.entries, job.2.Valid :=
  fun job hjob => ((valid_of_plan h).jobs job hjob).2

theorem toYaml_eq_ok_iff {workflow : Workflow} {text : String} :
    workflow.toYaml = .ok text ↔
      (∃ plan, workflow.plan = .ok plan) ∧ Yaml.render (toDocument workflow) = text := by
  rw [toYaml]
  cases workflow.plan <;> simp [bind, Except.bind, pure, Except.pure]

/-- Whatever is accepted is read back from its document.  Two workflows that are accepted
and have the same text are the same, if no two documents have this text. -/
theorem toYaml_lossless (first second : Workflow) :
    (∀ plan, first.plan = .ok plan → fromDocument? (toDocument first) = some first) ∧
    ((Yaml.render (toDocument first) = Yaml.render (toDocument second) →
        toDocument first = toDocument second) →
      ∀ text, first.toYaml = .ok text → second.toYaml = .ok text → first = second) := by
  constructor
  · intro plan hplan
    exact fromDocument?_of_valid_jobs (valid_jobs_of_plan hplan)
  · intro hseparate text hfirst hsecond
    obtain ⟨⟨_, hfirstPlan⟩, hfirstText⟩ := toYaml_eq_ok_iff.1 hfirst
    obtain ⟨⟨_, hsecondPlan⟩, hsecondText⟩ := toYaml_eq_ok_iff.1 hsecond
    have hdocument := hseparate (hfirstText.trans hsecondText.symm)
    have hread := fromDocument?_of_valid_jobs (valid_jobs_of_plan hfirstPlan)
    rw [hdocument, fromDocument?_of_valid_jobs (valid_jobs_of_plan hsecondPlan)] at hread
    exact (Option.some.inj hread).symm

def testThenShip : Workflow where
  name := "CI"
  on := [.push {}]
  permissions := some (.scoped [])
  jobs := ⟨[("test", .run
      { runsOn := .label "linux"
        strategy := some { matrix := .axes ⟨[("os", ["a"])], by decide⟩ [] [] }
        env := some ⟨[("number", .integer 1), ("text", .text "1")], by decide⟩
        steps := [{ action := .run "make" none none }] }),
    ("ship", .call { uses := "o/r/ship.yml@v1", needs := ["test"] })], by decide⟩

def testThenShipInserted : Workflow :=
  { testThenShip with
    jobs := testThenShip.jobs.entries.foldl (fun jobs job => jobs.insert job.1 job.2) .empty }

theorem toYaml_lossless_testThenShip :
    testThenShip.plan = .ok ⟨1, ["test", "ship"]⟩ ∧
    fromDocument? (toDocument testThenShip) = some testThenShip ∧
    testThenShip.toYaml = .ok (Yaml.render (toDocument testThenShip)) ∧
    testThenShipInserted.toYaml = .ok (Yaml.render (toDocument testThenShip)) ∧
    testThenShip = testThenShipInserted := by
  have hplan : testThenShip.plan = .ok ⟨1, ["test", "ship"]⟩ := rfl
  have hinserted : testThenShipInserted.plan = .ok ⟨1, ["test", "ship"]⟩ := rfl
  have hdocument : toDocument testThenShip = toDocument testThenShipInserted := rfl
  have htext := toYaml_eq_ok_iff.2 ⟨⟨_, hplan⟩, rfl⟩
  have hinsertedText : testThenShipInserted.toYaml = .ok _ :=
    toYaml_eq_ok_iff.2 ⟨⟨_, hinserted⟩, congrArg Yaml.render hdocument.symm⟩
  obtain ⟨hread, hequal⟩ := toYaml_lossless testThenShip testThenShipInserted
  exact ⟨hplan, hread _ hplan, htext, hinsertedText,
    hequal (fun _ => hdocument) _ htext hinsertedText⟩

end Workflow

end ActionsWorkflow
