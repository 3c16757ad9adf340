import ActionsWorkflow.Export.Write
import ActionsWorkflow.Proofs.Dependency.RunOrder

/-!
# Plans

The jobs of a workflow whose dependencies have been verified are put in order without fail.
A plan is therefore refused by the check or by the verification, and never by the ordering.
-/

namespace ActionsWorkflow.Workflow

variable {workflow : Workflow}

/-- All jobs, each once and behind whatever it needs. -/
structure IsRunOrder (workflow : Workflow) (order : List String) : Prop where
  perm : order.Perm workflow.jobIds
  nodup : order.Nodup
  needs_before : ∀ before job after, order = before ++ job :: after →
    ∀ need, workflow.Needs job need → need ∈ before

theorem exists_runOrder_of_verify (h : workflow.dependencyGraph.verify = .ok ()) :
    ∃ order, workflow.dependencyGraph.runOrder = .ok order ∧ workflow.IsRunOrder order := by
  have hacyclic := DependencyGraph.acyclic_of_verify h
  have hknown := (DependencyGraph.verify_eq_ok_iff.1 h).1
  refine ⟨_, DependencyGraph.runOrder_eq_placeAll hacyclic hknown, ?_, ?_, ?_⟩
  · rw [← jobs_dependencyGraph]
    exact DependencyGraph.perm_placeAll hacyclic
  · exact (DependencyGraph.settled_placeAll hacyclic).nodup
  · intro before job after horder need hneed
    rw [← needs_dependencyGraph] at hneed
    exact DependencyGraph.mem_before_of_needs hacyclic hknown horder hneed

theorem runOrder_eq_error_iff {error : DependencyError} :
    workflow.runOrder = .error error ↔ workflow.dependencyGraph.verify = .error error := by
  rw [runOrder]
  cases hverify : workflow.dependencyGraph.verify with
  | error fault => simp [bind, Except.bind]
  | ok =>
      obtain ⟨order, horder⟩ := DependencyGraph.runOrder_of_verify hverify
      simp [horder, bind, Except.bind]

/-- A violation is the reason before any fault of the dependencies. -/
def Refuses (workflow : Workflow) : ExportError → Prop
  | .invalid violation => check .root workflow = .error violation
  | .dependency error =>
      check .root workflow = .ok () ∧ workflow.dependencyGraph.verify = .error error
  | .unserialized | .unwritable _ => False

theorem plan_eq_error_iff {error : ExportError} :
    workflow.plan = .error error ↔ workflow.Refuses error := by
  rw [plan]
  cases hcheck : check .root workflow with
  | error violation =>
      cases error <;> simp [Refuses, hcheck, Except.mapError, bind, Except.bind]
  | ok =>
      cases horder : workflow.runOrder with
      | error reason =>
          have hverify := runOrder_eq_error_iff.1 horder
          cases error <;>
            simp [Refuses, hcheck, hverify, Except.mapError, bind, Except.bind]
      | ok order =>
          have hverify (reason : DependencyError) :
              workflow.dependencyGraph.verify ≠ .error reason := by
            rw [ne_eq, ← runOrder_eq_error_iff, horder]
            exact nofun
          cases error <;>
            simp [Refuses, hcheck, hverify, Except.mapError, bind, Except.bind, pure,
              Except.pure]

/-- A workflow whose dependencies have been verified has a run order, so the ordering is
never what refuses a workflow. -/
theorem runOrder_never_refused (workflow : Workflow) :
    (workflow.dependencyGraph.verify = .ok () →
      ∃ order, workflow.dependencyGraph.runOrder = .ok order ∧ workflow.IsRunOrder order) ∧
    (∀ error, workflow.runOrder = .error error ↔
      workflow.dependencyGraph.verify = .error error) ∧
    ∀ error, workflow.plan = .error error ↔ workflow.Refuses error :=
  ⟨exists_runOrder_of_verify, fun _ => runOrder_eq_error_iff, fun _ => plan_eq_error_iff⟩

def testBeforeSetup : Workflow := callsWithNeeds
  ⟨[("test", ["gems", "npm"]), ("lint", []), ("gems", ["setup"]), ("npm", ["setup", "setup"]),
    ("setup", [])], by decide⟩

theorem runOrder_never_refused_testBeforeSetup :
    testBeforeSetup.dependencyGraph.verify = .ok () ∧
    testBeforeSetup.IsRunOrder ["setup", "npm", "gems", "lint", "test"] := by
  have hverify : testBeforeSetup.dependencyGraph.verify = .ok () := rfl
  obtain ⟨order, horder, hordered⟩ := (runOrder_never_refused testBeforeSetup).1 hverify
  cases horder
  exact ⟨hverify, hordered⟩

end ActionsWorkflow.Workflow
