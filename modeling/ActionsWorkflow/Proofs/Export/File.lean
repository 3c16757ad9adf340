import ActionsWorkflow.Proofs.Export.Plan
import ActionsWorkflow.Proofs.Storage.Replace

/-!
# All or nothing

A workflow is refused by every way of writing it, and for the same reason, before anything
has been written anywhere.  A workflow that is not refused replaces the file as a whole or
leaves what stood there, and what did not, as it was; only the place of a path that comes by
itself may hold a directory afterwards.
-/

namespace ActionsWorkflow

open Storage Storage.FileSystem

namespace Workflow

variable {workflow : Workflow}

theorem toYaml_of_plan_eq_error {error : ExportError} (h : workflow.plan = .error error) :
    workflow.toYaml = .error error := by
  rw [toYaml, h]
  rfl

theorem toYaml_of_plan_eq_ok {plan : Plan} (h : workflow.plan = .ok plan) :
    workflow.toYaml = .ok (Yaml.render (toDocument workflow)) := by
  rw [toYaml, h]
  rfl

section
variable {m : Type → Type} [Monad m]

theorem writeTo_of_plan_eq_error {error : ExportError} (h : workflow.plan = .error error)
    (append : String → m Bool) : workflow.writeTo append = pure (.error error) := by
  simp only [writeTo, h]

theorem writeTo_of_plan_eq_ok {plan : Plan} (h : workflow.plan = .ok plan)
    (append : String → m Bool) :
    workflow.writeTo append = append (Yaml.render (toDocument workflow)) >>= fun taken =>
      pure (if taken then .ok () else .error .unserialized) := by
  simp only [writeTo, h]
  congr
  funext taken
  cases taken <;> rfl

theorem writeFile_of_toYaml_eq_error [Storage m] {error : ExportError}
    (h : workflow.toYaml = .error error) (path : String) :
    workflow.writeFile (m := m) path = pure (.error error) := by
  simp only [writeFile, h]

end

theorem writeFile_of_replaceFile {path text : String} {faults : List Fault}
    {system after : FileSystem} {replaced : Bool} (h : workflow.toYaml = .ok text)
    (hrun : replaceFile (m := Disk) path text faults system = (replaced, after)) :
    workflow.writeFile (m := Disk) path faults system =
      (if replaced then .ok () else .error (.unwritable path), after) := by
  simp only [writeFile, h, writeAtomically, Disk.bind_apply, hrun]
  cases replaced <;> rfl

/-- Either every way of writing the workflow refuses it for the same reason and nothing is
written at all, or none does.  Then the file is replaced by the very text that the other
ways hand out unless a step of the replacement fails.  If one does, no file has changed,
come or gone, and where there was no file there is none. -/
theorem export_outcome (workflow : Workflow) (path : String) (faults : List Fault)
    (system : FileSystem) :
    (∃ error, workflow.Refuses error ∧ workflow.toYaml = .error error ∧
      (∀ (m : Type → Type) [Monad m] (append : String → m Bool),
        workflow.writeTo append = pure (.error error)) ∧
      ∀ (m : Type → Type) [Monad m] [Storage m],
        workflow.writeFile (m := m) path = pure (.error error)) ∨
    (∃ text, (∀ error, ¬ workflow.Refuses error) ∧ workflow.toYaml = .ok text ∧
      (∀ (m : Type → Type) [Monad m] (append : String → m Bool),
        workflow.writeTo append = append text >>= fun taken =>
          pure (if taken then .ok () else .error .unserialized)) ∧
      ((CanReplace faults system path ∧ ∃ after,
          workflow.writeFile (m := Disk) path faults system = (.ok (), after) ∧
          Replaced path text system after) ∨
        (¬ CanReplace faults system path ∧ ∃ after,
          workflow.writeFile (m := Disk) path faults system =
            (.error (.unwritable path), after) ∧
          Kept path system after))) := by
  cases hplan : workflow.plan with
  | error error =>
      have hyaml := toYaml_of_plan_eq_error hplan
      exact .inl ⟨error, plan_eq_error_iff.1 hplan, hyaml,
        fun _ _ append => writeTo_of_plan_eq_error hplan append,
        fun _ _ _ => writeFile_of_toYaml_eq_error hyaml path⟩
  | ok plan =>
      have hyaml := toYaml_of_plan_eq_ok hplan
      have hpassed : ∀ error, ¬ workflow.Refuses error := by
        intro error hrefuses
        have herror := plan_eq_error_iff.2 hrefuses
        rw [hplan] at herror
        cases herror
      refine .inr ⟨_, hpassed, hyaml, fun _ _ append => writeTo_of_plan_eq_ok hplan append, ?_⟩
      rcases replaceFile_outcome path (Yaml.render (toDocument workflow)) faults system with
        ⟨hcan, after, hrun, hreplaced⟩ | ⟨hcannot, after, hrun, hkept⟩
      · exact .inl ⟨hcan, after, writeFile_of_replaceFile hyaml hrun, hreplaced⟩
      · exact .inr ⟨hcannot, after, writeFile_of_replaceFile hyaml hrun, hkept⟩

/-! ## A file that is missing -/

def makeTest : Workflow where
  name := "Good"
  on := [.push {}]
  jobs := .ofList [("test", .run {
    runsOn := .label "ubuntu-latest", steps := [{ action := .run "make test" none none }] })]

theorem plan_makeTest : makeTest.plan = .ok ⟨0, ["test"]⟩ := rfl

def withOut : FileSystem := { nodes := [(["out"], .directory)] }

theorem export_outcome_makeTest :
    (CanReplace [] {} "out/ci.yml" ∧ ∃ text after, makeTest.toYaml = .ok text ∧
      makeTest.writeFile (m := Disk) "out/ci.yml" [] {} = (.ok (), after) ∧
      Replaced "out/ci.yml" text {} after) ∧
    ¬ CanReplace [.rename] {} "out/ci.yml" ∧ ∃ after,
      makeTest.writeFile (m := Disk) "out/ci.yml" [.rename] {} =
        (.error (.unwritable "out/ci.yml"), after) ∧
      Kept "out/ci.yml" {} after ∧ after.lookup? "out/ci.yml" = none := by
  have hyaml := toYaml_of_plan_eq_ok plan_makeTest
  have hcan : CanReplace [] {} "out/ci.yml" :=
    ⟨withOut, ["out", "ci.yml"], rfl, rfl, by simp, by simp, by simp, rfl, by decide⟩
  have hcannot : ¬ CanReplace [.rename] {} "out/ci.yml" := by
    rintro ⟨_, _, h⟩
    exact h.installable.renamed List.mem_cons_self
  refine ⟨⟨hcan, ?replaced⟩, hcannot, ?kept⟩
  case replaced =>
    rcases export_outcome makeTest "out/ci.yml" [] {} with ⟨error, -, herror, -⟩ |
      ⟨text, -, htext, -, ⟨-, after, hwritten, hreplaced⟩ | ⟨hstuck, -⟩⟩
    · cases hyaml.symm.trans herror
    · exact ⟨text, after, htext, hwritten, hreplaced⟩
    · exact absurd hcan hstuck
  case kept =>
    rcases export_outcome makeTest "out/ci.yml" [.rename] {} with ⟨error, -, herror, -⟩ |
      ⟨text, -, -, -, ⟨hreplaced, -⟩ | ⟨-, after, hrefused, hkept⟩⟩
    · cases hyaml.symm.trans herror
    · exact absurd hreplaced hcannot
    · have hstraight : ".." ∉ names "out/ci.yml" := by decide
      exact ⟨after, hrefused, hkept,
        (hkept.absent (by decide) (not_passes_place hstraight)).2⟩

/-- The path comes by its own place on the way to its directory. -/
theorem writeFile_makes_target :
    ({} : FileSystem).lookup? "x/y/.." = none ∧
    ∃ after, makeTest.writeFile (m := Disk) "x/y/.." [] {} =
        (.error (.unwritable "x/y/.."), after) ∧
      after.lookup? "x/y/.." = some .directory := by
  have hyaml := toYaml_of_plan_eq_ok plan_makeTest
  have hdirectory : ensureDirectory (m := Disk) (parentDirectory "x/y/..") [] {} =
      (true, { nodes := [(["x", "y"], .directory), (["x"], .directory)] }) := rfl
  have hstuck (ready : FileSystem) (location : Location) :
      ¬ Replaceable [] {} ready "x/y/.." location := by
    intro h
    obtain rfl := (Prod.mk.inj (hdirectory.symm.trans h.directory)).2
    cases h.installable.leads
    exact h.installable.free rfl
  have hrun := replaceFile_stuck hstuck (Yaml.render (toDocument makeTest))
  rw [hdirectory] at hrun
  exact ⟨rfl, _, writeFile_of_replaceFile hyaml hrun, rfl⟩

end Workflow

end ActionsWorkflow
