import ActionsWorkflow.Proofs.Validity.Rule
import ActionsWorkflow.Validity.Runner
import Mathlib.Tactic.MkIffOfInductiveProp

/-!
# Which runners, containers and groups are accepted

For each record the condition under which its check passes.  The condition speaks of the
fields only; the path decides where a violation is seen and nothing else.
-/

namespace ActionsWorkflow

def Switch.Valid : Switch → Prop
  | .flag _ => True
  | .expression text => Format.expression.accepts text = true

theorem check_switch_eq_ok_iff {path : Path} {value : Switch} :
    check path value = .ok () ↔ value.Valid := by
  cases value with
  | flag => exact ⟨fun _ => trivial, fun _ => rfl⟩
  | expression => exact checkFormat_eq_ok_iff

def Concurrency.Valid : Concurrency → Prop
  | .group name => ¬ Blank name
  | .detailed name cancel => ¬ Blank name ∧ ∀ value ∈ cancel, value.Valid

theorem check_concurrency_eq_ok_iff {path : Path} {concurrency : Concurrency} :
    check path concurrency = .ok () ↔ concurrency.Valid := by
  rw [check]
  cases concurrency <;>
    simp only [instCheckableConcurrency, Concurrency.Valid, check_option, bind_eq_ok_iff,
      checkNotBlank_eq_ok_iff, checkOptional_eq_ok_iff, check_switch_eq_ok_iff]

def RunsOn.Valid : RunsOn → Prop
  | .label name => ¬ Blank name
  | .labels names => ValidNames names
  | .group name _ => ¬ Blank name

theorem check_runsOn_eq_ok_iff {path : Path} {runner : RunsOn} :
    check path runner = .ok () ↔ runner.Valid := by
  rw [check]
  cases runner <;>
    simp only [instCheckableRunsOn, RunsOn.Valid, checkNotBlank_eq_ok_iff,
      checkNames_eq_ok_iff]

def Environment.Valid : Environment → Prop
  | .name text => ¬ Blank text
  | .detailed text _ => ¬ Blank text

theorem check_environment_eq_ok_iff {path : Path} {environment : Environment} :
    check path environment = .ok () ↔ environment.Valid := by
  rw [check]
  cases environment <;>
    simp only [instCheckableEnvironment, Environment.Valid, checkNotBlank_eq_ok_iff]

@[mk_iff]
structure Container.Valid (container : Container) : Prop where
  image : ¬ Blank container.image
  ports : ∀ ports ∈ container.ports, ∀ port ∈ ports, ¬ Blank port
  volumes : ∀ volumes ∈ container.volumes, ∀ volume ∈ volumes,
    Format.volume.accepts volume = true

theorem check_container_eq_ok_iff {path : Path} {container : Container} :
    check path container = .ok () ↔ container.Valid := by
  rw [check, Container.valid_iff]
  simp only [instCheckableContainer, bind_eq_ok_iff, checkNotBlank_eq_ok_iff,
    checkOptional_eq_ok_iff,
    checkItems_eq_ok_iff checkNotBlank fun _ _ => checkNotBlank_eq_ok_iff,
    checkItems_eq_ok_iff (checkFormat .volume) fun _ _ => checkFormat_eq_ok_iff]

def JobContainer.Valid : JobContainer → Prop
  | .image name => ¬ Blank name
  | .detailed container => container.Valid

theorem check_jobContainer_eq_ok_iff {path : Path} {container : JobContainer} :
    check path container = .ok () ↔ container.Valid := by
  cases container with
  | image => exact checkNotBlank_eq_ok_iff
  | detailed => exact check_container_eq_ok_iff

end ActionsWorkflow
