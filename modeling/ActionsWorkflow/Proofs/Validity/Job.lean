import ActionsWorkflow.Proofs.Validity.Matrix
import ActionsWorkflow.Proofs.Validity.Runner
import ActionsWorkflow.Validity.Job
import Mathlib.Tactic.MkIffOfInductiveProp

/-!
# Which steps and jobs are accepted

A job with steps and a call of a workflow share the settings of every job.  The ids of the
steps of a job are distinct, and so are its needs.
-/

namespace ActionsWorkflow

def StepAction.Valid : StepAction → Prop
  | .uses action _ => ¬ Blank action
  | .run script _ _ => ¬ Blank script

theorem check_stepAction_eq_ok_iff {path : Path} {action : StepAction} :
    check path action = .ok () ↔ action.Valid := by
  cases action <;> exact checkNotBlank_eq_ok_iff

@[mk_iff]
structure Step.Valid (step : Step) : Prop where
  action : step.action.Valid
  id : ∀ id ∈ step.id, ¬ Blank id
  continueOnError : ∀ value ∈ step.continueOnError, value.Valid
  timeoutMinutes : ∀ minutes ∈ step.timeoutMinutes, 1 ≤ minutes

theorem check_step_eq_ok_iff {path : Path} {step : Step} :
    check path step = .ok () ↔ step.Valid := by
  rw [check, Step.valid_iff]
  simp only [instCheckableStep, check_option, bind_eq_ok_iff, checkOptional_eq_ok_iff,
    checkNotBlank_eq_ok_iff, checkAtLeast_eq_ok_iff, check_stepAction_eq_ok_iff,
    check_switch_eq_ok_iff]

theorem checkStep_eq_ok_iff {path : Path} {before : List Step} {step : Step} :
    checkStep path before step = .ok () ↔
      step.Valid ∧ ∀ id ∈ step.id, id ∉ before.filterMap Step.id := by
  rw [checkStep, bind_eq_ok_iff, check_step_eq_ok_iff]
  cases step.id with
  | none => simp
  | some id => simp [violate]

@[mk_iff]
structure ValidSteps (steps : List Step) : Prop where
  nonempty : steps ≠ []
  each : ∀ step ∈ steps, step.Valid
  distinct : (steps.filterMap Step.id).Nodup

theorem checkSteps_eq_ok_iff {path : Path} {steps : List Step} :
    checkSteps path steps = .ok () ↔ ValidSteps steps := by
  rw [checkSteps, bind_eq_ok_iff, checkNotEmpty_eq_ok_iff,
    checkEach_distinct_eq_ok_iff _ fun _ _ => checkStep_eq_ok_iff, validSteps_iff]
  simp

theorem checkNeed_eq_ok_iff {path : Path} {before : List String} {need : String} :
    checkNeed path before need = .ok () ↔
      Format.jobId.accepts need = true ∧ need ∉ before := by
  simp only [checkNeed, pure_eq_ok, bind_eq_ok_iff, checkFormat_eq_ok_iff,
    ite_violate_eq_ok_iff, List.contains_iff_mem]

theorem checkNeeds_eq_ok_iff {path : Path} {needs : List String} :
    checkNeeds path needs = .ok () ↔
      (∀ need ∈ needs, Format.jobId.accepts need = true) ∧ needs.Nodup := by
  have hrule (before : List String) (need : String) :
      checkNeed path before need = .ok () ↔ Format.jobId.accepts need = true ∧
        ∀ name ∈ some need, name ∉ before.filterMap some := by
    simp [checkNeed_eq_ok_iff]
  rw [checkNeeds, checkEach_distinct_eq_ok_iff _ hrule]
  simp

@[mk_iff]
structure JobSettings.Valid (settings : JobSettings) : Prop where
  name : ∀ name ∈ settings.name, ¬ Blank name
  needs : ∀ need ∈ settings.needs, Format.jobId.accepts need = true
  needsDistinct : settings.needs.Nodup
  condition : ∀ condition ∈ settings.condition, ¬ Blank condition
  concurrency : ∀ concurrency ∈ settings.concurrency, concurrency.Valid
  strategy : ∀ strategy ∈ settings.strategy, strategy.Valid

theorem JobSettings.checks_eq_ok_iff {path : Path} {settings : JobSettings} :
    settings.checkStart path = .ok () ∧ settings.checkScheduling path = .ok () ↔
      settings.Valid := by
  simp only [checkStart, checkScheduling, check_option, bind_eq_ok_iff,
    checkOptional_eq_ok_iff, checkNotBlank_eq_ok_iff, checkNeeds_eq_ok_iff,
    check_concurrency_eq_ok_iff, check_strategy_eq_ok_iff, JobSettings.valid_iff, and_assoc]

theorem checkServices_eq_ok_iff {path : Path} {services : Table Container} :
    checkServices path services = .ok () ↔
      ∀ entry ∈ services.entries, ¬ Blank entry.1 ∧ entry.2.Valid := by
  apply checkEach_eq_ok_iff
  intro _ entry
  rw [checkService, bind_eq_ok_iff, checkNotBlank_eq_ok_iff, check_container_eq_ok_iff]

theorem checkOutputs_eq_ok_iff {path : Path} {outputs : Table String} :
    checkOutputs path outputs = .ok () ↔ ∀ entry ∈ outputs.entries, ¬ Blank entry.2 := by
  apply checkEach_eq_ok_iff
  intro _ entry
  exact checkNotBlank_eq_ok_iff

structure Job.Valid (job : Job) : Prop where
  settings : job.toJobSettings.Valid
  runsOn : job.runsOn.Valid
  environment : ∀ environment ∈ job.environment, environment.Valid
  container : ∀ container ∈ job.container, container.Valid
  services : ∀ services ∈ job.services, ∀ entry ∈ services.entries,
    ¬ Blank entry.1 ∧ entry.2.Valid
  outputs : ∀ outputs ∈ job.outputs, ∀ entry ∈ outputs.entries, ¬ Blank entry.2
  timeoutMinutes : ∀ minutes ∈ job.timeoutMinutes, 1 ≤ minutes
  continueOnError : ∀ value ∈ job.continueOnError, value.Valid
  steps : ValidSteps job.steps

theorem check_job_eq_ok_iff {path : Path} {job : Job} :
    check path job = .ok () ↔ job.Valid := by
  rw [check]
  simp only [instCheckableJob, check_option, bind_eq_ok_iff, checkOptional_eq_ok_iff,
    check_runsOn_eq_ok_iff, check_environment_eq_ok_iff, check_jobContainer_eq_ok_iff,
    checkServices_eq_ok_iff, checkOutputs_eq_ok_iff, checkAtLeast_eq_ok_iff,
    check_switch_eq_ok_iff, checkSteps_eq_ok_iff]
  constructor
  · rintro ⟨hstart, hrunsOn, henvironment, hscheduling, hcontainer, hservices, houtputs,
      htimeout, hcontinue, hsteps⟩
    exact ⟨JobSettings.checks_eq_ok_iff.1 ⟨hstart, hscheduling⟩, hrunsOn, henvironment,
      hcontainer, hservices, houtputs, htimeout, hcontinue, hsteps⟩
  · rintro ⟨hsettings, hrunsOn, henvironment, hcontainer, hservices, houtputs, htimeout,
      hcontinue, hsteps⟩
    obtain ⟨hstart, hscheduling⟩ := JobSettings.checks_eq_ok_iff.2 hsettings
    exact ⟨hstart, hrunsOn, henvironment, hscheduling, hcontainer, hservices, houtputs,
      htimeout, hcontinue, hsteps⟩

structure CallJob.Valid (job : CallJob) : Prop where
  settings : job.toJobSettings.Valid
  uses : Format.workflowReference.accepts job.uses = true

theorem check_callJob_eq_ok_iff {path : Path} {job : CallJob} :
    check path job = .ok () ↔ job.Valid := by
  rw [check]
  simp only [instCheckableCallJob, bind_eq_ok_iff, checkFormat_eq_ok_iff]
  constructor
  · rintro ⟨hstart, hscheduling, huses⟩
    exact ⟨JobSettings.checks_eq_ok_iff.1 ⟨hstart, hscheduling⟩, huses⟩
  · rintro ⟨hsettings, huses⟩
    obtain ⟨hstart, hscheduling⟩ := JobSettings.checks_eq_ok_iff.2 hsettings
    exact ⟨hstart, hscheduling, huses⟩

def JobEntry.Valid : JobEntry → Prop
  | .run job => job.Valid
  | .call job => job.Valid

theorem check_jobEntry_eq_ok_iff {path : Path} {entry : JobEntry} :
    check path entry = .ok () ↔ entry.Valid := by
  cases entry with
  | run => exact check_job_eq_ok_iff
  | call => exact check_callJob_eq_ok_iff

end ActionsWorkflow
