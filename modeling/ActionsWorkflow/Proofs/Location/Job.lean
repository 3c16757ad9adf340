import ActionsWorkflow.Encoding.Workflow
import ActionsWorkflow.Proofs.Location.Matrix
import ActionsWorkflow.Proofs.Location.Setting
import ActionsWorkflow.Validity.Job

/-!
# Violations in steps and jobs

The fields that all jobs have are checked by themselves, so they are located in any
document that has them under their names.
-/

namespace ActionsWorkflow

variable {gap : Gap} {path : Path}

theorem located_stepAction {step : Step} :
    Located gap path (toDocument step) (check path step.action) := by
  obtain ⟨action, id, condition, name, env, continueOnError, timeoutMinutes⟩ := step
  change Located gap path (.record _) _
  cases action with
  | uses action inputs =>
      exact .field (toDocument action) (by simp [StepAction.fields]) .notBlank
  | run script shell workingDirectory =>
      exact .field (toDocument script) (by simp [StepAction.fields]) .notBlank

theorem field?_id_step (step : Step) :
    (toDocument step).field? "id" = step.id.map toDocument := by
  obtain ⟨action, id, condition, name, env, continueOnError, timeoutMinutes⟩ := step
  change (Document.record _).field? "id" = _
  cases action <;> simp [StepAction.fields]

theorem located_step {step : Step} : Located gap path (toDocument step) (check path step) := by
  refine .bind located_stepAction fun _ => ?_
  refine .bind (.optionalField (field?_id_step step) fun _ _ => .notBlank) fun _ => ?_
  obtain ⟨action, id, condition, name, env, continueOnError, timeoutMinutes⟩ := step
  change Located gap path (.record _) _
  refine .bind (.optionalField ?_ fun _ _ => located_switch) fun _ =>
    .optionalField ?_ fun _ _ => .atLeast
  all_goals cases action <;> simp [StepAction.fields]

theorem located_checkStep {before : List Step} {step : Step} :
    Located gap (path.index before.length) (toDocument step) (checkStep path before step) := by
  refine .bind located_step fun _ => ?_
  cases hid : step.id with
  | none => exact .ok
  | some id =>
      have hfield : (toDocument step).field? "id" = some (toDocument id) := by
        rw [field?_id_step, hid, Option.map_some]
      exact .field (toDocument id) hfield (.refuse trivial)

theorem located_steps {steps : List Step} :
    Located gap path (toDocument steps) (checkSteps path steps) := by
  refine .bind .notEmpty fun _ => .each fun front step back hsteps _ => ?_
  refine .item (toDocument step) ?_ located_checkStep
  simp [hsteps]

theorem located_needs {needs : List String} :
    Located gap path (toDocument needs) (checkNeeds path needs) := by
  refine .each fun front need back hneeds _ => ?_
  refine .item (toDocument need) ?_ (.bind .format fun _ => .refuse trivial)
  simp [hneeds]

namespace JobSettings

variable {settings : JobSettings} {document : Document}

theorem located_start (hname : document.field? "name" = settings.name.map toDocument)
    (hneeds : document.field? "needs" =
      (if settings.needs = [] then none else some settings.needs).map toDocument)
    (hcondition : document.field? "if" = settings.condition.map toDocument) :
    Located gap path document (settings.checkStart path) := by
  refine .bind (.optionalField hname fun _ _ => .notBlank) fun _ => .bind ?_ fun _ =>
    .optionalField hcondition fun _ _ => .notBlank
  by_cases hempty : settings.needs = []
  · rw [hempty]
    exact .ok
  · rw [if_neg hempty] at hneeds
    exact .field (toDocument settings.needs) hneeds located_needs

theorem located_scheduling
    (hconcurrency : document.field? "concurrency" = settings.concurrency.map toDocument)
    (hstrategy : document.field? "strategy" = settings.strategy.map toDocument) :
    Located gap path document (settings.checkScheduling path) :=
  .bind (.optionalField hconcurrency fun _ _ => located_concurrency) fun _ =>
    .optionalField hstrategy fun _ _ => located_strategy

end JobSettings

theorem located_services {services : Table Container} :
    Located gap path (toDocument services) (checkServices path services) :=
  .table fun _ _ => .bind .notBlank fun _ => located_container

theorem located_outputs {outputs : Table String} :
    Located gap path (toDocument outputs) (checkOutputs path outputs) :=
  .table fun _ _ => .notBlank

theorem located_job {job : Job} : Located gap path (toDocument job) (check path job) := by
  change Located gap path (.record _) _
  refine .bind (JobSettings.located_start ?_ ?_ ?_) fun _ =>
    .bind (.field (toDocument job.runsOn) ?_ located_runsOn) fun _ =>
    .bind (.optionalField ?_ fun _ _ => located_environment) fun _ =>
    .bind (JobSettings.located_scheduling ?_ ?_) fun _ =>
    .bind (.optionalField ?_ fun _ _ => located_jobContainer) fun _ =>
    .bind (.optionalField ?_ fun _ _ => located_services) fun _ =>
    .bind (.optionalField ?_ fun _ _ => located_outputs) fun _ =>
    .bind (.optionalField ?_ fun _ _ => .atLeast) fun _ =>
    .bind (.optionalField ?_ fun _ _ => located_switch) fun _ =>
    .field (toDocument job.steps) ?_ located_steps
  all_goals simp [JobSettings.startFields]

theorem located_callJob {job : CallJob} :
    Located gap path (toDocument job) (check path job) := by
  change Located gap path (.record _) _
  refine .bind (JobSettings.located_start ?_ ?_ ?_) fun _ =>
    .bind (JobSettings.located_scheduling ?_ ?_) fun _ =>
    .field (toDocument job.uses) ?_ .format
  all_goals simp [JobSettings.startFields]

theorem located_jobEntry {entry : JobEntry} :
    Located gap path (toDocument entry) (check path entry) := by
  cases entry with
  | run => exact located_job
  | call => exact located_callJob

end ActionsWorkflow
