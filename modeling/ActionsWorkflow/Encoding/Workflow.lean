import ActionsWorkflow.Encoding.Setting
import ActionsWorkflow.Encoding.Trigger
import ActionsWorkflow.Model.Workflow

/-!
# Steps, jobs and workflows as documents

The fields of what a step does stand among its other fields, between its name and its
environment.  A workflow is the fields of its header in their fixed order, and the jobs last.
-/

namespace ActionsWorkflow

def StepAction.fields : StepAction → List (String × Option Document)
  | .uses action inputs => [entry "uses" action, optionalEntry "with" inputs]
  | .run script shell workingDirectory =>
      [entry "run" script, optionalEntry "shell" shell,
        optionalEntry "working-directory" workingDirectory]

instance : ToDocument Step where
  toDocument step := .record
    ([optionalEntry "id" step.id, optionalEntry "if" step.condition,
        optionalEntry "name" step.name] ++
      step.action.fields ++
      [optionalEntry "env" step.env, optionalEntry "continue-on-error" step.continueOnError,
        optionalEntry "timeout-minutes" step.timeoutMinutes])

/-- No needs at all are left out like an absent field. -/
def JobSettings.startFields (settings : JobSettings) : List (String × Option Document) :=
  let needs := if settings.needs.isEmpty then none else some settings.needs
  [optionalEntry "name" settings.name, optionalEntry "needs" needs,
    optionalEntry "if" settings.condition]

instance : ToDocument Job where
  toDocument job := .record
    (job.startFields ++
      [entry "runs-on" job.runsOn, optionalEntry "permissions" job.permissions,
        optionalEntry "environment" job.environment,
        optionalEntry "concurrency" job.concurrency, optionalEntry "strategy" job.strategy,
        optionalEntry "container" job.container, optionalEntry "services" job.services,
        optionalEntry "outputs" job.outputs, optionalEntry "env" job.env,
        optionalEntry "defaults" job.defaults,
        optionalEntry "timeout-minutes" job.timeoutMinutes,
        optionalEntry "continue-on-error" job.continueOnError, entry "steps" job.steps])

instance : ToDocument Secrets where
  toDocument
    | .inherit => .text "inherit"
    | .named secrets => toDocument secrets

instance : ToDocument CallJob where
  toDocument job := .record
    (job.startFields ++
      [optionalEntry "permissions" job.permissions,
        optionalEntry "concurrency" job.concurrency, optionalEntry "strategy" job.strategy,
        entry "uses" job.uses, optionalEntry "with" job.inputs,
        optionalEntry "secrets" job.secrets])

instance : ToDocument JobEntry where
  toDocument
    | .run job => toDocument job
    | .call job => toDocument job

instance : ToDocument Workflow where
  toDocument workflow := .record
    [entry "name" workflow.name, optionalEntry "run-name" workflow.runName,
      ("on", some (triggersDocument workflow.on)),
      optionalEntry "permissions" workflow.permissions, optionalEntry "env" workflow.env,
      optionalEntry "defaults" workflow.defaults,
      optionalEntry "concurrency" workflow.concurrency, entry "jobs" workflow.jobs]

end ActionsWorkflow
