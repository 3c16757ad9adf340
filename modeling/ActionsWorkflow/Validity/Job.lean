import ActionsWorkflow.Model.Workflow
import ActionsWorkflow.Validity.Matrix
import ActionsWorkflow.Validity.Runner

/-!
# Valid steps and jobs

Within a job the ids of steps and the entries of `needs` are distinct.
-/

namespace ActionsWorkflow

instance : Checkable StepAction where
  check path
    | .uses action _ => checkNotBlank (path.key "uses") action
    | .run script _ _ => checkNotBlank (path.key "run") script

instance : Checkable Step where
  check path step := do
    check path step.action
    checkOptional checkNotBlank (path.key "id") step.id
    check (path.key "continue-on-error") step.continueOnError
    checkOptional (checkAtLeast 1) (path.key "timeout-minutes") step.timeoutMinutes

def checkStep (path : Path) (before : List Step) (step : Step) : Verdict := do
  let stepPath := path.index before.length
  check stepPath step
  match step.id with
  | none => .ok ()
  | some id =>
      if (before.map Step.id).contains (some id) then
        violate (stepPath.key "id") (.duplicate id)
      else .ok ()

def checkSteps (path : Path) (steps : List Step) : Verdict := do
  checkNotEmpty path steps
  checkEach (checkStep path) [] steps

def checkNeed (path : Path) (before : List String) (need : String) : Verdict := do
  let needPath := path.index before.length
  checkFormat .jobId needPath need
  if before.contains need then
    violate needPath (.duplicate need)

def checkNeeds (path : Path) (needs : List String) : Verdict :=
  checkEach (checkNeed path) [] needs

def JobSettings.checkStart (path : Path) (settings : JobSettings) : Verdict := do
  checkOptional checkNotBlank (path.key "name") settings.name
  checkNeeds (path.key "needs") settings.needs
  checkOptional checkNotBlank (path.key "if") settings.condition

def JobSettings.checkScheduling (path : Path) (settings : JobSettings) : Verdict := do
  check (path.key "concurrency") settings.concurrency
  check (path.key "strategy") settings.strategy

def checkService (path : Path) (entry : String × Container) : Verdict := do
  checkNotBlank (path.key entry.1) entry.1
  check (path.key entry.1) entry.2

def checkServices (path : Path) (services : Table Container) : Verdict :=
  checkEach (fun _ entry => checkService path entry) [] services.entries

def checkOutputs (path : Path) (outputs : Table String) : Verdict :=
  checkEach (fun _ entry => checkNotBlank (path.key entry.1) entry.2) [] outputs.entries

instance : Checkable Job where
  check path job := do
    job.checkStart path
    check (path.key "runs-on") job.runsOn
    check (path.key "environment") job.environment
    job.checkScheduling path
    check (path.key "container") job.container
    checkOptional checkServices (path.key "services") job.services
    checkOptional checkOutputs (path.key "outputs") job.outputs
    checkOptional (checkAtLeast 1) (path.key "timeout-minutes") job.timeoutMinutes
    check (path.key "continue-on-error") job.continueOnError
    checkSteps (path.key "steps") job.steps

instance : Checkable CallJob where
  check path job := do
    job.checkStart path
    job.checkScheduling path
    checkFormat .workflowReference (path.key "uses") job.uses

instance : Checkable JobEntry where
  check path
    | .run job => check path job
    | .call job => check path job

end ActionsWorkflow
