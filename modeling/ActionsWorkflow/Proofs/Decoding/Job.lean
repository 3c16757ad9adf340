import ActionsWorkflow.Encoding.Workflow
import ActionsWorkflow.Proofs.Decoding.Matrix
import ActionsWorkflow.Proofs.Decoding.Setting
import ActionsWorkflow.Proofs.Validity.Job

/-!
# Reading steps and jobs back

Only a step that calls an action and a job that calls a workflow have a field `uses`, so
this field tells the two kinds of each apart.  A job without needs has no field for them.
-/

namespace ActionsWorkflow

namespace StepAction

def readUses (document : Document) : Option StepAction := do
  let action ← document.required? "uses"
  let inputs ← document.optional? "with"
  some (.uses action inputs)

def readRun (document : Document) : Option StepAction := do
  let script ← document.required? "run"
  let shell ← document.optional? "shell"
  let workingDirectory ← document.optional? "working-directory"
  some (.run script shell workingDirectory)

def read (document : Document) : Option StepAction :=
  if (document.field? "uses").isSome then readUses document else readRun document

end StepAction

def Step.read (document : Document) : Option Step := do
  let action ← StepAction.read document
  let id ← document.optional? "id"
  let condition ← document.optional? "if"
  let name ← document.optional? "name"
  let env ← document.optional? "env"
  let continueOnError ← document.optional? "continue-on-error"
  let timeoutMinutes ← document.optional? "timeout-minutes"
  some { action, id, condition, name, env, continueOnError, timeoutMinutes }

instance : FromDocument Step := ⟨Step.read⟩

instance : Lossless Step where
  fromDocument?_toDocument step := by
    obtain ⟨action, id, condition, name, env, continueOnError, timeoutMinutes⟩ := step
    change Step.read (.record _) = _
    cases action with
    | uses action inputs =>
        simp [Step.read, StepAction.read, StepAction.readUses, StepAction.fields,
          Document.required?, Document.optional?]
    | run script shell workingDirectory =>
        simp [Step.read, StepAction.read, StepAction.readRun, StepAction.fields,
          Document.required?, Document.optional?]

def Strategy.read (document : Document) : Option Strategy := do
  let matrix ← document.required? "matrix"
  let failFast ← document.optional? "fail-fast"
  let maxParallel ← document.optional? "max-parallel"
  some { matrix, failFast, maxParallel }

instance : FromDocument Strategy := ⟨Strategy.read⟩

theorem fromDocument?_strategy {strategy : Strategy} (h : strategy.Valid) :
    fromDocument? (toDocument strategy) = some strategy := by
  have hmatrix := fromDocument?_matrix h.matrix
  change Strategy.read (.record _) = _
  simp [Strategy.read, Document.required?, Document.optional?, Document.readRequired, hmatrix]

def JobSettings.read (document : Document) : Option JobSettings := do
  let name ← document.optional? "name"
  let needs ← document.optional? "needs"
  let condition ← document.optional? "if"
  let permissions ← document.optional? "permissions"
  let concurrency ← document.optional? "concurrency"
  let strategy ← document.optional? "strategy"
  some { name, needs := needs.getD [], condition, permissions, concurrency, strategy }

theorem getD_unless_nil (needs : List String) :
    (if needs = [] then none else some needs).getD [] = needs := by
  by_cases h : needs = [] <;> simp [h]

theorem JobSettings.readOptional_strategy {settings : JobSettings} (h : settings.Valid) :
    Document.readOptional (settings.strategy.map toDocument) = some settings.strategy :=
  Document.readOptional_map fun strategy hstrategy =>
    fromDocument?_strategy (h.strategy strategy hstrategy)

/-! ## Jobs -/

def Job.read (document : Document) : Option Job := do
  let settings ← JobSettings.read document
  let runsOn ← document.required? "runs-on"
  let environment ← document.optional? "environment"
  let container ← document.optional? "container"
  let services ← document.optional? "services"
  let outputs ← document.optional? "outputs"
  let env ← document.optional? "env"
  let defaults ← document.optional? "defaults"
  let timeoutMinutes ← document.optional? "timeout-minutes"
  let continueOnError ← document.optional? "continue-on-error"
  let steps ← document.required? "steps"
  some { toJobSettings := settings, runsOn, environment, container, services, outputs, env,
         defaults, timeoutMinutes, continueOnError, steps }

instance : FromDocument Job := ⟨Job.read⟩

theorem fromDocument?_job {job : Job} (h : job.toJobSettings.Valid) :
    fromDocument? (toDocument job) = some job := by
  have hstrategy := JobSettings.readOptional_strategy h
  change Job.read (.record _) = _
  simp [Job.read, JobSettings.read, JobSettings.startFields, Document.required?,
    Document.optional?, hstrategy, getD_unless_nil]

instance : FromDocument Secrets where
  fromDocument?
    | .text "inherit" => some .inherit
    | document => (fromDocument? document).map .named

instance : Lossless Secrets where
  fromDocument?_toDocument secrets := by
    cases secrets with
    | inherit => rfl
    | named table => exact congrArg (Option.map Secrets.named) (fromDocument?_toDocument table)

def CallJob.read (document : Document) : Option CallJob := do
  let settings ← JobSettings.read document
  let uses ← document.required? "uses"
  let inputs ← document.optional? "with"
  let secrets ← document.optional? "secrets"
  some { toJobSettings := settings, uses, inputs, secrets }

instance : FromDocument CallJob := ⟨CallJob.read⟩

theorem fromDocument?_callJob {job : CallJob} (h : job.toJobSettings.Valid) :
    fromDocument? (toDocument job) = some job := by
  have hstrategy := JobSettings.readOptional_strategy h
  change CallJob.read (.record _) = _
  simp [CallJob.read, JobSettings.read, JobSettings.startFields, Document.required?,
    Document.optional?, hstrategy, getD_unless_nil]

def JobEntry.read (document : Document) : Option JobEntry :=
  if (document.field? "uses").isSome then (fromDocument? document).map .call
  else (fromDocument? document).map .run

instance : FromDocument JobEntry := ⟨JobEntry.read⟩

theorem field?_uses_job (job : Job) : (toDocument job).field? "uses" = none := by
  change (Document.record _).field? "uses" = none
  simp [JobSettings.startFields]

theorem field?_uses_callJob (job : CallJob) :
    (toDocument job).field? "uses" = some (toDocument job.uses) := by
  change (Document.record _).field? "uses" = _
  simp [JobSettings.startFields]

theorem fromDocument?_jobEntry {entry : JobEntry} (h : entry.settings.Valid) :
    fromDocument? (toDocument entry) = some entry := by
  cases entry with
  | run job =>
      change JobEntry.read (toDocument job) = _
      simp [JobEntry.read, field?_uses_job, fromDocument?_job h]
  | call job =>
      change JobEntry.read (toDocument job) = _
      simp [JobEntry.read, field?_uses_callJob, fromDocument?_callJob h]

end ActionsWorkflow
