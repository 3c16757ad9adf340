import ActionsWorkflow.Validity.Job

/-!
# Job drafts

A job is drafted by a sequence of edits and finished in one go.  Most edits replace what
was set before; needs and steps collect, and tables take one more entry.  Finishing asks
for the fields that have no default and checks the job on its own, at the root path.
-/

namespace ActionsWorkflow

inductive SettingsEdit where
  | name (name : String)
  | needs (jobs : List String)
  | condition (condition : String)
  | permissions (permissions : Permissions)
  | concurrency (concurrency : Concurrency)
  | strategy (strategy : Strategy)

def JobSettings.apply (settings : JobSettings) : SettingsEdit → JobSettings
  | .name name => { settings with name := some name }
  | .needs jobs => { settings with needs := settings.needs ++ jobs }
  | .condition condition => { settings with condition := some condition }
  | .permissions permissions => { settings with permissions := some permissions }
  | .concurrency concurrency => { settings with concurrency := some concurrency }
  | .strategy strategy => { settings with strategy := some strategy }

structure JobDraft extends JobBody where
  runsOn : Option RunsOn := none

inductive JobEdit where
  | settings (edit : SettingsEdit)
  | runsOn (runner : RunsOn)
  | environment (environment : Environment)
  | container (container : JobContainer)
  | service (name : String) (container : Container)
  | output (name value : String)
  | env (key : String) (value : Scalar)
  | defaults (defaults : Defaults)
  | timeout (minutes : Nat)
  | continueOnError (value : Switch)
  | steps (steps : List Step)

namespace JobDraft

def apply (draft : JobDraft) : JobEdit → JobDraft
  | .settings edit => { draft with toJobSettings := draft.toJobSettings.apply edit }
  | .runsOn runner => { draft with runsOn := some runner }
  | .environment environment => { draft with environment := some environment }
  | .container container => { draft with container := some container }
  | .service name container =>
      { draft with services := Table.insertInto draft.services name container }
  | .output name value => { draft with outputs := Table.insertInto draft.outputs name value }
  | .env key value => { draft with env := Table.insertInto draft.env key value }
  | .defaults defaults => { draft with defaults := some defaults }
  | .timeout minutes => { draft with timeoutMinutes := some minutes }
  | .continueOnError value => { draft with continueOnError := some value }
  | .steps steps => { draft with steps := draft.steps ++ steps }

def ofEdits (edits : List JobEdit) : JobDraft := edits.foldl apply {}

def finish (draft : JobDraft) : Except Violation Job := do
  let runsOn ← require (Path.root.key "runs-on") draft.runsOn
  let job : Job := { draft with runsOn }
  check .root job
  return job

end JobDraft

/-! ## Calls of reusable workflows -/

structure CallDraft extends CallBody where
  uses : Option String := none

inductive CallEdit where
  | settings (edit : SettingsEdit)
  | uses (workflow : String)
  | input (key : String) (value : Scalar)
  | inheritSecrets
  | secret (name value : String)

def Secrets.table? : Option Secrets → Option (Table String)
  | some (.named secrets) => some secrets
  | _ => none

namespace CallDraft

def apply (draft : CallDraft) : CallEdit → CallDraft
  | .settings edit => { draft with toJobSettings := draft.toJobSettings.apply edit }
  | .uses workflow => { draft with uses := some workflow }
  | .input key value => { draft with inputs := Table.insertInto draft.inputs key value }
  | .inheritSecrets => { draft with secrets := some .inherit }
  | .secret name value =>
      let named := Table.insertInto (Secrets.table? draft.secrets) name value
      { draft with secrets := named.map .named }

def ofEdits (edits : List CallEdit) : CallDraft := edits.foldl apply {}

def finish (draft : CallDraft) : Except Violation CallJob := do
  let uses ← require (Path.root.key "uses") draft.uses
  let job : CallJob := { draft with uses }
  check .root job
  return job

end CallDraft

end ActionsWorkflow
