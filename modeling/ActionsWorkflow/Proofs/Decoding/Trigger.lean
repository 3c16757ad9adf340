import ActionsWorkflow.Encoding.Trigger
import ActionsWorkflow.Proofs.Decoding.Field

/-!
# Reading triggers back

The event of a trigger is not in its own document but is the key of it, and the key decides
how the document is read.
-/

namespace ActionsWorkflow

def NameFilter.read (document : Document) (name : String) : Option NameFilter := do
  let included ← document.optional? name
  let ignored ← document.optional? (name ++ "-ignore")
  some { included, ignored }

def PushFilters.read (document : Document) : Option PushFilters := do
  let branches ← NameFilter.read document "branches"
  let tags ← NameFilter.read document "tags"
  let paths ← NameFilter.read document "paths"
  some { branches, tags, paths }

instance : FromDocument PushFilters := ⟨PushFilters.read⟩

instance : Lossless PushFilters where
  fromDocument?_toDocument filters := by
    change PushFilters.read (.record _) = _
    simp [PushFilters.read, NameFilter.read, NameFilter.fields, Document.optional?]

instance : FromDocument PullRequestActivity :=
  ⟨Document.named? PullRequestActivity.all PullRequestActivity.name⟩

instance : Lossless PullRequestActivity where
  fromDocument?_toDocument activity := by cases activity <;> rfl

def PullRequestFilters.read (document : Document) : Option PullRequestFilters := do
  let types ← document.optional? "types"
  let branches ← NameFilter.read document "branches"
  let paths ← NameFilter.read document "paths"
  some { types, branches, paths }

instance : FromDocument PullRequestFilters := ⟨PullRequestFilters.read⟩

instance : Lossless PullRequestFilters where
  fromDocument?_toDocument filters := by
    change PullRequestFilters.read (.record _) = _
    simp [PullRequestFilters.read, NameFilter.read, NameFilter.fields, Document.optional?]

instance : FromDocument InputType := ⟨Document.named? InputType.all InputType.name⟩

instance : Lossless InputType where
  fromDocument?_toDocument type := by cases type <;> rfl

def Input.read (document : Document) : Option Input := do
  let description ← document.required? "description"
  let required ← document.optional? "required"
  let default ← document.optional? "default"
  let type ← document.optional? "type"
  let options ← document.optional? "options"
  some { description, required, default, type, options }

instance : FromDocument Input := ⟨Input.read⟩

instance : Lossless Input where
  fromDocument?_toDocument input := by
    change Input.read (.record _) = _
    simp [Input.read, Document.required?, Document.optional?]

def SecretSpec.read (document : Document) : Option SecretSpec := do
  let description ← document.optional? "description"
  let required ← document.required? "required"
  some { description, required }

instance : FromDocument SecretSpec := ⟨SecretSpec.read⟩

instance : Lossless SecretSpec where
  fromDocument?_toDocument secret := by
    change SecretSpec.read (.record _) = _
    simp [SecretSpec.read, Document.required?, Document.optional?]

def readCron (document : Document) : Option String := document.required? "cron"

theorem readCron_cronDocument (cron : String) : readCron (cronDocument cron) = some cron := rfl

namespace Trigger

def readManual (document : Document) : Option Trigger := do
  let inputs ← document.optional? "inputs"
  some (.manual inputs)

def readSchedule : Document → Option Trigger
  | .sequence items => (items.mapM readCron).map .schedule
  | _ => none

def readWorkflowCall (document : Document) : Option Trigger := do
  let inputs ← document.optional? "inputs"
  let secrets ← document.optional? "secrets"
  some (.workflowCall inputs secrets)

def readActivity (event : Event) (document : Document) : Option Trigger := do
  let types ← document.optional? "types"
  let workflows ← document.optional? "workflows"
  some (.activity event types workflows)

def read (entry : String × Document) : Option Trigger :=
  match entry.1 with
  | "push" => (fromDocument? entry.2).map .push
  | "pull_request" => (fromDocument? entry.2).map .pullRequest
  | "pull_request_target" => (fromDocument? entry.2).map .pullRequestTarget
  | "workflow_dispatch" => readManual entry.2
  | "schedule" => readSchedule entry.2
  | "workflow_call" => readWorkflowCall entry.2
  | name => do
      let event ← Event.all.find? fun event => event.name = name
      readActivity event entry.2

theorem readSchedule_crons (crons : List String) :
    readSchedule (.sequence (crons.map cronDocument)) = some (.schedule crons) :=
  congrArg (Option.map schedule) (mapM_map_eq_some fun cron _ => readCron_cronDocument cron)

theorem read_event (event : Event) (document : Document) :
    read (event.name, document) = readActivity event document := by
  cases event <;> rfl

theorem read_toDocument (trigger : Trigger) :
    read (trigger.eventName, toDocument trigger) = some trigger := by
  cases trigger with
  | push filters => exact congrArg (Option.map push) (fromDocument?_toDocument filters)
  | pullRequest filters =>
      exact congrArg (Option.map pullRequest) (fromDocument?_toDocument filters)
  | pullRequestTarget filters =>
      exact congrArg (Option.map pullRequestTarget) (fromDocument?_toDocument filters)
  | manual inputs =>
      change readManual (.record _) = _
      simp [readManual, Document.optional?]
  | schedule crons => exact readSchedule_crons crons
  | workflowCall inputs secrets =>
      change readWorkflowCall (.record _) = _
      simp [readWorkflowCall, Document.optional?]
  | activity event types workflows =>
      refine (read_event event _).trans ?_
      change readActivity event (.record _) = _
      simp [readActivity, Document.optional?]

end Trigger

def readTriggers : Document → Option (List Trigger)
  | .mapping entries => entries.mapM Trigger.read
  | _ => none

theorem readTriggers_triggersDocument (triggers : List Trigger) :
    readTriggers (triggersDocument triggers) = some triggers :=
  mapM_map_eq_some fun trigger _ => Trigger.read_toDocument trigger

end ActionsWorkflow
