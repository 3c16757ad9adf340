import ActionsWorkflow.Model.Trigger
import ActionsWorkflow.Validity.Rule

/-!
# Valid triggers

A workflow has at least one trigger and at most one for each event.  An event with a pair
of filters takes one of the two.
-/

namespace ActionsWorkflow

def NameFilter.check (name : String) (path : Path) (filter : NameFilter) : Verdict := do
  let ignoredName := name ++ "-ignore"
  checkExclusive (path.key name) filter.included filter.ignored ignoredName
  checkOptional checkNames (path.key name) filter.included
  checkOptional checkNames (path.key ignoredName) filter.ignored

instance : Checkable PushFilters where
  check path filters := do
    filters.branches.check "branches" path
    filters.tags.check "tags" path
    filters.paths.check "paths" path

instance : Checkable PullRequestFilters where
  check path filters := do
    checkOptional checkNotEmpty (path.key "types") filters.types
    filters.branches.check "branches" path
    filters.paths.check "paths" path

/-- Options are for inputs of type `choice`, and such an input has some. -/
instance : Checkable Input where
  check path input := do
    checkNotBlank (path.key "description") input.description
    let optionsPath := path.key "options"
    match input.type, input.options with
    | some .choice, none =>
        violate optionsPath (.invalid "is required for inputs of type `choice`")
    | some .choice, some options => checkNames optionsPath options
    | _, some _ =>
        violate optionsPath (.invalid "is only allowed for inputs of type `choice`")
    | _, none => .ok ()

def checkInput (path : Path) (entry : String × Input) : Verdict := do
  checkNotBlank path entry.1
  check (path.key entry.1) entry.2

def checkInputs (path : Path) (inputs : Table Input) : Verdict :=
  checkEach (fun _ entry => checkInput path entry) [] inputs.entries

def checkSecretNames (path : Path) (secrets : Table SecretSpec) : Verdict :=
  checkEach (fun _ name => checkNotBlank path name) [] secrets.keys

def checkWatched (path : Path) (event : Event) (workflows : Option (List String)) :
    Verdict :=
  match event, workflows with
  | .workflowRun, some names => checkNames path names
  | .workflowRun, none => violate path .required
  | _, some _ => violate path (.invalid "is only allowed for `workflow_run`")
  | _, none => .ok ()

instance : Checkable Trigger where
  check path
    | .push filters => check path filters
    | .pullRequest filters => check path filters
    | .pullRequestTarget filters => check path filters
    | .manual inputs => checkOptional checkInputs (path.key "inputs") inputs
    | .schedule crons => do
        checkNotEmpty path crons
        checkItems (fun itemPath => checkFormat .schedule (itemPath.key "cron")) path crons
    | .workflowCall inputs secrets => do
        checkOptional checkInputs (path.key "inputs") inputs
        checkOptional checkSecretNames (path.key "secrets") secrets
    | .activity event types workflows => do
        checkOptional checkNames (path.key "types") types
        checkWatched (path.key "workflows") event workflows

def checkTrigger (path : Path) (before : List Trigger) (trigger : Trigger) : Verdict := do
  let name := trigger.eventName
  if (before.map Trigger.eventName).contains name then
    violate path (.duplicate name)
  check (path.key name) trigger

def checkTriggers (path : Path) (triggers : List Trigger) : Verdict := do
  if triggers.isEmpty then
    violate path .required
  checkEach (checkTrigger path) [] triggers

end ActionsWorkflow
