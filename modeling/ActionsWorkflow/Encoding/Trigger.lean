import ActionsWorkflow.Encoding.Setting
import ActionsWorkflow.Model.Trigger

/-!
# Triggers as documents

The triggers of a workflow form one mapping from event names to filters.
-/

namespace ActionsWorkflow

def NameFilter.fields (name : String) (filter : NameFilter) :
    List (String × Option Document) :=
  [optionalEntry name filter.included, optionalEntry (name ++ "-ignore") filter.ignored]

instance : ToDocument PullRequestActivity := ⟨fun activity => .text activity.name⟩

instance : ToDocument PushFilters where
  toDocument filters := .record
    (filters.branches.fields "branches" ++ filters.tags.fields "tags" ++
      filters.paths.fields "paths")

instance : ToDocument PullRequestFilters where
  toDocument filters := .record
    (optionalEntry "types" filters.types :: filters.branches.fields "branches" ++
      filters.paths.fields "paths")

instance : ToDocument InputType := ⟨fun type => .text type.name⟩

instance : ToDocument Input where
  toDocument input := .record
    [entry "description" input.description, optionalEntry "required" input.required,
      optionalEntry "default" input.default, optionalEntry "type" input.type,
      optionalEntry "options" input.options]

instance : ToDocument SecretSpec where
  toDocument secret := .record
    [optionalEntry "description" secret.description, entry "required" secret.required]

def cronDocument (cron : String) : Document := .mapping [("cron", .text cron)]

instance : ToDocument Trigger where
  toDocument
    | .push filters => toDocument filters
    | .pullRequest filters => toDocument filters
    | .pullRequestTarget filters => toDocument filters
    | .manual inputs => .record [optionalEntry "inputs" inputs]
    | .schedule crons => .sequence (crons.map cronDocument)
    | .workflowCall inputs secrets =>
        .record [optionalEntry "inputs" inputs, optionalEntry "secrets" secrets]
    | .activity _ types workflows =>
        .record [optionalEntry "types" types, optionalEntry "workflows" workflows]

def triggersDocument (triggers : List Trigger) : Document :=
  .mapping (triggers.map fun trigger => (trigger.eventName, toDocument trigger))

end ActionsWorkflow
