import ActionsWorkflow.Encoding.Trigger
import ActionsWorkflow.Proofs.Schema.Setting

/-!
# Schemas of triggers

The triggers of a workflow are a choice among the events, each with filters of its own.
-/

namespace ActionsWorkflow

open Document (keys)
open Schema (Fits names conforms_record)

instance : Described PullRequestActivity := ⟨.text, fun activity => .text activity.name⟩

instance : Described PushFilters where
  schema := .record
    [("branches", schemaOf (List String)), ("branches-ignore", schemaOf (List String)),
      ("tags", schemaOf (List String)), ("tags-ignore", schemaOf (List String)),
      ("paths", schemaOf (List String)), ("paths-ignore", schemaOf (List String))]
  conforms _ := conforms_record (by decide) (by simp [NameFilter.fields])

instance : Described PullRequestFilters where
  schema := .record
    [("types", schemaOf (List PullRequestActivity)), ("branches", schemaOf (List String)),
      ("branches-ignore", schemaOf (List String)), ("paths", schemaOf (List String)),
      ("paths-ignore", schemaOf (List String))]
  conforms _ := conforms_record (by decide) (by simp [NameFilter.fields])

instance : Described InputType := ⟨.text, fun type => .text type.name⟩

instance : Described Input where
  schema := .record
    [("description", schemaOf String), ("required", schemaOf Bool),
      ("default", schemaOf String), ("type", schemaOf InputType),
      ("options", schemaOf (List String))]
  conforms _ := conforms_record (by decide) (by simp)

instance : Described SecretSpec where
  schema := .record [("description", schemaOf String), ("required", schemaOf Bool)]
  conforms _ := conforms_record (by decide) (by simp)

namespace Trigger

def manualSchema : Schema := .record [("inputs", schemaOf (Table Input))]

def cronSchema : Schema := .record [("cron", schemaOf String)]

def scheduleSchema : Schema := .list cronSchema

def callSchema : Schema :=
  .record [("inputs", schemaOf (Table Input)), ("secrets", schemaOf (Table SecretSpec))]

def activitySchema : Schema :=
  .record [("types", schemaOf (List String)), ("workflows", schemaOf (List String))]

def places : List (String × Schema) :=
  [("push", schemaOf PushFilters), ("pull_request", schemaOf PullRequestFilters),
    ("pull_request_target", schemaOf PullRequestFilters), ("workflow_dispatch", manualSchema),
    ("schedule", scheduleSchema), ("workflow_call", callSchema)] ++
  Event.all.map fun event => (event.name, activitySchema)

theorem nodup_names_places : (names places).Nodup := by decide

def schema : Trigger → Schema
  | .push _ => schemaOf PushFilters
  | .pullRequest _ => schemaOf PullRequestFilters
  | .pullRequestTarget _ => schemaOf PullRequestFilters
  | .manual _ => manualSchema
  | .schedule _ => scheduleSchema
  | .workflowCall .. => callSchema
  | .activity .. => activitySchema

theorem mem_places (trigger : Trigger) : (trigger.eventName, trigger.schema) ∈ places := by
  cases trigger with
  | activity event =>
      exact List.mem_append_right _ (List.mem_map_of_mem (Event.mem_all event))
  | _ => simp [places, eventName, schema]

theorem conforms_cron (cron : String) : cronSchema.Conforms (cronDocument cron) := by
  have hfits : List.Forall₂ Fits [entry "cron" cron] [("cron", schemaOf String)] := by simp
  exact conforms_record (by decide) hfits

theorem conforms_schedule (crons : List String) :
    scheduleSchema.Conforms (toDocument (schedule crons)) := by
  refine .list fun document hdocument => ?_
  obtain ⟨cron, -, rfl⟩ := List.mem_map.1 hdocument
  exact conforms_cron cron

theorem conforms (trigger : Trigger) : trigger.schema.Conforms (toDocument trigger) := by
  cases trigger with
  | push filters => exact Described.conforms filters
  | pullRequest filters => exact Described.conforms filters
  | pullRequestTarget filters => exact Described.conforms filters
  | manual inputs => exact conforms_record (by decide) (by simp)
  | schedule crons => exact conforms_schedule crons
  | workflowCall inputs secrets => exact conforms_record (by decide) (by simp)
  | activity event types workflows => exact conforms_record (by decide) (by simp)

end Trigger

def triggersSchema : Schema := .choice Trigger.places

theorem conforms_triggers {triggers : List Trigger}
    (h : (triggers.map Trigger.eventName).Nodup) :
    triggersSchema.Conforms (triggersDocument triggers) := by
  refine .choice ?distinct ?known ?each
  case distinct => simpa [keys, Function.comp_def] using h
  case known =>
    intro name hname
    obtain ⟨_, hentry, rfl⟩ := List.mem_map.1 hname
    obtain ⟨trigger, -, rfl⟩ := List.mem_map.1 hentry
    exact List.mem_map_of_mem trigger.mem_places
  case each =>
    intro entry hentry
    obtain ⟨trigger, -, rfl⟩ := List.mem_map.1 hentry
    exact Schema.conforms_each_of_mem Trigger.nodup_names_places trigger.mem_places
      trigger.conforms

end ActionsWorkflow
