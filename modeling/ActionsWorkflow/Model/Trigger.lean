import ActionsWorkflow.Model.Event
import ActionsWorkflow.Table

/-!
# Triggers

A trigger is an event that starts the workflow together with the filters of that event.
-/

namespace ActionsWorkflow

structure NameFilter where
  included : Option (List String) := none
  ignored : Option (List String) := none
  deriving DecidableEq, Repr

structure PushFilters where
  branches : NameFilter := {}
  tags : NameFilter := {}
  paths : NameFilter := {}
  deriving DecidableEq, Repr

structure PullRequestFilters where
  types : Option (List PullRequestActivity) := none
  branches : NameFilter := {}
  paths : NameFilter := {}
  deriving DecidableEq, Repr

inductive InputType where
  | string
  | choice
  | boolean
  | number
  | environment
  deriving DecidableEq, Repr

namespace InputType

def all : List InputType := [.string, .choice, .boolean, .number, .environment]

def name : InputType → String
  | .string => "string"
  | .choice => "choice"
  | .boolean => "boolean"
  | .number => "number"
  | .environment => "environment"

end InputType

/-- A parameter that whoever starts the workflow fills in. -/
structure Input where
  description : String
  required : Option Bool := none
  default : Option String := none
  type : Option InputType := none
  options : Option (List String) := none
  deriving DecidableEq, Repr

structure SecretSpec where
  description : Option String := none
  required : Bool
  deriving DecidableEq, Repr

inductive Trigger where
  | push (filters : PushFilters)
  | pullRequest (filters : PullRequestFilters)
  | pullRequestTarget (filters : PullRequestFilters)
  | manual (inputs : Option (Table Input))
  | schedule (crons : List String)
  | workflowCall (inputs : Option (Table Input)) (secrets : Option (Table SecretSpec))
  | activity (event : Event) (types workflows : Option (List String))

def Trigger.eventName : Trigger → String
  | .push _ => "push"
  | .pullRequest _ => "pull_request"
  | .pullRequestTarget _ => "pull_request_target"
  | .manual _ => "workflow_dispatch"
  | .schedule _ => "schedule"
  | .workflowCall .. => "workflow_call"
  | .activity event .. => event.name

end ActionsWorkflow
