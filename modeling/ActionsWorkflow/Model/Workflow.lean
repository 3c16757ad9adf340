import ActionsWorkflow.Model.Matrix
import ActionsWorkflow.Model.Permissions
import ActionsWorkflow.Model.Runner
import ActionsWorkflow.Model.Step
import ActionsWorkflow.Model.Trigger

/-!
# Jobs and workflows

A job runs its steps on a runner, or it calls a reusable workflow.  Both kinds share the
fields that say when and with which rights they start.  A workflow is a header, which says
when it starts and what holds for all of its jobs, and the jobs by their ids in the order of
their declaration.
-/

namespace ActionsWorkflow

structure JobSettings where
  name : Option String := none
  needs : List String := []
  condition : Option String := none
  permissions : Option Permissions := none
  concurrency : Option Concurrency := none
  strategy : Option Strategy := none

/-- All of a job with steps except the runner, which every such job must have. -/
structure JobBody extends JobSettings where
  environment : Option Environment := none
  container : Option JobContainer := none
  services : Option (Table Container) := none
  outputs : Option (Table String) := none
  env : Option (Table Scalar) := none
  defaults : Option Defaults := none
  timeoutMinutes : Option Nat := none
  continueOnError : Option Switch := none
  steps : List Step := []

structure Job extends JobBody where
  runsOn : RunsOn

inductive Secrets where
  | inherit
  | named (secrets : Table String)

structure CallBody extends JobSettings where
  inputs : Option (Table Scalar) := none
  secrets : Option Secrets := none

structure CallJob extends CallBody where
  uses : String

inductive JobEntry where
  | run (job : Job)
  | call (job : CallJob)

namespace JobEntry

def settings : JobEntry → JobSettings
  | .run job => job.toJobSettings
  | .call job => job.toJobSettings

def needs (entry : JobEntry) : List String := entry.settings.needs

def steps : JobEntry → List Step
  | .run job => job.steps
  | .call _ => []

end JobEntry

/-- A workflow without its jobs. -/
structure WorkflowHeader where
  name : String
  runName : Option String := none
  on : List Trigger := []
  permissions : Option Permissions := none
  env : Option (Table Scalar) := none
  defaults : Option Defaults := none
  concurrency : Option Concurrency := none

structure Workflow extends WorkflowHeader where
  jobs : Table JobEntry

def Workflow.jobIds (workflow : Workflow) : List String := workflow.jobs.keys

end ActionsWorkflow
