import ActionsWorkflow.Model.Setting
import ActionsWorkflow.Table
import ActionsWorkflow.Text.Script

/-!
# Steps

A step calls an action or runs a script.  Inputs belong to actions, and a shell and a
directory to scripts; setting one on the other kind changes nothing.
-/

namespace ActionsWorkflow

inductive StepAction where
  | uses (action : String) (inputs : Option (Table Scalar))
  | run (script : String) (shell : Option Shell) (workingDirectory : Option String)

structure Step where
  action : StepAction
  id : Option String := none
  condition : Option String := none
  name : Option String := none
  env : Option (Table Scalar) := none
  continueOnError : Option Switch := none
  timeoutMinutes : Option Nat := none

namespace StepAction

def mapInputs (change : Option (Table Scalar) → Option (Table Scalar)) :
    StepAction → StepAction
  | .uses action inputs => .uses action (change inputs)
  | .run script shell workingDirectory => .run script shell workingDirectory

def setShell (shell : Shell) : StepAction → StepAction
  | .uses action inputs => .uses action inputs
  | .run script _ workingDirectory => .run script (some shell) workingDirectory

def setDirectory (directory : String) : StepAction → StepAction
  | .uses action inputs => .uses action inputs
  | .run script shell _ => .run script shell (some directory)

end StepAction

namespace Step

def uses (action : String) : Step := { action := .uses action none }

/-- A script step; the script loses the indentation of the definition around it. -/
def run (script : String) : Step := { action := .run (Text.dedent script) none none }

def setId (step : Step) (id : String) : Step := { step with id := some id }

def setName (step : Step) (name : String) : Step := { step with name := some name }

def setCondition (step : Step) (condition : String) : Step :=
  { step with condition := some condition }

def setInput (step : Step) (key : String) (value : Scalar) : Step :=
  { step with action := step.action.mapInputs (Table.insertInto · key value) }

def setShell (step : Step) (shell : Shell) : Step :=
  { step with action := step.action.setShell shell }

def setDirectory (step : Step) (directory : String) : Step :=
  { step with action := step.action.setDirectory directory }

def setEnv (step : Step) (key : String) (value : Scalar) : Step :=
  { step with env := Table.insertInto step.env key value }

def setContinueOnError (step : Step) (value : Switch) : Step :=
  { step with continueOnError := some value }

def setTimeout (step : Step) (minutes : Nat) : Step :=
  { step with timeoutMinutes := some minutes }

end Step

end ActionsWorkflow
