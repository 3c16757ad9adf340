/-!
# Scalars and settings

The values of environment variables, action inputs and matrix rows, the settings that are
either a flag or an expression the runner evaluates, and what workflows and jobs share:
shells and defaults for script steps, and the concurrency group of a run.
-/

namespace ActionsWorkflow

inductive Scalar where
  | text (value : String)
  | integer (value : Int)
  | flag (value : Bool)
  deriving DecidableEq, Repr

inductive Switch where
  | flag (value : Bool)
  | expression (text : String)
  deriving DecidableEq, Repr

inductive Shell where
  | bash
  | pwsh
  | python
  | sh
  | cmd
  | powershell
  deriving DecidableEq, Repr

namespace Shell

def all : List Shell := [.bash, .pwsh, .python, .sh, .cmd, .powershell]

def name : Shell → String
  | .bash => "bash"
  | .pwsh => "pwsh"
  | .python => "python"
  | .sh => "sh"
  | .cmd => "cmd"
  | .powershell => "powershell"

end Shell

structure RunDefaults where
  shell : Option Shell := none
  workingDirectory : Option String := none
  deriving DecidableEq, Repr

structure Defaults where
  run : Option RunDefaults := none
  deriving DecidableEq, Repr

def Defaults.ofShell (shell : Shell) : Defaults := { run := some { shell := some shell } }

def Defaults.inDirectory (defaults : Defaults) (directory : String) : Defaults :=
  { defaults with
    run := some { defaults.run.getD {} with workingDirectory := some directory } }

inductive Concurrency where
  | group (name : String)
  | detailed (name : String) (cancelInProgress : Option Switch)
  deriving DecidableEq, Repr

namespace Concurrency

def groupName : Concurrency → String
  | .group name => name
  | .detailed name _ => name

def cancelling (concurrency : Concurrency) (cancel : Switch) : Concurrency :=
  .detailed concurrency.groupName (some cancel)

end Concurrency

end ActionsWorkflow
