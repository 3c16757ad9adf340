import ActionsWorkflow.CommandLine.Arguments
import ActionsWorkflow.CommandLine.Help
import ActionsWorkflow.CommandLine.Log
import ActionsWorkflow.Export.Write

/-!
# Running the command

A run reads its arguments, exports one workflow and reports what it did.  Log entries go
to the standard output ahead of the final line, as far as the verbosity lets them through.
-/

namespace ActionsWorkflow.CommandLine

def startEntry (workflow : Workflow) (path : String) : LogEntry :=
  ⟨.debug, "Exporting workflow '" ++ workflow.name ++ "' to " ++ path, []⟩

def quotedList (items : List String) : String :=
  "[" ++ String.intercalate ", " (items.map fun item => "\"" ++ item ++ "\"") ++ "]"

def planEntries (workflow : Workflow) (plan : Plan) : List LogEntry :=
  [⟨.debug, "Dependency graph is acyclic",
      [("jobs", toString workflow.jobs.size), ("edges", toString plan.needCount)]⟩,
    ⟨.debug, "Job execution order", [("order", quotedList plan.order)]⟩]

def finalEntry (workflow : Workflow) (path : String) : LogEntry :=
  ⟨.info, "Wrote workflow to " ++ path,
    [("workflow", workflow.name), ("jobs", toString workflow.jobs.size)]⟩

structure Execution where
  log : List LogEntry
  result : Except Failure String

variable {m : Type → Type} [Monad m] [Storage m]

def exportTo (path : String) (workflow : Workflow) : m Execution := do
  let started := [startEntry workflow path]
  match workflow.plan with
  | .error error => return ⟨started, .error (.refused error)⟩
  | .ok plan =>
      let planned := started ++ planEntries workflow plan
      match ← workflow.writeFile path with
      | .error error => return ⟨planned, .error (.refused error)⟩
      | .ok () => return ⟨planned ++ [finalEntry workflow path], .ok path⟩

def execute (options : Options) (defaultOutput : String)
    (workflow : Except Violation Workflow) : m Execution :=
  match workflow with
  | .error violation => return ⟨[], .error (.invalid violation)⟩
  | .ok workflow => exportTo (options.output.getD defaultOutput) workflow

structure Outcome where
  exitCode : Nat
  output : String
  errors : String
  deriving DecidableEq, Repr

def failureText (report : Report) : String :=
  let code := (report.code.map (· ++ "\n\n")).getD ""
  let advice := (report.advice.map ("  help: " ++ · ++ "\n")).getD ""
  "Error: " ++ code ++ "  × " ++ report.message ++ "\n" ++ advice

def UsageError.message : UsageError → String
  | .unknownArgument => "unexpected argument found"
  | .invalidValue => "a value is required for '--output <OUTPUT>' but none was supplied"
  | .argumentConflict => "the argument '--output <OUTPUT>' cannot be used multiple times"
  | .tooManyValues => "unexpected value for an option that takes none"

def UsageError.text (error : UsageError) : String :=
  "error: " ++ error.message ++ "\n\nFor more information, try '--help'.\n"

def Execution.outcome (verbosity : Nat) (execution : Execution) : Outcome :=
  let shown := execution.log.filter (·.isShown verbosity)
  let log := String.join (shown.map LogEntry.line)
  match execution.result with
  | .ok path => ⟨0, log ++ "✓ Wrote " ++ path ++ "\n", ""⟩
  | .error failure => ⟨1, log, failureText failure.report⟩

structure Program where
  name : String
  defaultOutput : String
  workflow : Except Violation Workflow

def Program.run (program : Program) (arguments : List String)
    (environment : Option String) : m Outcome :=
  match parse arguments environment with
  | .error error => return ⟨2, "", error.text⟩
  | .ok .help => return ⟨0, helpOutput program.name environment, ""⟩
  | .ok .version => return ⟨0, versionText, ""⟩
  | .ok (.run options) => do
      let execution ← execute options program.defaultOutput program.workflow
      return execution.outcome options.verbosity

end ActionsWorkflow.CommandLine
