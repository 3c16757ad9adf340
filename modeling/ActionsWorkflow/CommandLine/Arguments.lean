/-!
# Command-line arguments

Arguments are read from left to right.  The value of `--output` may be the next argument,
and it is taken into account when the argument after it is read; so the reader keeps the
option that waits for a value, or the value that waits to be recorded.
-/

namespace ActionsWorkflow.CommandLine

structure Options where
  output : Option String := none
  verbosity : Nat := 0
  deriving DecidableEq, Repr

inductive UsageError where
  | unknownArgument
  | invalidValue
  | argumentConflict
  | tooManyValues
  deriving DecidableEq, Repr

inductive Request where
  | run (options : Options)
  | help
  | version
  deriving DecidableEq, Repr

inductive Pending where
  | nothing
  | awaited
  | value (text : String)
  deriving DecidableEq, Repr

structure Reader where
  options : Options := {}
  pending : Pending := .nothing
  deriving DecidableEq, Repr

/-- Reading stops early at a request for help or for the version. -/
inductive Progress where
  | more (reader : Reader)
  | done (request : Request)
  deriving DecidableEq, Repr

def verbosityLimit : Nat := 255

def recordOutput (options : Options) (value : String) : Except UsageError Options :=
  if options.output.isSome then .error .argumentConflict
  else if value = "" then .error .invalidValue
  else .ok { options with output := some value }

namespace Reader

def settle (reader : Reader) : Except UsageError Reader :=
  match reader.pending with
  | .nothing => .ok reader
  | .awaited => .error .invalidValue
  | .value text => do return { options := ← recordOutput reader.options text }

def countVerbose (reader : Reader) : Reader :=
  let verbosity := min (reader.options.verbosity + 1) verbosityLimit
  { reader with options := { reader.options with verbosity } }

def recordNow (reader : Reader) (value : String) : Except UsageError Progress := do
  let reader ← reader.settle
  return .more { reader with options := ← recordOutput reader.options value }

def awaitValue (reader : Reader) : Except UsageError Progress := do
  return .more { ← reader.settle with pending := .awaited }

def stop (reader : Reader) (request : Request) : Except UsageError Progress := do
  let _ ← reader.settle
  return .done request

def readLong (reader : Reader) (name : String) (value? : Option String) :
    Except UsageError Progress :=
  match name, value? with
  | "output", some value => reader.recordNow value
  | "output", none => reader.awaitValue
  | "verbose", none => do return .more (← reader.settle).countVerbose
  | "help", none => reader.stop .help
  | "version", none => reader.stop .version
  | "verbose", some _ | "help", some _ | "version", some _ => .error .tooManyValues
  | _, _ => .error .unknownArgument

/-- Options by their letters; what follows `o` in the same argument is its value. -/
def readShort (reader : Reader) : List Char → Except UsageError Progress
  | [] => .ok (.more reader)
  | 'v' :: rest => do (← reader.settle).countVerbose.readShort rest
  | 'h' :: _ => reader.stop .help
  | 'V' :: _ => reader.stop .version
  | ['o'] => reader.awaitValue
  | 'o' :: '=' :: rest => reader.recordNow (String.ofList rest)
  | 'o' :: rest => reader.recordNow (String.ofList rest)
  | _ => .error .unknownArgument

def readWord (reader : Reader) (word : String) : Except UsageError Progress :=
  match reader.pending with
  | .awaited => .ok (.more { reader with pending := .value word })
  | _ => .error .unknownArgument

def splitLong (text : List Char) : String × Option String :=
  let name := String.ofList (text.takeWhile (· ≠ '='))
  match text.dropWhile (· ≠ '=') with
  | [] => (name, none)
  | _ :: value => (name, some (String.ofList value))

def read (reader : Reader) (argument : String) : Except UsageError Progress :=
  match argument.toList with
  | '-' :: '-' :: text =>
      let (name, value?) := splitLong text
      reader.readLong name value?
  | '-' :: c :: rest => reader.readShort (c :: rest)
  | _ => reader.readWord argument

def finish (environment : Option String) (reader : Reader) : Except UsageError Request := do
  let options := (← reader.settle).options
  match options.output, environment with
  | none, some value => return .run (← recordOutput options value)
  | _, _ => return .run options

/-- Nothing may follow `--`, for there are no other arguments than options. -/
def readAll (environment : Option String) (reader : Reader) :
    List String → Except UsageError Request
  | [] => reader.finish environment
  | argument :: rest =>
      if argument = "--" then
        if rest.isEmpty then reader.finish environment else .error .unknownArgument
      else do
        match ← reader.read argument with
        | .more next => next.readAll environment rest
        | .done request => return request

end Reader

def parse (arguments : List String) (environment : Option String) :
    Except UsageError Request :=
  Reader.readAll environment {} arguments

end ActionsWorkflow.CommandLine
