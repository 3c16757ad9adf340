/-!
# Log entries

An entry is one line: its level, its message and then its fields.  A message may hold text
from outside, so the controls that a terminal would act on are spelled out in it; the
values of the fields are written as they are.
-/

namespace ActionsWorkflow.CommandLine

inductive LogLevel where
  | info
  | debug
  deriving DecidableEq, Repr

structure LogEntry where
  level : LogLevel
  message : String
  fields : List (String × String)
  deriving DecidableEq, Repr

def LogLevel.label : LogLevel → String
  | .info => " INFO"
  | .debug => "DEBUG"

def actingControls : List Char := ['\x1b', '\x07', '\x08', '\x0c', '\x7f']

def isHighControl (c : Char) : Bool := 0x80 ≤ c.toNat && c.toNat ≤ 0x9F

def codeDigits (c : Char) : List Char :=
  [Nat.digitChar (c.toNat / 16), Nat.digitChar (c.toNat % 16)]

def spelledChar (c : Char) : List Char :=
  if actingControls.contains c then '\\' :: 'x' :: codeDigits c
  else if isHighControl c then '\\' :: 'u' :: '\x7b' :: codeDigits c ++ ['\x7d']
  else [c]

def spelled (text : String) : String := String.ofList (text.toList.flatMap spelledChar)

namespace LogEntry

def isShown (verbosity : Nat) (entry : LogEntry) : Bool :=
  match entry.level with
  | .info => 1 ≤ verbosity
  | .debug => 2 ≤ verbosity

def fieldsText (entry : LogEntry) : String :=
  String.join (entry.fields.map fun (name, value) => " " ++ name ++ "=" ++ value)

def line (entry : LogEntry) : String :=
  entry.level.label ++ " " ++ spelled entry.message ++ entry.fieldsText ++ "\n"

end LogEntry

end ActionsWorkflow.CommandLine
