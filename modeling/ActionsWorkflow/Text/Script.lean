import ActionsWorkflow.Text.Character

/-!
# Shell scripts

A script written inside an indented definition carries that indentation into each line
after the first.  Removing it must not touch text inside shell quotes, so the script is
read with a small scanner: single quotes are literal, a backslash anywhere else protects
the next character, and a line ends at each newline that is not protected.
-/

namespace ActionsWorkflow.Text

inductive Quote where
  | single
  | double
  deriving DecidableEq, Repr

structure Scanner where
  quote : Option Quote
  escaped : Bool
  deriving DecidableEq, Repr

namespace Scanner

def start : Scanner := ⟨none, false⟩

def advance (scanner : Scanner) (c : Char) : Scanner :=
  if scanner.escaped then { scanner with escaped := false }
  else match c, scanner.quote with
    | '\\', some .single => scanner
    | '\\', _ => { scanner with escaped := true }
    | '\'', none => { scanner with quote := some .single }
    | '"', none => { scanner with quote := some .double }
    | '\'', some .single => { scanner with quote := none }
    | '"', some .double => { scanner with quote := none }
    | _, _ => scanner

def endsLine (scanner : Scanner) (c : Char) : Bool := c = '\n' && !scanner.escaped

end Scanner

structure ScriptLine where
  text : List Char
  /-- The line starts inside an open quote. -/
  quoted : Bool
  deriving DecidableEq, Repr

def scriptLinesFrom (scanner : Scanner) : List Char → ScriptLine × List ScriptLine
  | [] => (⟨[], scanner.quote.isSome⟩, [])
  | c :: rest =>
      let (line, lines) := scriptLinesFrom (scanner.advance c) rest
      if scanner.endsLine c then (⟨[], scanner.quote.isSome⟩, line :: lines)
      else (⟨c :: line.text, scanner.quote.isSome⟩, lines)

def scriptLines (script : List Char) : List ScriptLine :=
  let (line, lines) := scriptLinesFrom .start script
  line :: lines

def indentation (line : List Char) : Nat := (line.takeWhile (· = ' ')).length

def commonIndentation (lines : List ScriptLine) : Nat :=
  let indented := lines.filter fun line => !line.quoted && !isBlank line.text
  ((indented.map fun line => indentation line.text).min?).getD 0

def ScriptLine.outdent (width : Nat) (line : ScriptLine) : List Char :=
  if line.quoted then line.text
  else if isBlank line.text then []
  else line.text.drop width

/-- The first line follows the opening quote and keeps its spaces; it goes if it is blank. -/
def outdentLines : List ScriptLine → List (List Char)
  | [] => []
  | first :: rest =>
      let width := commonIndentation rest
      let body := rest.map (ScriptLine.outdent width)
      if isBlank first.text && !body.isEmpty then body else first.text :: body

def dedent (script : String) : String :=
  let text := script.toList
  if text.contains '\n' then
    String.ofList (List.intercalate ['\n'] (outdentLines (scriptLines text)))
  else script

end ActionsWorkflow.Text
