/-!
# Control sequences

A text for a terminal mixes characters to be shown with sequences to be acted on.  A
sequence opens with the escape character, and the character after that decides how far it
reaches.  The visible part of a text is what no sequence takes, less the lone controls
that do not lay out text.
-/

namespace ActionsWorkflow.Terminal

/-- What the characters read so far have opened. -/
inductive Mode where
  | text
  | escape
  | escapeIntermediate
  | function
  | deviceEntry
  | deviceParameter
  | deviceIntermediate
  /-- A string for a device; it lasts up to a terminator. -/
  | string
  /-- A command to the system; it lasts up to a bell. -/
  | command
  deriving DecidableEq, Repr

def between (low high c : Char) : Bool := low ≤ c && c ≤ high

def isLayout (c : Char) : Bool := c = '\t' || c = '\n' || c = '\x0c' || c = '\r'

def isPrintable (c : Char) : Bool := ' ' ≤ c && c ≠ '\x7f'

/-- A terminator is the byte `9C`, wherever it stands in the encoding of a character. -/
def endsString (c : Char) : Bool := (String.utf8EncodeChar c).contains 0x9C

namespace Mode

/-- A sequence shows nothing but layout, and a string or a command not even that. -/
def shows (mode : Mode) (c : Char) : Bool :=
  match mode with
  | .text => isPrintable c || isLayout c
  | .escape | .escapeIntermediate | .function => isLayout c
  | .deviceEntry | .deviceParameter | .deviceIntermediate | .string | .command => false

def afterEscape (c : Char) : Mode :=
  if between ' ' '/' c then .escapeIntermediate
  else if c = '[' then .function
  else if c = ']' then .command
  else if c = 'P' then .deviceEntry
  else if c = 'X' || c = '^' || c = '_' then .string
  else if between '0' '~' c then .text
  else .escape

def next (mode : Mode) (c : Char) : Mode :=
  if c = '\x1b' then .escape
  else if c = '\x18' || c = '\x1a' then .text
  else match mode with
    | .text => .text
    | .escape => afterEscape c
    | .escapeIntermediate => if between '0' '~' c then .text else .escapeIntermediate
    | .function => if between '@' '~' c then .text else .function
    | .deviceEntry =>
        if between ' ' '/' c then .deviceIntermediate
        else if between '0' '?' c then .deviceParameter
        else if between '@' '~' c then .string
        else .deviceEntry
    | .deviceParameter =>
        if between ' ' '/' c then .deviceIntermediate
        else if between '<' '~' c then .string
        else .deviceParameter
    | .deviceIntermediate => if between '0' '~' c then .string else .deviceIntermediate
    | .string => if endsString c then .text else .string
    | .command => if c = '\x07' then .text else .command

end Mode

inductive Interruption where
  | ends
  /-- It goes on at the next character that a text would not show. -/
  | pauses
  deriving DecidableEq, Repr

structure Viewer where
  mode : Mode := .text
  paused : Bool := false
  deriving DecidableEq, Repr

namespace Viewer

def shows (viewer : Viewer) (c : Char) : Bool :=
  if viewer.paused then Mode.text.shows c else viewer.mode.shows c

/-- A character that is not ASCII ends even a paused sequence. -/
def next (interruption : Interruption) (viewer : Viewer) (c : Char) : Viewer :=
  if viewer.shows c then
    match interruption with
    | .ends => {}
    | .pauses => if c.toNat < 128 then { viewer with paused := true } else {}
  else ⟨viewer.mode.next c, false⟩

def visible (interruption : Interruption) (viewer : Viewer) : List Char → List Char
  | [] => []
  | c :: rest =>
      let later := (viewer.next interruption c).visible interruption rest
      if viewer.shows c then c :: later else later

end Viewer

def visibleText (interruption : Interruption) (text : String) : String :=
  String.ofList (Viewer.visible interruption {} text.toList)

end ActionsWorkflow.Terminal
