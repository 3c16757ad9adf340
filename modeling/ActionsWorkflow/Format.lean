import ActionsWorkflow.Text.Pattern

/-!
# Formats of text fields

Some fields hold text of a fixed format.  A format pairs the pattern that decides with the
notation in which a violation shows it.
-/

namespace ActionsWorkflow

open Text (Pattern CharClass)

structure Format where
  pattern : Pattern
  shown : String

namespace Format

def accepts (format : Format) (text : String) : Bool := format.pattern.accepts text.toList

def asciiLetter : Pattern := .alt (.one (.between 'a' 'z')) (.one (.between 'A' 'Z'))

def jobIdStart : Pattern := .alt (.one (.anyOf ['_'])) asciiLetter

def jobIdRest : Pattern :=
  .oneOf [asciiLetter, .one (.between '0' '9'), .one (.anyOf ['_', '-'])]

def jobId : Format :=
  ⟨.seq jobIdStart (.star jobIdRest), "^[_a-zA-Z][a-zA-Z0-9_-]*$"⟩

def expression : Format :=
  ⟨.sequence [.literal "$\x7b\x7b", .star .anyChar, .literal "\x7d\x7d"],
    "^\\$\\\x7b\\\x7b(.|[\\r\\n])*\\\x7d\\\x7d$"⟩

def visible : Pattern := .plus (.one (.noneOf ['\n']))

/-- A workflow file below at least one directory, with an optional version after `@`. -/
def workflowReference : Format :=
  ⟨.sequence [.plus (.seq visible (.literal "/")), visible, .literal ".y",
      .optional (.literal "a"), .literal "ml", .optional (.seq (.literal "@") visible)],
    "^(.+/)+(.+)\\.(ya?ml)(@.+)?$"⟩

def volume : Format :=
  let side : Pattern := .plus (.one (.noneOf [':']))
  ⟨.sequence [side, .literal ":", side], "^[^:]+:[^:]+$"⟩

def monthNames : List String :=
  ["JAN", "FEB", "MAR", "APR", "MAY", "JUN", "JUL", "AUG", "SEP", "OCT", "NOV", "DEC"]

def weekdayNames : List String := ["MON", "TUE", "WED", "THU", "FRI", "SAT", "SUN"]

def scheduleNumber : Pattern := .plus (.one .decimalDigit)

def nameOrRange (names : List String) : Pattern :=
  let name : Pattern := .oneOf (names.map .literal)
  .seq name (.optional (.seq (.literal "-") name))

def scheduleField : Pattern :=
  .oneOf [
    .seq (.plus (.seq scheduleNumber (.literal ","))) scheduleNumber,
    .sequence [.alt scheduleNumber (.literal "*"), .literal "/", scheduleNumber],
    nameOrRange monthNames,
    .sequence [scheduleNumber, .literal "-", scheduleNumber],
    scheduleNumber,
    .literal "*",
    nameOrRange weekdayNames]

/-- Five fields, each of which a space may follow. -/
def schedule : Format :=
  ⟨.times 5 (.seq scheduleField (.optional (.literal " "))),
    "^(((\\d+,)+\\d+|((\\d+|\\*)/\\d+|((JAN|FEB|MAR|APR|MAY|JUN|JUL|AUG|SEP|OCT|NOV|DEC)" ++
      "(-(JAN|FEB|MAR|APR|MAY|JUN|JUL|AUG|SEP|OCT|NOV|DEC))?))|(\\d+-\\d+)|\\d+|\\*|" ++
      "((MON|TUE|WED|THU|FRI|SAT|SUN)(-(MON|TUE|WED|THU|FRI|SAT|SUN))?)) ?)\x7b5\x7d$"⟩

end Format

end ActionsWorkflow
