import ActionsWorkflow.Document
import ActionsWorkflow.Yaml.ScalarText

/-!
# Block layout

A document is written in block style: one line for each entry of a mapping and each item
of a sequence, two columns deeper for each level.  A sequence under a key stays in the
column of the key.  Each piece of output ends its own last line, so pieces are joined by
nothing but the spaces that lead to their column.
-/

namespace ActionsWorkflow.Yaml

def textLine (indent : Nat) (value : String) : List Char :=
  writeText indent value.toList ++ terminator value.toList

def integerLine (value : Int) : List Char := (toString value).toList ++ ['\n']

def booleanLine (value : Bool) : List Char :=
  (if value then "true" else "false").toList ++ ['\n']

/-- Long keys and keys of several lines are written apart from their values. -/
def isSimpleKey (key : String) : Bool := key.utf8ByteSize ≤ 128 && !key.toList.any isBreak

def isCollection : Document → Bool
  | .sequence items => !items.isEmpty
  | .mapping entries => !entries.isEmpty
  | _ => false

/-- The column of the value of a key in `column`. -/
def valueColumn (column : Nat) (key : String) (value : Document) : Nat :=
  match value with
  | .sequence (_ :: _) => if isSimpleKey key then column else column + 2
  | _ => column + 2

def keyLead (column : Nat) (key : String) (value : Document) : List Char :=
  if isSimpleKey key then
    let gap := if isCollection value then '\n' :: spaces (valueColumn column key value)
      else [' ']
    writeText column key.toList ++ ':' :: gap
  else '?' :: ' ' :: textLine (column + 2) key ++ spaces column ++ [':', ' ']

mutual

/-- A document whose first line starts in `column`. -/
def block (column : Nat) : Document → List Char
  | .text value => textLine column value
  | .integer value => integerLine value
  | .boolean value => booleanLine value
  | .sequence items =>
      if items.isEmpty then ['[', ']', '\n']
      else List.intercalate (spaces column) (blockItems column items)
  | .mapping entries =>
      if entries.isEmpty then ['\x7b', '\x7d', '\n']
      else List.intercalate (spaces column) (blockEntries column entries)

def blockItems (column : Nat) : List Document → List (List Char)
  | [] => []
  | item :: items => ('-' :: ' ' :: block (column + 2) item) :: blockItems column items

def blockEntries (column : Nat) : List (String × Document) → List (List Char)
  | [] => []
  | (key, value) :: entries =>
      (keyLead column key value ++ block (valueColumn column key value) value) ::
        blockEntries column entries

end

/-- A whole document; the further lines of a lone text stand two columns in. -/
def render : Document → String
  | .text value => String.ofList (textLine 2 value)
  | document => String.ofList (block 0 document)

end ActionsWorkflow.Yaml
