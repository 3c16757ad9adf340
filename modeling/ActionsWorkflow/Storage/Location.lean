/-!
# File paths as text

A path is a text whose parts stand between slashes.  Empty parts count for nothing, and a
lone dot counts only at the start of a relative path.
-/

namespace ActionsWorkflow.Storage

def isAbsolute (path : String) : Bool := path.toList.head? = some '/'

def parts (path : String) : List String :=
  let pieces := (path.toList.splitOn '/').map String.ofList
  if isAbsolute path then pieces.drop 1 else pieces

def countsAt (first : Bool) (part : String) : Bool :=
  part ≠ "" && (part ≠ "." || first)

/-- Without the parts at the end that count for nothing. -/
def dropIdle (absolute : Bool) : List String → List String
  | [] => []
  | part :: rest =>
      match dropIdle true rest with
      | [] => if countsAt (!absolute) part then [part] else []
      | kept => part :: kept

def ofParts (absolute : Bool) (kept : List String) : String :=
  let text := String.intercalate "/" kept
  if absolute then "/" ++ text else text

def parent? (path : String) : Option String :=
  let absolute := isAbsolute path
  match dropIdle absolute (parts path) with
  | [] => none
  | kept => some (ofParts absolute (dropIdle absolute kept.dropLast))

/-- The directory that a path lies in; a bare name lies in the current one. -/
def parentDirectory (path : String) : String :=
  match parent? path with
  | none => "."
  | some parent => if parent = "" then "." else parent

/-- The last part of a path, if it names something of its own. -/
def fileName? (path : String) : Option String := do
  let name ← (dropIdle (isAbsolute path) (parts path)).getLast?
  if name = "." || name = ".." then none else some name

end ActionsWorkflow.Storage
