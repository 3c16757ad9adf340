import ActionsWorkflow.Storage.Replace

/-!
# File systems in memory

A tree of directories and files, given by what stands at each location.  Paths are walked
part by part from the root or from the working directory, and every part has to be looked
up in a directory.  Any operation of replacing a file may be made to fail halfway.
-/

namespace ActionsWorkflow.Storage

abbrev Location := List String

inductive Node where
  | file (content : String)
  | directory
  deriving DecidableEq, Repr

structure FileSystem where
  nodes : List (Location × Node) := []
  workingDirectory : Location := []

namespace FileSystem

/-- The root is always there. -/
def node? (system : FileSystem) (location : Location) : Option Node :=
  if location = [] then some .directory
  else (system.nodes.find? fun entry => entry.1 = location).map Prod.snd

def erase (system : FileSystem) (location : Location) : FileSystem :=
  { system with nodes := system.nodes.filter fun entry => entry.1 ≠ location }

def put (system : FileSystem) (location : Location) (node : Node) : FileSystem :=
  { system with nodes := (location, node) :: (system.erase location).nodes }

def nameLimit : Nat := 255

def pathLimit : Nat := 4096

def enter (system : FileSystem) (location : Location) (part : String) : Option Location :=
  if system.node? location ≠ some .directory then none
  else if part = "" || part = "." then some location
  else if part = ".." then some location.dropLast
  else if part.utf8ByteSize > nameLimit then none
  else some (location ++ [part])

def isUsable (path : String) : Bool :=
  path ≠ "" && path.utf8ByteSize < pathLimit && !path.toList.contains '\x00'

def startOf (system : FileSystem) (path : String) : Location :=
  if isAbsolute path then [] else system.workingDirectory

/-- The location that a path names, whether or not something stands there. -/
def locate? (system : FileSystem) (path : String) : Option Location :=
  if isUsable path then (parts path).foldlM system.enter (system.startOf path) else none

def lookup? (system : FileSystem) (path : String) : Option Node :=
  (system.locate? path).bind system.node?

/-! ## Changes -/

/-- Walk from `location` and make the directories that are missing; those made before a
part that leads nowhere stay. -/
def makeDirectoriesFrom (system : FileSystem) (location : Location) :
    List String → Bool × FileSystem
  | [] => (true, system)
  | part :: rest =>
      match system.enter location part with
      | none => (false, system)
      | some next =>
          match system.node? next with
          | some .directory => system.makeDirectoriesFrom next rest
          | some (.file _) => (false, system)
          | none => (system.put next .directory).makeDirectoriesFrom next rest

def makeDirectoriesAlong (system : FileSystem) (path : String) (walked : List String) :
    Bool × FileSystem :=
  if isUsable path then system.makeDirectoriesFrom (system.startOf path) walked
  else (false, system)

def makeDirectories (system : FileSystem) (path : String) : Bool × FileSystem :=
  system.makeDirectoriesAlong path (parts path)

def temporaryName (number : Nat) : String :=
  ".tmp" ++ String.ofList ((Nat.toDigits 10 number).leftpad 6 '0')

def freshName (system : FileSystem) (location : Location) : String :=
  let names := (List.range (system.nodes.length + 1)).map temporaryName
  (names.find? fun name => system.node? (location ++ [name]) = none).getD ".tmp"

def fromRoot (system : FileSystem) (path : String) : String :=
  if isAbsolute path then path else ofParts true (system.workingDirectory ++ [path])

/-- Open a file that is not there yet.  It is known by its path from the root, which may
lead nowhere for being too long where the path of the directory is not. -/
def makeTemporary (system : FileSystem) (directory : String) :
    Option (String × FileSystem) := do
  let location ← system.locate? directory
  let file := system.fromRoot directory ++ "/" ++ system.freshName location
  let place ← system.locate? file
  if system.node? place = none then some (file, system.put place (.file "")) else none

def writeFile (system : FileSystem) (path content : String) : Bool × FileSystem :=
  match system.locate? path with
  | none => (false, system)
  | some location =>
      match system.node? location with
      | some (.file _) => (true, system.put location (.file content))
      | _ => (false, system)

def renameFile (system : FileSystem) (source target : String) : Bool × FileSystem :=
  match system.locate? source, system.locate? target with
  | some old, some new =>
      match system.node? old, system.node? new with
      | _, some .directory => (false, system)
      | some (.file content), _ => (true, (system.erase old).put new (.file content))
      | _, _ => (false, system)
  | _, _ => (false, system)

def removeFile (system : FileSystem) (path : String) : FileSystem :=
  match system.locate? path with
  | some location => system.erase location
  | none => system

def contents (system : FileSystem) : List (Location × Node) :=
  system.nodes.filterMap fun (location, node) =>
    match system.workingDirectory.isPrefixOf? location with
    | some (part :: rest) => some (part :: rest, node)
    | _ => none

end FileSystem

/-! ## Storage with failing operations -/

/-- How an operation fails; what it has done by then stays done. -/
inductive Fault where
  /-- Only so many parts of the path are walked. -/
  | createDirectories (walked : Nat)
  | createTemporary
  /-- Only so many characters are written. -/
  | write (written : Nat)
  | sync
  | rename
  deriving DecidableEq, Repr

namespace Fault

def walked? : Fault → Option Nat
  | .createDirectories walked => some walked
  | _ => none

def written? : Fault → Option Nat
  | .write written => some written
  | _ => none

end Fault

/-- A file system on which the faults in the list happen. -/
abbrev Disk := ReaderT (List Fault) (StateM FileSystem)

instance : Storage Disk where
  isPresent path := fun _ system => ((system.lookup? path).isSome, system)
  createDirectories path := fun faults system =>
    match faults.findSome? Fault.walked? with
    | some walked => (false, (system.makeDirectoriesAlong path ((parts path).take walked)).2)
    | none => system.makeDirectories path
  createTemporary directory := fun faults system =>
    if faults.contains .createTemporary then (none, system)
    else match system.makeTemporary directory with
      | none => (none, system)
      | some (file, changed) => (some file, changed)
  write file content := fun faults system =>
    match faults.findSome? Fault.written? with
    | some written =>
        (false, (system.writeFile file (String.ofList (content.toList.take written))).2)
    | none => system.writeFile file content
  sync _ := fun faults system => (!faults.contains .sync, system)
  rename source target := fun faults system =>
    if faults.contains .rename then (false, system) else system.renameFile source target
  remove file := fun _ system => ((), system.removeFile file)

end ActionsWorkflow.Storage
