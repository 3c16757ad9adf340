import ActionsWorkflow.Storage.Location

/-!
# Replacing a file

The new text goes to a temporary file in the directory of the target, which is moved over
the target in one step.  Up to that step the target is what it was before, and a temporary
file that is not moved is removed.
-/

namespace ActionsWorkflow

/-- What replacing a file asks of a store of files.  Each step says whether it succeeded;
a temporary file is known by its path. -/
class Storage (m : Type → Type) where
  isPresent (path : String) : m Bool
  createDirectories (path : String) : m Bool
  createTemporary (directory : String) : m (Option String)
  write (file content : String) : m Bool
  sync (file : String) : m Bool
  rename (source target : String) : m Bool
  remove (file : String) : m Unit

namespace Storage

variable {m : Type → Type} [Monad m] [Storage m]

def ensureDirectory (directory : String) : m Bool := do
  if ← isPresent directory then return true
  createDirectories directory

def install (temporary target content : String) : m Bool := do
  unless ← write temporary content do return false
  unless ← sync temporary do return false
  rename temporary target

def replaceFile (target content : String) : m Bool := do
  let directory := parentDirectory target
  unless ← ensureDirectory directory do return false
  match ← createTemporary directory with
  | none => return false
  | some temporary =>
      if ← install temporary target content then return true
      remove temporary
      return false

end Storage

end ActionsWorkflow
