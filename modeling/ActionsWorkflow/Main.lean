import ActionsWorkflow.Sample.ContinuousIntegration

/-!
# The program

Files and the environment of the process; all else is decided in the library.
-/

namespace ActionsWorkflow

def succeeds (action : IO Unit) : IO Bool := do
  try
    action
    return true
  catch _ => return false

def openable (path : String) : IO Unit := do
  let _ ← IO.FS.Handle.mk path .read

def createFresh (directory : String) : Nat → Nat → IO (Option String)
  | 0, _ => return none
  | tries + 1, number => do
      let file := directory ++ "/.tmp" ++ toString number
      let created ← succeeds do
        let _ ← IO.FS.Handle.mk file .writeNew
      if created then return some file
      createFresh directory tries (number + 1)

instance : Storage IO where
  isPresent path := succeeds (openable path)
  createDirectories path := succeeds (IO.FS.createDirAll path)
  createTemporary directory := createFresh directory 1000 0
  write file content := succeeds (IO.FS.writeFile file content)
  sync file := succeeds do (← IO.FS.Handle.mk file .append).flush
  rename source target := succeeds (IO.FS.rename source target)
  remove file := do
    let _ ← succeeds (IO.FS.removeFile file)

end ActionsWorkflow

def main (arguments : List String) : IO UInt32 := do
  let environment ← IO.getEnv "CISCRIPT_OUTPUT"
  let outcome ←
    ActionsWorkflow.Sample.continuousIntegrationProgram.run arguments environment
  IO.print outcome.output
  IO.eprint outcome.errors
  return outcome.exitCode.toUInt32
