import ActionsWorkflow.Model.Setting
import ActionsWorkflow.Table

/-!
# Where a job runs

The choice of a runner, the containers a job starts, and the environment it deploys to.
-/

namespace ActionsWorkflow

inductive RunsOn where
  | label (name : String)
  | labels (names : List String)
  | group (name : String) (labels : Option (List String))
  deriving DecidableEq, Repr

inductive Environment where
  | name (name : String)
  | detailed (name : String) (url : Option String)
  deriving DecidableEq, Repr

structure Credentials where
  username : String
  password : String
  deriving DecidableEq, Repr

structure Container where
  image : String
  credentials : Option Credentials := none
  env : Option (Table Scalar) := none
  ports : Option (List String) := none
  volumes : Option (List String) := none
  options : Option String := none

namespace Container

def setEnv (container : Container) (key : String) (value : Scalar) : Container :=
  { container with env := Table.insertInto container.env key value }

def publish (container : Container) (port : String) : Container :=
  { container with ports := some (container.ports.getD [] ++ [port]) }

def mount (container : Container) (volume : String) : Container :=
  { container with volumes := some (container.volumes.getD [] ++ [volume]) }

end Container

inductive JobContainer where
  | image (name : String)
  | detailed (container : Container)

end ActionsWorkflow
