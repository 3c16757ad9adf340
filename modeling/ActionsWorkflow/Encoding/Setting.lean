import ActionsWorkflow.Document
import ActionsWorkflow.Model.Matrix
import ActionsWorkflow.Model.Permissions
import ActionsWorkflow.Model.Runner
import ActionsWorkflow.Model.Setting

/-!
# Settings as documents

The settings of workflows and jobs, each in its shortest form: a lone name stands for a
record that holds nothing else.
-/

namespace ActionsWorkflow

instance : ToDocument Scalar where
  toDocument
    | .text value => .text value
    | .integer value => .integer value
    | .flag value => .boolean value

instance : ToDocument Switch where
  toDocument
    | .flag value => .boolean value
    | .expression text => .text text

instance {α : Type} [ToDocument α] : ToDocument (Table α) where
  toDocument table := .mapping (table.entries.map fun entry => (entry.1, toDocument entry.2))

instance : ToDocument Shell := ⟨fun shell => .text shell.name⟩

instance : ToDocument PermissionLevel := ⟨fun level => .text level.name⟩

instance : ToDocument Permissions where
  toDocument
    | .readAll => .text "read-all"
    | .writeAll => .text "write-all"
    | .scoped grants =>
        .mapping (grants.map fun grant => (grant.1.name, toDocument grant.2))

instance : ToDocument Concurrency where
  toDocument
    | .group name => .text name
    | .detailed name cancel =>
        .record [entry "group" name, optionalEntry "cancel-in-progress" cancel]

instance : ToDocument RunDefaults where
  toDocument defaults := .record
    [optionalEntry "shell" defaults.shell,
      optionalEntry "working-directory" defaults.workingDirectory]

instance : ToDocument Defaults where
  toDocument defaults := .record [optionalEntry "run" defaults.run]

instance : ToDocument RunsOn where
  toDocument
    | .label name => .text name
    | .labels names => toDocument names
    | .group name labels => .record [entry "group" name, optionalEntry "labels" labels]

instance : ToDocument Environment where
  toDocument
    | .name name => .text name
    | .detailed name url => .record [entry "name" name, optionalEntry "url" url]

instance : ToDocument Credentials where
  toDocument credentials := .record
    [entry "username" credentials.username, entry "password" credentials.password]

instance : ToDocument Container where
  toDocument container := .record
    [entry "image" container.image, optionalEntry "credentials" container.credentials,
      optionalEntry "env" container.env, optionalEntry "ports" container.ports,
      optionalEntry "volumes" container.volumes, optionalEntry "options" container.options]

instance : ToDocument JobContainer where
  toDocument
    | .image name => .text name
    | .detailed container => toDocument container

def rowsEntry (name : String) (rows : List MatrixRow) : List (String × Document) :=
  if rows.isEmpty then [] else [(name, toDocument rows)]

instance : ToDocument Matrix where
  toDocument
    | .expression text => .text text
    | .axes axes included excluded =>
        .mapping (axes.entries.map (fun axis => (axis.1, toDocument axis.2)) ++
          rowsEntry "include" included ++ rowsEntry "exclude" excluded)

instance : ToDocument Strategy where
  toDocument strategy := .record
    [entry "matrix" strategy.matrix, optionalEntry "fail-fast" strategy.failFast,
      optionalEntry "max-parallel" strategy.maxParallel]

end ActionsWorkflow
