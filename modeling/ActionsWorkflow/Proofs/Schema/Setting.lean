import ActionsWorkflow.Proofs.Permissions.Grant
import ActionsWorkflow.Proofs.Schema.Document
import ActionsWorkflow.Proofs.Validity.Matrix

/-!
# Schemas of settings

Most settings follow their schemas whatever they hold.  Permissions do if they were granted
scope by scope, and a matrix does if it is valid.
-/

namespace ActionsWorkflow

open Document (keys)
open Schema (Fits names conforms_record fits_entry_of fits_optionalEntry_of)

instance : Described Scalar where
  schema := .oneOf [.text, .integer, .boolean]
  conforms
    | .text value => .first (.text value)
    | .integer value => .later (.first (.integer value))
    | .flag value => .later (.later (.first (.boolean value)))

instance : Described Switch where
  schema := .oneOf [.boolean, .text]
  conforms
    | .flag value => .first (.boolean value)
    | .expression text => .later (.first (.text text))

instance : Described Shell := ⟨.text, fun shell => .text shell.name⟩

instance : Described Concurrency where
  schema := .oneOf [.text,
    .record [("group", schemaOf String), ("cancel-in-progress", schemaOf Switch)]]
  conforms
    | .group name => .first (.text name)
    | .detailed _ _ => .later (.first (conforms_record (by decide) (by simp)))

instance : Described RunDefaults where
  schema := .record [("shell", schemaOf Shell), ("working-directory", schemaOf String)]
  conforms _ := conforms_record (by decide) (by simp)

instance : Described Defaults where
  schema := .record [("run", schemaOf RunDefaults)]
  conforms _ := conforms_record (by decide) (by simp)

instance : Described RunsOn where
  schema := .oneOf [.text, schemaOf (List String),
    .record [("group", schemaOf String), ("labels", schemaOf (List String))]]
  conforms
    | .label name => .first (.text name)
    | .labels names => .later (.first (Described.conforms names))
    | .group _ _ => .later (.later (.first (conforms_record (by decide) (by simp))))

instance : Described Environment where
  schema := .oneOf [.text, .record [("name", schemaOf String), ("url", schemaOf String)]]
  conforms
    | .name name => .first (.text name)
    | .detailed _ _ => .later (.first (conforms_record (by decide) (by simp)))

instance : Described Credentials where
  schema := .record [("username", schemaOf String), ("password", schemaOf String)]
  conforms _ := conforms_record (by decide) (by simp)

instance : Described Container where
  schema := .record
    [("image", schemaOf String), ("credentials", schemaOf Credentials),
      ("env", schemaOf (Table Scalar)), ("ports", schemaOf (List String)),
      ("volumes", schemaOf (List String)), ("options", schemaOf String)]
  conforms _ := conforms_record (by decide) (by simp)

instance : Described JobContainer where
  schema := .oneOf [.text, schemaOf Container]
  conforms
    | .image name => .first (.text name)
    | .detailed container => .later (.first (Described.conforms container))

namespace Permissions

def schema : Schema :=
  .oneOf [.text, .record (PermissionScope.all.map fun scope => (scope.name, .text))]

theorem conforms_grants {grants : List Grant}
    (h : (grants.map Prod.fst).Sublist PermissionScope.all) :
    schema.Conforms (toDocument (Permissions.scoped grants)) := by
  refine .later (.first (.record (by decide) ?ordered ?each))
  case ordered =>
    simpa [keys, names, Function.comp_def] using h.map PermissionScope.name
  case each =>
    intro entry hentry place hplace
    obtain ⟨grant, -, rfl⟩ := List.mem_map.1 hentry
    obtain ⟨_, -, hfield⟩ := List.mem_map.1 hplace
    obtain ⟨-, rfl⟩ := Prod.mk.inj hfield
    exact .text grant.2.name

theorem Granted.conforms {permissions : Permissions} (h : permissions.Granted) :
    schema.Conforms (toDocument permissions) :=
  match permissions, h.scopes_sublist with
  | .readAll, _ => .first (.text "read-all")
  | .writeAll, _ => .first (.text "write-all")
  | .scoped _, hscopes => conforms_grants hscopes

theorem fits_optionalEntry {permissions? : Option Permissions}
    (h : ∀ permissions ∈ permissions?, permissions.Granted) :
    Fits (optionalEntry "permissions" permissions?) ("permissions", Permissions.schema) :=
  fits_optionalEntry_of _ fun permissions hmem => (h permissions hmem).conforms

end Permissions

namespace Matrix

def rowPlaces : List (String × Schema) :=
  [("include", schemaOf (List MatrixRow)), ("exclude", schemaOf (List MatrixRow))]

def schema : Schema := .oneOf [.text, .tableThen (schemaOf (List String)) rowPlaces]

def rowFields (included excluded : List MatrixRow) : List (String × Option Document) :=
  [optionalEntry "include" (if included.isEmpty then none else some included),
    optionalEntry "exclude" (if excluded.isEmpty then none else some excluded)]

theorem rowsEntry_append_rowsEntry (included excluded : List MatrixRow) :
    rowsEntry "include" included ++ rowsEntry "exclude" excluded =
      Schema.present (rowFields included excluded) := by
  cases included <;> cases excluded <;> rfl

theorem Valid.conforms {matrix : Matrix} (h : matrix.Valid) :
    schema.Conforms (toDocument matrix) := by
  cases matrix with
  | expression text => exact .first (.text text)
  | axes table included excluded =>
      have hfits : List.Forall₂ Fits (rowFields included excluded) rowPlaces := by
        simp [rowFields, rowPlaces]
      have hfree : ∀ name ∈ table.keys, name ∉ names rowPlaces := by
        intro name hname
        obtain ⟨axis, haxis, rfl⟩ := List.mem_map.1 hname
        have hvalid := h.2.1 axis haxis
        simp [names, rowPlaces, hvalid.1, hvalid.2.1]
      have htable := Schema.conforms_tableThen (by decide) hfits hfree
        fun axis _ => Described.conforms axis.2
      rw [← rowsEntry_append_rowsEntry, ← List.append_assoc] at htable
      exact .later (.first htable)

end Matrix

def Strategy.schema : Schema :=
  .record [("matrix", Matrix.schema), ("fail-fast", schemaOf Bool),
    ("max-parallel", schemaOf Nat)]

theorem Strategy.Valid.conforms {strategy : Strategy} (h : strategy.Valid) :
    Strategy.schema.Conforms (toDocument strategy) :=
  conforms_record (by decide) (by simp [fits_entry_of _ h.matrix.conforms])

end ActionsWorkflow
