import ActionsWorkflow.Proofs.Decoding.Field

/-!
# Reading settings back

The forms of a setting that share a place differ in the kind of their document, so the kind
tells which of them was written.
-/

namespace ActionsWorkflow

instance : FromDocument Scalar where
  fromDocument?
    | .text value => some (.text value)
    | .integer value => some (.integer value)
    | .boolean value => some (.flag value)
    | _ => none

instance : Lossless Scalar where
  fromDocument?_toDocument value := by cases value <;> rfl

instance : FromDocument Switch where
  fromDocument?
    | .boolean value => some (.flag value)
    | .text text => some (.expression text)
    | _ => none

instance : Lossless Switch where
  fromDocument?_toDocument value := by cases value <;> rfl

instance : FromDocument Shell := ⟨Document.named? Shell.all Shell.name⟩

instance : Lossless Shell where
  fromDocument?_toDocument shell := by cases shell <;> rfl

instance : FromDocument PermissionLevel :=
  ⟨Document.named? PermissionLevel.all PermissionLevel.name⟩

instance : Lossless PermissionLevel where
  fromDocument?_toDocument level := by cases level <;> rfl

def readGrant (entry : String × Document) : Option Grant := do
  let scope ← PermissionScope.all.find? fun scope => scope.name = entry.1
  let level ← fromDocument? entry.2
  some (scope, level)

theorem readGrant_toDocument (grant : Grant) :
    readGrant (grant.1.name, toDocument grant.2) = some grant := by
  obtain ⟨scope, level⟩ := grant
  have hscope : (PermissionScope.all.find? fun other => other.name = scope.name) =
      some scope := by
    cases scope <;> rfl
  simp [readGrant, hscope]

instance : FromDocument Permissions where
  fromDocument?
    | .text "read-all" => some .readAll
    | .text "write-all" => some .writeAll
    | .mapping entries => (entries.mapM readGrant).map .scoped
    | _ => none

instance : Lossless Permissions where
  fromDocument?_toDocument permissions :=
    match permissions with
    | .readAll => rfl
    | .writeAll => rfl
    | .scoped _ => congrArg (Option.map Permissions.scoped)
        (mapM_map_eq_some fun grant _ => readGrant_toDocument grant)

def Concurrency.readDetailed (document : Document) : Option Concurrency := do
  let name ← document.required? "group"
  let cancel ← document.optional? "cancel-in-progress"
  some (.detailed name cancel)

instance : FromDocument Concurrency where
  fromDocument?
    | .text name => some (.group name)
    | document => Concurrency.readDetailed document

instance : Lossless Concurrency where
  fromDocument?_toDocument concurrency := by
    cases concurrency with
    | group => rfl
    | detailed name cancel =>
        change Concurrency.readDetailed (.record _) = _
        simp [Concurrency.readDetailed, Document.required?, Document.optional?]

def RunDefaults.read (document : Document) : Option RunDefaults := do
  let shell ← document.optional? "shell"
  let workingDirectory ← document.optional? "working-directory"
  some { shell, workingDirectory }

instance : FromDocument RunDefaults := ⟨RunDefaults.read⟩

instance : Lossless RunDefaults where
  fromDocument?_toDocument defaults := by
    change RunDefaults.read (.record _) = _
    simp [RunDefaults.read, Document.optional?]

def Defaults.read (document : Document) : Option Defaults := do
  let run ← document.optional? "run"
  some { run }

instance : FromDocument Defaults := ⟨Defaults.read⟩

instance : Lossless Defaults where
  fromDocument?_toDocument defaults := by
    change Defaults.read (.record _) = _
    simp [Defaults.read, Document.optional?]

def RunsOn.readGroup (document : Document) : Option RunsOn := do
  let name ← document.required? "group"
  let labels ← document.optional? "labels"
  some (.group name labels)

instance : FromDocument RunsOn where
  fromDocument?
    | .text name => some (.label name)
    | .sequence names => (fromDocument? (.sequence names)).map .labels
    | document => RunsOn.readGroup document

instance : Lossless RunsOn where
  fromDocument?_toDocument runner := by
    cases runner with
    | label => rfl
    | labels names => exact congrArg (Option.map RunsOn.labels) (fromDocument?_toDocument names)
    | group name labels =>
        change RunsOn.readGroup (.record _) = _
        simp [RunsOn.readGroup, Document.required?, Document.optional?]

def Environment.readDetailed (document : Document) : Option Environment := do
  let text ← document.required? "name"
  let url ← document.optional? "url"
  some (.detailed text url)

instance : FromDocument Environment where
  fromDocument?
    | .text text => some (.name text)
    | document => Environment.readDetailed document

instance : Lossless Environment where
  fromDocument?_toDocument environment := by
    cases environment with
    | name => rfl
    | detailed name url =>
        change Environment.readDetailed (.record _) = _
        simp [Environment.readDetailed, Document.required?, Document.optional?]

def Credentials.read (document : Document) : Option Credentials := do
  let username ← document.required? "username"
  let password ← document.required? "password"
  some { username, password }

instance : FromDocument Credentials := ⟨Credentials.read⟩

instance : Lossless Credentials where
  fromDocument?_toDocument credentials := by
    change Credentials.read (.record _) = _
    simp [Credentials.read, Document.required?]

def Container.read (document : Document) : Option Container := do
  let image ← document.required? "image"
  let credentials ← document.optional? "credentials"
  let env ← document.optional? "env"
  let ports ← document.optional? "ports"
  let volumes ← document.optional? "volumes"
  let options ← document.optional? "options"
  some { image, credentials, env, ports, volumes, options }

instance : FromDocument Container := ⟨Container.read⟩

instance : Lossless Container where
  fromDocument?_toDocument container := by
    change Container.read (.record _) = _
    simp [Container.read, Document.required?, Document.optional?]

instance : FromDocument JobContainer where
  fromDocument?
    | .text name => some (.image name)
    | document => (fromDocument? document).map .detailed

instance : Lossless JobContainer where
  fromDocument?_toDocument container := by
    cases container with
    | image => rfl
    | detailed container =>
        exact congrArg (Option.map JobContainer.detailed) (fromDocument?_toDocument container)

end ActionsWorkflow
