import ActionsWorkflow.Proofs.Document.Lookup

/-!
# Reading documents back

Values are read back from the documents they are written as.  A type is lossless if this
gives every value of it back; then the fields of a record, set or not, are read back too.
-/

namespace ActionsWorkflow

class FromDocument (α : Type) where
  fromDocument? : Document → Option α

export FromDocument (fromDocument?)

class Lossless (α : Type) [ToDocument α] [FromDocument α] : Prop where
  fromDocument?_toDocument : ∀ value : α, fromDocument? (toDocument value) = some value

export Lossless (fromDocument?_toDocument)

attribute [simp] fromDocument?_toDocument

instance : FromDocument String where
  fromDocument?
    | .text value => some value
    | _ => none

instance : Lossless String := ⟨fun _ => rfl⟩

instance : FromDocument Bool where
  fromDocument?
    | .boolean value => some value
    | _ => none

instance : Lossless Bool := ⟨fun _ => rfl⟩

instance : FromDocument Nat where
  fromDocument?
    | .integer value => some value.toNat
    | _ => none

instance : Lossless Nat := ⟨fun _ => rfl⟩

def Document.named? {α : Type} (all : List α) (name : α → String) : Document → Option α
  | .text label => all.find? fun value => name value = label
  | _ => none

theorem mapM_map_eq_some {α β : Type} {write : α → β} {read : β → Option α}
    {values : List α} (h : ∀ value ∈ values, read (write value) = some value) :
    (values.map write).mapM read = some values := by
  induction values with
  | nil => rfl
  | cons value rest ih =>
      rw [List.forall_mem_cons] at h
      simp only [List.map_cons, List.mapM_cons, h.1, ih h.2, Option.pure_def,
        Option.bind_eq_bind, Option.bind_some]

section Collections

variable {α : Type} [ToDocument α] [FromDocument α]

instance : FromDocument (List α) where
  fromDocument?
    | .sequence items => items.mapM fromDocument?
    | _ => none

instance [Lossless α] : Lossless (List α) where
  fromDocument?_toDocument _ := mapM_map_eq_some fun value _ => fromDocument?_toDocument value

def readEntry (entry : String × Document) : Option (String × α) :=
  (fromDocument? entry.2).map (entry.1, ·)

/-- A mapping with a repeated key is the document of no table. -/
instance : FromDocument (Table α) where
  fromDocument?
    | .mapping entries => do
        let pairs ← entries.mapM readEntry
        if h : (pairs.map Prod.fst).Nodup then some ⟨pairs, h⟩ else none
    | _ => none

theorem fromDocument?_table {table : Table α}
    (h : ∀ entry ∈ table.entries, fromDocument? (toDocument entry.2) = some entry.2) :
    fromDocument? (toDocument table) = some table := by
  obtain ⟨entries, hnodup⟩ := table
  have hentries : (entries.map fun entry => (entry.1, toDocument entry.2)).mapM readEntry =
      some entries :=
    mapM_map_eq_some fun entry hentry => by simp [readEntry, h entry hentry]
  simp only [fromDocument?, toDocument, hentries, Option.bind_eq_bind, Option.bind_some,
    hnodup, dif_pos]

instance [Lossless α] : Lossless (Table α) where
  fromDocument?_toDocument _ := fromDocument?_table fun entry _ =>
    fromDocument?_toDocument entry.2

end Collections

/-! ## Fields of records -/

namespace Document

section Fields

variable {α : Type} [FromDocument α]

def readRequired : Option Document → Option α
  | none => none
  | some document => fromDocument? document

def readOptional : Option Document → Option (Option α)
  | none => some none
  | some document => (fromDocument? document).map some

def required? (document : Document) (name : String) : Option α :=
  readRequired (document.field? name)

def optional? (document : Document) (name : String) : Option (Option α) :=
  readOptional (document.field? name)

variable [ToDocument α]

theorem readOptional_map {value? : Option α}
    (h : ∀ value ∈ value?, fromDocument? (toDocument value) = some value) :
    readOptional (value?.map toDocument) = some value? := by
  cases value? with
  | none => rfl
  | some value => simp [readOptional, h value rfl]

@[simp] theorem readRequired_toDocument [Lossless α] (value : α) :
    readRequired (some (toDocument value)) = some value :=
  fromDocument?_toDocument value

@[simp] theorem readOptional_map_toDocument [Lossless α] (value? : Option α) :
    readOptional (value?.map toDocument) = some value? :=
  readOptional_map fun value _ => fromDocument?_toDocument value

end Fields

end Document

end ActionsWorkflow
