import ActionsWorkflow.Encoding.Workflow
import ActionsWorkflow.Path
import ActionsWorkflow.Proofs.Table.Entries

/-!
# Looking into documents

A key leads to the value of the first entry with that key, and a position to an item of a
sequence.  In a record the value of a field is found under its name if the field is set.
-/

namespace ActionsWorkflow.Document

def field? (name : String) : Document → Option Document
  | .mapping entries => (entries.find? fun entry => entry.1 = name).map Prod.snd
  | _ => none

def child? (document : Document) : Segment → Option Document
  | .key name => document.field? name
  | .index position =>
      match document with
      | .sequence items => items[position]?
      | _ => none

/-- The node that a path leads to. -/
def resolve (document : Document) : List Segment → Option Document
  | [] => some document
  | segment :: rest => (document.child? segment).bind fun child => child.resolve rest

theorem resolve_nil (document : Document) : document.resolve [] = some document := rfl

theorem resolve_cons_of_child? {document child : Document} {segment : Segment}
    (h : document.child? segment = some child) (rest : List Segment) :
    document.resolve (segment :: rest) = child.resolve rest := by
  simp [resolve, h]

theorem resolve_key_eq_some_iff {document node : Document} {name : String}
    {rest : List Segment} : document.resolve (.key name :: rest) = some node ↔
      ∃ child, document.field? name = some child ∧ child.resolve rest = some node :=
  Option.bind_eq_some_iff

/-- The value of the first field of that name that is set. -/
def valueOf? (name : String) : List (String × Option Document) → Option Document
  | [] => none
  | field :: rest =>
      if field.1 = name then field.2.or (valueOf? name rest) else valueOf? name rest

@[simp] theorem valueOf?_nil (name : String) : valueOf? name [] = none := rfl

theorem record_cons (key : String) (value? : Option Document)
    (rest : List (String × Option Document)) (name : String) :
    (record ((key, value?) :: rest)).field? name =
      if key = name then value?.or ((record rest).field? name)
      else (record rest).field? name := by
  cases value? with
  | none => simp only [record, List.filterMap_cons, Option.map_none, Option.none_or, ite_self]
  | some value =>
      simp only [record, List.filterMap_cons, Option.map_some, field?, List.find?_cons]
      by_cases h : key = name <;> simp only [h, decide_true, decide_false, if_true, if_false,
        Option.map_some, Option.some_or]

@[simp] theorem field?_record (name : String) (fields : List (String × Option Document)) :
    (record fields).field? name = valueOf? name fields := by
  induction fields with
  | nil => rfl
  | cons field rest ih => rw [record_cons, ih, valueOf?]

@[simp] theorem valueOf?_present (name key : String) (value : Document)
    (rest : List (String × Option Document)) :
    valueOf? name ((key, some value) :: rest) =
      if key = name then some value else valueOf? name rest := rfl

@[simp] theorem valueOf?_entry {α : Type} [ToDocument α] (name key : String) (value : α)
    (rest : List (String × Option Document)) :
    valueOf? name (entry key value :: rest) =
      if key = name then some (toDocument value) else valueOf? name rest := rfl

@[simp] theorem valueOf?_optionalEntry {α : Type} [ToDocument α] (name key : String)
    (value? : Option α) (rest : List (String × Option Document)) :
    valueOf? name (optionalEntry key value? :: rest) =
      if key = name then (value?.map toDocument).or (valueOf? name rest)
      else valueOf? name rest := rfl

theorem exists_field_of_valueOf? {name : String} {node : Document}
    {fields : List (String × Option Document)} (h : valueOf? name fields = some node) :
    ∃ field ∈ fields, node ∈ field.2 := by
  induction fields with
  | nil => cases h
  | cons field rest ih =>
      rw [valueOf?] at h
      have hfound : field.2 = some node ∨ valueOf? name rest = some node := by
        split at h
        · exact (Option.or_eq_some_iff.1 h).imp_right And.right
        · exact .inr h
      rcases hfound with hfield | hrest
      · exact ⟨field, List.mem_cons_self, hfield⟩
      · obtain ⟨other, hother, hnode⟩ := ih hrest
        exact ⟨other, List.mem_cons_of_mem _ hother, hnode⟩

theorem field?_table {α : Type} [ToDocument α] (table : Table α) (key : String) :
    (toDocument table).field? key = (table.get? key).map toDocument := by
  simp [toDocument, field?, Table.get?, List.find?_map, Function.comp_def]

theorem field?_table_of_mem {α : Type} [ToDocument α] {table : Table α}
    {entry : String × α} (h : entry ∈ table.entries) :
    (toDocument table).field? entry.1 = some (toDocument entry.2) := by
  rw [field?_table, table.get?_eq_some_iff.2 h, Option.map_some]

theorem field?_mapping_append (name : String) (front back : List (String × Document)) :
    (mapping (front ++ back)).field? name =
      ((mapping front).field? name).or ((mapping back).field? name) := by
  simp only [field?, List.find?_append, Option.map_or]

theorem field?_rowsEntry (name key : String) (rows : List MatrixRow) :
    (mapping (rowsEntry key rows)).field? name =
      if key = name ∧ rows ≠ [] then some (toDocument rows) else none := by
  cases rows with
  | nil => simp [rowsEntry, field?]
  | cons row rest => by_cases h : key = name <;> simp [rowsEntry, field?, h]

theorem field?_matrix (name : String) (table : Table (List String))
    (included excluded : List MatrixRow) :
    (toDocument (Matrix.axes table included excluded)).field? name =
      (((table.get? name).map toDocument).or
        (if "include" = name ∧ included ≠ [] then some (toDocument included) else none)).or
        (if "exclude" = name ∧ excluded ≠ [] then some (toDocument excluded) else none) := by
  rw [← field?_table, ← field?_rowsEntry, ← field?_rowsEntry]
  exact (field?_mapping_append _ _ _).trans
    (congrArg (Option.or · _) (field?_mapping_append _ _ _))

/-! ## Workflows -/

theorem field?_on (workflow : Workflow) :
    (toDocument workflow).field? "on" = some (triggersDocument workflow.on) := by
  change (record _).field? "on" = _
  simp

theorem field?_jobs (workflow : Workflow) :
    (toDocument workflow).field? "jobs" = some (toDocument workflow.jobs) := by
  change (record _).field? "jobs" = _
  simp

section
variable {workflow : Workflow} {node : Document} {rest : List Segment}

theorem resolve_jobs_eq_some_iff {job : String} :
    (toDocument workflow).resolve (.key "jobs" :: .key job :: rest) = some node ↔
      ∃ entry, (job, entry) ∈ workflow.jobs.entries ∧
        (toDocument entry).resolve rest = some node := by
  rw [resolve_key_eq_some_iff, field?_jobs]
  constructor
  · rintro ⟨_, ⟨⟩, h⟩
    obtain ⟨child, hchild, hnode⟩ := resolve_key_eq_some_iff.1 h
    rw [field?_table] at hchild
    obtain ⟨entry, hentry, rfl⟩ := Option.map_eq_some_iff.1 hchild
    exact ⟨entry, workflow.jobs.get?_eq_some_iff.1 hentry, hnode⟩
  · rintro ⟨entry, hentry, hnode⟩
    exact ⟨_, rfl, resolve_key_eq_some_iff.2 ⟨_, field?_table_of_mem hentry, hnode⟩⟩

theorem exists_trigger_of_resolve_on {event : String}
    (h : (toDocument workflow).resolve (.key "on" :: .key event :: rest) = some node) :
    ∃ trigger ∈ workflow.on, (toDocument trigger).resolve rest = some node := by
  rw [resolve_key_eq_some_iff, field?_on] at h
  obtain ⟨_, ⟨⟩, h⟩ := h
  obtain ⟨child, hchild, hnode⟩ := resolve_key_eq_some_iff.1 h
  obtain ⟨entry, hentry, rfl⟩ := Option.map_eq_some_iff.1 hchild
  obtain ⟨trigger, htrigger, rfl⟩ := List.mem_map.1 (List.mem_of_find?_eq_some hentry)
  exact ⟨trigger, htrigger, hnode⟩

end

end ActionsWorkflow.Document
