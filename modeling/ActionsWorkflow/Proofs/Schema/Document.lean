import ActionsWorkflow.Encoding.Setting
import Mathlib.Data.List.Forall2
import Mathlib.Data.List.Nodup

/-!
# Schemas of documents

A schema says as which documents a value may be written.  A record has fields in a fixed
order, any of which may be left out; the keys of a table are free but distinct.  Whatever
follows a schema repeats no key at any depth.
-/

namespace ActionsWorkflow

namespace Document

def keys (entries : List (String × Document)) : List String := entries.map Prod.fst

/-- No mapping in the tree repeats a key, and every node is of one of the five kinds, none
of which stands for an absent value. -/
inductive WellFormed : Document → Prop
  | text (value : String) : WellFormed (.text value)
  | integer (value : Int) : WellFormed (.integer value)
  | boolean (value : Bool) : WellFormed (.boolean value)
  | sequence {items : List Document} (each : ∀ item ∈ items, WellFormed item) :
      WellFormed (.sequence items)
  | mapping {entries : List (String × Document)} (distinct : (keys entries).Nodup)
      (each : ∀ entry ∈ entries, WellFormed entry.2) : WellFormed (.mapping entries)

end Document

open Document (keys)

inductive Schema where
  | text
  | integer
  | boolean
  | list (item : Schema)
  | table (value : Schema)
  /-- Any of the fields, in the order given. -/
  | record (fields : List (String × Schema))
  /-- Any of the fields, in whatever order. -/
  | choice (fields : List (String × Schema))
  /-- A table, and after its entries any of the fields in the order given. -/
  | tableThen (value : Schema) (fields : List (String × Schema))
  | oneOf (schemas : List Schema)

namespace Schema

def names (fields : List (String × Schema)) : List String := fields.map Prod.fst

inductive Conforms : Schema → Document → Prop
  | text (value : String) : Conforms .text (.text value)
  | integer (value : Int) : Conforms .integer (.integer value)
  | boolean (value : Bool) : Conforms .boolean (.boolean value)
  | list {schema : Schema} {items : List Document}
      (each : ∀ item ∈ items, Conforms schema item) : Conforms (.list schema) (.sequence items)
  | table {schema : Schema} {entries : List (String × Document)}
      (distinct : (keys entries).Nodup) (each : ∀ entry ∈ entries, Conforms schema entry.2) :
      Conforms (.table schema) (.mapping entries)
  | record {fields : List (String × Schema)} {entries : List (String × Document)}
      (distinct : (names fields).Nodup) (ordered : (keys entries).Sublist (names fields))
      (each : ∀ entry ∈ entries, ∀ schema, (entry.1, schema) ∈ fields →
        Conforms schema entry.2) :
      Conforms (.record fields) (.mapping entries)
  | choice {fields : List (String × Schema)} {entries : List (String × Document)}
      (distinct : (keys entries).Nodup) (known : keys entries ⊆ names fields)
      (each : ∀ entry ∈ entries, ∀ schema, (entry.1, schema) ∈ fields →
        Conforms schema entry.2) :
      Conforms (.choice fields) (.mapping entries)
  | tableThen {schema : Schema} {fields : List (String × Schema)}
      {front back : List (String × Document)} (distinct : (keys (front ++ back)).Nodup)
      (ordered : (keys back).Sublist (names fields))
      (eachFront : ∀ entry ∈ front, Conforms schema entry.2)
      (eachBack : ∀ entry ∈ back, ∀ schema, (entry.1, schema) ∈ fields →
        Conforms schema entry.2) :
      Conforms (.tableThen schema fields) (.mapping (front ++ back))
  | oneOf {schemas : List Schema} {schema : Schema} {document : Document}
      (member : schema ∈ schemas) (conforms : Conforms schema document) :
      Conforms (.oneOf schemas) document

theorem exists_field_of_subset {fields : List (String × Schema)}
    {entries : List (String × Document)} (h : keys entries ⊆ names fields)
    {entry : String × Document} (hentry : entry ∈ entries) :
    ∃ schema, (entry.1, schema) ∈ fields := by
  have hname : entry.1 ∈ names fields := h (List.mem_map_of_mem hentry)
  obtain ⟨⟨_, schema⟩, hfield, rfl⟩ := List.mem_map.1 hname
  exact ⟨schema, hfield⟩

theorem Conforms.wellFormed {schema : Schema} {document : Document}
    (h : schema.Conforms document) : document.WellFormed := by
  induction h with
  | text value => exact .text value
  | integer value => exact .integer value
  | boolean value => exact .boolean value
  | list _ ih => exact .sequence ih
  | table hdistinct _ ih => exact .mapping hdistinct ih
  | record hdistinct hordered _ ih =>
      refine .mapping (hordered.nodup hdistinct) fun entry hentry => ?_
      obtain ⟨schema, hfield⟩ := exists_field_of_subset hordered.subset hentry
      exact ih entry hentry schema hfield
  | choice hdistinct hknown _ ih =>
      refine .mapping hdistinct fun entry hentry => ?_
      obtain ⟨schema, hfield⟩ := exists_field_of_subset hknown hentry
      exact ih entry hentry schema hfield
  | tableThen hdistinct hordered _ _ ihFront ihBack =>
      refine .mapping hdistinct fun entry hentry => ?_
      rcases List.mem_append.1 hentry with hfront | hback
      · exact ihFront entry hfront
      · obtain ⟨schema, hfield⟩ := exists_field_of_subset hordered.subset hback
        exact ihBack entry hback schema hfield
  | oneOf _ _ ih => exact ih

section
variable {schema : Schema} {rest : List Schema} {document : Document}

theorem Conforms.first (h : schema.Conforms document) :
    (Schema.oneOf (schema :: rest)).Conforms document :=
  .oneOf List.mem_cons_self h

theorem Conforms.later (h : (Schema.oneOf rest).Conforms document) :
    (Schema.oneOf (schema :: rest)).Conforms document := by
  cases h with
  | oneOf hmember hconforms => exact .oneOf (List.mem_cons_of_mem _ hmember) hconforms

end

theorem conforms_each_of_mem {fields : List (String × Schema)} (hdistinct : (names fields).Nodup)
    {name : String} {schema : Schema} (hmem : (name, schema) ∈ fields) {document : Document}
    (h : schema.Conforms document) :
    ∀ other, (name, other) ∈ fields → other.Conforms document := by
  intro other hother
  obtain ⟨-, rfl⟩ := Prod.mk.inj (List.inj_on_of_nodup_map hdistinct hother hmem rfl)
  exact h

/-! ## Records -/

def Fits (field : String × Option Document) (place : String × Schema) : Prop :=
  field.1 = place.1 ∧ ∀ document ∈ field.2, place.2.Conforms document

def present (fields : List (String × Option Document)) : List (String × Document) :=
  fields.filterMap fun field => field.2.map (field.1, ·)

theorem keys_present_sublist {fields : List (String × Option Document)}
    {places : List (String × Schema)} (h : List.Forall₂ Fits fields places) :
    (keys (present fields)).Sublist (names places) := by
  induction h with
  | nil => exact .slnil
  | @cons field place fields places hfits _ ih =>
      obtain ⟨name, value?⟩ := field
      obtain ⟨rfl, -⟩ := hfits
      cases value? with
      | none => exact ih.cons _
      | some value => exact ih.cons_cons _

theorem exists_place_of_mem {fields : List (String × Option Document)}
    {places : List (String × Schema)} (h : List.Forall₂ Fits fields places)
    {field : String × Option Document} (hfield : field ∈ fields) :
    ∃ place ∈ places, Fits field place := by
  induction h with
  | nil => cases hfield
  | @cons _ place _ _ hfits _ ih =>
      rcases List.mem_cons.1 hfield with rfl | hrest
      · exact ⟨place, List.mem_cons_self, hfits⟩
      · obtain ⟨other, hother, hotherFits⟩ := ih hrest
        exact ⟨other, List.mem_cons_of_mem _ hother, hotherFits⟩

theorem conforms_each_present {fields : List (String × Option Document)}
    {places : List (String × Schema)} (hdistinct : (names places).Nodup)
    (h : List.Forall₂ Fits fields places) :
    ∀ entry ∈ present fields, ∀ schema, (entry.1, schema) ∈ places →
      schema.Conforms entry.2 := by
  intro entry hentry
  obtain ⟨⟨name, value?⟩, hfield, hvalue⟩ := List.mem_filterMap.1 hentry
  obtain ⟨value, rfl, rfl⟩ := Option.map_eq_some_iff.1 hvalue
  obtain ⟨⟨_, schema⟩, hplace, rfl, hconforms⟩ := exists_place_of_mem h hfield
  exact conforms_each_of_mem hdistinct hplace (hconforms value rfl)

theorem conforms_record {fields : List (String × Option Document)}
    {places : List (String × Schema)} (hdistinct : (names places).Nodup)
    (h : List.Forall₂ Fits fields places) :
    (Schema.record places).Conforms (Document.record fields) :=
  .record hdistinct (keys_present_sublist h) (conforms_each_present hdistinct h)

theorem fits_entry_of {α : Type} [ToDocument α] {schema : Schema} {value : α} (name : String)
    (h : schema.Conforms (toDocument value)) : Fits (entry name value) (name, schema) :=
  ⟨rfl, fun _ hdocument => Option.some.inj hdocument ▸ h⟩

theorem fits_optionalEntry_of {α : Type} [ToDocument α] {schema : Schema} {value? : Option α}
    (name : String) (h : ∀ value ∈ value?, schema.Conforms (toDocument value)) :
    Fits (optionalEntry name value?) (name, schema) := by
  refine ⟨rfl, fun document hdocument => ?_⟩
  obtain ⟨value, hvalue, rfl⟩ := Option.map_eq_some_iff.1 hdocument
  exact h value hvalue

section
variable {α : Type} [ToDocument α] {schema : Schema}

theorem conforms_list {items : List α} (h : ∀ item ∈ items, schema.Conforms (toDocument item)) :
    (Schema.list schema).Conforms (toDocument items) := by
  refine .list fun document hdocument => ?_
  obtain ⟨item, hitem, rfl⟩ := List.mem_map.1 hdocument
  exact h item hitem

def tableEntries (table : Table α) : List (String × Document) :=
  table.entries.map fun entry => (entry.1, toDocument entry.2)

theorem keys_tableEntries (table : Table α) : keys (tableEntries table) = table.keys := by
  simp [keys, tableEntries, Table.keys, Function.comp_def]

theorem nodup_keys_tableEntries (table : Table α) : (keys (tableEntries table)).Nodup := by
  rw [keys_tableEntries]
  exact table.nodup

theorem conforms_tableEntries {table : Table α}
    (h : ∀ entry ∈ table.entries, schema.Conforms (toDocument entry.2)) :
    ∀ entry ∈ tableEntries table, schema.Conforms entry.2 := by
  intro document hdocument
  obtain ⟨entry, hentry, rfl⟩ := List.mem_map.1 hdocument
  exact h entry hentry

theorem conforms_table {table : Table α}
    (h : ∀ entry ∈ table.entries, schema.Conforms (toDocument entry.2)) :
    (Schema.table schema).Conforms (toDocument table) :=
  .table (nodup_keys_tableEntries table) (conforms_tableEntries h)

theorem conforms_tableThen {table : Table α} {fields : List (String × Option Document)}
    {places : List (String × Schema)} (hdistinct : (names places).Nodup)
    (hfits : List.Forall₂ Fits fields places)
    (hfree : ∀ name ∈ table.keys, name ∉ names places)
    (h : ∀ entry ∈ table.entries, schema.Conforms (toDocument entry.2)) :
    (Schema.tableThen schema places).Conforms
      (.mapping (tableEntries table ++ present fields)) := by
  have hordered := keys_present_sublist hfits
  refine .tableThen ?_ hordered (conforms_tableEntries h) (conforms_each_present hdistinct hfits)
  rw [keys, List.map_append, List.nodup_append]
  refine ⟨nodup_keys_tableEntries table, hordered.nodup hdistinct, ?_⟩
  rintro name hname _ hother rfl
  exact hfree name (keys_tableEntries table ▸ hname) (hordered.subset hother)

end

end Schema

/-! ## Types with a schema -/

/-- Whatever value of the type is written follows one schema. -/
class Described (α : Type) [ToDocument α] where
  schema : Schema
  conforms (value : α) : schema.Conforms (toDocument value)

abbrev schemaOf (α : Type) [ToDocument α] [Described α] : Schema := Described.schema α

namespace Schema

@[simp] theorem fits_entry {α : Type} [ToDocument α] [Described α] (name : String) (value : α) :
    Fits (entry name value) (name, schemaOf α) :=
  fits_entry_of name (Described.conforms value)

@[simp] theorem fits_optionalEntry {α : Type} [ToDocument α] [Described α] (name : String)
    (value? : Option α) : Fits (optionalEntry name value?) (name, schemaOf α) :=
  fits_optionalEntry_of name fun value _ => Described.conforms value

end Schema

instance : Described String := ⟨.text, .text⟩

instance : Described Bool := ⟨.boolean, .boolean⟩

instance : Described Nat := ⟨.integer, fun number => .integer number⟩

instance {α : Type} [ToDocument α] [Described α] : Described (List α) :=
  ⟨.list (schemaOf α), fun _ => Schema.conforms_list fun item _ => Described.conforms item⟩

instance {α : Type} [ToDocument α] [Described α] : Described (Table α) :=
  ⟨.table (schemaOf α),
    fun _ => Schema.conforms_table fun entry _ => Described.conforms entry.2⟩

end ActionsWorkflow
