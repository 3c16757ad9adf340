import ActionsWorkflow.Table

/-!
# Looking up entries

Since the keys of a table are distinct, looking up a key and having an entry for it are the
same thing.
-/

namespace ActionsWorkflow.Table

variable {α β : Type}

theorem eq_of_entries_eq {first second : Table α} (h : first.entries = second.entries) :
    first = second := by
  obtain ⟨entries, nodup⟩ := first
  subst h
  rfl

theorem get?_eq_some_iff (table : Table α) {key : String} {value : α} :
    table.get? key = some value ↔ (key, value) ∈ table.entries := by
  obtain ⟨entries, nodup⟩ := table
  simp only [get?]
  induction entries with
  | nil => simp
  | cons entry rest ih =>
      obtain ⟨k, v⟩ := entry
      obtain ⟨hnew, hrest⟩ := List.nodup_cons.1 nodup
      by_cases h : k = key
      · subst h
        have habsent : (k, value) ∉ rest := fun hmem =>
          hnew (List.mem_map.2 ⟨(k, value), hmem, rfl⟩)
        simp [habsent, eq_comm]
      · have hne : key ≠ k := fun e => h e.symm
        simpa [h, hne] using ih hrest

theorem contains_iff_mem_keys (table : Table α) {key : String} :
    table.contains key = true ↔ key ∈ table.keys := by
  rw [contains, Option.isSome_iff_exists, keys, List.mem_map]
  constructor
  · rintro ⟨value, hvalue⟩
    exact ⟨(key, value), table.get?_eq_some_iff.1 hvalue, rfl⟩
  · rintro ⟨⟨_, value⟩, hmem, rfl⟩
    exact ⟨value, table.get?_eq_some_iff.2 hmem⟩

theorem get?_eq_none_of_ne (table : Table α) {key : String}
    (h : ∀ entry ∈ table.entries, entry.1 ≠ key) : table.get? key = none := by
  cases hget : table.get? key with
  | none => rfl
  | some value => exact absurd rfl (h _ (table.get?_eq_some_iff.1 hget))

theorem exchangeEntry_of_not_mem {key : String} (value : α) {entries : List (String × α)}
    (h : key ∉ entries.map Prod.fst) :
    (exchangeEntry key value entries).2 = entries ++ [(key, value)] := by
  induction entries with
  | nil => rfl
  | cons entry rest ih =>
      simp only [List.map_cons, List.mem_cons, not_or] at h
      have hne : ¬ entry.1 = key := fun e => h.1 e.symm
      simp only [exchangeEntry, hne, if_false, ih h.2, List.cons_append]

theorem entries_insert_of_not_mem {table : Table α} {key : String} (h : key ∉ table.keys)
    (value : α) : (table.insert key value).entries = table.entries ++ [(key, value)] :=
  exchangeEntry_of_not_mem value h

theorem mem_keys_insert {table : Table α} {key other : String} {value : α} :
    other ∈ (table.insert key value).keys ↔ other ∈ table.keys ∨ other = key := by
  rw [keys_insert]
  split
  next hkey =>
      constructor
      · exact Or.inl
      · rintro (hother | rfl)
        · exact hother
        · exact hkey
  next => rw [List.mem_append, List.mem_singleton]

@[simp] theorem keys_map (change : α → β) (table : Table α) :
    (table.map change).keys = table.keys := by
  simp [map, keys, Function.comp_def]

end ActionsWorkflow.Table
