/-!
# Tables in insertion order

A table maps distinct strings to values and remembers the order in which its keys first
came.  Giving a key a new value leaves the key where it stands.
-/

namespace ActionsWorkflow

structure Table (α : Type) where
  entries : List (String × α)
  nodup : (entries.map Prod.fst).Nodup

namespace Table

variable {α β : Type}

def empty : Table α := ⟨[], List.nodup_nil⟩

def keys (table : Table α) : List String := table.entries.map Prod.fst

def size (table : Table α) : Nat := table.entries.length

def isEmpty (table : Table α) : Bool := table.entries.isEmpty

def get? (table : Table α) (key : String) : Option α :=
  (table.entries.find? fun entry => entry.1 = key).map Prod.snd

def contains (table : Table α) (key : String) : Bool := (table.get? key).isSome

/-- Put `value` at `key`, in place if the key is there and at the end otherwise, and say
which value it takes the place of. -/
def exchangeEntry (key : String) (value : α) :
    List (String × α) → Option α × List (String × α)
  | [] => (none, [(key, value)])
  | (k, v) :: rest =>
      if k = key then (some v, (k, value) :: rest)
      else
        let (old, changed) := exchangeEntry key value rest
        (old, (k, v) :: changed)

theorem keys_exchangeEntry (key : String) (value : α) (entries : List (String × α)) :
    (exchangeEntry key value entries).2.map Prod.fst =
      if key ∈ entries.map Prod.fst then entries.map Prod.fst
      else entries.map Prod.fst ++ [key] := by
  induction entries with
  | nil => simp [exchangeEntry]
  | cons entry rest ih =>
      obtain ⟨k, v⟩ := entry
      by_cases h : k = key
      · simp [exchangeEntry, h]
      · have hne : key ≠ k := fun e => h e.symm
        simp only [exchangeEntry, h, if_false, List.map_cons, ih, List.mem_cons, hne,
          false_or]
        split <;> simp

theorem nodup_exchangeEntry (key : String) (value : α) {entries : List (String × α)}
    (h : (entries.map Prod.fst).Nodup) :
    ((exchangeEntry key value entries).2.map Prod.fst).Nodup := by
  rw [keys_exchangeEntry]
  split
  · exact h
  · rename_i hnot
    refine List.nodup_append.2 ⟨h, by simp, ?_⟩
    intro a ha b hb hab
    simp only [List.mem_singleton] at hb
    exact hnot (hb ▸ hab ▸ ha)

def exchange (table : Table α) (key : String) (value : α) : Option α × Table α :=
  let result := exchangeEntry key value table.entries
  (result.1, ⟨result.2, nodup_exchangeEntry key value table.nodup⟩)

def insert (table : Table α) (key : String) (value : α) : Table α :=
  (table.exchange key value).2

def ofList (pairs : List (String × α)) : Table α :=
  pairs.foldl (fun table pair => table.insert pair.1 pair.2) empty

def map (change : α → β) (table : Table α) : Table β :=
  ⟨table.entries.map fun entry => (entry.1, change entry.2), by
    simpa [Function.comp_def] using table.nodup⟩

/-! ## Laws -/

theorem keys_insert (table : Table α) (key : String) (value : α) :
    (table.insert key value).keys =
      if key ∈ table.keys then table.keys else table.keys ++ [key] :=
  keys_exchangeEntry key value table.entries

theorem exchangeEntry_fst (key : String) (value : α) (entries : List (String × α)) :
    (exchangeEntry key value entries).1 =
      (entries.find? fun entry => entry.1 = key).map Prod.snd := by
  induction entries with
  | nil => rfl
  | cons entry rest ih => by_cases h : entry.1 = key <;> simp [exchangeEntry, h, ih]

theorem exchange_fst (table : Table α) (key : String) (value : α) :
    (table.exchange key value).1 = table.get? key :=
  exchangeEntry_fst key value table.entries

theorem find?_exchangeEntry (key other : String) (value : α)
    (entries : List (String × α)) :
    ((exchangeEntry key value entries).2.find? fun entry => entry.1 = other).map Prod.snd =
      if other = key then some value
      else (entries.find? fun entry => entry.1 = other).map Prod.snd := by
  induction entries with
  | nil =>
      by_cases h : key = other
      · simp [exchangeEntry, h]
      · simp [exchangeEntry, h, Ne.symm h]
  | cons entry rest ih =>
      obtain ⟨k, v⟩ := entry
      by_cases hk : k = key <;> by_cases ho : other = key <;> by_cases hko : k = other <;>
        simp_all [exchangeEntry]

theorem get?_insert (table : Table α) (key other : String) (value : α) :
    (table.insert key value).get? other =
      if other = key then some value else table.get? other :=
  find?_exchangeEntry key other value table.entries

/-- Insert into a table that starts to exist with its first key. -/
def insertInto (table? : Option (Table α)) (key : String) (value : α) : Option (Table α) :=
  some ((table?.getD empty).insert key value)

end Table

end ActionsWorkflow
