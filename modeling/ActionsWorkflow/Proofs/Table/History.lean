import ActionsWorkflow.Proofs.Table.Entries
import Mathlib.Data.Finset.Card
import Mathlib.Data.List.Basic

/-!
# Tables and their histories

A table is a view of the insertions that led to it: its keys stand in the order in which
they first came, and each has the value that came last.  One more insertion moves no other
key and answers with what was there before.
-/

namespace ActionsWorkflow

section LastValue

variable {κ α : Type} [DecidableEq κ]

def lastValue? (pairs : List (κ × α)) (key : κ) : Option α :=
  (pairs.reverse.find? fun pair => pair.1 = key).map Prod.snd

theorem lastValue?_concat (pairs : List (κ × α)) (given key : κ) (value : α) :
    lastValue? (pairs ++ [(given, value)]) key =
      if key = given then some value else lastValue? pairs key := by
  by_cases h : given = key
  · simp [lastValue?, h]
  · simp [lastValue?, h, Ne.symm h]

theorem lastValue?_eq_none_iff {pairs : List (κ × α)} {key : κ} :
    lastValue? pairs key = none ↔ key ∉ pairs.map Prod.fst := by
  simp only [lastValue?, Option.map_eq_none_iff, List.find?_eq_none, List.mem_reverse,
    decide_eq_true_eq, List.mem_map, not_exists, not_and]

end LastValue

namespace Table

variable {α : Type} {table : Table α} {history : List (String × α)}

/-! ## Insertions in turn -/

def insertAll (table : Table α) (pairs : List (String × α)) : Table α :=
  pairs.foldl (fun table pair => table.insert pair.1 pair.2) table

theorem ofList_eq_insertAll (pairs : List (String × α)) :
    ofList pairs = empty.insertAll pairs := rfl

/-- Of two keys of a history, the one that came first. -/
def FirstCame (history : List (String × α)) (key other : String) : Prop :=
  (history.map Prod.fst).idxOf key < (history.map Prod.fst).idxOf other

theorem FirstCame.append {key other : String} (h : FirstCame history key other)
    (hkey : key ∈ history.map Prod.fst) (hother : other ∈ history.map Prod.fst)
    (more : List (String × α)) : FirstCame (history ++ more) key other := by
  rw [FirstCame, List.map_append, List.idxOf_append_of_mem hkey,
    List.idxOf_append_of_mem hother]
  exact h

theorem firstCame_concat {key given : String} (value : α) (hkey : key ∈ history.map Prod.fst)
    (hgiven : given ∉ history.map Prod.fst) :
    FirstCame (history ++ [(given, value)]) key given := by
  rw [FirstCame, List.map_append, List.idxOf_append_of_mem hkey,
    List.idxOf_append_of_notMem hgiven]
  exact Nat.lt_of_lt_of_le (List.idxOf_lt_length_of_mem hkey) (Nat.le_add_right _ _)

/-- What a table holds after the insertions of a history. -/
structure Records (table : Table α) (history : List (String × α)) : Prop where
  mem_keys : ∀ key, key ∈ table.keys ↔ key ∈ history.map Prod.fst
  order : table.keys.Pairwise (FirstCame history)
  get? : ∀ key, table.get? key = lastValue? history key

namespace Records

theorem empty : (empty : Table α).Records [] :=
  ⟨fun _ => Iff.rfl, .nil, fun _ => rfl⟩

theorem insert (h : table.Records history) (key : String) (value : α) :
    (table.insert key value).Records (history ++ [(key, value)]) where
  mem_keys other := by
    rw [mem_keys_insert, h.mem_keys, List.map_append, List.mem_append, List.map_singleton,
      List.mem_singleton]
  order := by
    have hkept : table.keys.Pairwise (FirstCame (history ++ [(key, value)])) :=
      h.order.imp_of_mem fun hfirst hsecond hcame =>
        hcame.append ((h.mem_keys _).1 hfirst) ((h.mem_keys _).1 hsecond) _
    rw [keys_insert]
    split
    next => exact hkept
    next hnew =>
      refine List.pairwise_append.2 ⟨hkept, List.pairwise_singleton _ _, ?_⟩
      intro first hfirst second hsecond
      rw [List.mem_singleton.1 hsecond]
      rw [h.mem_keys] at hnew
      exact firstCame_concat value ((h.mem_keys first).1 hfirst) hnew
  get? other := by
    rw [get?_insert, lastValue?_concat, h.get?]

theorem insertAll (h : table.Records history) (pairs : List (String × α)) :
    (table.insertAll pairs).Records (history ++ pairs) := by
  induction pairs generalizing table history with
  | nil => rwa [List.append_nil]
  | cons pair rest ih =>
      have hrest := ih (h.insert pair.1 pair.2)
      rwa [List.append_assoc, List.singleton_append] at hrest

theorem ofList (pairs : List (String × α)) : (Table.ofList pairs).Records pairs := by
  rw [ofList_eq_insertAll]
  exact empty.insertAll pairs

theorem nodup (h : table.Records history) : table.keys.Nodup := by
  refine h.order.imp fun {first second} hcame hsame => ?_
  subst hsame
  exact Nat.lt_irrefl _ hcame

theorem size_eq (h : table.Records history) :
    table.size = (history.map Prod.fst).toFinset.card := by
  have hkeys : table.keys.toFinset = (history.map Prod.fst).toFinset := by
    ext key
    rw [List.mem_toFinset, List.mem_toFinset, h.mem_keys]
  rw [← hkeys, List.toFinset_card_of_nodup h.nodup, keys, List.length_map, size]

theorem get?_eq_none_iff (h : table.Records history) {key : String} :
    table.get? key = none ↔ key ∉ history.map Prod.fst := by
  rw [h.get?, lastValue?_eq_none_iff]

end Records

theorem getElem?_exchangeEntry_of_ne {key : String} (value : α) {entry : String × α}
    (hne : entry.1 ≠ key) (entries : List (String × α)) (position : Nat) :
    (exchangeEntry key value entries).2[position]? = some entry ↔
      entries[position]? = some entry := by
  have hother (given : α) : some (key, given) ≠ some entry := by
    intro h
    cases h
    exact hne rfl
  induction entries generalizing position with
  | nil =>
      cases position with
      | zero => simpa [exchangeEntry] using hother value
      | succ position => simp [exchangeEntry]
  | cons head rest ih =>
      obtain ⟨k, v⟩ := head
      by_cases hk : k = key
      · subst hk
        cases position with
        | zero => simpa [exchangeEntry] using iff_of_false (hother value) (hother v)
        | succ position => simp [exchangeEntry]
      · cases position with
        | zero => simp [exchangeEntry, hk]
        | succ position => simpa [exchangeEntry, hk] using ih position

/-- After any insertions, whether collected first or made one by one, a table lists the keys
that came, each once and in the order in which they first came, with the value that came
last.  The next insertion answers with the value it takes the place of, and no other entry
changes or moves. -/
theorem insertions_recorded {table : Table α} {collected inserted : List (String × α)}
    (h : (ofList collected).insertAll inserted = table) :
    table.Records (collected ++ inserted) ∧ table.keys.Nodup ∧
    (∀ key, table.get? key = none ↔ key ∉ (collected ++ inserted).map Prod.fst) ∧
    (∀ key, table.contains key = true ↔ ∃ value, table.get? key = some value) ∧
    table.size = ((collected ++ inserted).map Prod.fst).toFinset.card ∧
    ∀ key value,
      (table.exchange key value).1 = table.get? key ∧
      (table.exchange key value).2.Records (collected ++ inserted ++ [(key, value)]) ∧
      ∀ (position : Nat) (entry : String × α), entry.1 ≠ key →
        ((table.exchange key value).2.entries[position]? = some entry ↔
          table.entries[position]? = some entry) := by
  have hrecords : table.Records (collected ++ inserted) :=
    h ▸ (Records.ofList collected).insertAll inserted
  refine ⟨hrecords, hrecords.nodup, fun key => hrecords.get?_eq_none_iff, fun key => ?_,
    hrecords.size_eq, fun key value => ⟨?_, ?_, ?_⟩⟩
  · rw [contains, Option.isSome_iff_exists]
  · exact table.exchange_fst key value
  · exact hrecords.insert key value
  · intro position entry hne
    exact getElem?_exchangeEntry_of_ne value hne table.entries position

def zetaThenAlpha : Table Nat := (ofList [("zeta", 1)]).insertAll [("alpha", 2)]

theorem insertions_recorded_zetaAgain :
    (ofList [("zeta", 1)]).insertAll [("alpha", 2)] = zetaThenAlpha ∧
    (zetaThenAlpha.exchange "zeta" 3).1 = some 1 ∧ ("alpha", 2).1 ≠ "zeta" ∧
    (zetaThenAlpha.exchange "zeta" 3).2.entries[1]? = some ("alpha", 2) := by
  have hinserted : (ofList [("zeta", 1)]).insertAll [("alpha", 2)] = zetaThenAlpha := rfl
  have hne : ("alpha", 2).1 ≠ "zeta" := by decide
  obtain ⟨-, -, -, -, -, hnext⟩ := insertions_recorded hinserted
  obtain ⟨hanswer, -, hkept⟩ := hnext "zeta" 3
  exact ⟨hinserted, hanswer, hne, (hkept 1 ("alpha", 2) hne).2 rfl⟩

end Table

end ActionsWorkflow
