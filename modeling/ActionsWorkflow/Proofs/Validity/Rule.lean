import ActionsWorkflow.Validity.Rule
import Mathlib.Data.List.Nodup

/-!
# What the rules accept

Each rule for a single field is passed by the values it describes, whatever the path.  A
list is passed if each of its items is passed beside the items before it; where an item
may not repeat a key of an earlier one, this says that the keys are distinct.
-/

namespace ActionsWorkflow

theorem bind_eq_ok_iff {first : Verdict} {second : Unit → Verdict} :
    (first >>= second) = .ok () ↔ first = .ok () ∧ second () = .ok () := by
  cases first <;> simp [bind, Except.bind]

theorem bind_eq_error_iff {first : Verdict} {second : Unit → Verdict} {violation : Violation} :
    (first >>= second) = .error violation ↔
      first = .error violation ∨ first = .ok () ∧ second () = .error violation := by
  cases first <;> simp [bind, Except.bind]

theorem pure_eq_ok : (pure () : Verdict) = .ok () := rfl

theorem ite_violate_eq_ok_iff {condition : Prop} [Decidable condition] {path : Path}
    {reason : Reason} :
    (if condition then violate path reason else .ok () : Verdict) = .ok () ↔ ¬ condition := by
  by_cases h : condition <;> simp [h, violate]

theorem refuse_then_eq_bind {condition : Prop} [Decidable condition] {path : Path}
    {reason : Reason} {rest : Verdict} :
    (if condition then (violate path reason : Verdict) >>= fun _ => rest else rest) =
      ((if condition then violate path reason else .ok () : Verdict) >>= fun _ => rest) := by
  split <;> rfl

theorem check_option {α : Type} [Checkable α] (path : Path) (value? : Option α) :
    check path value? = checkOptional check path value? := rfl

theorem checkOptional_eq_ok_iff {α : Type} {rule : Path → α → Verdict} {path : Path}
    {value? : Option α} :
    checkOptional rule path value? = .ok () ↔ ∀ value ∈ value?, rule path value = .ok () := by
  cases value? <;> simp [checkOptional]

def Blank (text : String) : Prop := ∀ c ∈ text.toList, Text.isWhiteSpace c = true

theorem isBlank_iff {text : String} : isBlank text = true ↔ Blank text := by
  simp [isBlank, Text.isBlank, Blank]

theorem checkNotBlank_eq_ok_iff {path : Path} {value : String} :
    checkNotBlank path value = .ok () ↔ ¬ Blank value := by
  rw [checkNotBlank, ite_violate_eq_ok_iff, isBlank_iff]

theorem checkFormat_eq_ok_iff {format : Format} {path : Path} {value : String} :
    checkFormat format path value = .ok () ↔ format.accepts value = true := by
  by_cases h : format.accepts value = true <;> simp [checkFormat, h, violate]

theorem checkNotEmpty_eq_ok_iff {α : Type} {path : Path} {values : List α} :
    checkNotEmpty path values = .ok () ↔ values ≠ [] := by
  rw [checkNotEmpty, ite_violate_eq_ok_iff, List.isEmpty_iff]

theorem checkAtLeast_eq_ok_iff {least value : Nat} {path : Path} :
    checkAtLeast least path value = .ok () ↔ least ≤ value := by
  rw [checkAtLeast, ite_violate_eq_ok_iff, Nat.not_lt]

theorem checkExclusive_eq_ok_iff {α β : Type} {path : Path} {first : Option α}
    {second : Option β} {name : String} :
    checkExclusive path first second name = .ok () ↔ first = none ∨ second = none := by
  cases first <;> cases second <;> simp [checkExclusive, violate]

section Each

variable {α : Type} (rule : List α → α → Verdict)

theorem checkEach_cons (before : List α) (item : α) (rest : List α) :
    checkEach rule before (item :: rest) =
      (rule before item >>= fun _ => checkEach rule (before ++ [item]) rest) := rfl

theorem checkEach_eq_ok_iff {accepted : α → Prop}
    (hrule : ∀ before item, rule before item = .ok () ↔ accepted item)
    {before items : List α} :
    checkEach rule before items = .ok () ↔ ∀ item ∈ items, accepted item := by
  induction items generalizing before with
  | nil => simp [checkEach]
  | cons item rest ih => simp [checkEach_cons, bind_eq_ok_iff, hrule, ih]

theorem checkEach_distinct_eq_ok_iff {accepted : α → Prop} {key : α → Option String}
    (hrule : ∀ before item, rule before item = .ok () ↔
      accepted item ∧ ∀ name ∈ key item, name ∉ before.filterMap key)
    {before items : List α} :
    checkEach rule before items = .ok () ↔
      (∀ item ∈ items, accepted item) ∧ (items.filterMap key).Nodup ∧
        ∀ name ∈ items.filterMap key, name ∉ before.filterMap key := by
  induction items generalizing before with
  | nil => simp [checkEach]
  | cons item rest ih =>
      rw [checkEach_cons, bind_eq_ok_iff, hrule, ih]
      cases hkey : key item with
      | none => simp [hkey, and_assoc]
      | some name =>
          simp only [List.filterMap_cons, hkey, List.filterMap_append, List.filterMap_nil,
            List.mem_append, List.mem_singleton, not_or, List.nodup_cons, List.forall_mem_cons,
            Option.mem_some_iff, forall_eq']
          constructor
          · rintro ⟨⟨hitem, hname⟩, hrest, hnodup, hbefore⟩
            exact ⟨⟨hitem, hrest⟩, ⟨fun hmem => (hbefore name hmem).2 rfl, hnodup⟩, hname,
              fun other hmem => (hbefore other hmem).1⟩
          · rintro ⟨⟨hitem, hrest⟩, ⟨hnew, hnodup⟩, hname, hbefore⟩
            exact ⟨⟨hitem, hname⟩, hrest, hnodup, fun other hmem =>
              ⟨hbefore other hmem, fun heq => hnew (heq ▸ hmem)⟩⟩

end Each

theorem checkItems_eq_ok_iff {α : Type} (rule : Path → α → Verdict) {accepted : α → Prop}
    (hrule : ∀ path item, rule path item = .ok () ↔ accepted item)
    {path : Path} {items : List α} :
    checkItems rule path items = .ok () ↔ ∀ item ∈ items, accepted item :=
  checkEach_eq_ok_iff _ fun _ item => hrule _ item

def ValidNames (names : List String) : Prop := names ≠ [] ∧ ∀ name ∈ names, ¬ Blank name

theorem checkNames_eq_ok_iff {path : Path} {names : List String} :
    checkNames path names = .ok () ↔ ValidNames names := by
  rw [checkNames, bind_eq_ok_iff, checkNotEmpty_eq_ok_iff,
    checkItems_eq_ok_iff checkNotBlank fun _ _ => checkNotBlank_eq_ok_iff, ValidNames]

end ActionsWorkflow
