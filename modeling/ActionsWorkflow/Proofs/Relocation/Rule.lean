import ActionsWorkflow.Proofs.Validity.Rule

/-!
# Rules at other places

The place at which a rule is applied decides where its violation is seen and nothing else.
Moving the place below another one moves the violation along, and this is kept when rules
are put in sequence, applied to a field or an item, or to all items of a list.
-/

namespace ActionsWorkflow

variable (path outer : Path)

section Verdicts

variable {α β : Type}

theorem mapError_bind (first : Except Violation α) (second : α → Except Violation β)
    (move : Violation → Violation) :
    (first >>= second).mapError move =
      (first.mapError move >>= fun value => (second value).mapError move) := by
  cases first <;> rfl

theorem mapError_ok (value : α) (move : Violation → Violation) :
    (.ok value : Except Violation α).mapError move = .ok value := rfl

theorem mapError_ite {condition : Prop} [Decidable condition] (yes no : Except Violation α)
    (move : Violation → Violation) :
    (if condition then yes else no).mapError move =
      if condition then yes.mapError move else no.mapError move := by
  split <;> rfl

theorem violate_within (reason : Reason) :
    (violate (path.within outer) reason : Except Violation α) =
      (violate path reason).mapError (·.within outer) := rfl

end Verdicts

theorem checkNotBlank_within (value : String) :
    checkNotBlank (path.within outer) value =
      (checkNotBlank path value).mapError (·.within outer) := by
  simp only [checkNotBlank, mapError_ite, violate_within, mapError_ok]

theorem checkFormat_within (format : Format) (value : String) :
    checkFormat format (path.within outer) value =
      (checkFormat format path value).mapError (·.within outer) := by
  simp only [checkFormat, mapError_ite, violate_within, mapError_ok]

theorem checkNotEmpty_within {α : Type} (values : List α) :
    checkNotEmpty (path.within outer) values =
      (checkNotEmpty path values).mapError (·.within outer) := by
  simp only [checkNotEmpty, mapError_ite, violate_within, mapError_ok]

theorem checkAtLeast_within (least value : Nat) :
    checkAtLeast least (path.within outer) value =
      (checkAtLeast least path value).mapError (·.within outer) := by
  simp only [checkAtLeast, mapError_ite, violate_within, mapError_ok]

theorem checkExclusive_within {α β : Type} (first : Option α) (second : Option β)
    (name : String) :
    checkExclusive (path.within outer) first second name =
      (checkExclusive path first second name).mapError (·.within outer) := by
  simp only [checkExclusive, mapError_ite, violate_within, mapError_ok]

theorem checkOptional_within {α : Type} {rule : Path → α → Verdict} (value? : Option α)
    (hrule : ∀ path value, rule (path.within outer) value =
      (rule path value).mapError (·.within outer)) :
    checkOptional rule (path.within outer) value? =
      (checkOptional rule path value?).mapError (·.within outer) := by
  cases value? with
  | none => rfl
  | some value => exact hrule path value

theorem checkEach_within {α : Type} {rule moved : List α → α → Verdict} {before items : List α}
    (hrule : ∀ before item, moved before item = (rule before item).mapError (·.within outer)) :
    checkEach moved before items =
      (checkEach rule before items).mapError (·.within outer) := by
  induction items generalizing before with
  | nil => rfl
  | cons item rest ih => rw [checkEach_cons, checkEach_cons, hrule, ih, mapError_bind]

theorem checkItems_within {α : Type} {rule : Path → α → Verdict} (items : List α)
    (hrule : ∀ path item, rule (path.within outer) item =
      (rule path item).mapError (·.within outer)) :
    checkItems rule (path.within outer) items =
      (checkItems rule path items).mapError (·.within outer) := by
  refine checkEach_within outer fun before item => ?_
  rw [← hrule, Path.index_within]

theorem checkNames_within (names : List String) :
    checkNames (path.within outer) names =
      (checkNames path names).mapError (·.within outer) := by
  rw [checkNames, checkNames, mapError_bind, checkNotEmpty_within,
    checkItems_within path outer names fun path name => checkNotBlank_within path outer name]

/-- Records whose check moves along with its place. -/
class Relocatable (α : Type) [Checkable α] : Prop where
  check_within (path outer : Path) (record : α) :
    check (path.within outer) record = (check path record).mapError (·.within outer)

export Relocatable (check_within)

theorem check_eq_mapError {α : Type} [Checkable α] [Relocatable α] (path : Path) (record : α) :
    check path record = (check .root record).mapError (·.within path) := by
  rw [← check_within, Path.root_within]

instance {α : Type} [Checkable α] [Relocatable α] : Relocatable (Option α) where
  check_within path outer record? :=
    checkOptional_within path outer record? fun path record => check_within path outer record

end ActionsWorkflow
