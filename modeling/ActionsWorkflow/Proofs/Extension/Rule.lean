import ActionsWorkflow.Proofs.Location.Verdict
import ActionsWorkflow.Proofs.Relocation.Workflow
import Mathlib.Order.Bounds.Defs

/-!
# Lists that grow

A list is checked from its first item on, and each item beside the items before it.  What is
refused is therefore refused for the same reason when items are put behind it, and a
position in the report is the end of the shortest part that is refused.
-/

namespace ActionsWorkflow

variable {path : Path} {violation : Violation}

/-- The path leads to `outer` and on from there. -/
def Path.Below (path outer : Path) : Prop := outer.segments <+: path.segments

namespace Path.Below

variable {outer : Path} {position : Nat}

theorem refl (path : Path) : path.Below path := List.prefix_rfl

theorem key (path : Path) (name : String) : (path.key name).Below path :=
  List.prefix_append _ _

theorem step_eq {first second : Segment} (hfirst : path.Below ⟨outer.segments ++ [first]⟩)
    (hsecond : path.Below ⟨outer.segments ++ [second]⟩) : first = second := by
  have hsame := List.prefix_of_prefix_length_le hfirst hsecond (by simp)
  simpa using hsame.eq_of_length (by simp)

theorem position_eq {other : Nat} (h : path.Below (outer.index position))
    (hother : path.Below (outer.index other)) : position = other := by
  simpa using step_eq h hother

theorem not_of_key {name : String} (h : path.Below (outer.key name)) :
    ¬ path.Below (outer.index position) := fun hindex => by
  simpa using step_eq h hindex

theorem not_self : ¬ outer.Below (outer.index position) := fun h => by
  have hlength := List.IsPrefix.length_le h
  simp only [Path.index, List.length_append, List.length_singleton] at hlength
  omega

end Path.Below

theorem path_eq_of_checkFormat {format : Format} {value : String}
    (h : checkFormat format path value = .error violation) : violation.path = path := by
  unfold checkFormat at h
  split at h
  · cases h
  · cases h
    rfl

theorem path_eq_of_checkNotBlank {value : String}
    (h : checkNotBlank path value = .error violation) : violation.path = path := by
  unfold checkNotBlank at h
  split at h
  · cases h
    rfl
  · cases h

theorem below_of_check {α : Type} [Checkable α] [Relocatable α] {record : α}
    (h : check path record = .error violation) : violation.path.Below path := by
  rw [check_eq_mapError, mapError_eq_error_iff] at h
  obtain ⟨found, -, rfl⟩ := h
  exact List.prefix_append _ _

section
variable {α : Type} {rule : List α → α → Verdict} {items : List α}

theorem checkEach_append (before front back : List α) :
    checkEach rule before (front ++ back) =
      (checkEach rule before front >>= fun _ => checkEach rule (before ++ front) back) := by
  induction front generalizing before with
  | nil => simp [checkEach, bind, Except.bind]
  | cons item front ih =>
      simp only [List.cons_append, checkEach_cons, ih, bind_assoc, List.append_assoc,
        List.nil_append]

theorem checkEach_append_of_error (h : checkEach rule [] items = .error violation)
    (more : List α) : checkEach rule [] (items ++ more) = .error violation := by
  rw [checkEach_append, h]
  rfl

theorem checkEach_take_of_ok (h : checkEach rule [] items = .ok ()) (count : Nat) :
    checkEach rule [] (items.take count) = .ok () := by
  rw [← List.take_append_drop count items, checkEach_append, bind_eq_ok_iff] at h
  exact h.1

theorem checkEach_congr {before other : List α} (items : List α)
    (h : ∀ later item, rule (before ++ later) item = rule (other ++ later) item) :
    checkEach rule before items = checkEach rule other items := by
  induction items generalizing before other with
  | nil => rfl
  | cons item rest ih =>
      have hitem := h [] item
      rw [List.append_nil, List.append_nil] at hitem
      have hrest : checkEach rule (before ++ [item]) rest =
          checkEach rule (other ++ [item]) rest := ih fun later next => by
        simpa using h (item :: later) next
      rw [checkEach_cons, checkEach_cons, hitem, hrest]

end

/-! ## Reports on lists -/

/-- What the list at `path` is refused for does not change when more items follow, and the
position in the report is the least at which the list up to there is refused. -/
structure ReportsEarliest {α : Type} (path : Path) (verdict : List α → Verdict) : Prop where
  extend {items : List α} {violation : Violation} (hne : items ≠ [])
    (h : verdict items = .error violation) (more : List α) :
    verdict (items ++ more) = .error violation
  least {items : List α} {violation : Violation} {position : Nat} (hne : items ≠ [])
    (h : verdict items = .error violation)
    (hposition : violation.path.Below (path.index position)) :
    IsLeast {last | verdict (items.take (last + 1)) ≠ .ok ()} position

/-- Each report on the list has a position. -/
structure ReportsPosition {α : Type} (path : Path) (verdict : List α → Verdict) : Prop
    extends ReportsEarliest path verdict where
  located {items : List α} {violation : Violation} (hne : items ≠ [])
    (h : verdict items = .error violation) :
    ∃ position, violation.path.Below (path.index position)

section
variable {α : Type} {rule : List α → α → Verdict} {verdict : List α → Verdict}

theorem isLeast_length {front back : List α} {item : α}
    (hverdict : ∀ items ≠ [], verdict items = checkEach rule [] items)
    (hfront : checkEach rule [] front = .ok ()) (hitem : rule front item = .error violation) :
    IsLeast {last | verdict ((front ++ item :: back).take (last + 1)) ≠ .ok ()} front.length := by
  constructor
  · have htake : (front ++ item :: back).take (front.length + 1) = front ++ [item] := by
      simp [List.take_append, List.take_of_length_le]
    have hrefused : checkEach rule [] (front ++ [item]) = .error violation := by
      rw [checkEach_append, hfront, List.nil_append, checkEach_cons, hitem]
      rfl
    change verdict _ ≠ .ok ()
    rw [htake, hverdict _ (by simp), hrefused]
    simp
  · intro last hlast
    by_contra hless
    have htake : (front ++ item :: back).take (last + 1) = front.take (last + 1) :=
      List.take_append_of_le_length (by omega)
    have hne : front.take (last + 1) ≠ [] := by
      simp only [ne_eq, List.take_eq_nil_iff, not_or, Nat.succ_ne_zero, not_false_eq_true,
        true_and]
      rintro rfl
      exact hless (Nat.zero_le last)
    refine hlast ?_
    rw [htake, hverdict _ hne]
    exact checkEach_take_of_ok hfront _

theorem reportsEarliest_of_checkEach
    (hverdict : ∀ items ≠ [], verdict items = checkEach rule [] items)
    (hrule : ∀ before item violation position, rule before item = .error violation →
      violation.path.Below (path.index position) → position = before.length) :
    ReportsEarliest path verdict where
  extend hne h more := by
    rw [hverdict _ hne] at h
    rw [hverdict _ (List.append_ne_nil_of_left_ne_nil hne more)]
    exact checkEach_append_of_error h more
  least {_ _ position} hne h hposition := by
    rw [hverdict _ hne] at h
    obtain ⟨front, item, back, rfl, hfront, hitem⟩ := checkEach_eq_error h
    rw [List.nil_append] at hitem
    have heq : position = front.length := hrule _ _ _ _ hitem hposition
    exact heq ▸ isLeast_length hverdict hfront hitem

theorem reportsPosition_of_checkEach
    (hverdict : ∀ items ≠ [], verdict items = checkEach rule [] items)
    (hrule : ∀ before item violation, rule before item = .error violation →
      violation.path.Below (path.index before.length)) :
    ReportsPosition path verdict where
  toReportsEarliest := reportsEarliest_of_checkEach hverdict
    fun _ _ _ _ h hposition => hposition.position_eq (hrule _ _ _ h)
  located hne h := by
    rw [hverdict _ hne] at h
    obtain ⟨front, item, _, -, -, hitem⟩ := checkEach_eq_error h
    exact ⟨front.length, hrule front item _ hitem⟩

theorem notEmpty_then_eq {items : List α} (hne : items ≠ []) (rest : Verdict) :
    (checkNotEmpty path items >>= fun _ => rest) = rest := by
  rw [checkNotEmpty_eq_ok_iff.2 hne]
  rfl

end

theorem reportsPosition_names (path : Path) : ReportsPosition path (checkNames path) := by
  refine reportsPosition_of_checkEach (fun names hne => notEmpty_then_eq hne _) ?_
  intro before name violation h
  rw [path_eq_of_checkNotBlank h]
  exact .refl _

/-! ## Longer lists -/

/-- A list that is refused, and the same list with more items behind it. -/
structure Prolonged {α : Type} (verdict : List α → Verdict) (items longer : List α) : Prop where
  nonempty : items ≠ []
  refused : verdict items ≠ .ok ()
  more : items <+: longer

theorem Prolonged.verdict_eq {α : Type} {verdict : List α → Verdict} {items longer : List α}
    (h : Prolonged verdict items longer) (hverdict : ReportsEarliest path verdict) :
    verdict longer = verdict items := by
  obtain ⟨more, rfl⟩ := h.more
  cases hitems : verdict items with
  | ok => exact absurd hitems h.refused
  | error violation => exact hverdict.extend h.nonempty hitems more

/-- One item of a list makes room for a related one. -/
inductive OneChanged {α : Type} (related : α → α → Prop) : List α → List α → Prop
  | intro (front back : List α) {item other : α} (h : related item other) :
      OneChanged related (front ++ item :: back) (front ++ other :: back)

section
variable {α : Type} {rule : List α → α → Verdict} {related : α → α → Prop}

theorem OneChanged.ne_nil {items others : List α} (h : OneChanged related items others) :
    items ≠ [] ∧ others ≠ [] := by
  cases h
  simp

theorem OneChanged.checkEach_eq {items others : List α} (h : OneChanged related items others)
    (hitem : ∀ before item other, related item other → rule before other = rule before item)
    (hbefore : ∀ front later item other next, related item other →
      rule (front ++ other :: later) next = rule (front ++ item :: later) next) :
    checkEach rule [] others = checkEach rule [] items := by
  cases h with
  | @intro front back item other hrelated =>
      have hback : checkEach rule (front ++ [other]) back =
          checkEach rule (front ++ [item]) back := checkEach_congr back fun later next => by
        simpa using hbefore front later item other next hrelated
      simp only [checkEach_append, checkEach_cons, List.nil_append, hitem front _ _ hrelated,
        hback]

end

def EntryGrows {α : Type} (grows : Path → α → α → Prop) (path : Path)
    (entry other : String × α) : Prop :=
  other.1 = entry.1 ∧ grows (path.key entry.1) entry.2 other.2

theorem Prolonged.checkNames_eq {names longer : List String}
    (h : Prolonged (checkNames path) names longer) :
    checkNames path longer = checkNames path names :=
  h.verdict_eq (reportsPosition_names path).toReportsEarliest

end ActionsWorkflow
