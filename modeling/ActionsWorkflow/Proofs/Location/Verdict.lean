import ActionsWorkflow.Proofs.Document.Lookup
import ActionsWorkflow.Proofs.Validity.Rule

/-!
# Where violations are seen

The path of a violation is followed in the document of what was checked.  It leads to the
node that the violation is about, or it stops at a mapping that is without the last key.
-/

namespace ActionsWorkflow

/-- A value that is reported is the node itself. -/
def Reason.Describes : Reason → Document → Prop
  | .mismatch value _, node => node = .text value
  | .belowMinimum least, node => ∃ number : Int, node = .integer number ∧ number < least
  | _, _ => True

/-- A path to a mapping, a key that it may be without, the mapping, and the reason given. -/
abbrev Gap := List Segment → String → Document → Reason → Prop

def Gap.under (gap : Gap) (segment : Segment) : Gap := fun front => gap (segment :: front)

def Document.Explains (document : Document) (gap : Gap) (segments : List Segment)
    (reason : Reason) : Prop :=
  (∃ node, document.resolve segments = some node ∧ reason.Describes node) ∨
  ∃ front name entries, segments = front ++ [.key name] ∧
    document.resolve front = some (.mapping entries) ∧
    (∀ entry ∈ entries, entry.1 ≠ name) ∧ gap front name (.mapping entries) reason

/-- Each violation of a check at `path` is seen in the document that stands there. -/
def Located (gap : Gap) (path : Path) (document : Document) (verdict : Verdict) : Prop :=
  ∀ violation, verdict = .error violation → ∃ segments,
    violation.path.segments = path.segments ++ segments ∧
      document.Explains gap segments violation.reason

theorem Document.Explains.descend {document child : Document} {gap : Gap} {segment : Segment}
    {segments : List Segment} {reason : Reason} (hchild : document.child? segment = some child)
    (h : child.Explains (gap.under segment) segments reason) :
    document.Explains gap (segment :: segments) reason := by
  rcases h with ⟨node, hnode, hdescribes⟩ | ⟨front, name, entries, rfl, hfront, habsent, hgap⟩
  · left
    refine ⟨node, ?_, hdescribes⟩
    rw [Document.resolve_cons_of_child? hchild, hnode]
  · right
    refine ⟨segment :: front, name, entries, rfl, ?_, habsent, hgap⟩
    rw [Document.resolve_cons_of_child? hchild, hfront]

theorem checkEach_eq_error {α : Type} {rule : List α → α → Verdict} {before items : List α}
    {violation : Violation} (h : checkEach rule before items = .error violation) :
    ∃ front item back, items = front ++ item :: back ∧
      checkEach rule before front = .ok () ∧ rule (before ++ front) item = .error violation := by
  induction items generalizing before with
  | nil => cases h
  | cons item rest ih =>
      rw [checkEach_cons] at h
      cases hitem : rule before item with
      | error found =>
          rw [hitem] at h
          cases h
          exact ⟨[], item, rest, rfl, rfl, by rw [List.append_nil, hitem]⟩
      | ok =>
          rw [hitem] at h
          obtain ⟨front, other, back, rfl, hfront, hother⟩ := ih h
          refine ⟨item :: front, other, back, rfl, ?_, ?_⟩
          · rw [checkEach_cons, bind_eq_ok_iff]
            exact ⟨hitem, hfront⟩
          · rwa [List.append_assoc, List.singleton_append] at hother

namespace Located

variable {gap : Gap} {path : Path} {document : Document}

theorem ok : Located gap path document (.ok ()) := by
  intro violation h
  cases h

theorem violate {reason : Reason} (h : reason.Describes document) :
    Located gap path document (violate path reason) := by
  intro violation hviolation
  cases hviolation
  exact ⟨[], (List.append_nil _).symm, .inl ⟨document, rfl, h⟩⟩

theorem missing {fields : List (String × Option Document)} {name : String} {reason : Reason}
    (habsent : (Document.record fields).field? name = none)
    (hgap : gap [] name (.record fields) reason) :
    Located gap path (.record fields) (ActionsWorkflow.violate (path.key name) reason) := by
  intro violation hviolation
  cases hviolation
  refine ⟨[.key name], rfl, .inr ⟨[], name, _, rfl, rfl, ?_, hgap⟩⟩
  unfold Document.field? at habsent
  simpa only [Document.record, Option.map_eq_none_iff, List.find?_eq_none,
    decide_eq_true_eq] using habsent

theorem refuse {condition : Prop} [Decidable condition] {reason : Reason}
    (h : reason.Describes document) :
    Located gap path document
      (if condition then ActionsWorkflow.violate path reason else .ok ()) := by
  split
  · exact violate h
  · exact ok

theorem bind {first : Verdict} {second : Unit → Verdict} (hfirst : Located gap path document first)
    (hsecond : first = .ok () → Located gap path document (second ())) :
    Located gap path document (first >>= second) := by
  intro violation h
  cases first with
  | error found => exact hfirst violation h
  | ok => exact hsecond rfl violation h

/-! ## Parts of a document -/

theorem descend {child : Document} {segment : Segment} {verdict : Verdict}
    (hchild : document.child? segment = some child)
    (h : Located (gap.under segment) ⟨path.segments ++ [segment]⟩ child verdict) :
    Located gap path document verdict := by
  intro violation hviolation
  obtain ⟨segments, hsegments, hexplains⟩ := h violation hviolation
  refine ⟨segment :: segments, ?_, hexplains.descend hchild⟩
  rw [hsegments, List.append_assoc, List.singleton_append]

theorem field (child : Document) {name : String} {verdict : Verdict}
    (hchild : document.field? name = some child)
    (h : Located (gap.under (.key name)) (path.key name) child verdict) :
    Located gap path document verdict := by
  have hstep : document.child? (.key name) = some child := hchild
  exact descend hstep h

theorem item (child : Document) {items : List Document} {position : Nat} {verdict : Verdict}
    (hchild : items[position]? = some child)
    (h : Located (gap.under (.index position)) (path.index position) child verdict) :
    Located gap path (.sequence items) verdict := by
  have hstep : (Document.sequence items).child? (.index position) = some child := hchild
  exact descend hstep h

theorem optionalField {α : Type} [ToDocument α] {name : String} {value? : Option α}
    {rule : Path → α → Verdict} (hchild : document.field? name = value?.map toDocument)
    (h : ∀ value ∈ value?, Located (gap.under (.key name)) (path.key name) (toDocument value)
      (rule (path.key name) value)) :
    Located gap path document (checkOptional rule (path.key name) value?) := by
  cases value? with
  | none => exact ok
  | some value => exact field (toDocument value) hchild (h value rfl)

theorem each {α : Type} {rule : List α → α → Verdict} {items : List α}
    (h : ∀ front item back, items = front ++ item :: back →
      checkEach rule [] front = .ok () → Located gap path document (rule front item)) :
    Located gap path document (checkEach rule [] items) := by
  intro violation hviolation
  obtain ⟨front, item, back, hitems, hfront, hitem⟩ := checkEach_eq_error hviolation
  exact h front item back hitems hfront violation hitem

theorem items {α : Type} {rule : Path → α → Verdict} {write : α → Document} {items : List α}
    (h : ∀ position item, items[position]? = some item →
      Located (gap.under (.index position)) (path.index position) (write item)
        (rule (path.index position) item)) :
    Located gap path (.sequence (items.map write)) (checkItems rule path items) := by
  refine each fun front item back hitems _ => ?_
  have hitem : items[front.length]? = some item := by simp [hitems]
  refine Located.item (write item) ?_ (h front.length item hitem)
  rw [List.getElem?_map, hitem, Option.map_some]

theorem table {α : Type} [ToDocument α] {table : Table α} {rule : String × α → Verdict}
    (h : ∀ entry ∈ table.entries, Located (gap.under (.key entry.1)) (path.key entry.1)
      (toDocument entry.2) (rule entry)) :
    Located gap path (toDocument table) (checkEach (fun _ => rule) [] table.entries) := by
  refine each fun front entry back hentries _ => ?_
  have hentry : entry ∈ table.entries := by simp [hentries]
  exact field (toDocument entry.2) (Document.field?_table_of_mem hentry) (h entry hentry)

theorem notBlank {value : String} : Located gap path document (checkNotBlank path value) :=
  refuse trivial

theorem notEmpty {α : Type} {values : List α} :
    Located gap path document (checkNotEmpty path values) :=
  refuse trivial

theorem format {form : Format} {value : String} :
    Located gap path (toDocument value) (checkFormat form path value) := by
  rw [checkFormat]
  split
  · exact ok
  · exact violate rfl

theorem atLeast {least value : Nat} :
    Located gap path (toDocument value) (checkAtLeast least path value) := by
  rw [checkAtLeast]
  split
  next h => exact violate ⟨value, rfl, by omega⟩
  next => exact ok

theorem names {names : List String} :
    Located gap path (toDocument names) (checkNames path names) :=
  bind notEmpty fun _ => items fun _ _ _ => notBlank

end Located

end ActionsWorkflow
