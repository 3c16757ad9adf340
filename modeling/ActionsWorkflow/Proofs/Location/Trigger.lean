import ActionsWorkflow.Encoding.Trigger
import ActionsWorkflow.Proofs.Location.Verdict
import ActionsWorkflow.Validity.Trigger

/-!
# Violations in triggers

A trigger is the first entry for its event once no earlier trigger has the same event.  The
two keys that a trigger may be without are the workflows it watches and the options of one
of its inputs.
-/

namespace ActionsWorkflow

variable {gap : Gap} {path : Path}

theorem NameFilter.located {name : String} {filter : NameFilter} {document : Document}
    (hincluded : document.field? name = filter.included.map toDocument)
    (hignored : document.field? (name ++ "-ignore") = filter.ignored.map toDocument) :
    Located gap path document (filter.check name path) := by
  refine .bind ?_ fun _ => .bind (.optionalField hincluded fun _ _ => .names) fun _ =>
    .optionalField hignored fun _ _ => .names
  cases hvalue : filter.included with
  | none => exact .ok
  | some names =>
      rw [hvalue] at hincluded
      exact .field (toDocument names) hincluded (.refuse trivial)

theorem located_pushFilters {filters : PushFilters} :
    Located gap path (toDocument filters) (check path filters) := by
  change Located gap path (.record _) (_ >>= _)
  refine .bind (NameFilter.located ?_ ?_) fun _ =>
    .bind (NameFilter.located ?_ ?_) fun _ => NameFilter.located ?_ ?_
  all_goals simp [NameFilter.fields]

theorem located_pullRequestFilters {filters : PullRequestFilters} :
    Located gap path (toDocument filters) (check path filters) := by
  change Located gap path (.record _) (_ >>= _)
  refine .bind (.optionalField ?_ fun _ _ => .notEmpty) fun _ =>
    .bind (NameFilter.located ?_ ?_) fun _ => NameFilter.located ?_ ?_
  all_goals simp [NameFilter.fields]

def Reason.optionsRequired : Reason := .invalid "is required for inputs of type `choice`"

/-- A gap that leaves room for inputs that offer a choice without options. -/
def Gap.AllowsOptions (gap : Gap) : Prop :=
  ∀ node, node.field? "type" = some (.text "choice") →
    gap [] "options" node .optionsRequired

theorem located_input {input : Input} (hgap : gap.AllowsOptions) :
    Located gap path (toDocument input) (check path input) := by
  obtain ⟨description, required, default, type, options⟩ := input
  change Located gap path (.record _) (_ >>= _)
  refine .bind (.field (toDocument description) (by simp) .notBlank) fun _ => ?_
  cases options with
  | none =>
      rcases type with _ | _ | _ | _ | _ | _
      case some.choice => exact .missing (by simp) (hgap _ (by simp [toDocument, InputType.name]))
      all_goals exact .ok
  | some options =>
      rcases type with _ | _ | _ | _ | _ | _
      case some.choice => exact .field (toDocument options) (by simp) .names
      all_goals exact .field (toDocument options) (by simp) (.violate trivial)

theorem located_inputs {inputs : Table Input}
    (hgap : ∀ name, (gap.under (.key name)).AllowsOptions) :
    Located gap path (toDocument inputs) (checkInputs path inputs) := by
  refine .each fun front entry back hentries _ => ?_
  have hentry : entry ∈ inputs.entries := by simp [hentries]
  exact .bind .notBlank fun _ => .field (toDocument entry.2)
    (Document.field?_table_of_mem hentry) (located_input (hgap entry.1))

theorem located_checkWatched {event : Event} {types workflows : Option (List String)}
    (hgap : event = .workflowRun → ∀ node, gap [] "workflows" node .required) :
    Located gap path (toDocument (Trigger.activity event types workflows))
      (checkWatched (path.key "workflows") event workflows) := by
  change Located gap path (.record _) _
  cases workflows with
  | none =>
      by_cases hevent : event = .workflowRun
      · subst hevent
        exact .missing (by simp) (hgap rfl _)
      · simp only [checkWatched]
        exact .ok
  | some names =>
      by_cases hevent : event = .workflowRun
      · subst hevent
        exact .field (toDocument names) (by simp) .names
      · simp only [checkWatched]
        exact .field (toDocument names) (by simp) (.violate trivial)

theorem located_trigger {trigger : Trigger}
    (hworkflows : trigger.eventName = "workflow_run" →
      ∀ node, gap [] "workflows" node .required)
    (hoptions : ∀ name, ((gap.under (.key "inputs")).under (.key name)).AllowsOptions) :
    Located gap path (toDocument trigger) (check path trigger) := by
  cases trigger with
  | push => exact located_pushFilters
  | pullRequest => exact located_pullRequestFilters
  | pullRequestTarget => exact located_pullRequestFilters
  | manual inputs =>
      change Located gap path (.record _) _
      exact .optionalField (by simp) fun _ _ => located_inputs hoptions
  | schedule crons =>
      refine .bind .notEmpty fun _ => .items fun position cron _ => ?_
      exact .field (toDocument cron) rfl .format
  | workflowCall inputs secrets =>
      change Located gap path (.record _) (_ >>= _)
      refine .bind (.optionalField (by simp) fun _ _ => located_inputs hoptions) fun _ => ?_
      refine .optionalField (by simp) fun _ _ => .each fun _ _ _ _ _ => .notBlank
  | activity event types workflows =>
      refine .bind (.optionalField ?_ fun _ _ => .names) fun _ => located_checkWatched ?_
      · change (Document.record _).field? "types" = _
        simp
      · rintro rfl
        exact hworkflows rfl

theorem field?_triggersDocument {front back : List Trigger} {trigger : Trigger}
    (h : trigger.eventName ∉ front.map Trigger.eventName) :
    (triggersDocument (front ++ trigger :: back)).field? trigger.eventName =
      some (toDocument trigger) := by
  induction front with
  | nil => simp [triggersDocument, Document.field?]
  | cons other rest ih =>
      rw [List.map_cons, List.mem_cons, not_or] at h
      have hother : other.eventName ≠ trigger.eventName := Ne.symm h.1
      have hrest := ih h.2
      unfold triggersDocument Document.field? at hrest ⊢
      simpa [hother] using hrest

theorem located_triggers {triggers : List Trigger}
    (hworkflows : ∀ node, gap [.key "workflow_run"] "workflows" node .required)
    (hoptions : ∀ event name,
      (((gap.under (.key event)).under (.key "inputs")).under (.key name)).AllowsOptions) :
    Located gap path (triggersDocument triggers) (checkTriggers path triggers) := by
  simp only [checkTriggers, refuse_then_eq_bind]
  refine .bind (.refuse trivial) fun _ => .each fun front trigger back htriggers _ => ?_
  simp only [checkTrigger, refuse_then_eq_bind]
  refine .bind (.refuse trivial) fun hnew => ?_
  -- The event is new, so this trigger is the first entry under its name.
  rw [ite_violate_eq_ok_iff, List.contains_iff_mem] at hnew
  refine .field (toDocument trigger) ?_ (located_trigger ?_ (hoptions trigger.eventName))
  · rw [htriggers, field?_triggersDocument hnew]
  · intro hevent
    rw [hevent]
    exact hworkflows

end ActionsWorkflow
