import ActionsWorkflow.Proofs.Extension.Rule

/-!
# Triggers that grow

The triggers of a workflow, and in them the schedule, the names of the filters, activity
types and workflows watched, and the options of inputs.
-/

namespace ActionsWorkflow

variable {path : Path}

theorem reportsPosition_schedule (path : Path) :
    ReportsPosition path fun crons => check path (Trigger.schedule crons) := by
  refine reportsPosition_of_checkEach (fun crons hne => notEmpty_then_eq hne _)
    fun before cron violation h => ?_
  rw [path_eq_of_checkFormat h]
  exact .key _ _

theorem reportsEarliest_triggers (path : Path) : ReportsEarliest path (checkTriggers path) := by
  have heach (triggers : List Trigger) (hne : triggers ≠ []) :
      checkTriggers path triggers = checkEach (checkTrigger path) [] triggers := by
    simp [checkTriggers, hne]
  refine reportsEarliest_of_checkEach heach fun before trigger violation position h hposition => ?_
  simp only [checkTrigger, refuse_then_eq_bind] at h
  rcases bind_eq_error_iff.1 h with hduplicate | ⟨-, htrigger⟩
  · split at hduplicate
    · cases hduplicate
      exact absurd hposition Path.Below.not_self
    · cases hduplicate
  · exact absurd hposition (below_of_check htrigger).not_of_key

inductive NameFilter.Grows (name : String) (path : Path) : NameFilter → NameFilter → Prop
  | included {names longer : List String} {ignored : Option (List String)}
      (h : Prolonged (checkNames (path.key name)) names longer) :
      NameFilter.Grows name path ⟨some names, ignored⟩ ⟨some longer, ignored⟩
  | ignored {included : Option (List String)} {names longer : List String}
      (h : Prolonged (checkNames (path.key (name ++ "-ignore"))) names longer) :
      NameFilter.Grows name path ⟨included, some names⟩ ⟨included, some longer⟩

theorem NameFilter.Grows.check_eq {name : String} {filter other : NameFilter}
    (h : filter.Grows name path other) : other.check name path = filter.check name path := by
  cases h with
  | included h => simp [NameFilter.check, checkExclusive, checkOptional, h.checkNames_eq]
  | ignored h => simp [NameFilter.check, checkExclusive, checkOptional, h.checkNames_eq]

inductive PushFilters.Grows (path : Path) (filters : PushFilters) : PushFilters → Prop
  | branches {filter : NameFilter} (h : filters.branches.Grows "branches" path filter) :
      PushFilters.Grows path filters { filters with branches := filter }
  | tags {filter : NameFilter} (h : filters.tags.Grows "tags" path filter) :
      PushFilters.Grows path filters { filters with tags := filter }
  | paths {filter : NameFilter} (h : filters.paths.Grows "paths" path filter) :
      PushFilters.Grows path filters { filters with paths := filter }

theorem PushFilters.Grows.check_eq {filters other : PushFilters} (h : filters.Grows path other) :
    check path other = check path filters := by
  unfold check
  cases h with
  | branches h => simp only [instCheckablePushFilters, h.check_eq]
  | tags h => simp only [instCheckablePushFilters, h.check_eq]
  | paths h => simp only [instCheckablePushFilters, h.check_eq]

inductive PullRequestFilters.Grows (path : Path) (filters : PullRequestFilters) :
    PullRequestFilters → Prop
  | branches {filter : NameFilter} (h : filters.branches.Grows "branches" path filter) :
      PullRequestFilters.Grows path filters { filters with branches := filter }
  | paths {filter : NameFilter} (h : filters.paths.Grows "paths" path filter) :
      PullRequestFilters.Grows path filters { filters with paths := filter }

theorem PullRequestFilters.Grows.check_eq {filters other : PullRequestFilters}
    (h : filters.Grows path other) : check path other = check path filters := by
  unfold check
  cases h with
  | branches h => simp only [instCheckablePullRequestFilters, h.check_eq]
  | paths h => simp only [instCheckablePullRequestFilters, h.check_eq]

inductive Input.Grows (path : Path) (input : Input) : Input → Prop
  | options {names longer : List String} (hoptions : input.options = some names)
      (h : Prolonged (checkNames (path.key "options")) names longer) :
      Input.Grows path input { input with options := some longer }

theorem Input.Grows.check_eq {input other : Input} (h : input.Grows path other) :
    check path other = check path input := by
  obtain ⟨hoptions, h⟩ := h
  unfold check
  simp only [instCheckableInput, hoptions]
  rcases input.type with _ | _ | _ | _ | _ | _ <;> simp [h.checkNames_eq]

abbrev InputsGrow (path : Path) (inputs others : Table Input) : Prop :=
  OneChanged (EntryGrows Input.Grows path) inputs.entries others.entries

theorem checkInputs_eq_of_grow {inputs others : Table Input} (h : InputsGrow path inputs others) :
    checkInputs path others = checkInputs path inputs := by
  refine h.checkEach_eq ?_ fun _ _ _ _ _ _ => rfl
  rintro - entry other ⟨hname, hgrows⟩
  rw [checkInput, checkInput, hname, hgrows.check_eq]

theorem checkWatched_eq_of_grow {event : Event} {names longer : List String}
    (h : Prolonged (checkNames path) names longer) :
    checkWatched path event (some longer) = checkWatched path event (some names) := by
  by_cases hevent : event = .workflowRun
  · subst hevent
    exact h.checkNames_eq
  · simp [checkWatched]

inductive Trigger.Grows (path : Path) : Trigger → Trigger → Prop
  | push {filters other : PushFilters} (h : filters.Grows path other) :
      Trigger.Grows path (.push filters) (.push other)
  | pullRequest {filters other : PullRequestFilters} (h : filters.Grows path other) :
      Trigger.Grows path (.pullRequest filters) (.pullRequest other)
  | pullRequestTarget {filters other : PullRequestFilters} (h : filters.Grows path other) :
      Trigger.Grows path (.pullRequestTarget filters) (.pullRequestTarget other)
  | manual {inputs others : Table Input} (h : InputsGrow (path.key "inputs") inputs others) :
      Trigger.Grows path (.manual (some inputs)) (.manual (some others))
  | schedule {crons longer : List String}
      (h : Prolonged (fun crons => check path (Trigger.schedule crons)) crons longer) :
      Trigger.Grows path (.schedule crons) (.schedule longer)
  | workflowCall {inputs others : Table Input} {secrets : Option (Table SecretSpec)}
      (h : InputsGrow (path.key "inputs") inputs others) :
      Trigger.Grows path (.workflowCall (some inputs) secrets)
        (.workflowCall (some others) secrets)
  | types {event : Event} {types longer : List String} {workflows : Option (List String)}
      (h : Prolonged (checkNames (path.key "types")) types longer) :
      Trigger.Grows path (.activity event (some types) workflows)
        (.activity event (some longer) workflows)
  | workflows {event : Event} {types : Option (List String)} {workflows longer : List String}
      (h : Prolonged (checkNames (path.key "workflows")) workflows longer) :
      Trigger.Grows path (.activity event types (some workflows))
        (.activity event types (some longer))

theorem Trigger.Grows.eventName_eq {trigger other : Trigger} (h : trigger.Grows path other) :
    other.eventName = trigger.eventName := by
  cases h <;> rfl

theorem Trigger.Grows.check_eq {trigger other : Trigger} (h : trigger.Grows path other) :
    check path other = check path trigger := by
  cases h with
  | push h => exact h.check_eq
  | pullRequest h => exact h.check_eq
  | pullRequestTarget h => exact h.check_eq
  | manual h => exact checkInputs_eq_of_grow h
  | schedule h => exact h.verdict_eq (reportsPosition_schedule path).toReportsEarliest
  | workflowCall h =>
      unfold check
      simp only [instCheckableTrigger, checkOptional, checkInputs_eq_of_grow h]
  | types h =>
      unfold check
      simp only [instCheckableTrigger, checkOptional, h.checkNames_eq]
  | workflows h =>
      unfold check
      simp only [instCheckableTrigger, checkWatched_eq_of_grow h]

inductive TriggersGrow (path : Path) : List Trigger → List Trigger → Prop
  | list {triggers longer : List Trigger} (h : Prolonged (checkTriggers path) triggers longer) :
      TriggersGrow path triggers longer
  | trigger {triggers others : List Trigger}
      (h : OneChanged (fun trigger => trigger.Grows (path.key trigger.eventName)) triggers
        others) :
      TriggersGrow path triggers others

theorem TriggersGrow.checkTriggers_eq {triggers others : List Trigger}
    (h : TriggersGrow path triggers others) :
    checkTriggers path others = checkTriggers path triggers := by
  cases h with
  | list h => exact h.verdict_eq (reportsEarliest_triggers path)
  | trigger h =>
      have heach : checkEach (checkTrigger path) [] others =
          checkEach (checkTrigger path) [] triggers := by
        refine h.checkEach_eq ?_ ?_
        · intro before trigger other hgrows
          simp only [checkTrigger, hgrows.eventName_eq, hgrows.check_eq]
        · intro front later trigger other next hgrows
          simp only [checkTrigger, List.map_append, List.map_cons, hgrows.eventName_eq]
      cases h
      simpa [checkTriggers] using heach

end ActionsWorkflow
