import ActionsWorkflow.Proofs.Validity.Rule
import ActionsWorkflow.Validity.Trigger
import Mathlib.Tactic.MkIffOfInductiveProp

/-!
# Which triggers are accepted

The triggers of a workflow are for distinct events, and each is valid on its own.
-/

namespace ActionsWorkflow

@[mk_iff]
structure NameFilter.Valid (filter : NameFilter) : Prop where
  oneSided : filter.included = none ∨ filter.ignored = none
  included : ∀ names ∈ filter.included, ValidNames names
  ignored : ∀ names ∈ filter.ignored, ValidNames names

theorem NameFilter.check_eq_ok_iff {name : String} {path : Path} {filter : NameFilter} :
    filter.check name path = .ok () ↔ filter.Valid := by
  simp only [NameFilter.check, NameFilter.valid_iff, bind_eq_ok_iff,
    checkExclusive_eq_ok_iff, checkOptional_eq_ok_iff, checkNames_eq_ok_iff]

@[mk_iff]
structure PushFilters.Valid (filters : PushFilters) : Prop where
  branches : filters.branches.Valid
  tags : filters.tags.Valid
  paths : filters.paths.Valid

theorem check_pushFilters_eq_ok_iff {path : Path} {filters : PushFilters} :
    check path filters = .ok () ↔ filters.Valid := by
  rw [check, PushFilters.valid_iff]
  simp only [instCheckablePushFilters, bind_eq_ok_iff, NameFilter.check_eq_ok_iff]

@[mk_iff]
structure PullRequestFilters.Valid (filters : PullRequestFilters) : Prop where
  types : ∀ types ∈ filters.types, types ≠ []
  branches : filters.branches.Valid
  paths : filters.paths.Valid

theorem check_pullRequestFilters_eq_ok_iff {path : Path} {filters : PullRequestFilters} :
    check path filters = .ok () ↔ filters.Valid := by
  rw [check, PullRequestFilters.valid_iff]
  simp only [instCheckablePullRequestFilters, bind_eq_ok_iff, checkOptional_eq_ok_iff,
    checkNotEmpty_eq_ok_iff, NameFilter.check_eq_ok_iff]

@[mk_iff]
structure Input.Valid (input : Input) : Prop where
  description : ¬ Blank input.description
  choice : input.options.isSome = true ↔ input.type = some .choice
  options : ∀ options ∈ input.options, ValidNames options

theorem check_input_eq_ok_iff {path : Path} {input : Input} :
    check path input = .ok () ↔ input.Valid := by
  obtain ⟨description, required, default, type, options⟩ := input
  rw [check, Input.valid_iff]
  simp only [instCheckableInput, bind_eq_ok_iff, checkNotBlank_eq_ok_iff]
  cases options with
  | none => rcases type with _ | _ | _ | _ | _ | _ <;> simp [violate]
  | some options =>
      rcases type with _ | _ | _ | _ | _ | _ <;> simp [violate, checkNames_eq_ok_iff]

def ValidInputs (inputs : Table Input) : Prop :=
  ∀ entry ∈ inputs.entries, ¬ Blank entry.1 ∧ entry.2.Valid

theorem checkInputs_eq_ok_iff {path : Path} {inputs : Table Input} :
    checkInputs path inputs = .ok () ↔ ValidInputs inputs := by
  apply checkEach_eq_ok_iff
  intro _ entry
  rw [checkInput, bind_eq_ok_iff, checkNotBlank_eq_ok_iff, check_input_eq_ok_iff]

theorem checkSecretNames_eq_ok_iff {path : Path} {secrets : Table SecretSpec} :
    checkSecretNames path secrets = .ok () ↔ ∀ name ∈ secrets.keys, ¬ Blank name :=
  checkEach_eq_ok_iff (fun _ => checkNotBlank path) fun _ _ => checkNotBlank_eq_ok_iff

theorem checkWatched_eq_ok_iff {path : Path} {event : Event}
    {workflows : Option (List String)} :
    checkWatched path event workflows = .ok () ↔
      (workflows.isSome = true ↔ event = .workflowRun) ∧
        ∀ names ∈ workflows, ValidNames names := by
  by_cases h : event = .workflowRun
  · subst h
    cases workflows <;> simp [checkWatched, violate, checkNames_eq_ok_iff]
  · cases workflows <;> simp [checkWatched, violate, h]

def Trigger.Valid : Trigger → Prop
  | .push filters => filters.Valid
  | .pullRequest filters => filters.Valid
  | .pullRequestTarget filters => filters.Valid
  | .manual inputs => ∀ table ∈ inputs, ValidInputs table
  | .schedule crons => crons ≠ [] ∧ ∀ cron ∈ crons, Format.schedule.accepts cron = true
  | .workflowCall inputs secrets =>
      (∀ table ∈ inputs, ValidInputs table) ∧
        ∀ table ∈ secrets, ∀ name ∈ table.keys, ¬ Blank name
  | .activity event types workflows =>
      (∀ names ∈ types, ValidNames names) ∧
        (workflows.isSome = true ↔ event = .workflowRun) ∧
        ∀ names ∈ workflows, ValidNames names

theorem check_trigger_eq_ok_iff {path : Path} {trigger : Trigger} :
    check path trigger = .ok () ↔ trigger.Valid := by
  cases trigger with
  | push => exact check_pushFilters_eq_ok_iff
  | pullRequest => exact check_pullRequestFilters_eq_ok_iff
  | pullRequestTarget => exact check_pullRequestFilters_eq_ok_iff
  | manual inputs =>
      rw [check]
      simp only [instCheckableTrigger, Trigger.Valid, checkOptional_eq_ok_iff,
        checkInputs_eq_ok_iff]
  | schedule crons =>
      rw [check]
      simp only [instCheckableTrigger, Trigger.Valid, bind_eq_ok_iff, checkNotEmpty_eq_ok_iff,
        checkItems_eq_ok_iff (fun path => checkFormat .schedule (path.key "cron"))
          fun _ _ => checkFormat_eq_ok_iff]
  | workflowCall inputs secrets =>
      rw [check]
      simp only [instCheckableTrigger, Trigger.Valid, bind_eq_ok_iff, checkOptional_eq_ok_iff,
        checkInputs_eq_ok_iff, checkSecretNames_eq_ok_iff]
  | activity event types workflows =>
      rw [check]
      simp only [instCheckableTrigger, Trigger.Valid, bind_eq_ok_iff, checkOptional_eq_ok_iff,
        checkNames_eq_ok_iff, checkWatched_eq_ok_iff]

theorem checkTrigger_eq_ok_iff {path : Path} {before : List Trigger} {trigger : Trigger} :
    checkTrigger path before trigger = .ok () ↔
      trigger.Valid ∧ trigger.eventName ∉ before.map Trigger.eventName := by
  simp only [checkTrigger, refuse_then_eq_bind, bind_eq_ok_iff, ite_violate_eq_ok_iff,
    List.contains_iff_mem, check_trigger_eq_ok_iff, and_comm]

theorem checkTriggers_eq_ok_iff {path : Path} {triggers : List Trigger} :
    checkTriggers path triggers = .ok () ↔
      triggers ≠ [] ∧ (triggers.map Trigger.eventName).Nodup ∧
        ∀ trigger ∈ triggers, trigger.Valid := by
  have hrule (before : List Trigger) (trigger : Trigger) :
      checkTrigger path before trigger = .ok () ↔ trigger.Valid ∧
        ∀ name ∈ some trigger.eventName,
          name ∉ before.filterMap fun trigger => some trigger.eventName := by
    simp [checkTrigger_eq_ok_iff]
  simp only [checkTriggers, refuse_then_eq_bind, bind_eq_ok_iff, ite_violate_eq_ok_iff,
    List.isEmpty_iff, checkEach_distinct_eq_ok_iff _ hrule]
  simp [and_comm]

end ActionsWorkflow
