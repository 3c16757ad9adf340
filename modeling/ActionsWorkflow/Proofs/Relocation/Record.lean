import ActionsWorkflow.Proofs.Relocation.Rule
import ActionsWorkflow.Validity.Matrix
import ActionsWorkflow.Validity.Runner
import ActionsWorkflow.Validity.Trigger

/-!
# Settings and triggers at other places

Runners, containers, matrices and triggers are checked in the same way wherever they stand.
-/

namespace ActionsWorkflow

variable (path outer : Path)

instance : Relocatable Switch where
  check_within path outer value := by
    cases value with
    | flag => rfl
    | expression text => exact checkFormat_within path outer .expression text

instance : Relocatable Concurrency where
  check_within path outer concurrency := by
    cases concurrency with
    | group name => exact checkNotBlank_within path outer name
    | detailed name cancel =>
        unfold check
        simp only [instCheckableConcurrency, mapError_bind, ← Path.key_within,
          checkNotBlank_within, check_within]

instance : Relocatable RunsOn where
  check_within path outer runner := by
    unfold check
    cases runner <;>
      simp only [instCheckableRunsOn, ← Path.key_within, checkNotBlank_within,
        checkNames_within]

instance : Relocatable Environment where
  check_within path outer environment := by
    unfold check
    cases environment <;>
      simp only [instCheckableEnvironment, ← Path.key_within, checkNotBlank_within]

instance : Relocatable Container where
  check_within path outer container := by
    unfold check
    simp only [instCheckableContainer, mapError_bind, ← Path.key_within, checkNotBlank_within,
      checkFormat_within, checkItems_within, checkOptional_within, implies_true]

instance : Relocatable JobContainer where
  check_within path outer container := by
    cases container with
    | image name => exact checkNotBlank_within path outer name
    | detailed container => exact check_within path outer container

theorem Matrix.checkAxis_within (axis : String × List String) :
    Matrix.checkAxis (path.within outer) axis =
      (Matrix.checkAxis path axis).mapError (·.within outer) := by
  simp only [Matrix.checkAxis, mapError_bind, mapError_ite, ← Path.key_within, violate_within,
    checkNotBlank_within, checkNotEmpty_within]

theorem Matrix.checkExcluded_within (axes : Table (List String)) (row : MatrixRow) :
    Matrix.checkExcluded axes (path.within outer) row =
      (Matrix.checkExcluded axes path row).mapError (·.within outer) := by
  refine checkEach_within outer fun _ key => ?_
  simp only [mapError_ite, mapError_ok, ← Path.key_within, violate_within]

instance : Relocatable Matrix where
  check_within path outer matrix := by
    cases matrix with
    | expression text => exact checkFormat_within path outer .expression text
    | axes axes included excluded =>
        have haxes : checkEach (fun _ axis => Matrix.checkAxis (path.within outer) axis) []
              axes.entries =
            (checkEach (fun _ axis => Matrix.checkAxis path axis) []
              axes.entries).mapError (·.within outer) :=
          checkEach_within outer fun _ axis => Matrix.checkAxis_within path outer axis
        unfold check
        simp only [instCheckableMatrix, mapError_bind, mapError_ite, violate_within, haxes,
          ← Path.key_within, checkItems_within, Matrix.checkExcluded_within, implies_true]

instance : Relocatable Strategy where
  check_within path outer strategy := by
    unfold check
    simp only [instCheckableStrategy, mapError_bind, ← Path.key_within, check_within,
      checkOptional_within, checkAtLeast_within, implies_true]

theorem NameFilter.check_within (name : String) (filter : NameFilter) :
    filter.check name (path.within outer) =
      (filter.check name path).mapError (·.within outer) := by
  simp only [NameFilter.check, mapError_bind, ← Path.key_within, checkExclusive_within,
    checkOptional_within, checkNames_within, implies_true]

instance : Relocatable PushFilters where
  check_within path outer filters := by
    unfold check
    simp only [instCheckablePushFilters, mapError_bind, NameFilter.check_within]

instance : Relocatable PullRequestFilters where
  check_within path outer filters := by
    unfold check
    simp only [instCheckablePullRequestFilters, mapError_bind, ← Path.key_within,
      checkOptional_within, checkNotEmpty_within, NameFilter.check_within, implies_true]

instance : Relocatable Input where
  check_within path outer input := by
    obtain ⟨description, required, default, type, options⟩ := input
    unfold check
    simp only [instCheckableInput, mapError_bind, ← Path.key_within, checkNotBlank_within]
    congr 1
    funext
    rcases type with _ | _ | _ | _ | _ | _
    case some.choice =>
      cases options with
      | none => rfl
      | some options => exact checkNames_within (path.key "options") outer options
    all_goals cases options <;> rfl

theorem checkInputs_within (inputs : Table Input) :
    checkInputs (path.within outer) inputs =
      (checkInputs path inputs).mapError (·.within outer) := by
  refine checkEach_within outer fun _ entry => ?_
  simp only [checkInput, mapError_bind, ← Path.key_within, checkNotBlank_within,
    Relocatable.check_within]

theorem checkSecretNames_within (secrets : Table SecretSpec) :
    checkSecretNames (path.within outer) secrets =
      (checkSecretNames path secrets).mapError (·.within outer) :=
  checkEach_within outer fun _ name => checkNotBlank_within path outer name

theorem checkWatched_within (event : Event) (workflows : Option (List String)) :
    checkWatched (path.within outer) event workflows =
      (checkWatched path event workflows).mapError (·.within outer) := by
  by_cases hevent : event = .workflowRun
  · subst hevent
    cases workflows with
    | none => rfl
    | some names => exact checkNames_within path outer names
  · cases workflows <;> simp only [checkWatched, mapError_ok, violate_within]

instance : Relocatable Trigger where
  check_within path outer trigger := by
    cases trigger with
    | push filters => exact check_within path outer filters
    | pullRequest filters => exact check_within path outer filters
    | pullRequestTarget filters => exact check_within path outer filters
    | manual inputs =>
        unfold check
        simp only [instCheckableTrigger, ← Path.key_within, checkOptional_within,
          checkInputs_within, implies_true]
    | schedule crons =>
        unfold check
        simp only [instCheckableTrigger, mapError_bind, ← Path.key_within,
          checkNotEmpty_within, checkItems_within, checkFormat_within, implies_true]
    | workflowCall inputs secrets =>
        unfold check
        simp only [instCheckableTrigger, mapError_bind, ← Path.key_within,
          checkOptional_within, checkInputs_within, checkSecretNames_within, implies_true]
    | activity event types workflows =>
        unfold check
        simp only [instCheckableTrigger, mapError_bind, ← Path.key_within,
          checkOptional_within, checkNames_within, checkWatched_within, implies_true]

theorem checkTriggers_within (triggers : List Trigger) :
    checkTriggers (path.within outer) triggers =
      (checkTriggers path triggers).mapError (·.within outer) := by
  have heach : checkEach (checkTrigger (path.within outer)) [] triggers =
      (checkEach (checkTrigger path) [] triggers).mapError (·.within outer) := by
    refine checkEach_within outer fun before trigger => ?_
    simp only [checkTrigger, mapError_bind, mapError_ite, violate_within, ← Path.key_within,
      Relocatable.check_within]
  simp only [checkTriggers, mapError_bind, mapError_ite, violate_within, heach]

end ActionsWorkflow
