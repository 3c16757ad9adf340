import ActionsWorkflow.Proofs.Extension.Rule

/-!
# Jobs that grow

The needs, the labels of the runner and the steps of a job.
-/

namespace ActionsWorkflow

variable {path : Path}

theorem reportsPosition_needs (path : Path) : ReportsPosition path (checkNeeds path) := by
  refine reportsPosition_of_checkEach (fun _ _ => rfl) fun before need violation h => ?_
  rcases bind_eq_error_iff.1 h with hformat | ⟨-, hduplicate⟩
  · rw [path_eq_of_checkFormat hformat]
    exact .refl _
  · split at hduplicate
    · cases hduplicate
      exact .refl _
    · cases hduplicate

theorem reportsPosition_steps (path : Path) : ReportsPosition path (checkSteps path) := by
  refine reportsPosition_of_checkEach (fun steps hne => notEmpty_then_eq hne _)
    fun before step violation h => ?_
  rcases bind_eq_error_iff.1 h with hstep | ⟨-, hduplicate⟩
  · exact below_of_check hstep
  · split at hduplicate
    · cases hduplicate
    · split at hduplicate
      · cases hduplicate
        exact .key _ _
      · cases hduplicate

theorem reportsPosition_labels (path : Path) :
    ReportsPosition path fun labels => check path (RunsOn.labels labels) :=
  reportsPosition_names path

theorem Prolonged.checkNeeds_eq {needs longer : List String}
    (h : Prolonged (checkNeeds path) needs longer) :
    checkNeeds path longer = checkNeeds path needs :=
  h.verdict_eq (reportsPosition_needs path).toReportsEarliest

inductive RunsOn.Grows (path : Path) : RunsOn → RunsOn → Prop
  | labels {labels longer : List String}
      (h : Prolonged (fun labels => check path (RunsOn.labels labels)) labels longer) :
      RunsOn.Grows path (.labels labels) (.labels longer)

theorem RunsOn.Grows.check_eq {runner other : RunsOn} (h : runner.Grows path other) :
    check path other = check path runner := by
  cases h with
  | labels h => exact h.verdict_eq (reportsPosition_labels path).toReportsEarliest

inductive Job.Grows (path : Path) (job : Job) : Job → Prop
  | needs {longer : List String} (h : Prolonged (checkNeeds (path.key "needs")) job.needs longer) :
      Job.Grows path job { job with needs := longer }
  | runsOn {runner : RunsOn} (h : job.runsOn.Grows (path.key "runs-on") runner) :
      Job.Grows path job { job with runsOn := runner }
  | steps {longer : List Step} (h : Prolonged (checkSteps (path.key "steps")) job.steps longer) :
      Job.Grows path job { job with steps := longer }

theorem Job.Grows.check_eq {job other : Job} (h : job.Grows path other) :
    check path other = check path job := by
  unfold check
  cases h with
  | needs h =>
      simp only [instCheckableJob, JobSettings.checkStart, JobSettings.checkScheduling,
        h.checkNeeds_eq]
  | runsOn h =>
      simp only [instCheckableJob, JobSettings.checkStart, JobSettings.checkScheduling,
        h.check_eq]
  | steps h =>
      have hsteps := h.verdict_eq (reportsPosition_steps _).toReportsEarliest
      simp only [instCheckableJob, JobSettings.checkStart, JobSettings.checkScheduling, hsteps]

inductive CallJob.Grows (path : Path) (job : CallJob) : CallJob → Prop
  | needs {longer : List String} (h : Prolonged (checkNeeds (path.key "needs")) job.needs longer) :
      CallJob.Grows path job { job with needs := longer }

theorem CallJob.Grows.check_eq {job other : CallJob} (h : job.Grows path other) :
    check path other = check path job := by
  obtain ⟨h⟩ := h
  unfold check
  simp only [instCheckableCallJob, JobSettings.checkStart, JobSettings.checkScheduling,
    h.checkNeeds_eq]

inductive JobEntry.Grows (path : Path) : JobEntry → JobEntry → Prop
  | run {job other : Job} (h : job.Grows path other) : JobEntry.Grows path (.run job) (.run other)
  | call {job other : CallJob} (h : job.Grows path other) :
      JobEntry.Grows path (.call job) (.call other)

theorem JobEntry.Grows.check_eq {entry other : JobEntry} (h : entry.Grows path other) :
    check path other = check path entry := by
  cases h with
  | run h => exact h.check_eq
  | call h => exact h.check_eq

end ActionsWorkflow
