import ActionsWorkflow.Proofs.Location.Verdict
import ActionsWorkflow.Validity.Runner

/-!
# Violations in runners, containers and groups

A setting in its short form is the node itself, and in its long form the fields are found
under the names that they are checked at.
-/

namespace ActionsWorkflow

variable {gap : Gap} {path : Path}

theorem located_switch {value : Switch} :
    Located gap path (toDocument value) (check path value) := by
  cases value with
  | flag => exact .ok
  | expression => exact .format

theorem located_concurrency {concurrency : Concurrency} :
    Located gap path (toDocument concurrency) (check path concurrency) := by
  cases concurrency with
  | group => exact .notBlank
  | detailed name cancel =>
      change Located gap path (.record _) (_ >>= _)
      refine .bind (.field (toDocument name) (by simp) .notBlank) fun _ => ?_
      exact .optionalField (by simp) fun _ _ => located_switch

theorem located_runsOn {runner : RunsOn} :
    Located gap path (toDocument runner) (check path runner) := by
  cases runner with
  | label => exact .notBlank
  | labels => exact .names
  | group name labels =>
      change Located gap path (.record _) _
      exact .field (toDocument name) (by simp) .notBlank

theorem located_environment {environment : Environment} :
    Located gap path (toDocument environment) (check path environment) := by
  cases environment with
  | name => exact .notBlank
  | detailed name url =>
      change Located gap path (.record _) _
      exact .field (toDocument name) (by simp) .notBlank

theorem located_container {container : Container} :
    Located gap path (toDocument container) (check path container) := by
  change Located gap path (.record _) (_ >>= _)
  refine .bind (.field (toDocument container.image) (by simp) .notBlank) fun _ => ?_
  refine .bind (.optionalField (by simp) fun ports _ => ?_) fun _ => ?_
  · exact .items fun _ _ _ => .notBlank
  · refine .optionalField (by simp) fun volumes _ => ?_
    exact .items fun _ _ _ => .format

theorem located_jobContainer {container : JobContainer} :
    Located gap path (toDocument container) (check path container) := by
  cases container with
  | image => exact .notBlank
  | detailed => exact located_container

end ActionsWorkflow
