import ActionsWorkflow.Proofs.Decoding.Workflow
import ActionsWorkflow.Proofs.Schema.Job
import ActionsWorkflow.Proofs.Schema.Trigger

/-!
# The schema of workflows

A workflow that is accepted follows the schema of workflows and repeats no key, provided
that its permissions were put together scope by scope.
-/

namespace ActionsWorkflow

open Document (keys)
open Schema (Fits conforms_record fits_entry_of)

namespace Workflow

def schema : Schema := .record
  [("name", schemaOf String), ("run-name", schemaOf String), ("on", triggersSchema),
    ("permissions", Permissions.schema), ("env", schemaOf (Table Scalar)),
    ("defaults", schemaOf Defaults), ("concurrency", schemaOf Concurrency),
    ("jobs", .table JobEntry.schema)]

/-- The permissions of the workflow and of each of its jobs were granted. -/
structure PermissionsGranted (workflow : Workflow) : Prop where
  header : ∀ permissions ∈ workflow.permissions, permissions.Granted
  jobs : ∀ job ∈ workflow.jobs.entries, ∀ permissions ∈ job.2.settings.permissions,
    permissions.Granted

theorem nodup_eventNames_of_plan {workflow : Workflow} {plan : Plan}
    (h : workflow.plan = .ok plan) : (workflow.on.map Trigger.eventName).Nodup :=
  (valid_of_plan h).header.distinctEvents

theorem conforms_of_plan {workflow : Workflow} {plan : Plan} (hplan : workflow.plan = .ok plan)
    (hgranted : workflow.PermissionsGranted) : schema.Conforms (toDocument workflow) := by
  have hevents := conforms_triggers (nodup_eventNames_of_plan hplan)
  have hon : Fits ("on", some (triggersDocument workflow.on)) ("on", triggersSchema) :=
    ⟨rfl, fun _ hdocument => Option.some.inj hdocument ▸ hevents⟩
  have hpermissions := Permissions.fits_optionalEntry hgranted.header
  have hjobs : Fits (entry "jobs" workflow.jobs) ("jobs", .table JobEntry.schema) :=
    fits_entry_of _ (Schema.conforms_table fun job hjob =>
      JobEntry.conforms (valid_jobs_of_plan hplan job hjob).settings (hgranted.jobs job hjob))
  exact conforms_record (by decide) (by simp [hon, hpermissions, hjobs])

def keysAt? (name : String) (document : Document) : Option (List String) :=
  match document.field? name with
  | some (.mapping entries) => some (keys entries)
  | _ => none

theorem keysAt?_on (workflow : Workflow) :
    keysAt? "on" (toDocument workflow) = some (workflow.on.map Trigger.eventName) := by
  simp [keysAt?, Document.field?_on, triggersDocument, keys, Function.comp_def]

theorem keysAt?_jobs (workflow : Workflow) :
    keysAt? "jobs" (toDocument workflow) = some workflow.jobIds := by
  rw [keysAt?, Document.field?_jobs]
  exact congrArg some (Schema.keys_tableEntries workflow.jobs)

/-- What is written of an accepted workflow repeats no key, keeps the fields of each record
in their order, and names the events and the jobs as they were declared. -/
theorem toYaml_follows_schema {workflow : Workflow} {text : String}
    (haccepted : workflow.toYaml = .ok text) (hgranted : workflow.PermissionsGranted) :
    text = Yaml.render (toDocument workflow) ∧ (toDocument workflow).WellFormed ∧
    schema.Conforms (toDocument workflow) ∧
    keysAt? "on" (toDocument workflow) = some (workflow.on.map Trigger.eventName) ∧
    keysAt? "jobs" (toDocument workflow) = some workflow.jobIds := by
  obtain ⟨⟨plan, hplan⟩, htext⟩ := toYaml_eq_ok_iff.1 haccepted
  have hconforms := conforms_of_plan hplan hgranted
  exact ⟨htext.symm, hconforms.wellFormed, hconforms, keysAt?_on workflow,
    keysAt?_jobs workflow⟩

def testThenDeploy : Workflow where
  name := "Deploy"
  on := [.push {}, .activity .release (some ["published"]) none]
  permissions := some ((Permissions.scoped []).grant .contents .read)
  jobs := ⟨[("test", .run
      { runsOn := .label "linux"
        strategy := some
          { matrix := .axes ⟨[("os", ["a"])], List.nodup_singleton "os"⟩
              [⟨[("os", .text "b")], List.nodup_singleton "os"⟩] [] }
        steps := [{ action := .uses "o/r@v1" none }, { action := .run "make" none none }] }),
    ("deploy", .call
      { uses := "o/r/ship.yml@v1"
        needs := ["test"]
        permissions := some (Permissions.readAll.grant .pages .write
          |>.grant .contents .read |>.grant .pages .read) })], by decide⟩

theorem permissionsGranted_testThenDeploy : testThenDeploy.PermissionsGranted where
  header := by
    rintro _ ⟨⟩
    exact .grant .nothing _ _
  jobs := by
    intro job hjob permissions hpermissions
    simp only [testThenDeploy, List.mem_cons, List.not_mem_nil, or_false] at hjob
    rcases hjob with rfl | rfl
    · cases hpermissions
    · cases hpermissions
      exact .grant (.grant (.grant .readAll _ _) _ _) _ _

theorem toYaml_follows_schema_testThenDeploy :
    testThenDeploy.toYaml = .ok (Yaml.render (toDocument testThenDeploy)) ∧
    testThenDeploy.PermissionsGranted ∧ (toDocument testThenDeploy).WellFormed ∧
    schema.Conforms (toDocument testThenDeploy) ∧
    keysAt? "on" (toDocument testThenDeploy) = some ["push", "release"] ∧
    keysAt? "jobs" (toDocument testThenDeploy) = some ["test", "deploy"] := by
  have hplan : testThenDeploy.plan = .ok ⟨1, ["test", "deploy"]⟩ := rfl
  have haccepted := toYaml_eq_ok_iff.2 ⟨⟨_, hplan⟩, rfl⟩
  obtain ⟨-, hwellFormed, hconforms, hevents, hjobs⟩ :=
    toYaml_follows_schema haccepted permissionsGranted_testThenDeploy
  exact ⟨haccepted, permissionsGranted_testThenDeploy, hwellFormed, hconforms, hevents, hjobs⟩

end Workflow

end ActionsWorkflow
