import ActionsWorkflow.Encoding.Workflow
import ActionsWorkflow.Proofs.Schema.Setting
import ActionsWorkflow.Proofs.Validity.Job

/-!
# Schemas of steps and jobs

The two kinds of steps differ in the fields of what they do, and the two kinds of jobs in
the fields after the first three.
-/

namespace ActionsWorkflow

open Schema (Fits conforms_record fits_optionalEntry_of)

instance : Described Step where
  schema := .oneOf
    [.record [("id", schemaOf String), ("if", schemaOf String), ("name", schemaOf String),
      ("uses", schemaOf String), ("with", schemaOf (Table Scalar)),
      ("env", schemaOf (Table Scalar)), ("continue-on-error", schemaOf Switch),
      ("timeout-minutes", schemaOf Nat)],
    .record [("id", schemaOf String), ("if", schemaOf String), ("name", schemaOf String),
      ("run", schemaOf String), ("shell", schemaOf Shell),
      ("working-directory", schemaOf String), ("env", schemaOf (Table Scalar)),
      ("continue-on-error", schemaOf Switch), ("timeout-minutes", schemaOf Nat)]]
  conforms
    | { action := .uses _ _, .. } =>
        .first (conforms_record (by decide) (by simp [StepAction.fields]))
    | { action := .run _ _ _, .. } =>
        .later (.first (conforms_record (by decide) (by simp [StepAction.fields])))

instance : Described Secrets where
  schema := .oneOf [.text, schemaOf (Table String)]
  conforms
    | .inherit => .first (.text "inherit")
    | .named secrets => .later (.first (Described.conforms secrets))

def Job.schema : Schema := .record
  [("name", schemaOf String), ("needs", schemaOf (List String)), ("if", schemaOf String),
    ("runs-on", schemaOf RunsOn), ("permissions", Permissions.schema),
    ("environment", schemaOf Environment), ("concurrency", schemaOf Concurrency),
    ("strategy", Strategy.schema), ("container", schemaOf JobContainer),
    ("services", schemaOf (Table Container)), ("outputs", schemaOf (Table String)),
    ("env", schemaOf (Table Scalar)), ("defaults", schemaOf Defaults),
    ("timeout-minutes", schemaOf Nat), ("continue-on-error", schemaOf Switch),
    ("steps", schemaOf (List Step))]

def CallJob.schema : Schema := .record
  [("name", schemaOf String), ("needs", schemaOf (List String)), ("if", schemaOf String),
    ("permissions", Permissions.schema), ("concurrency", schemaOf Concurrency),
    ("strategy", Strategy.schema), ("uses", schemaOf String),
    ("with", schemaOf (Table Scalar)), ("secrets", schemaOf Secrets)]

theorem JobSettings.fits_strategy {settings : JobSettings} (h : settings.Valid) :
    Fits (optionalEntry "strategy" settings.strategy) ("strategy", Strategy.schema) :=
  fits_optionalEntry_of _ fun strategy hstrategy => (h.strategy strategy hstrategy).conforms

theorem Job.conforms {job : Job} (hvalid : job.toJobSettings.Valid)
    (hgranted : ∀ permissions ∈ job.permissions, permissions.Granted) :
    Job.schema.Conforms (toDocument job) := by
  have hpermissions := Permissions.fits_optionalEntry hgranted
  have hstrategy := JobSettings.fits_strategy hvalid
  exact conforms_record (by decide) (by simp [JobSettings.startFields, hpermissions, hstrategy])

theorem CallJob.conforms {job : CallJob} (hvalid : job.toJobSettings.Valid)
    (hgranted : ∀ permissions ∈ job.permissions, permissions.Granted) :
    CallJob.schema.Conforms (toDocument job) := by
  have hpermissions := Permissions.fits_optionalEntry hgranted
  have hstrategy := JobSettings.fits_strategy hvalid
  exact conforms_record (by decide) (by simp [JobSettings.startFields, hpermissions, hstrategy])

def JobEntry.schema : Schema := .oneOf [Job.schema, CallJob.schema]

theorem JobEntry.conforms {entry : JobEntry} (hvalid : entry.settings.Valid)
    (hgranted : ∀ permissions ∈ entry.settings.permissions, permissions.Granted) :
    JobEntry.schema.Conforms (toDocument entry) := by
  cases entry with
  | run job => exact .first (Job.conforms hvalid hgranted)
  | call job => exact .later (.first (CallJob.conforms hvalid hgranted))

end ActionsWorkflow
