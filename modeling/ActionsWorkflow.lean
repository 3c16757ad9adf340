import ActionsWorkflow.Main
import ActionsWorkflow.Proofs.Decoding.Workflow
import ActionsWorkflow.Proofs.Dependency.Cycle
import ActionsWorkflow.Proofs.Document.Names
import ActionsWorkflow.Proofs.Draft.Secrets
import ActionsWorkflow.Proofs.Draft.Workflow
import ActionsWorkflow.Proofs.Export.File
import ActionsWorkflow.Proofs.Export.Plan
import ActionsWorkflow.Proofs.Extension.Workflow
import ActionsWorkflow.Proofs.Location.Workflow
import ActionsWorkflow.Proofs.Permissions.History
import ActionsWorkflow.Proofs.Relocation.Path
import ActionsWorkflow.Proofs.Relocation.Workflow
import ActionsWorkflow.Proofs.Schema.Workflow
import ActionsWorkflow.Proofs.Table.History
import ActionsWorkflow.Proofs.Text.Continuation
import ActionsWorkflow.Proofs.Text.Format
import ActionsWorkflow.Proofs.Text.Rescan
import ActionsWorkflow.Proofs.Text.Schedule
import ActionsWorkflow.Proofs.Yaml.Layout
import ActionsWorkflow.Sample.PythonPackage
