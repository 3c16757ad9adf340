import ActionsWorkflow.CommandLine.Run
import ActionsWorkflow.Draft.Workflow

/-!
# The project's own checks

Format, lint and test on every push to the main branch and on every pull request.
-/

namespace ActionsWorkflow.Sample

def checkoutStep : Step := .uses "actions/checkout@v4"

def stableToolchain (component : String) : Step :=
  (Step.uses "dtolnay/rust-toolchain@stable").setInput "components" (.text component)

def ubuntuJob (name : String) (edits : List JobEdit) : JobSpec :=
  .job (.ofEdits (.settings (.name name) :: .runsOn (.label "ubuntu-latest") :: edits))

def formatJob : JobSpec :=
  ubuntuJob "Format" [.steps [checkoutStep, stableToolchain "rustfmt",
    .run "cargo fmt --all -- --check"]]

def lintJob : JobSpec :=
  ubuntuJob "Clippy" [.steps [checkoutStep, stableToolchain "clippy",
    .uses "Swatinem/rust-cache@v2", .run "cargo clippy --all-targets -- -D warnings"]]

def testMatrix : Matrix :=
  (Matrix.empty.addAxis "os" ["ubuntu-latest", "macos-latest"]).addAxis
    "toolchain" ["1.85", "stable"]

def testSteps : List Step :=
  [checkoutStep,
    (Step.uses "dtolnay/rust-toolchain@master").setInput "toolchain"
      (.text "$\x7b\x7b matrix.toolchain \x7d\x7d"),
    .uses "Swatinem/rust-cache@v2",
    (Step.run "cargo test --all-targets").setName "Run tests"]

def testJob : JobSpec :=
  .job (.ofEdits
    [.settings
        (.name "Test ($\x7b\x7b matrix.os \x7d\x7d, $\x7b\x7b matrix.toolchain \x7d\x7d)"),
      .settings (.needs ["fmt"]), .runsOn (.label "$\x7b\x7b matrix.os \x7d\x7d"),
      .settings (.strategy { matrix := testMatrix, failFast := some false }),
      .steps testSteps])

def continuousIntegration : WorkflowDraft :=
  .ofEdits "CI"
    [.on (.push { branches := { included := some ["main"] } }), .on (.pullRequest {}),
      .permissions ((Permissions.scoped []).grant .contents .read),
      .concurrency ((Concurrency.group
        "$\x7b\x7b github.workflow \x7d\x7d-$\x7b\x7b github.ref \x7d\x7d").cancelling
          (.flag true)),
      .env "CARGO_TERM_COLOR" (.text "always"),
      .job "fmt" formatJob, .job "clippy" lintJob, .job "test" testJob]

def continuousIntegrationProgram : CommandLine.Program :=
  ⟨"ciscript", ".github/workflows/ci.yml", continuousIntegration.finish⟩

end ActionsWorkflow.Sample
