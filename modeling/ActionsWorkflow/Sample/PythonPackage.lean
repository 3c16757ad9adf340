import ActionsWorkflow.CommandLine.Run
import ActionsWorkflow.Draft.Workflow

/-!
# A Python package

Lint and test a package on each release of the language it supports, then publish it and
tag a release once both have passed.
-/

namespace ActionsWorkflow.Sample

def pythonVersions : List String :=
  [7, 8, 9, 10, 11].map fun (minor : Nat) => "3." ++ toString minor

def pythonStrategy : Strategy :=
  { matrix := Matrix.empty.addAxis "python-version" pythonVersions }

def pythonSetup : List Step :=
  [.uses "actions/checkout@v4",
    ((Step.uses "actions/setup-python@v5").setName "Set up Python").setInput
      "python-version" (.text "$\x7b\x7b matrix.python-version \x7d\x7d"),
    (Step.uses "snok/install-poetry@v1").setName "Install and configure Poetry",
    (Step.run "make init").setName "Setup project"]

def pythonJob (name : String) (edits : List JobEdit) : JobSpec :=
  .job (.ofEdits
    (.settings (.name name) :: .runsOn (.label "ubuntu-latest") ::
      .settings (.strategy pythonStrategy) :: .steps pythonSetup :: edits))

def releaseScript : String :=
  "PACKAGE_VERSION=$(poetry version -s)\n" ++
  "        echo \"package_version=$PACKAGE_VERSION\" >> $GITHUB_ENV\n" ++
  "        printf \"\\nSee this release on GitHub: [v$PACKAGE_VERSION]" ++
  "(https://github.com/$GITHUB_REPOSITORY/releases/tag/$PACKAGE_VERSION)\\n\"" ++
  " >> README.md\n" ++
  "        poetry config pypi-token.pypi \"$\x7b\x7b secrets.PYPI_TOKEN \x7d\x7d\"\n" ++
  "        poetry publish --build\n        "

def releaseSteps : List Step :=
  [((Step.run releaseScript).setName "PyPi release").setId "pypi",
    (((((Step.uses "ncipollo/release-action@v1").setName "GitHub release").setCondition
      "steps.pypi.outcome == 'success'").setInput
        "token" (.text "$\x7b\x7b secrets.GITHUB_TOKEN \x7d\x7d")).setInput
        "tag" (.text "$\x7b\x7b env.package_version \x7d\x7d")).setInput
        "generateReleaseNotes" (.flag true)]

def pythonPackage : WorkflowDraft :=
  .ofEdits "CI/CD"
    [.on (.pullRequest {}), .on (.push { branches := { included := some ["main"] } }),
      .defaults (.ofShell .bash),
      .job "lint"
        (pythonJob "Run Linters" [.steps [(Step.run "make lint").setName "Lint"]]),
      .job "test" (pythonJob "Run Tests" [.steps [(Step.run "make test").setName "Test"]]),
      .job "pypi" (pythonJob "🚀 PyPi Release 📦"
        [.settings (.needs ["test", "lint"]), .steps releaseSteps])]

def pythonPackageProgram : CommandLine.Program :=
  ⟨"python_package", "python-package.yml", pythonPackage.finish⟩

end ActionsWorkflow.Sample
