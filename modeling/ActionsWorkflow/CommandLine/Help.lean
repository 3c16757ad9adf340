import ActionsWorkflow.Storage.Location
import ActionsWorkflow.Terminal.ControlSequence
import ActionsWorkflow.Terminal.Styled

/-!
# Help and version

The help is styled text.  The name of the program and the value of the environment variable
stand in it as they are; where the help is shown without styles, control sequences in
these two go together with the styles.
-/

namespace ActionsWorkflow.CommandLine

open Terminal

def defaultProgramName : String := "ciscript"

def programName (called : Option String) : String :=
  (called.bind Storage.fileName?).getD defaultProgramName

def hangingIndent (text : String) : String :=
  text.replace "\n" ("\n" ++ String.ofList (List.replicate 25 ' '))

def optionPieces (short long rest : String) : List Piece :=
  [.plain "  ", .bold short, .plain ", ", .bold long, .plain (rest ++ "\n")]

def usagePieces (program : String) : List Piece :=
  [.heading "Usage:", .plain " ", .bold program, .plain " [OPTIONS]\n\n"]

def helpPieces (program : String) (environment : Option String) : List Piece :=
  .plain "Write a GitHub Actions workflow defined in Rust\n\n" :: usagePieces program ++
    [.heading "Options:", .plain "\n"] ++
    optionPieces "-o" "--output"
      (" <OUTPUT>  Where to write the workflow YAML [env: CISCRIPT_OUTPUT=" ++
        hangingIndent (environment.getD "") ++ "]") ++
    optionPieces "-v" "--verbose"
      "...       Enable verbose output (use -vv for debug output)" ++
    optionPieces "-h" "--help" "             Print help" ++
    optionPieces "-V" "--version" "          Print version"

def helpText (program : String) (environment : Option String) : String :=
  visibleText .ends (renderPieces (helpPieces program environment))

def helpOutput (program : String) (environment : Option String) : String :=
  visibleText .pauses (renderPieces (helpPieces program environment))

def versionText : String := "ciscript 0.1.0\n"

end ActionsWorkflow.CommandLine
