import CaseReport.Arguments
import CaseReport.Diagnostic.Filter
import CaseReport.Run

/-!
# The program

The program reads its command line, runs, and ends with an exit code: zero when the run succeeds or
a text about the program is asked for, one when the run fails, and two when the command line is
refused.
-/

namespace CaseReport

/-- What the program says about a command line that it refuses. -/
def ArgumentFault.message : ArgumentFault → String
  | .missingLog => "the path of the log is missing"
  | .badValue => "a value is empty or missing"
  | .unknownWord => "an argument is not known"
  | .repeatedOption => "an option is given twice"
  | .surplusValue => "an option that takes no value has one"

namespace Program

open Host Console

/-- A line about an argument of the command line: its name in bold, and what it is. -/
def argumentLine (indentation name description : String) : Line :=
  [plain indentation, styled .bold name, plain description]

/-- A line about an option that has a letter too. -/
def optionLine (letter name description : String) : Line :=
  [plain "  ", styled .bold letter, plain ", ", styled .bold name, plain description]

/-- The text that explains the command line. -/
def helpLines : List Line := [
  [plain "Mark expected e2e test cases PASS or FAIL from an execution log"],
  [],
  [styled .heading "Usage:", plain " ", styled .bold "e2e-report", plain " [OPTIONS] <LOG>"],
  [],
  [styled .heading "Arguments:"],
  [plain "  <LOG>  Path of the test list file created during e2e execution"],
  [],
  [styled .heading "Options:"],
  argumentLine "      " "--config"
    " <PATH>  Test case configuration (JSON with \"setup\" and \"e2e\" lists)",
  argumentLine "      " "--report" " <PATH>  Report file to write",
  optionLine "-h" "--help" "           Print help",
  optionLine "-V" "--version" "        Print version"]

/-- The text that names the version; nothing in it has a style. -/
def versionLines : List Line := [[plain "e2e-report 0.1.0"]]

/-- What the program leaves behind. -/
structure Ending where
  exitCode : Nat
  output : List Char
  /-- The lines about diagnostics and faults. -/
  messages : List (List Char)
  files : FileSystem
  deriving Repr, DecidableEq

/-- The lines of the diagnostics that pass a filter. -/
def diagnosticLines (filter : Diagnostic.Filter) (diagnostics : List Diagnostic) :
    List (List Char) :=
  Text.lines ((diagnostics.filter filter.passes).flatMap fun d => d.text.toList ++ ['\n'])

/-- The lines that report the fault of a run. -/
def faultLines : Except Fault Unit → List (List Char)
  | .ok () => []
  | .error fault => Text.lines ("Error: " ++ fault.message).toList

/-- The exit code of a run. -/
def exitCode : Except Fault Unit → Nat
  | .ok () => 0
  | .error _ => 1

/-- Runs with a command line that asks for it. -/
def runWith (env : Environment) (arguments : Arguments) : Action Fault Unit :=
  Run.withOptions env arguments.config arguments.report arguments.log

/-- Executes the program. -/
def execute (env : Environment) (words : List String) (files : FileSystem) : Ending :=
  match Arguments.parse words with
  | .error fault => ⟨2, [], [("error: " ++ fault.message).toList], files⟩
  | .ok .help => ⟨0, render env.coloursHelp helpLines, [], files⟩
  | .ok .version => ⟨0, render env.coloursHelp versionLines, [], files⟩
  | .ok (.run arguments) =>
    let (result, host) := (runWith env arguments).perform { files }
    { exitCode := exitCode result
      output := render env.coloursRuns host.printed
      messages := diagnosticLines (.ofText env.filter) host.diagnosed ++ faultLines result
      files := host.files }

/-- The paths that an execution looks at. Those of the configuration and the report are known once
the settings can be read. -/
def pathsOf (env : Environment) (words : List String) (files : FileSystem) : List Path :=
  match Arguments.parse words with
  | .ok (.run arguments) =>
    let resolved := ((Settings.load env).perform { files }).1.bind fun settings =>
      Locations.resolve arguments.config arguments.report settings env.workspaceRoot?
    env.settingsFile?.toList ++ [arguments.log] ++
      match resolved with
      | .ok locations => [locations.config, locations.report]
      | .error _ => []
  | _ => []

end Program

end CaseReport
