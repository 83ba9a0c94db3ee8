import CaseReport.Cases.Document
import CaseReport.FileSystem.Fault
import CaseReport.Path
import CaseReport.Report
import CaseReport.Text.Quoted

/-!
# Faults of a run

Everything that can go wrong, by cause, and the message for each. A message names the file or the
identifier that is to blame.
-/

namespace CaseReport

/-- Why a file cannot be read as text. -/
inductive ReadCause where
  | system (fault : SystemFault)
  | notUtf8
  deriving Repr, DecidableEq

/-- The text of a cause. -/
def ReadCause.text : ReadCause → String
  | .system fault => fault.message
  | .notUtf8 => "stream did not contain valid UTF-8"

/-- Why a file cannot be written. -/
inductive WriteCause where
  | system (fault : SystemFault)
  /-- It is the temporary file at this place that cannot be made or filled. -/
  | temporary (place : Path) (fault : SystemFault)
  deriving Repr, DecidableEq

/-- The text of a cause. -/
def WriteCause.text : WriteCause → String
  | .system fault => fault.message
  | .temporary place fault => fault.message ++ " at path " ++ Text.quotedPath place

/-- What goes wrong with one file. -/
inductive FileFault where
  | unreadable (path : Path) (cause : ReadCause)
  | unwritable (path : Path) (cause : WriteCause)
  | malformed (line : MalformedLine)
  deriving Repr, DecidableEq

/-- The message of a file fault. -/
def FileFault.message : FileFault → String
  | .unreadable path cause => "Failed to read file '" ++ path ++ "': " ++ cause.text
  | .unwritable path cause => "Failed to write file '" ++ path ++ "': " ++ cause.text
  | .malformed line =>
    "Malformed report line " ++ toString line.number ++ ": '" ++ line.content ++ "'"

/-- Why the verdict on a test case is not recorded. -/
inductive UpdateCause where
  | noLine
  | file (fault : FileFault)
  deriving Repr, DecidableEq

/-- The text of a cause. -/
def UpdateCause.text : UpdateCause → String
  | .noLine => "no matching line in report"
  | .file fault => fault.message

/-- A test case whose verdict is not recorded. -/
structure UpdateFault where
  identifier : String
  cause : UpdateCause
  deriving Repr, DecidableEq

/-- The message of an update fault. -/
def UpdateFault.message (fault : UpdateFault) : String :=
  "Failed to update report entry '" ++ fault.identifier ++ "': " ++ fault.cause.text

/-- What ends a run. -/
inductive Fault where
  /-- Nothing says where the configuration is. -/
  | noConfigPath
  /-- Nothing says where the report goes. -/
  | noReportPath
  | configUnreadable (path : Path) (cause : ReadCause)
  | configInvalid (path : Path) (fault : CasesFault)
  | settingsInvalid
  | file (fault : FileFault)
  | update (fault : UpdateFault)
  /-- A setup case is missing from the log. -/
  | setupMissing (identifier : String)
  deriving Repr, DecidableEq

/-- How a missing path can be given. -/
def pathAdvice (option : String) : String :=
  "Pass " ++ option ++ " <PATH> or set E2E_REPORT_WORKSPACE or GOPATH"

/-- The message of a fault. -/
def Fault.message : Fault → String
  | .noConfigPath =>
    "Configuration error: No test case configuration given. " ++ pathAdvice "--config"
  | .noReportPath => "Configuration error: No report path given. " ++ pathAdvice "--report"
  | .configUnreadable path cause =>
    "Failed to read test case configuration '" ++ path ++ "': " ++ cause.text
  | .configInvalid path fault =>
    "Invalid test case configuration '" ++ path ++ "': " ++ fault.text
  | .settingsInvalid => "Invalid settings file"
  | .file fault => fault.message
  | .update fault => fault.message
  | .setupMissing identifier =>
    "Setup test case '" ++ identifier ++
      "' not found in execution log. Test cases may not have executed"

end CaseReport
