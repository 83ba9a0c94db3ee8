import CaseReport.Fault
import CaseReport.Text.Quoted

/-!
# Diagnostics

Beside its output, a run tells what it is doing. A diagnostic has a level and a target, the part of
the program that it is about. Its text has a message and fields; an identifier that is told in
passing is quoted, and everything else is written as it is.
-/

namespace CaseReport

/-- How serious a diagnostic is. -/
inductive Level where
  | error
  | warn
  | info
  | debug
  | trace
  deriving Repr, DecidableEq

namespace Level

/-- The place of a level, from the most serious to the least. -/
def rank : Level → Nat
  | .error => 1
  | .warn => 2
  | .info => 3
  | .debug => 4
  | .trace => 5

/-- The name of a level. -/
def name : Level → String
  | .error => "ERROR"
  | .warn => "WARN"
  | .info => "INFO"
  | .debug => "DEBUG"
  | .trace => "TRACE"

end Level

/-- One thing that a run tells. -/
inductive Diagnostic where
  | pathsResolved (config report : Path)
  | casesLoaded (setup e2e : Nat)
  | noCases (config : Path)
  | summaryUnavailable (fault : FileFault)
  | caseExpected (group : Group) (identifier : String)
  | reportWritten (path : Path) (entries : Nat)
  /-- The size is that of the searched text, in bytes. -/
  | logLoaded (path : Path) (size : Nat)
  | statusRecorded (group : Group) (identifier : String) (status : Status)
  | statusLost (group : Group) (identifier : String) (fault : UpdateFault)
  | setupMissing (identifier : String)
  deriving Repr, DecidableEq

namespace Diagnostic

/-- How serious a diagnostic is. -/
def level : Diagnostic → Level
  | .setupMissing _ => .error
  | .noCases _ => .warn
  | .summaryUnavailable _ => .warn
  | .statusLost .. => .warn
  | .casesLoaded .. => .info
  | .pathsResolved .. => .debug
  | .caseExpected .. => .debug
  | .reportWritten .. => .debug
  | .logLoaded .. => .debug
  | .statusRecorded .. => .debug

/-- The part of the program that a diagnostic is about. -/
def target : Diagnostic → String
  | .pathsResolved .. => "e2e_report::cli"
  | .casesLoaded .. => "e2e_report::cli"
  | .noCases _ => "e2e_report::cli"
  | .summaryUnavailable _ => "e2e_report::cli"
  | .caseExpected .. => "e2e_report::reconcile::report"
  | .reportWritten .. => "e2e_report::reconcile::report"
  | .logLoaded .. => "e2e_report::reconcile::runner"
  | .statusRecorded .. => "e2e_report::reconcile::runner"
  | .statusLost .. => "e2e_report::reconcile::runner"
  | .setupMissing _ => "e2e_report::reconcile::runner"

/-- The message of a diagnostic. -/
def message : Diagnostic → String
  | .pathsResolved .. => "Resolved paths"
  | .casesLoaded .. => "Loaded test cases"
  | .noCases _ => "No test cases listed"
  | .summaryUnavailable _ => "Could not read back report"
  | .caseExpected .. => "Expecting test case"
  | .reportWritten .. => "Report written"
  | .logLoaded .. => "Loaded execution log"
  | .statusRecorded .. => "Report updated"
  | .statusLost .. => "Report update failed"
  | .setupMissing _ => "Setup test case missing from execution log"

/-- The fields of a diagnostic, with their values as they are written. -/
def fields : Diagnostic → List (String × String)
  | .pathsResolved config report => [("config", config), ("report", report)]
  | .casesLoaded setup e2e => [("setup", toString setup), ("e2e", toString e2e)]
  | .noCases config => [("config", config)]
  | .summaryUnavailable fault => [("error", fault.message)]
  | .caseExpected group identifier =>
    [("group", group.name), ("identifier", Text.quoted identifier)]
  | .reportWritten path entries => [("path", path), ("entries", toString entries)]
  | .logLoaded path size => [("log", path), ("bytes", toString size)]
  | .statusRecorded group identifier status =>
    [("group", group.name), ("identifier", Text.quoted identifier), ("status", status.token)]
  | .statusLost group identifier fault =>
    [("group", group.name), ("identifier", Text.quoted identifier), ("error", fault.message)]
  | .setupMissing identifier => [("identifier", identifier)]

/-- The names of what a diagnostic tells. The message is one of its fields. -/
def fieldNames (diagnostic : Diagnostic) : List String :=
  "message" :: diagnostic.fields.map Prod.fst

/-- The text of a diagnostic. -/
def text (diagnostic : Diagnostic) : String :=
  diagnostic.level.name ++ " " ++ diagnostic.target ++ ": " ++ diagnostic.message ++
    String.join (diagnostic.fields.map fun field => " " ++ field.1 ++ "=" ++ field.2)

end Diagnostic

end CaseReport
