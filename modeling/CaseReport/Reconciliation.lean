import CaseReport.ExecutionLog
import CaseReport.Report.File

/-!
# Reconciliation

A reconciliation judges the expected test cases by a log and records each verdict in the report
file. It stops at the first setup case that is missing from the log, and the verdicts after it are
never given. A verdict that cannot be recorded is given all the same.
-/

namespace CaseReport

/-- The verdict on one test case, and what went wrong in recording it. -/
structure CaseResult where
  identifier : String
  group : Group
  status : Status
  fault : Option UpdateFault
  deriving Repr, DecidableEq

/-- What a reconciliation ends in. -/
structure Outcome where
  /-- One result for each case that was judged, in order. -/
  results : List CaseResult
  /-- The setup case that is missing from the log, if that ended the reconciliation. -/
  missingSetup : Option String
  deriving Repr, DecidableEq

namespace Outcome

/-- The number of cases that passed. -/
def passed (outcome : Outcome) : Nat :=
  outcome.results.countP fun result => result.status = .pass

/-- The number of cases that failed. -/
def failed (outcome : Outcome) : Nat :=
  outcome.results.countP fun result => result.status = .fail

/-- The results that could not be recorded. -/
def unrecorded (outcome : Outcome) : List CaseResult :=
  outcome.results.filter fun result => result.fault.isSome

/-- What the outcome means for the run. -/
def verdict (outcome : Outcome) : Except Fault Unit :=
  match outcome.missingSetup with
  | some identifier => .error (.setupMissing identifier)
  | none => .ok ()

end Outcome

namespace Reconciliation

open Host Console

/-- What is printed for a judged case. -/
def verdictLine (identifier : String) : Status → Line
  | .pass => [plain "  ", styled .green "✓", plain (" Found " ++ identifier)]
  | _ => [plain "  ", styled .red "✗", plain " Not able to find ", styled .bold identifier]

/-- What is printed when a setup case is missing. -/
def abortLine : Line :=
  [plain "  ", styled .boldRed "Setup part failed. Test cases may not have executed"]

/-- Prints the heading of a group. -/
def printHeading (heading : String) : Work Unit := do
  print []
  print [styled .cyan heading]

/-- Records a status in the report file, and returns what went wrong. -/
def record (report : Path) (group : Group) (identifier : String) (status : Status) :
    Work (Option UpdateFault) := do
  match ← (Report.updateStatus report identifier status).run with
  | .ok () =>
    diagnose (.statusRecorded group identifier status)
    return none
  | .error fault =>
    diagnose (.statusLost group identifier fault)
    return some fault

/-- Judges one test case. -/
def mark (report : Path) (log : ExecutionLog) (group : Group) (identifier : String) :
    Work CaseResult := do
  let status := log.verdict identifier
  print (verdictLine identifier status)
  let fault ← record report group identifier status
  return ⟨identifier, group, status, fault⟩

/-- Judges setup cases up to the first one that is missing. -/
def markSetup (report : Path) (log : ExecutionLog) : List String → Work Outcome
  | [] => return ⟨[], none⟩
  | identifier :: identifiers => do
    let result ← mark report log .setup identifier
    if result.status = .fail then
      diagnose (.setupMissing identifier)
      print abortLine
      return ⟨[result], some identifier⟩
    else
      let outcome ← markSetup report log identifiers
      return { outcome with results := result :: outcome.results }

/-- Judges the expected test cases by a log. -/
def markAll (report : Path) (log : ExecutionLog) (cases : Cases) : Work Outcome := do
  printHeading "Setup:"
  let outcome ← markSetup report log cases.setup
  if outcome.missingSetup.isSome then return outcome
  else
    printHeading "E2E:"
    let results ← cases.e2e.mapM (mark report log .e2e)
    return { outcome with results := outcome.results ++ results }

/-- Judges the expected test cases by the log in a file. Without a log nothing is judged. -/
def reconcile (cases : Cases) (report log : Path) : Action FileFault Outcome := do
  let text ← ExecutionLog.load log
  diagnose (.logLoaded log text.size)
  markAll report text cases

end Reconciliation

end CaseReport
