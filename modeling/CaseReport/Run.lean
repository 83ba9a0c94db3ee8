import CaseReport.Locations
import CaseReport.Reconciliation

/-!
# Runs

A run loads the configuration, starts the report, reconciles it with the log, and prints a summary
of the report as it is on disk. It fails when a step before the reconciliation does, when the log
cannot be read, or when a setup case is missing from the log, and in the last case only after the
summary.
-/

namespace CaseReport

open Host Console

/-- Reads the expected test cases from a configuration. -/
def Cases.load (path : Path) : Action Fault Cases := do
  let text ← ExceptT.adapt (.configUnreadable path) (readText path)
  match parse text with
  | .error fault => throw (.configInvalid path fault)
  | .ok cases => return cases

/-- Reads settings from a file. -/
def Settings.loadFrom (path : Path) : Action Fault Settings := do
  let text ← ExceptT.adapt (fun cause => .file (.unreadable path cause)) (readText path)
  match parse? text with
  | none => throw .settingsInvalid
  | some settings => return settings

/-- Reads the settings of an environment; without a settings file nothing is set. -/
def Settings.load (env : Environment) : Action Fault Settings := do
  match env.settingsFile? with
  | none => return {}
  | some path => if ← look fun files => files.holds path then loadFrom path else return {}

namespace Run

/-- What is printed about the numbers of a report. -/
def countsLine (counts : Counts) : Line :=
  [styled .bold "Summary:", plain " ", styled .green (toString counts.pass), plain " passed, ",
    styled .red (toString counts.fail), plain " failed, ", styled .dimmed (toString counts.na),
    plain (" not run (" ++ toString counts.total ++ " total)")]

/-- What is printed about a result that could not be recorded. -/
def faultLine (fault : UpdateFault) : Line :=
  [plain "  ", styled .yellow "!", plain (" " ++ fault.message)]

/-- Prints the summary of an outcome. The numbers are those of the report file. -/
def summarize (report : Path) (outcome : Outcome) : Work Unit := do
  (outcome.results.filterMap CaseResult.fault).forM fun fault => print (faultLine fault)
  match ← (Report.load report).run with
  | .ok loaded =>
    print []
    print (countsLine loaded.counts)
  | .error fault => diagnose (.summaryUnavailable fault)
  print [plain ("Report: " ++ report)]

/-- Reads the configuration and starts the report. -/
def prepare (locations : Locations) : Action Fault Cases := do
  let cases ← Cases.load locations.config
  diagnose (.casesLoaded cases.setup.length cases.e2e.length)
  if cases.isEmpty then diagnose (.noCases locations.config)
  let _ ← ExceptT.adapt .file (Report.start locations.report cases)
  return cases

/-- Runs with the given files. -/
def withPaths (locations : Locations) (log : Path) : Action Fault Unit := do
  let cases ← prepare locations
  let outcome ← ExceptT.adapt .file (Reconciliation.reconcile cases locations.report log)
  summarize locations.report outcome
  ExceptT.mk (pure outcome.verdict)

/-- Runs with the files that the command line, the settings and the environment give. -/
def withOptions (env : Environment) (config report : Option Path) (log : Path) :
    Action Fault Unit := do
  let settings ← Settings.load env
  let locations ← liftM (Locations.resolve config report settings env.workspaceRoot?)
  diagnose (.pathsResolved locations.config locations.report)
  withPaths locations log

end Run

end CaseReport
