import CaseReport.Host

/-!
# Report files

A report is kept in a file. It is replaced as a whole: the new content is prepared in a temporary
file beside the report, gets the mode of the report, and then takes its place. If a step is refused
the temporary file is taken away, and the report is what it was.
-/

namespace CaseReport.Report

open Host

/-- Reads a report from its file. -/
def load (path : Path) : Action FileFault Report := do
  let text ← ExceptT.adapt (.unreadable path) (readText path)
  match parse text with
  | .error bad => throw (.malformed bad)
  | .ok report => return report

/-- The bytes of a report. -/
def content (report : Report) : List UInt8 :=
  Text.Utf8.encode report.render

/-- Gives a temporary file its content and its mode and puts it in the place of the report. -/
def replace (path place : Path) (temporary : Location) (content : List UInt8) (mode : Nat) :
    Action WriteCause Unit := do
  ExceptT.adapt (.temporary place) (change fun files => files.setContent temporary content)
  ExceptT.adapt (.temporary place) flush
  ExceptT.adapt .system (change fun files => files.setMode temporary mode)
  ExceptT.adapt .system (change fun files => files.rename temporary path)

/-- Makes the file of a report if nothing is there. -/
def ensureFile (path : Path) : Action SystemFault Unit := do
  unless ← look fun files => files.holds path do
    change fun files => files.create path

/-- Puts a new file in the place of what is there, with the same mode. The temporary file for it is
made at the given place. -/
def swap (path place : Path) (content : List UInt8) : Action WriteCause Unit := do
  let mode ← ExceptT.adapt .system (query fun files => files.mode path)
  let temporary ← ExceptT.adapt (.temporary place)
    (request fun files => files.createTemporary path.directory)
  try replace path place temporary content mode
  catch fault =>
    adjust fun files => files.erase temporary
    throw fault

/-- Writes down some content in the place of a report, which is made first if it is not there. -/
def store (path : Path) (content : List UInt8) : Action WriteCause Unit := do
  let place ← look fun files => files.temporaryPath path.directory
  ExceptT.adapt .system (ensureFile path)
  swap path place content

/-- Writes a report to its file. -/
def write (report : Report) (path : Path) : Action FileFault Unit := do
  ExceptT.adapt (.unwritable path) (store path report.content)
  diagnose (.reportWritten path report.entries.length)

/-- Makes a directory; one that is there already will do. -/
def ensureDirectory (path : Path) : Action SystemFault Unit := do
  try change fun files => files.makeDirectory path
  catch fault =>
    unless ← look fun files => files.holdsDirectory path do throw fault

/-- Makes a directory and every directory that is missing on the way to it. -/
def makeDirectories (path : Path) : Action SystemFault Unit :=
  match _h : path.parent? with
  | none => return ()
  | some parent =>
    try change fun files => files.makeDirectory path
    catch
      | .noEntry =>
        makeDirectories parent
        ensureDirectory path
      | fault => unless ← look fun files => files.holdsDirectory path do throw fault
termination_by path.toList.length
decreasing_by exact Path.parent?_length _h

/-- Starts the report of a run, on which every expected test case is still to be judged. -/
def start (path : Path) (cases : Cases) : Action FileFault Report := do
  if let some directory := path.parentDirectory? then
    unless ← look fun files => files.holds directory do
      ExceptT.adapt (fun fault => .unwritable path (.system fault)) (makeDirectories directory)
  cases.grouped.forM fun (group, identifier) => diagnose (.caseExpected group identifier)
  let report := ofCases cases
  report.write path
  return report

/-- Changes the status of one test case in the file of a report. -/
def updateStatus (path : Path) (identifier : String) (status : Status) :
    Action UpdateFault Unit := do
  let report ← ExceptT.adapt (fun fault => ⟨identifier, .file fault⟩) (load path)
  let (matched, report) := report.assign identifier status
  if matched = 0 then throw ⟨identifier, .noLine⟩
  ExceptT.adapt (fun fault => ⟨identifier, .file fault⟩) (report.write path)

end CaseReport.Report
