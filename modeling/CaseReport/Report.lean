import CaseReport.Cases
import CaseReport.Status
import CaseReport.Text.Blank

/-!
# Reports

A report has one entry for each expected test case. Written down, an entry is a line that holds
the identifier, a colon and a space, and the token of the status. A line is read at its last colon
and space, so an identifier may hold that separator itself; blank lines mean nothing.
-/

namespace CaseReport

/-- One line of a report. -/
structure Entry where
  identifier : String
  status : Status
  deriving Repr, DecidableEq

/-- A report, in the order of its lines. -/
structure Report where
  entries : List Entry := []
  deriving Repr, DecidableEq

/-- A line that is neither blank nor an entry, with its number, counted from one. -/
structure MalformedLine where
  number : Nat
  content : String
  deriving Repr, DecidableEq

/-- How many entries have each status. -/
structure Counts where
  na : Nat
  pass : Nat
  fail : Nat
  deriving Repr, DecidableEq

/-- The number of entries counted. -/
def Counts.total (counts : Counts) : Nat :=
  counts.na + counts.pass + counts.fail

namespace Entry

/-- The line of an entry, with its ending. -/
def render (entry : Entry) : List Char :=
  entry.identifier.toList ++ ':' :: ' ' :: (entry.status.token.toList ++ ['\n'])

/-- The entry that a line stands for. Blank characters around the token are ignored. -/
def ofLine? (line : List Char) : Option Entry := do
  let (identifier, token) ← Text.cutLast line
  let status ← Status.ofToken? (String.ofList (Text.trim token))
  return ⟨String.ofList identifier, status⟩

/-- The entry with another status, if it is the entry of this identifier. -/
def setStatus (identifier : String) (status : Status) (entry : Entry) : Entry :=
  if entry.identifier = identifier then { entry with status } else entry

end Entry

namespace Report

/-- The report on which every expected test case is still to be judged. -/
def ofCases (cases : Cases) : Report :=
  ⟨cases.identifiers.map fun identifier => ⟨identifier, .na⟩⟩

/-- Reads lines, of which the first has the given number. -/
def parseLines : Nat → List (List Char) → Except MalformedLine (List Entry)
  | _, [] => .ok []
  | number, line :: lines =>
    if (Text.trim line).isEmpty then parseLines (number + 1) lines
    else
      match Entry.ofLine? line with
      | none => .error ⟨number, String.ofList line⟩
      | some entry =>
        match parseLines (number + 1) lines with
        | .error bad => .error bad
        | .ok entries => .ok (entry :: entries)

/-- Reads a report; the first line that is neither blank nor an entry is refused. -/
def parse (text : List Char) : Except MalformedLine Report :=
  match parseLines 1 (Text.lines text) with
  | .error bad => .error bad
  | .ok entries => .ok ⟨entries⟩

/-- The report as it is written down. -/
def render (report : Report) : List Char :=
  report.entries.flatMap Entry.render

/-- The identifiers of a report, in the order of its lines. -/
def identifiers (report : Report) : List String :=
  report.entries.map Entry.identifier

/-- The status on the first line of an identifier. -/
def statusOf? (report : Report) (identifier : String) : Option Status :=
  (report.entries.find? fun entry => entry.identifier = identifier).map Entry.status

/-- The number of lines of an identifier. -/
def occurrences (report : Report) (identifier : String) : Nat :=
  report.entries.countP fun entry => entry.identifier = identifier

/-- Puts a status on every line of an identifier, and counts these lines. -/
def assignLines (identifier : String) (status : Status) : List Entry → Nat × List Entry
  | [] => (0, [])
  | entry :: entries =>
    let (matched, entries) := assignLines identifier status entries
    if entry.identifier = identifier then (matched + 1, { entry with status } :: entries)
    else (matched, entry :: entries)

/-- The number of lines of an identifier, and the report with this status on every one of them. -/
def assign (report : Report) (identifier : String) (status : Status) : Nat × Report :=
  let (matched, entries) := assignLines identifier status report.entries
  (matched, ⟨entries⟩)

/-- The report with this status on every line of an identifier. -/
def setStatus (report : Report) (identifier : String) (status : Status) : Report :=
  ⟨report.entries.map (Entry.setStatus identifier status)⟩

/-- The number of entries in each status. -/
def counts (report : Report) : Counts where
  na := report.entries.countP fun entry => entry.status = .na
  pass := report.entries.countP fun entry => entry.status = .pass
  fail := report.entries.countP fun entry => entry.status = .fail

@[simp] theorem render_nil : render ⟨[]⟩ = [] := rfl

@[simp] theorem render_cons (entry : Entry) (entries : List Entry) :
    render ⟨entry :: entries⟩ = entry.render ++ render ⟨entries⟩ := rfl

@[simp] theorem identifiers_ofCases (cases : Cases) :
    (ofCases cases).identifiers = cases.identifiers := by
  simp [ofCases, identifiers, Function.comp_def]

@[simp] theorem identifiers_setStatus (report : Report) (identifier : String) (status : Status) :
    (report.setStatus identifier status).identifiers = report.identifiers := by
  simp only [setStatus, identifiers, List.map_map]
  apply List.map_congr_left
  intro entry _
  simp only [Function.comp_apply, Entry.setStatus]
  split <;> rfl

theorem assignLines_eq (identifier : String) (status : Status) (entries : List Entry) :
    assignLines identifier status entries =
      (entries.countP fun entry => entry.identifier = identifier,
        entries.map (Entry.setStatus identifier status)) := by
  induction entries with
  | nil => rfl
  | cons entry entries ih =>
    rw [assignLines, ih]
    by_cases h : entry.identifier = identifier
    · simp [h, Entry.setStatus]
    · simp [h, Entry.setStatus]

/-- Counting lines and changing them in one go is counting them and changing them. -/
theorem assign_eq (report : Report) (identifier : String) (status : Status) :
    report.assign identifier status =
      (report.occurrences identifier, report.setStatus identifier status) := by
  rw [assign, assignLines_eq]
  rfl

end Report

end CaseReport
