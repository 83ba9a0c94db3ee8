import CaseReport.Host
import CaseReport.Text.Lines

/-!
# Execution logs

A log is searched as one text without line breaks, so an identifier is found also where the log
breaks it over lines. Bytes that are no text are replaced and do no harm. A test case passes when
its identifier occurs anywhere in the log, be it inside a longer one.
-/

namespace CaseReport

/-- The text of a log that is searched. -/
structure ExecutionLog where
  text : List Char
  deriving Repr, DecidableEq

namespace ExecutionLog

open Host

/-- The log that is written down in some bytes. -/
def ofBytes (bytes : List UInt8) : ExecutionLog :=
  ⟨Text.withoutBreaks (Text.Utf8.decodeLossy bytes)⟩

/-- The size of the searched text in bytes. -/
def size (log : ExecutionLog) : Nat :=
  (Text.Utf8.encode log.text).length

/-- Whether an identifier occurs in a log. -/
def mentions (log : ExecutionLog) (identifier : String) : Bool :=
  Text.occurs identifier.toList log.text

/-- The verdict of a log on a test case. -/
def verdict (log : ExecutionLog) (identifier : String) : Status :=
  if log.mentions identifier then .pass else .fail

/-- Reads a log from its file. -/
def load (path : Path) : Action FileFault ExecutionLog := do
  let bytes ← ExceptT.adapt (fun fault => .unreadable path (.system fault))
    (query fun files => files.read path)
  return ofBytes bytes

theorem mentions_iff {log : ExecutionLog} {identifier : String} :
    log.mentions identifier = true ↔ identifier.toList <:+: log.text :=
  Text.occurs_iff

theorem verdict_ne_na (log : ExecutionLog) (identifier : String) :
    log.verdict identifier ≠ .na := by
  unfold verdict
  split <;> decide

end ExecutionLog

end CaseReport
