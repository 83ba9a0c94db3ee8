import CaseReport.Path
import CaseReport.Toml.Document

/-!
# Settings

Settings may give three paths, under the keys `config`, `report` and `workspace` of the table
`paths`. Instead of a table there may be a list that starts with the three paths in this order.
Other keys may be bound to anything.
-/

namespace CaseReport

/-- The paths that settings give. -/
structure Settings where
  config : Option Path := none
  report : Option Path := none
  workspace : Option Path := none
  deriving Repr, DecidableEq

namespace Settings

open Toml

/-- The path that is bound to a key, if it is bound; it must not be bound to anything else. -/
def pathAt? (entries : List (String × Value)) (key : String) : Option (Option Path) :=
  match entries.lookup key with
  | none => some none
  | some (.text path) => some (some path)
  | some _ => none

/-- The settings that the entries of a table give. -/
def ofEntries? (entries : List (String × Value)) : Option Settings := do
  return ⟨← pathAt? entries "config", ← pathAt? entries "report", ← pathAt? entries "workspace"⟩

/-- The settings that are given in place of a table. A moment counts as a table without entries
that matter. -/
def ofValue? : Value → Option Settings
  | .table _ entries => ofEntries? entries
  | .closed entries => ofEntries? entries
  | .list (.text config :: .text report :: .text workspace :: _) =>
    some ⟨some config, some report, some workspace⟩
  | .plain .moment => some {}
  | _ => none

/-- The settings that a text gives. -/
def parse? (text : List Char) : Option Settings := do
  let table ← Toml.parse? text
  match table.get? "paths" with
  | none => return {}
  | some value => ofValue? value

end Settings

end CaseReport
