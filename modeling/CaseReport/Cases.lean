import CaseReport.Text.Lines

/-!
# Expected test cases

The test cases of a configuration come in two lists. Setup cases prepare the environment, and a
missing one makes the rest of the run meaningless; end-to-end cases are judged one by one.
-/

namespace CaseReport

/-- The list that a test case comes from. -/
inductive Group where
  | setup
  | e2e
  deriving Repr, DecidableEq

/-- The name of a group. -/
def Group.name : Group → String
  | .setup => "setup"
  | .e2e => "e2e"

/-- The expected test cases, each list in the order in which it is reported. -/
structure Cases where
  setup : List String := []
  e2e : List String := []
  deriving Repr, DecidableEq

namespace Cases

/-- All identifiers with their groups, setup first. -/
def grouped (cases : Cases) : List (Group × String) :=
  cases.setup.map (Prod.mk .setup) ++ cases.e2e.map (Prod.mk .e2e)

/-- All identifiers, setup first. -/
def identifiers (cases : Cases) : List String :=
  cases.setup ++ cases.e2e

/-- How many test cases there are. -/
def size (cases : Cases) : Nat :=
  cases.setup.length + cases.e2e.length

/-- Whether there is no test case at all. -/
def isEmpty (cases : Cases) : Bool :=
  cases.size == 0

/-- The first identifier, with its group, that does not fit on one line. -/
def firstBroken? (cases : Cases) : Option (Group × String) :=
  cases.grouped.find? fun c => Text.hasBreak c.2.toList

@[simp] theorem map_snd_grouped (cases : Cases) :
    cases.grouped.map Prod.snd = cases.identifiers := by
  simp [grouped, identifiers, Function.comp_def]

@[simp] theorem length_grouped (cases : Cases) : cases.grouped.length = cases.size := by
  simp [grouped, size]

@[simp] theorem length_identifiers (cases : Cases) : cases.identifiers.length = cases.size := by
  simp [identifiers, size]

end Cases

end CaseReport
