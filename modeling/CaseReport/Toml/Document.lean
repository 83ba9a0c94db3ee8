import CaseReport.Toml.Value

/-!
# Documents

A document is a sequence of lines. A line is empty, binds a key, or is a header that starts the
section of a table; comments may end every line. The pairs before the first header belong to the
table of the document itself.
-/

namespace CaseReport.Toml

/-- What a line says. -/
inductive Statement where
  | pair (keys : List String) (value : Value)
  /-- The header of a table. -/
  | header (keys : List String)
  /-- The header of one table of an array. -/
  | arrayHeader (keys : List String)
  deriving Repr

/-- Reads the rest of a header whose opening brackets have been read. -/
def readHeader : List Char → Option (Statement × List Char)
  | '[' :: s => do
    match ← readKey s with
    | (keys, ']' :: ']' :: s) => return (.arrayHeader keys, s)
    | _ => none
  | s => do
    match ← readKey s with
    | (keys, ']' :: s) => return (.header keys, s)
    | _ => none

/-- Reads what a line says, if it is not empty. -/
def readStatement : List Char → Option (Statement × List Char)
  | '[' :: s => readHeader s
  | s => (readPair (readValue maxDepth) s).map fun ((keys, value), rest) => (.pair keys value, rest)

/-- Reads all lines of a document. -/
def readStatements (s : List Char) : Option (List Statement) :=
  match skipFiller s with
  | [] => some []
  | s' =>
    match readStatement s' with
    | none => none
    | some (statement, rest) =>
      match endLine rest with
      | none => none
      | some rest =>
        if rest.length < s.length then (readStatements rest).map fun l => statement :: l else none
termination_by s.length

/-- The pairs up to the first header, and the statements from there on. -/
def leadingPairs : List Statement → List (List String × Value) × List Statement
  | .pair keys value :: statements =>
    let (pairs, rest) := leadingPairs statements
    ((keys, value) :: pairs, rest)
  | statements => ([], statements)

theorem leadingPairs_length (statements : List Statement) :
    (leadingPairs statements).2.length ≤ statements.length := by
  fun_induction leadingPairs statements with
  | case1 keys value statements pairs rest h ih =>
    rw [h] at ih
    exact Nat.le_succ_of_le ih
  | case2 => exact Nat.le_refl _

/-- Adds sections to the table of a document. -/
def addSections (table : Table) : List Statement → Option Table
  | [] => some table
  | .pair .. :: _ => none
  | .header keys :: statements => do
    have := leadingPairs_length statements
    addSections (← table.addTable keys (leadingPairs statements).1) (leadingPairs statements).2
  | .arrayHeader keys :: statements => do
    have := leadingPairs_length statements
    addSections (← table.addToTables keys (leadingPairs statements).1) (leadingPairs statements).2
termination_by statements => statements.length

/-- The table that statements define. -/
def tableOf? (statements : List Statement) : Option Table := do
  addSections (← Table.addPairs (leadingPairs statements).1 (.empty .defined))
    (leadingPairs statements).2

/-- The character that may mark the start of a text. -/
def byteOrderMark : Char := '\uFEFF'

/-- A text without the mark at its start. -/
def withoutMark : List Char → List Char
  | c :: s => if c = byteOrderMark then s else c :: s
  | [] => []

/-- The table that a document denotes. -/
def parse? (text : List Char) : Option Table := do
  tableOf? (← readStatements (withoutMark text))

end CaseReport.Toml
