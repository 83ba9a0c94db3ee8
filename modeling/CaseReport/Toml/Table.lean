import CaseReport.Toml.Plain

/-!
# Tables

A document denotes a table. Tables inside it come about in three ways: a header or braces define
one, a longer header implies one, and a path of keys makes one on the way. A table is defined at
most once, so a header may still define a table that is only implied, and a path may only go on
through tables that are not yet defined. Of an array of tables it is always the last that is
extended.
-/

namespace CaseReport.Toml

/-- How a table came about. -/
inductive Making where
  /-- A header or braces define it. -/
  | defined
  /-- The header of a table inside it implies it. -/
  | implied
  /-- A path of keys makes it. -/
  | onPath
  deriving Repr, DecidableEq

/-- What a key is bound to. -/
inductive Value where
  | text (text : String)
  | plain (plain : Plain)
  | list (items : List Value)
  /-- A table in braces. It cannot be extended. -/
  | closed (entries : List (String × Value))
  | table (making : Making) (entries : List (String × Value))
  /-- The tables of headers in double brackets, the last one first. -/
  | tables (items : List (List (String × Value)))
  deriving Repr

/-- A table and how it came about. -/
structure Table where
  making : Making
  entries : List (String × Value)
  deriving Repr

namespace Table

/-- A table without entries. -/
def empty (making : Making) : Table := ⟨making, []⟩

/-- What a key is bound to. -/
def get? (table : Table) (key : String) : Option Value :=
  table.entries.lookup key

/-- Binds a key, in place of what it was bound to. -/
def set (table : Table) (key : String) (value : Value) : Table :=
  { table with entries := (key, value) :: table.entries.filter fun entry => entry.1 != key }

/-- A table as a value. -/
def toValue (table : Table) : Value := .table table.making table.entries

/-- How a way through tables is given. -/
inductive Way where
  | header
  | path
  deriving Repr, DecidableEq

/-- How a table comes about that is missing on a way. -/
def Way.making : Way → Making
  | .header => .implied
  | .path => .onPath

/-- Whether a way may lead through a table. -/
def Way.enters : Way → Making → Bool
  | .header, _ => true
  | .path, making => making != .defined

/-- Changes the table at the end of a way. Tables that are missing on the way are made. -/
def alter (way : Way) (change : Table → Option Table) : List String → Table → Option Table
  | [], table => change table
  | key :: keys, table =>
    match table.get? key with
    | none => do
      let inner ← alter way change keys (empty way.making)
      return table.set key inner.toValue
    | some (.table making entries) =>
      if way.enters making then do
        let inner ← alter way change keys ⟨making, entries⟩
        return table.set key inner.toValue
      else none
    | some (.tables (last :: earlier)) => do
      let inner ← alter way change keys ⟨.defined, last⟩
      return table.set key (.tables (inner.entries :: earlier))
    | some _ => none

/-- Binds a key that is not bound yet. -/
def bind (key : String) (value : Value) (table : Table) : Option Table :=
  match table.get? key with
  | none => some (table.set key value)
  | some _ => none

/-- Adds what a line or a pair in braces binds: the last key of a path is bound in the table of the
others. That table has to be made by paths, and if there are no other keys the table is not one
that is made by paths. -/
def addPair (keys : List String) (value : Value) (table : Table) : Option Table := do
  let key ← keys.getLast?
  alter .path (fun inner =>
    if decide (inner.making = .onPath) = keys.dropLast.isEmpty then none
    else inner.bind key value) keys.dropLast table

/-- Adds pairs one after the other. -/
def addPairs (pairs : List (List String × Value)) (table : Table) : Option Table :=
  pairs.foldlM (fun table (keys, value) => table.addPair keys value) table

/-- Adds the table that a header and the pairs after it define. A table that is only implied is
taken over. -/
def addTable (keys : List String) (pairs : List (List String × Value)) (table : Table) :
    Option Table := do
  let key ← keys.getLast?
  alter .header (fun outer =>
    match outer.get? key with
    | none => do
      let inner ← addPairs pairs (empty .defined)
      return outer.set key inner.toValue
    | some (.table .implied entries) => do
      let inner ← addPairs pairs ⟨.defined, entries⟩
      return outer.set key inner.toValue
    | some _ => none) keys.dropLast table

/-- Adds a table to the array of tables that a header names. -/
def addToTables (keys : List String) (pairs : List (List String × Value)) (table : Table) :
    Option Table := do
  let key ← keys.getLast?
  let inner ← addPairs pairs (empty .defined)
  alter .header (fun outer =>
    match outer.get? key with
    | none => some (outer.set key (.tables [inner.entries]))
    | some (.tables earlier) => some (outer.set key (.tables (inner.entries :: earlier)))
    | some _ => none) keys.dropLast table

end Table

end CaseReport.Toml
