import CaseReport.Toml.Table
import CaseReport.Toml.Text

/-!
# Values

A value is a text, a plain value, a list in brackets or a table in braces. Blanks, ends of lines and
comments may stand anywhere between the parts of a list; a table in braces is written on one line.
Brackets and braces may be nested to a fixed depth.
-/

namespace CaseReport.Toml

/-- Reads the rest of a list whose bracket has been read. A comma may follow the last item. -/
def readItems (item : List Char → Option (Value × List Char)) (s : List Char) :
    Option (List Value × List Char) :=
  match skipFiller s with
  | ']' :: rest => some ([], rest)
  | s' =>
    match item s' with
    | none => none
    | some (value, rest) =>
      match skipFiller rest with
      | ']' :: rest => some ([value], rest)
      | ',' :: rest =>
        if rest.length < s.length then
          (readItems item rest).map fun (values, rest) => (value :: values, rest)
        else none
      | _ => none
termination_by s.length

/-- Reads a key, an equals sign and a value. -/
def readPair (reader : List Char → Option (Value × List Char)) (s : List Char) :
    Option ((List String × Value) × List Char) := do
  let (keys, s) ← readKey s
  match s with
  | '=' :: s =>
    let (value, s) ← reader (skipSpace s)
    return ((keys, value), s)
  | _ => none

/-- Reads pairs with commas between them, up to a brace. -/
def readPairs (reader : List Char → Option (Value × List Char)) (s : List Char) :
    Option (List (List String × Value) × List Char) :=
  match readPair reader s with
  | none => none
  | some (pair, rest) =>
    match skipSpace rest with
    | '}' :: rest => some ([pair], rest)
    | ',' :: rest =>
      if rest.length < s.length then
        (readPairs reader rest).map fun (pairs, rest) => (pair :: pairs, rest)
      else none
    | _ => none
termination_by s.length

/-- Reads the rest of a table in braces whose opening brace has been read. -/
def readBraces (reader : List Char → Option (Value × List Char)) (s : List Char) :
    Option (Value × List Char) :=
  match skipSpace s with
  | '}' :: rest => some (.closed [], rest)
  | s => do
    let (pairs, rest) ← readPairs reader s
    let table ← Table.addPairs pairs (.empty .defined)
    return (.closed table.entries, rest)

/-- Reads a text as a value. -/
def readTextValue (s : List Char) : Option (Value × List Char) :=
  (readText s).map fun (text, rest) => (.text (String.ofList text), rest)

/-- Reads a plain value. -/
def readPlainValue (s : List Char) : Option (Value × List Char) :=
  (readPlain s).map fun (plain, rest) => (.plain plain, rest)

/-- Reads the rest of a list as a value. -/
def readList (reader : List Char → Option (Value × List Char)) (s : List Char) :
    Option (Value × List Char) :=
  (readItems reader s).map fun (values, rest) => (.list values, rest)

/-- Reads a value in which brackets and braces are nested to at most the given depth. -/
def readValue : Nat → List Char → Option (Value × List Char)
  | _, '"' :: s => readTextValue ('"' :: s)
  | _, '\'' :: s => readTextValue ('\'' :: s)
  | depth + 1, '[' :: s => readList (readValue depth) s
  | depth + 1, '{' :: s => readBraces (readValue depth) s
  | _, s => readPlainValue s

/-- The depth to which brackets and braces may be nested. -/
def maxDepth : Nat := 79

end CaseReport.Toml
