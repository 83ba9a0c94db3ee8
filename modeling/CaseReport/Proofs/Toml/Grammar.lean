import CaseReport.Toml.Document

/-!
# How a settings document is written

The lines of a document, and what stands between braces and between brackets, said without a reader.
The values are left as they are written, except for a text in double quotes, of which it is said
which text it stands for. So a way to write a document says nothing yet about whether its values are
values, or whether a key is bound twice.
-/

namespace CaseReport.Toml

open Text

/-! ## Blanks and comments -/

/-- A text of blanks within a line. -/
def IsBlank (s : List Char) : Prop :=
  ∀ c ∈ s, isSpace c = true

/-- The end of a line. -/
def IsNewline (s : List Char) : Prop :=
  s = ['\n'] ∨ s = ['\r', '\n']

/-- A comment, which may be missing. -/
def IsComment (s : List Char) : Prop :=
  s = [] ∨ ∃ words, (∀ c ∈ words, isPrintable c = true) ∧ s = '#' :: words

/-- What may stand at the end of a line: blanks, and a comment behind them. -/
def IsMargin (s : List Char) : Prop :=
  ∃ blank comment, IsBlank blank ∧ IsComment comment ∧ s = blank ++ comment

/-- What may stand between the parts of a list: blanks and ends of lines with their margins. -/
inductive IsFiller : List Char → Prop where
  | blank {s} (h : IsBlank s) : IsFiller s
  | line {margin newline s} (hmargin : IsMargin margin) (hnewline : IsNewline newline)
      (h : IsFiller s) : IsFiller (margin ++ (newline ++ s))

/-! ## Texts in double quotes -/

/-- A character that may stand between double quotes as it is. -/
def IsUnescaped (c : Char) : Prop :=
  isPrintable c = true ∧ c ≠ '"' ∧ c ≠ '\\'

/-- The letters that may stand behind a backslash, and the characters that they stand for. -/
def letterEscapes : List (Char × Char) :=
  [('b', '\x08'), ('t', '\t'), ('n', '\n'), ('f', '\x0C'), ('r', '\r'), ('"', '"'), ('\\', '\\')]

/-- What may stand behind a backslash for a character: a letter, or its number in four or eight
hexadecimal digits. -/
inductive Escapes : List Char → Char → Prop where
  | letter {letter c} (h : (letter, c) ∈ letterEscapes) : Escapes [letter] c
  | short {digits} {c : Char} (h : digits.length = 4) (hdigits : number? 16 digits = some c.toNat) :
      Escapes ('u' :: digits) c
  | long {digits} {c : Char} (h : digits.length = 8) (hdigits : number? 16 digits = some c.toNat) :
      Escapes ('U' :: digits) c

/-- What may stand between double quotes for a text. -/
inductive Spells : List Char → List Char → Prop where
  | nil : Spells [] []
  | plain {c raw text} (h : IsUnescaped c) (hraw : Spells raw text) : Spells (c :: raw) (c :: text)
  | escape {e c raw text} (h : Escapes e c) (hraw : Spells raw text) :
      Spells ('\\' :: (e ++ raw)) (c :: text)

/-- A text in double quotes on one line. -/
def IsQuoted (s : List Char) (text : String) : Prop :=
  ∃ raw, Spells raw text.toList ∧ s = '"' :: (raw ++ ['"'])

/-! ## Keys -/

/-- A key: a bare word, or a text in quotes of either kind. -/
inductive IsKey : List Char → String → Prop where
  | bare {s} (hne : s ≠ []) (h : ∀ c ∈ s, isBare c = true) : IsKey s (String.ofList s)
  | quoted {s key} (h : IsQuoted s key) : IsKey s key
  | literal {s} (h : ∀ c ∈ s, isPrintable c = true ∧ c ≠ '\'') :
      IsKey ('\'' :: (s ++ ['\''])) (String.ofList s)

/-- Keys with dots between them, and blanks around each. -/
inductive IsPath : List Char → List String → Prop where
  | last {before s after key} (hbefore : IsBlank before) (h : IsKey s key)
      (hafter : IsBlank after) : IsPath (before ++ (s ++ after)) [key]
  | cons {before s after rest key keys} (hbefore : IsBlank before) (h : IsKey s key)
      (hafter : IsBlank after) (hrest : IsPath rest keys) :
      IsPath (before ++ (s ++ (after ++ '.' :: rest))) (key :: keys)

/-- Keys neither of which begin the other. -/
def AreApart (keys keys' : List String) : Prop :=
  ¬keys <+: keys' ∧ ¬keys' <+: keys

instance (keys keys' : List String) : Decidable (AreApart keys keys') :=
  inferInstanceAs (Decidable (¬keys <+: keys' ∧ ¬keys' <+: keys))

/-- Keys and the text of the value that they are bound to. -/
structure Pair where
  keys : List String
  value : List Char
  deriving Repr, DecidableEq

/-- Keys, an equals sign and a value, with blanks around all but the value's end. -/
def IsPairText (s : List Char) (pair : Pair) : Prop :=
  ∃ path blank, IsPath path pair.keys ∧ IsBlank blank ∧ s = path ++ '=' :: (blank ++ pair.value)

/-! ## Braces and brackets -/

/-- Pairs with commas between them. -/
inductive ArePairs : List Char → List Pair → Prop where
  | last {s after pair} (h : IsPairText s pair) (hafter : IsBlank after) :
      ArePairs (s ++ after) [pair]
  | cons {s after rest pair pairs} (h : IsPairText s pair) (hafter : IsBlank after)
      (hrest : ArePairs rest pairs) : ArePairs (s ++ (after ++ ',' :: rest)) (pair :: pairs)

/-- A table in braces. -/
inductive IsBraced : List Char → List Pair → Prop where
  | empty {blank} (h : IsBlank blank) : IsBraced ('{' :: (blank ++ ['}'])) []
  | pairs {s pairs} (h : ArePairs s pairs) : IsBraced ('{' :: (s ++ ['}'])) pairs

/-- The texts of values with commas between them; there may also be a comma behind the last. -/
inductive AreItems : List Char → List (List Char) → Prop where
  | nil {s} (h : IsFiller s) : AreItems s []
  | last {before item after} (hbefore : IsFiller before) (hafter : IsFiller after) :
      AreItems (before ++ (item ++ after)) [item]
  | cons {before item after rest items} (hbefore : IsFiller before) (hafter : IsFiller after)
      (hrest : AreItems rest items) :
      AreItems (before ++ (item ++ (after ++ ',' :: rest))) (item :: items)

/-- A list in brackets. -/
def IsBracketed (s : List Char) (items : List (List Char)) : Prop :=
  ∃ body, AreItems body items ∧ s = '[' :: (body ++ [']'])

/-! ## Documents -/

/-- The header of a table, or of one table of an array. -/
inductive Heading where
  | table (keys : List String)
  | arrayItem (keys : List String)
  deriving Repr, DecidableEq

/-- The keys that a header names. -/
def Heading.keys : Heading → List String
  | .table keys => keys
  | .arrayItem keys => keys

/-- A header and the pairs behind it. -/
structure Section where
  heading : Heading
  pairs : List Pair
  deriving Repr, DecidableEq

/-- The pairs ahead of the first header, and the sections. -/
structure Document where
  pairs : List Pair
  sections : List Section
  deriving Repr, DecidableEq

/-- What a line of a document says. -/
inductive Line where
  | pair (pair : Pair)
  | heading (heading : Heading)
  deriving Repr, DecidableEq

/-- The keys that a line names. -/
def Line.keys : Line → List String
  | .pair binding => binding.keys
  | .heading header => header.keys

/-- What the lines of a section say. -/
def Section.lines (part : Section) : List Line :=
  .heading part.heading :: part.pairs.map .pair

/-- What the lines of a document say. -/
def Document.lines (document : Document) : List Line :=
  document.pairs.map .pair ++ document.sections.flatMap Section.lines

/-- The text of what a line says. -/
inductive IsLineText : List Char → Line → Prop where
  | pair {s pair} (h : IsPairText s pair) : IsLineText s (.pair pair)
  | table {path keys} (h : IsPath path keys) :
      IsLineText ('[' :: (path ++ [']'])) (.heading (.table keys))
  | arrayItem {path keys} (h : IsPath path keys) :
      IsLineText ('[' :: '[' :: (path ++ [']', ']'])) (.heading (.arrayItem keys))

/-- A line with what it says, if it says anything. -/
inductive IsLine : List Char → Option Line → Prop where
  | empty {margin} (h : IsMargin margin) : IsLine margin none
  | filled {indent s margin line} (hindent : IsBlank indent) (h : IsLineText s line)
      (hmargin : IsMargin margin) : IsLine (indent ++ (s ++ margin)) (some line)

/-- Lines with what they say. -/
inductive AreLines : List Char → List Line → Prop where
  | last {s line} (h : IsLine s line) : AreLines s line.toList
  | cons {s newline rest line lines} (h : IsLine s line) (hnewline : IsNewline newline)
      (hrest : AreLines rest lines) : AreLines (s ++ (newline ++ rest)) (line.toList ++ lines)

/-- A text that is written as a document. -/
def Document.IsText (document : Document) (s : List Char) : Prop :=
  AreLines s document.lines

/-! ## What a document defines -/

/-- The text of a value in which brackets and braces are nested to at most the given depth. -/
def IsValueText (depth : Nat) (s : List Char) : Prop :=
  ∃ value, readValue depth s = some (value, [])

/-- The keys and the value of a pair, if its text is a value in which brackets and braces are nested
to at most the given depth, and nothing else. -/
def Pair.read? (depth : Nat) (pair : Pair) : Option (List String × Value) :=
  match readValue depth pair.value with
  | some (value, []) =>
    if pair.keys.length < pathLimit then some (pair.keys, value) else none
  | _ => none

/-- Adds a pair as it is written. -/
def Pair.addTo (depth : Nat) (pair : Pair) (table : Table) : Option Table := do
  let (keys, value) ← pair.read? depth
  table.addPair keys value

/-- Adds pairs as they are written, if their values are values and no key is bound twice. -/
def Table.addWritten (depth : Nat) (pairs : List Pair) (table : Table) : Option Table :=
  pairs.foldlM (fun table pair => pair.addTo depth table) table

/-- Adds a section as it is written. -/
def Section.addTo (part : Section) (table : Table) : Option Table := do
  let pairs ← part.pairs.mapM (Pair.read? maxDepth)
  if part.heading.keys.length < pathLimit then
    match part.heading with
    | .table keys => table.addTable keys pairs
    | .arrayItem keys => table.addToTables keys pairs
  else none

/-- Adds sections as they are written, one after the other. -/
def Table.addParts (parts : List Section) (table : Table) : Option Table :=
  parts.foldlM (fun table part => part.addTo table) table

/-- The table that a document defines, if its values are values and nothing is defined twice. -/
def Document.table? (document : Document) : Option Table := do
  let table ← Table.addWritten maxDepth document.pairs (.empty .defined)
  table.addParts document.sections

/-- A document whose values are values and that defines nothing twice. -/
def Document.IsValid (document : Document) : Prop :=
  document.table?.isSome = true

instance (document : Document) : Decidable document.IsValid :=
  inferInstanceAs (Decidable (document.table?.isSome = true))

end CaseReport.Toml
