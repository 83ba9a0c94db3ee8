import CaseReport.Proofs.Toml.Grammar

/-!
# How values are written

Numbers, moments, texts, lists and tables in braces, said without a reader, and the documents that
have such values and define nothing twice.
-/

namespace CaseReport.Toml

open Text

/-! ## Numbers -/

/-- Digits in a base, with a single underscore between any two of them at will. -/
inductive AreDigits (base : Nat) : List Char → List Nat → Prop where
  | last {c n} (h : digitIn? base c = some n) : AreDigits base [c] [n]
  | next {c n s digits} (h : digitIn? base c = some n) (hs : AreDigits base s digits) :
      AreDigits base (c :: s) (n :: digits)
  | underscore {c n s digits} (h : digitIn? base c = some n) (hs : AreDigits base s digits) :
      AreDigits base (c :: '_' :: s) (n :: digits)

/-- A sign, which may be missing, and whether it is a minus. -/
inductive IsSign : List Char → Bool → Prop where
  | missing : IsSign [] false
  | plus : IsSign ['+'] false
  | minus : IsSign ['-'] true

/-- A whole number; none but zero begins with a zero. -/
def IsWhole (s : List Char) (digits : List Nat) : Prop :=
  AreDigits 10 s digits ∧ (digits.head? = some 0 → digits.length = 1)

/-- A fraction, which may be missing, and its digits. -/
def IsFraction (s : List Char) (digits : List Nat) : Prop :=
  s = [] ∧ digits = [] ∨ ∃ rest, AreDigits 10 rest digits ∧ s = '.' :: rest

/-- An exponent, which may be missing, and its value. -/
inductive IsExponent : List Char → Int → Prop where
  | missing : IsExponent [] 0
  | given {letter sign negative s digits} (hletter : letter = 'e' ∨ letter = 'E')
      (hsign : IsSign sign negative) (h : AreDigits 10 s digits) :
      IsExponent (letter :: (sign ++ s))
        (if negative then -(ofDigits 10 digits : Int) else ofDigits 10 digits)

/-- The letters that mark other bases than ten, and the bases. -/
def baseLetters : List (Char × Nat) :=
  [('x', 16), ('o', 8), ('b', 2)]

/-- A number that is not too large. -/
inductive IsNumber : List Char → Prop where
  | decimal {sign negative s digits} (hsign : IsSign sign negative) (h : IsWhole s digits)
      (hle : ofDigits 10 digits ≤ maxInteger + if negative then 1 else 0) : IsNumber (sign ++ s)
  | based {letter base s digits} (hletter : (letter, base) ∈ baseLetters)
      (h : AreDigits base s digits) (hle : ofDigits base digits ≤ maxInteger) :
      IsNumber ('0' :: letter :: s)
  | floating {sign negative whole fraction exponent digits digits' e}
      (hsign : IsSign sign negative) (hwhole : IsWhole whole digits)
      (hfraction : IsFraction fraction digits') (hexponent : IsExponent exponent e)
      (hne : fraction ++ exponent ≠ [])
      (hfits : overflows (digits ++ digits') (e - digits'.length) = false) :
      IsNumber (sign ++ (whole ++ (fraction ++ exponent)))
  | special {sign negative s} (hsign : IsSign sign negative)
      (h : s = ['i', 'n', 'f'] ∨ s = ['n', 'a', 'n']) : IsNumber (sign ++ s)

/-! ## Moments -/

/-- A count of decimal digits that stand for a number between two bounds. -/
def IsField (count low high : Nat) (s : List Char) (n : Nat) : Prop :=
  s.length = count ∧ (∀ c ∈ s, isDigit c = true) ∧ ofDigits 10 (s.map digitValue) = n ∧
    low ≤ n ∧ n ≤ high

/-- A date of the calendar. -/
def IsDate (s : List Char) : Prop :=
  ∃ year month day y m d, IsField 4 0 9999 year y ∧ IsField 2 1 12 month m ∧
    IsField 2 1 (daysIn y m) day d ∧ s = year ++ '-' :: (month ++ '-' :: day)

/-- The fraction of a second, which may be missing. -/
def IsSecondFraction (s : List Char) : Prop :=
  s = [] ∨ ∃ digits, digits ≠ [] ∧ (∀ c ∈ digits, isDigit c = true) ∧ s = '.' :: digits

/-- A time of the day. -/
def IsTime (s : List Char) : Prop :=
  ∃ hour minute second fraction h m t, IsField 2 0 23 hour h ∧ IsField 2 0 59 minute m ∧
    IsField 2 0 60 second t ∧ IsSecondFraction fraction ∧
      s = hour ++ ':' :: (minute ++ ':' :: (second ++ fraction))

/-- The offset of a zone, which may be missing. -/
def IsOffset (s : List Char) : Prop :=
  s = [] ∨ s = ['Z'] ∨ s = ['z'] ∨ ∃ sign hour minute h m, (sign = '+' ∨ sign = '-') ∧
    IsField 2 0 23 hour h ∧ IsField 2 0 59 minute m ∧ s = sign :: (hour ++ ':' :: minute)

/-- A date, a time of the day, or both with a letter or a blank between them. -/
inductive IsMoment : List Char → Prop where
  | date {s} (h : IsDate s) : IsMoment s
  | time {s} (h : IsTime s) : IsMoment s
  | both {date separator time offset} (hdate : IsDate date)
      (hseparator : separator ∈ ['T', 't', ' ']) (htime : IsTime time)
      (hoffset : IsOffset offset) : IsMoment (date ++ separator :: (time ++ offset))

/-! ## Texts -/

/-- The rest of a text over several lines, up to the three quotes at its end. Up to two more quotes
in front of these belong to the text; elsewhere no three of them stand together. Only in double
quotes there are escapes, and a backslash at the end of a line. -/
inductive IsLongRest (quote : Char) : List Char → Prop where
  | closing {n} (h : n ≤ 2) : IsLongRest quote (List.replicate (n + 3) quote)
  | quote {s} (h : ∀ t, s ≠ quote :: quote :: t) (hs : IsLongRest quote s) :
      IsLongRest quote (quote :: s)
  | plain {c s} (h : isPrintable c = true) (hquote : c ≠ quote) (hescape : quote = '"' → c ≠ '\\')
      (hs : IsLongRest quote s) : IsLongRest quote (c :: s)
  | newline {newline s} (h : IsNewline newline) (hs : IsLongRest quote s) :
      IsLongRest quote (newline ++ s)
  | escape {e c s} (hquote : quote = '"') (h : Escapes e c) (hs : IsLongRest quote s) :
      IsLongRest quote ('\\' :: (e ++ s))
  | continued {blank newline s} (hquote : quote = '"') (hblank : IsBlank blank)
      (hnewline : IsNewline newline) (hs : IsLongRest quote s) :
      IsLongRest quote ('\\' :: (blank ++ (newline ++ s)))

/-- A text of any form. The end of a line may follow three quotes. -/
inductive IsText : List Char → Prop where
  | quoted {s text} (h : IsQuoted s text) : IsText s
  | literal {s} (h : ∀ c ∈ s, isPrintable c = true ∧ c ≠ '\'') : IsText ('\'' :: (s ++ ['\'']))
  | long {quote newline rest} (hquote : quote = '"' ∨ quote = '\'')
      (hnewline : newline = [] ∨ IsNewline newline) (h : IsLongRest quote rest) :
      IsText (quote :: quote :: quote :: (newline ++ rest))

/-! ## Values -/

/-- Keys of a length that is allowed. -/
def HasFitLength (keys : List String) : Prop :=
  keys ≠ [] ∧ keys.length < pathLimit

instance (keys : List String) : Decidable (HasFitLength keys) :=
  inferInstanceAs (Decidable (keys ≠ [] ∧ keys.length < pathLimit))

/-- Pairs whose keys do not begin each other. -/
structure HaveApartKeys (pairs : List Pair) : Prop where
  fit : ∀ pair ∈ pairs, HasFitLength pair.keys
  apart : pairs.Pairwise fun pair other => AreApart pair.keys other.keys

/-- A value in which brackets and braces are nested to at most the given depth. -/
inductive IsValue : Nat → List Char → Prop where
  | text {depth s} (h : IsText s) : IsValue depth s
  | boolean {depth s} (h : s = ['t', 'r', 'u', 'e'] ∨ s = ['f', 'a', 'l', 's', 'e']) :
      IsValue depth s
  | number {depth s} (h : IsNumber s) : IsValue depth s
  | moment {depth s} (h : IsMoment s) : IsValue depth s
  | list {depth s items} (h : IsBracketed s items)
      (hitems : ∀ item ∈ items, IsValue depth item) : IsValue (depth + 1) s
  | braces {depth s pairs} (h : IsBraced s pairs) (hkeys : HaveApartKeys pairs)
      (hvalues : ∀ pair ∈ pairs, IsValue depth pair.value) : IsValue (depth + 1) s

/-! ## Documents without duplicates -/

/-- Pairs that have values, and whose keys do not begin each other. -/
structure AreOrderly (depth : Nat) (pairs : List Pair) : Prop where
  keys : HaveApartKeys pairs
  values : ∀ pair ∈ pairs, IsValue depth pair.value

/-- An earlier section leaves room for a later one. Their keys are apart; or the later table is
below the earlier one, which has no pair in its place; or the later header defines a table above,
which was only implied so far, and has no pair that leads to the earlier one. -/
inductive Section.Allows (part other : Section) : Prop where
  | apart (h : AreApart part.heading.keys other.heading.keys)
  | below {rest} (hne : rest ≠ []) (h : other.heading.keys = part.heading.keys ++ rest)
      (hpairs : ∀ pair ∈ part.pairs, AreApart pair.keys rest)
  | above {keys key rest} (hother : other.heading = .table keys)
      (h : part.heading.keys = keys ++ key :: rest)
      (hpairs : ∀ pair ∈ other.pairs, pair.keys.head? ≠ some key)

/-- The header of one more table of an array hides what is in the earlier ones. -/
def Heading.Hides : Heading → List String → Prop
  | .table _, _ => False
  | .arrayItem keys, keys' => keys <+: keys'

instance (heading : Heading) (keys : List String) : Decidable (heading.Hides keys) :=
  match heading with
  | .table _ => inferInstanceAs (Decidable False)
  | .arrayItem keys' => inferInstanceAs (Decidable (keys' <+: keys))

/-- The sections that are not hidden, the latest first, when there is one more. -/
def Section.behind (part : Section) (seen : List Section) : List Section :=
  part :: seen.filter fun other => ¬part.heading.Hides other.heading.keys

/-- The sections that are not hidden leave room for one more. If it belongs to an array that is
there, it hides what is in the array. -/
def Section.Follows (part : Section) (seen : List Section) : Prop :=
  ∀ other ∈ seen, other.Allows part ∨
    part.heading ∈ seen.map Section.heading ∧ part.heading.Hides other.heading.keys

/-- Sections for each of which those ahead of it leave room. -/
inductive AreInOrder : List Section → List Section → Prop where
  | nil {seen} : AreInOrder seen []
  | cons {seen part parts} (h : part.Follows seen) (hrest : AreInOrder (part.behind seen) parts) :
      AreInOrder seen (part :: parts)

/-- A document whose pairs are orderly in each of its tables, in which the sections leave room for
each other, and no header begins the keys of a pair that is not in a section, nor the other way
around. -/
structure Document.IsOrderly (document : Document) : Prop where
  pairs : AreOrderly maxDepth document.pairs
  inside : ∀ part ∈ document.sections, AreOrderly maxDepth part.pairs
  fit : ∀ part ∈ document.sections, HasFitLength part.heading.keys
  order : AreInOrder [] document.sections
  outside : ∀ pair ∈ document.pairs, ∀ part ∈ document.sections,
    AreApart pair.keys part.heading.keys

end CaseReport.Toml
