import CaseReport.Json.Skip

/-!
# The grammar of JSON

Which texts are blanks, strings, numbers and values, and which texts strings stand for, said without
a reader. A string may be a value although it stands for no text, because the halves of a surrogate
pair are only put together when a text is wanted.
-/

namespace CaseReport.Json

open Text

/-- A text of blanks. -/
def IsBlank (s : List Char) : Prop :=
  ∀ c ∈ s, c = ' ' ∨ c = '\n' ∨ c = '\t' ∨ c = '\r'

/-! ## Strings -/

/-- A character that may stand in a string as it is. -/
def IsPlain (c : Char) : Prop :=
  0x20 ≤ c.toNat ∧ c ≠ '"' ∧ c ≠ '\\'

/-- The letters that may stand behind a backslash, and the characters that they stand for. -/
def letterEscapes : List (Char × Char) :=
  [('"', '"'), ('\\', '\\'), ('/', '/'), ('b', '\x08'), ('f', '\x0C'), ('n', '\n'), ('r', '\r'),
    ('t', '\t')]

/-- Four hexadecimal digits of a number. -/
def IsUnit (digits : List Char) (n : Nat) : Prop :=
  digits.length = 4 ∧ number? 16 digits = some n

/-- What may stand behind a backslash. -/
inductive IsEscape : List Char → Prop where
  | letter {letter c} (h : (letter, c) ∈ letterEscapes) : IsEscape [letter]
  | unit {digits n} (h : IsUnit digits n) : IsEscape ('u' :: digits)

/-- What may stand behind a backslash for a character. A character outside the basic plane is
written as a pair of surrogates. -/
inductive Escapes : List Char → Char → Prop where
  | letter {letter c} (h : (letter, c) ∈ letterEscapes) : Escapes [letter] c
  | unit {digits c} (h : IsUnit digits c.toNat) : Escapes ('u' :: digits) c
  | pair {digits digits' high low c} (h : IsUnit digits high) (h' : IsUnit digits' low)
      (hhigh : 0xD800 ≤ high ∧ high ≤ 0xDBFF) (hlow : 0xDC00 ≤ low ∧ low ≤ 0xDFFF)
      (hc : c.toNat = 0x10000 + (high - 0xD800) * 0x400 + (low - 0xDC00)) :
      Escapes ('u' :: (digits ++ '\\' :: 'u' :: digits')) c

/-- What may stand between the quotes of a string. -/
inductive IsContent : List Char → Prop where
  | nil : IsContent []
  | plain {c raw} (h : IsPlain c) (hraw : IsContent raw) : IsContent (c :: raw)
  | escape {e raw} (h : IsEscape e) (hraw : IsContent raw) : IsContent ('\\' :: (e ++ raw))

/-- What may stand between the quotes of a string for a text. -/
inductive Spells : List Char → List Char → Prop where
  | nil : Spells [] []
  | plain {c raw text} (h : IsPlain c) (hraw : Spells raw text) : Spells (c :: raw) (c :: text)
  | escape {e c raw text} (h : Escapes e c) (hraw : Spells raw text) :
      Spells ('\\' :: (e ++ raw)) (c :: text)

/-- A string that stands for a text. -/
def IsStringOf (s : List Char) (text : String) : Prop :=
  ∃ raw, Spells raw text.toList ∧ s = '"' :: (raw ++ ['"'])

/-! ## Numbers -/

/-- Digits, at least one. -/
def IsDigits (s : List Char) : Prop :=
  s ≠ [] ∧ ∀ c ∈ s, isDigit c = true

/-- An integer; only zero begins with a zero. -/
def IsWhole (s : List Char) : Prop :=
  s = ['0'] ∨ IsDigits s ∧ s.head? ≠ some '0'

/-- A fraction, which may be missing. -/
def IsFraction (s : List Char) : Prop :=
  s = [] ∨ ∃ digits, IsDigits digits ∧ s = '.' :: digits

/-- The sign of an exponent, which may be missing. -/
def IsSign (s : List Char) : Prop :=
  s = [] ∨ s = ['+'] ∨ s = ['-']

/-- An exponent, which may be missing. -/
def IsExponent (s : List Char) : Prop :=
  s = [] ∨ ∃ letter sign digits, (letter = 'e' ∨ letter = 'E') ∧ IsSign sign ∧ IsDigits digits ∧
    s = letter :: (sign ++ digits)

/-- A number without a sign. -/
def IsMagnitude (s : List Char) : Prop :=
  ∃ whole fraction exponent, IsWhole whole ∧ IsFraction fraction ∧ IsExponent exponent ∧
    s = whole ++ (fraction ++ exponent)

/-- A number. -/
def IsNumber (s : List Char) : Prop :=
  IsMagnitude s ∨ ∃ magnitude, IsMagnitude magnitude ∧ s = '-' :: magnitude

/-! ## Values -/

/-- The character that opens a bracket. -/
def Bracket.opening : Bracket → Char
  | .list => '['
  | .object => '{'

@[simp] theorem Bracket.opening_list : list.opening = '[' := rfl

@[simp] theorem Bracket.opening_object : object.opening = '{' := rfl

@[simp] theorem Bracket.closing_list : list.closing = ']' := rfl

@[simp] theorem Bracket.closing_object : object.closing = '}' := rfl

/-- What stands in front of an item: blanks, with a comma between them unless it is the first. -/
inductive IsGap : Bool → List Char → Prop where
  | first {s} (h : IsBlank s) : IsGap true s
  | next {before after} (h : IsBlank before) (h' : IsBlank after) :
      IsGap false (before ++ ',' :: after)

/-- Items with what stands in front of each, and blanks behind the last. -/
inductive AreItems : Bool → List (List Char) → List Char → Prop where
  | nil {first s} (h : IsBlank s) : AreItems first [] s
  | cons {first gap item items s} (hgap : IsGap first gap) (hitems : AreItems false items s) :
      AreItems first (item :: items) (gap ++ (item ++ s))

/-- Items in brackets. -/
def IsEnclosed (bracket : Bracket) (items : List (List Char)) (s : List Char) : Prop :=
  ∃ body, AreItems true items body ∧ s = bracket.opening :: (body ++ [bracket.closing])

/-- The content of a name with what stands between it and its value. -/
def IsLabel (raw : List Char) (s : List Char) : Prop :=
  ∃ before after, IsBlank before ∧ IsBlank after ∧
    s = '"' :: (raw ++ '"' :: (before ++ ':' :: after))

/-- What stands in front of a value in brackets: its name in an object, and nothing in a list. -/
def Bracket.Labels : Bracket → List Char → Prop
  | .list, s => s = []
  | .object, s => ∃ raw, IsContent raw ∧ IsLabel raw s

/-- One of the three words. -/
def IsLiteral (s : List Char) : Prop :=
  s = ['n', 'u', 'l', 'l'] ∨ s = ['t', 'r', 'u', 'e'] ∨ s = ['f', 'a', 'l', 's', 'e']

/-- A value, of any depth. -/
inductive IsValue : List Char → Prop where
  | literal {s} (h : IsLiteral s) : IsValue s
  | number {s} (h : IsNumber s) : IsValue s
  | string {raw} (h : IsContent raw) : IsValue ('"' :: (raw ++ ['"']))
  | enclosed {bracket : Bracket} {items : List (List Char × List Char)} {s}
      (hlabels : ∀ item ∈ items, bracket.Labels item.1) (hvalues : ∀ item ∈ items, IsValue item.2)
      (h : IsEnclosed bracket (items.map fun item => item.1 ++ item.2) s) : IsValue s

end CaseReport.Json
