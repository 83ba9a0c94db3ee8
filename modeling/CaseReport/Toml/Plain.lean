import CaseReport.Decimal.Binary64
import CaseReport.Text.Digit

/-!
# Plain values

Numbers, booleans and moments are written without quotes, and the characters up to the next blank,
comma, bracket or comment make up one such value. Which number or moment it is does not matter to
settings; what counts is whether it is one. Integers have sixty-four bits with a sign. A
floating-point number must not exceed the largest one there is, but may fall below the smallest.
-/

namespace CaseReport.Toml

open Text

/-! ## Numbers -/

/-- Digits without the single underscores that may stand between them. -/
def ungroup (base : Nat) : List Char → Option (List Nat)
  | [] => none
  | [c] => (digitIn? base c).map fun digit => [digit]
  | c :: '_' :: s => do
    let digit ← digitIn? base c
    return digit :: (← ungroup base s)
  | c :: s => do
    let digit ← digitIn? base c
    return digit :: (← ungroup base s)

/-- Whether the sign in front of a number is a minus, and what follows the sign. -/
def cutSign : List Char → Bool × List Char
  | '-' :: s => (true, s)
  | '+' :: s => (false, s)
  | s => (false, s)

/-- The digits of a whole number; none but zero starts with a zero. -/
def wholeDigits? (s : List Char) : Option (List Nat) := do
  let digits ← ungroup 10 s
  if digits.head? = some 0 ∧ digits.length ≠ 1 then none else return digits

/-- The largest integer. -/
def maxInteger : Nat := Nat.pow 2 63 - 1

/-- Whether a text is an integer. -/
def isInteger : List Char → Bool
  | '0' :: 'x' :: s => (ungroup 16 s).any fun digits => ofDigits 16 digits ≤ maxInteger
  | '0' :: 'o' :: s => (ungroup 8 s).any fun digits => ofDigits 8 digits ≤ maxInteger
  | '0' :: 'b' :: s => (ungroup 2 s).any fun digits => ofDigits 2 digits ≤ maxInteger
  | s =>
    let (negative, s) := cutSign s
    (wholeDigits? s).any fun digits =>
      ofDigits 10 digits ≤ maxInteger + if negative then 1 else 0

/-- The decimal exponent from which on no number is finite. -/
def infiniteExponent : Int := 309

/-- Whether `digits · 10 ^ exponent` exceeds the largest floating-point number. The size is clear
from the place of the first digit, unless that is the last place a finite number can have. -/
def overflows (digits : List Nat) (exponent : Int) : Bool :=
  let digits := digits.dropWhile (· == 0)
  let top := exponent + digits.length
  if digits.isEmpty then false
  else if infiniteExponent < top then true
  else if top < infiniteExponent then false
  else
    let n := ofDigits 10 digits
    (if 0 ≤ exponent then Decimal.Binary64.ofRatio? (n * Nat.pow 10 exponent.toNat) 1
      else Decimal.Binary64.ofRatio? n (Nat.pow 10 exponent.natAbs)).isNone

/-- The exponent that ends a floating-point number. -/
def exponent? : List Char → Option Int
  | [] => some 0
  | c :: s =>
    if c = 'e' ∨ c = 'E' then
      let (negative, s) := cutSign s
      (ungroup 10 s).map fun digits =>
        if negative then -(ofDigits 10 digits : Int) else ofDigits 10 digits
    else none

/-- Whether a character may belong to the digits of a floating-point number. -/
def isDigitOrUnderscore (c : Char) : Bool := isDigit c || c == '_'

/-- The digits and the exponent of a floating-point number without a sign. It has a fraction or an
exponent. -/
def fractional? (s : List Char) : Option (List Nat × Int) := do
  let whole ← wholeDigits? (s.takeWhile isDigitOrUnderscore)
  match s.dropWhile isDigitOrUnderscore with
  | [] => none
  | '.' :: s =>
    let fraction ← ungroup 10 (s.takeWhile isDigitOrUnderscore)
    let exponent ← exponent? (s.dropWhile isDigitOrUnderscore)
    return (whole ++ fraction, exponent - fraction.length)
  | s => return (whole, ← exponent? s)

/-- Whether a text is a floating-point number. -/
def isFloating (s : List Char) : Bool :=
  let (negative, s) := cutSign s
  s == ['i', 'n', 'f'] || s == ['n', 'a', 'n'] ||
    (fractional? s).any fun (digits, exponent) => negative || !overflows digits exponent

/-! ## Moments -/

/-- The number in the first digits of a text, and what follows. -/
def fixedNumber? (count : Nat) (s : List Char) : Option (Nat × List Char) :=
  if (s.take count).length = count ∧ (s.take count).all isDigit then
    some (ofDigits 10 ((s.take count).map digitValue), s.drop count)
  else none

/-- What follows a character that has to come first. -/
def after? (c : Char) : List Char → Option (List Char)
  | d :: s => if d = c then some s else none
  | [] => none

/-- A number of two digits between two bounds, and what follows. -/
def twoDigits? (low high : Nat) (s : List Char) : Option (Nat × List Char) :=
  (fixedNumber? 2 s).filter fun (n, _) => low ≤ n && n ≤ high

/-- The number of days in a month. -/
def daysIn (year month : Nat) : Nat :=
  if month = 2 then
    if year % 4 = 0 ∧ (year % 100 ≠ 0 ∨ year % 400 = 0) then 29 else 28
  else if month = 4 ∨ month = 6 ∨ month = 9 ∨ month = 11 then 30
  else 31

/-- What follows a date. -/
def afterDate? (s : List Char) : Option (List Char) := do
  let (year, s) ← fixedNumber? 4 s
  let s ← after? '-' s
  let (month, s) ← twoDigits? 1 12 s
  let s ← after? '-' s
  let (_, s) ← twoDigits? 1 (daysIn year month) s
  return s

/-- What follows the fraction of a second, if there is one. -/
def afterFraction? : List Char → Option (List Char)
  | '.' :: c :: s => if isDigit c then some (s.dropWhile isDigit) else none
  | ['.'] => none
  | s => some s

/-- What follows a time of the day. A minute may have a sixty-first second. -/
def afterTime? (s : List Char) : Option (List Char) := do
  let (_, s) ← twoDigits? 0 23 s
  let s ← after? ':' s
  let (_, s) ← twoDigits? 0 59 s
  let s ← after? ':' s
  let (_, s) ← twoDigits? 0 60 s
  afterFraction? s

/-- Whether a text is the offset of a zone, which may be missing. -/
def isOffset : List Char → Bool
  | [] => true
  | ['Z'] => true
  | ['z'] => true
  | c :: s =>
    (c == '+' || c == '-') &&
      (do
        let (_, s) ← twoDigits? 0 23 s
        let s ← after? ':' s
        let (_, s) ← twoDigits? 0 59 s
        return s) == some []

/-- Whether a text is a time of the day with or without an offset. -/
def isZonedTime (s : List Char) : Bool :=
  (afterTime? s).any isOffset

/-- Whether a text is a date. -/
def isDate (s : List Char) : Bool :=
  afterDate? s == some []

/-- Whether a text is a date, a time of the day, or both with a letter between them. -/
def isMoment (s : List Char) : Bool :=
  match afterDate? s with
  | none => afterTime? s == some []
  | some [] => true
  | some (c :: s) => (c == 'T' || c == 't') && isZonedTime s

/-! ## Values in a text -/

/-- The kinds of plain values that settings tell apart. -/
inductive Plain where
  | moment
  /-- A number or a boolean. -/
  | other
  deriving Repr, DecidableEq

/-- The plain value that a text is. -/
def Plain.ofText? (s : List Char) : Option Plain :=
  if s == ['t', 'r', 'u', 'e'] || s == ['f', 'a', 'l', 's', 'e'] then some .other
  else if isMoment s then some .moment
  else if isInteger s || isFloating s then some .other
  else none

/-- Whether a character may stand in a plain value. -/
def isPlain (c : Char) : Bool :=
  c.isAlphanum || c == '+' || c == '-' || c == '_' || c == '.' || c == ':'

/-- What follows the time of a moment whose date and time stand on both sides of a blank. -/
def afterSpacedTime? (date : List Char) : List Char → Option (List Char)
  | ' ' :: s =>
    if isDate date && isZonedTime (s.takeWhile isPlain) then some (s.dropWhile isPlain) else none
  | _ => none

/-- Reads a plain value. -/
def readPlain (s : List Char) : Option (Plain × List Char) :=
  let token := s.takeWhile isPlain
  let rest := s.dropWhile isPlain
  match afterSpacedTime? token rest with
  | some rest => some (.moment, rest)
  | none => (Plain.ofText? token).map fun plain => (plain, rest)

end CaseReport.Toml
