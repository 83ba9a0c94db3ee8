import CaseReport.Decimal.Binary64

/-!
# Shortest decimal text

Every magnitude owns the interval of real numbers that round to it. It is written with the fewest
decimal digits that name a number in this interval, and of these with the digits that come nearest
to it.
-/

namespace CaseReport.Decimal

/-- Ten to an exponent, as a quotient. -/
def powerOfTen (e : Int) : Nat × Nat :=
  if 0 ≤ e then (Nat.pow 10 e.toNat, 1) else (1, Nat.pow 10 (-e).toNat)

/-- Digits and the power of ten that they count. -/
structure Digits where
  digits : Nat
  exponent : Int
  deriving Repr, DecidableEq

namespace Binary64

/-- The ends of the interval that rounds to a magnitude, as numerators over four times the
denominator of its ratio. Below a power of two the magnitudes lie twice as close. -/
def interval (x : Binary64) : Nat × Nat :=
  let unit := (powerOfTwo x.exponent).1
  let below := if x.mantissa = Nat.pow 2 52 ∧ minExponent < x.exponent then 1 else 2
  (4 * x.mantissa * unit - below * unit, 4 * x.mantissa * unit + 2 * unit)

/-- Whether `n · 10 ^ e` rounds to a magnitude. Its ends belong to the interval when the mantissa is
even, because ties go to the even one. -/
def owns (x : Binary64) (n : Nat) (e : Int) : Bool :=
  let (low, high) := x.interval
  let (num, den) := powerOfTen e
  let value := 4 * n * num * x.ratio.2
  if x.mantissa % 2 = 0 then low * den ≤ value && value ≤ high * den
  else low * den < value && value < high * den

/-- The exponent of the leading decimal digit of a positive quotient, searched from a guess. -/
def leadingExponent (num den : Nat) : Nat → Int → Int
  | 0, e => e
  | fuel + 1, e =>
    let (p, q) := powerOfTen e
    if num * q < den * p then leadingExponent num den fuel (e - 1)
    else
      let (p', q') := powerOfTen (e + 1)
      if den * p' ≤ num * q' then leadingExponent num den fuel (e + 1) else e

/-- The nearer of the two numbers with `count` digits around a magnitude that round to it. -/
def withDigits? (x : Binary64) (lead : Int) (count : Nat) : Option Digits :=
  let e := lead - (count - 1 : Nat)
  let (num, den) := x.ratio
  let (p, q) := powerOfTen e
  let down := num * q / (den * p)
  let nearest := roundDiv (num * q) (den * p)
  let other := if nearest = down then down + 1 else down
  if x.owns nearest e then some ⟨nearest, e⟩
  else if x.owns other e then some ⟨other, e⟩
  else none

/-- Tries one digit count after the other. -/
def firstWithDigits (x : Binary64) (lead : Int) : Nat → Nat → Digits
  | 0, count => (x.withDigits? lead count).getD ⟨x.mantissa, x.exponent⟩
  | fuel + 1, count =>
    match x.withDigits? lead count with
    | some digits => digits
    | none => firstWithDigits x lead fuel (count + 1)

/-- The fewest digits that read back as a magnitude. -/
def shortest (x : Binary64) : Digits :=
  if x.mantissa = 0 then ⟨0, 0⟩
  else
    let (num, den) := x.ratio
    let guess := ((num.log2 : Int) - den.log2) * 30103 / 100000
    firstWithDigits x (leadingExponent num den 8 guess) 16 1

end Binary64

/-- Drops the zeros at the end of a digit string. -/
def dropZeros (digits : List Char) : List Char :=
  (digits.reverse.dropWhile (· == '0')).reverse

/-- The text of a magnitude. It is written out in full when its leading digit stands for a power of
ten from `10 ^ -5` up to `10 ^ 15`, with at least one digit on each side of the point, and with a
signed exponent otherwise. -/
def text (x : Binary64) : String :=
  if x.mantissa = 0 then "0.0"
  else
    let shortest := x.shortest
    let all := Nat.toDigits 10 shortest.digits
    let digits := dropZeros all
    let point : Int := shortest.exponent + all.length
    let count : Int := digits.length
    String.ofList <|
      if count ≤ point ∧ point ≤ 16 then
        digits ++ List.replicate (point - count).toNat '0' ++ ['.', '0']
      else if 0 < point ∧ point ≤ 16 then
        digits.take point.toNat ++ '.' :: digits.drop point.toNat
      else if -5 < point ∧ point ≤ 0 then
        ['0', '.'] ++ List.replicate (-point).toNat '0' ++ digits
      else
        let mantissa :=
          match digits with
          | [d] => [d]
          | d :: ds => d :: '.' :: ds
          | [] => []
        let sign := if 0 < point then '+' else '-'
        mantissa ++ 'e' :: sign :: Nat.toDigits 10 (point - 1).natAbs

end CaseReport.Decimal
