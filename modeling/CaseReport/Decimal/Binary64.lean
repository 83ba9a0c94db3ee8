/-!
# Binary floating-point magnitudes

A magnitude is `mantissa · 2 ^ exponent` with a mantissa below `2 ^ 53` and an exponent of at least
`-1074`, as the sixty-four bit format has it. A quotient of natural numbers is rounded to the
nearest magnitude, a tie to the even mantissa.
-/

namespace CaseReport.Decimal

/-- A finite magnitude. -/
structure Binary64 where
  mantissa : Nat
  exponent : Int
  deriving Repr, DecidableEq

namespace Binary64

/-- The smallest exponent. -/
def minExponent : Int := -1074

/-- The magnitude zero. -/
def zero : Binary64 := ⟨0, minExponent⟩

/-- Two to an exponent, as a quotient. -/
def powerOfTwo (e : Int) : Nat × Nat :=
  if 0 ≤ e then (Nat.pow 2 e.toNat, 1) else (1, Nat.pow 2 (-e).toNat)

/-- The numerator and denominator of a magnitude. -/
def ratio (x : Binary64) : Nat × Nat :=
  let (num, den) := powerOfTwo x.exponent
  (x.mantissa * num, den)

/-- The nearest natural number to a quotient, of two the even one. -/
def roundDiv (num den : Nat) : Nat :=
  let q := num / den
  let r := num % den
  if 2 * r < den then q
  else if den < 2 * r then q + 1
  else if q % 2 = 0 then q else q + 1

/-- The exponent at which a positive quotient has a mantissa of fifty-three bits, but not below the
smallest one. -/
def exponentOf (num den : Nat) : Int :=
  let guess : Int := (num.log2 : Int) - den.log2 - 52
  let (two, one) := powerOfTwo guess
  let e := if num * one < Nat.pow 2 52 * (den * two) then guess - 1 else guess
  max e minExponent

/-- The magnitude nearest to a quotient, or nothing if it is too large for any. -/
def ofRatio? (num den : Nat) : Option Binary64 :=
  if num = 0 then some zero
  else
    let e := exponentOf num den
    let (two, one) := powerOfTwo e
    let m := roundDiv (num * one) (den * two)
    let (m, e) := if m = Nat.pow 2 53 then (Nat.pow 2 52, e + 1) else (m, e)
    if 971 < e then none else some ⟨m, e⟩

/-- The magnitude nearest to a natural number. -/
def ofNat? (n : Nat) : Option Binary64 :=
  ofRatio? n 1

/-- The product of two magnitudes. -/
def mul? (x y : Binary64) : Option Binary64 :=
  ofRatio? (x.ratio.1 * y.ratio.1) (x.ratio.2 * y.ratio.2)

/-- The quotient of two magnitudes; the second is not zero. -/
def div? (x y : Binary64) : Option Binary64 :=
  ofRatio? (x.ratio.1 * y.ratio.2) (x.ratio.2 * y.ratio.1)

end Binary64

end CaseReport.Decimal
