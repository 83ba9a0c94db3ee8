/-!
# Digits

The digits of the bases that numbers are written in, and the number or the character that
a sequence of digits stands for.
-/

namespace CaseReport.Text

/-- Whether a character is a decimal digit. -/
def isDigit (c : Char) : Bool := '0' ≤ c && c ≤ '9'

/-- The value of a decimal digit. -/
def digitValue (c : Char) : Nat := c.toNat - '0'.toNat

/-- The value of a hexadecimal digit. -/
def hexValue? (c : Char) : Option Nat :=
  if '0' ≤ c ∧ c ≤ '9' then some (c.toNat - '0'.toNat)
  else if 'a' ≤ c ∧ c ≤ 'f' then some (c.toNat - 'a'.toNat + 10)
  else if 'A' ≤ c ∧ c ≤ 'F' then some (c.toNat - 'A'.toNat + 10)
  else none

/-- The value of a digit in a base of at most sixteen. -/
def digitIn? (base : Nat) (c : Char) : Option Nat :=
  (hexValue? c).filter fun value => value < base

/-- The number that values of digits stand for. -/
def ofDigits (base : Nat) (digits : List Nat) : Nat :=
  digits.foldl (fun n digit => n * base + digit) 0

/-- The number that a text stands for in a base, if the text has digits and nothing else. -/
def number? (base : Nat) (text : List Char) : Option Nat :=
  if text.isEmpty then none else (text.mapM (digitIn? base)).map (ofDigits base)

/-- The character with a number; surrogates and numbers that are too large have none. -/
def scalar? (n : Nat) : Option Char :=
  if n.isValidChar then some (Char.ofNat n) else none

/-- Reads a character that is given by some hexadecimal digits. -/
def codePoint (count : Nat) (s : List Char) : Option (Char × List Char) :=
  if count ≤ s.length then do
    let n ← number? 16 (s.take count)
    return (← scalar? n, s.drop count)
  else none

theorem codePoint_length {count : Nat} {s rest : List Char} {c : Char}
    (h : codePoint count s = some (c, rest)) : rest.length ≤ s.length := by
  unfold codePoint at h
  split at h
  · simp only [Option.bind_eq_bind, Option.bind_eq_some_iff, Option.pure_def,
      Option.some.injEq] at h
    obtain ⟨_, _, _, _, h⟩ := h
    rw [← (Prod.mk.inj h).2, List.length_drop]
    exact Nat.sub_le ..
  · cases h

end CaseReport.Text
