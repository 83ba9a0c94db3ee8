import CaseReport.Json.Fault
import CaseReport.Text.Digit

/-!
# The lexical classes of JSON

Blanks, literals, strings and numbers. Strings and numbers are read in two ways: for their value,
and only to pass over them. Passing over a string checks the digits of its escapes but not that
surrogates are paired, and passing over a number does not look at its size.
-/

namespace CaseReport.Json

open Decimal Text

/-- The characters that may stand between the parts of a document. -/
def isSpace (c : Char) : Bool :=
  c == ' ' || c == '\n' || c == '\t' || c == '\r'

/-- Drops the blanks in front. -/
def skipSpace (s : List Char) : List Char :=
  s.dropWhile isSpace

/-- Reads the rest of a literal whose first letter has been read. -/
def literal : (expected : List Char) → List Char → Except Failure (List Char)
  | [], s => .ok s
  | _ :: _, [] => failAfter .endInValue []
  | e :: expected, c :: s => if c = e then literal expected s else failAt .expectedLiteral (c :: s)

/-! ## Strings -/

/-- The value of four hexadecimal digits at the front of a text. -/
def fourDigits? : List Char → Option (Nat × List Char)
  | a :: b :: c :: d :: s => do
    let a ← hexValue? a
    let b ← hexValue? b
    let c ← hexValue? c
    let d ← hexValue? d
    return (((a * 16 + b) * 16 + c) * 16 + d, s)
  | _ => none

/-- Reads the four digits of an escape. They are taken as four bytes, whatever these are. -/
def hexEscape (s : List Char) : Reading Nat :=
  match fourDigits? s with
  | some reading => .ok reading
  | none =>
    if (Text.Utf8.encode (s.take 4)).length < 4 then failAfter .endInString []
    else .error ⟨.invalidEscape, s, 4⟩

/-- The character that a letter stands for after a backslash. -/
def simpleEscape? (c : Char) : Option Char :=
  if c = '"' ∨ c = '\\' ∨ c = '/' then some c
  else if c = 'b' then some '\x08'
  else if c = 'f' then some '\x0C'
  else if c = 'n' then some '\n'
  else if c = 'r' then some '\r'
  else if c = 't' then some '\t'
  else none

/-- Whether a number is that of a leading surrogate. -/
def isHighSurrogate (n : Nat) : Bool := 0xD800 ≤ n && n ≤ 0xDBFF

/-- Whether a number is that of a trailing surrogate. -/
def isLowSurrogate (n : Nat) : Bool := 0xDC00 ≤ n && n ≤ 0xDFFF

/-- The character that a pair of surrogates stands for. -/
def joinSurrogates (high low : Nat) : Char :=
  Char.ofNat (0x10000 + (high - 0xD800) * 0x400 + (low - 0xDC00))

/-- Reads the trailing surrogate that has to follow a leading one. -/
def trailingSurrogate (high : Nat) : List Char → Reading Char
  | [] => failAfter .endInString []
  | '\\' :: 'u' :: s =>
    match hexEscape s with
    | .error failure => .error failure
    | .ok (low, s) =>
      if isLowSurrogate low then .ok (joinSurrogates high low, s)
      else failAfter .loneSurrogate s
  | ['\\'] => failAfter .endInString []
  | '\\' :: s => failAt .endOfHexEscape s
  | s => failAt .endOfHexEscape s

/-- Reads the part of an escape that stands behind its backslash. -/
def escape : List Char → Reading Char
  | [] => failAfter .endInString []
  | 'u' :: s =>
    match hexEscape s with
    | .error failure => .error failure
    | .ok (n, s) =>
      if isLowSurrogate n then failAfter .loneSurrogate s
      else if isHighSurrogate n then trailingSurrogate n s
      else .ok (Char.ofNat n, s)
  | c :: s =>
    match simpleEscape? c with
    | some d => .ok (d, s)
    | none => failAt .invalidEscape (c :: s)

/-- Passes over the part of an escape that stands behind its backslash. -/
def skipEscape : List Char → Except Failure (List Char)
  | [] => failAfter .endInString []
  | 'u' :: s =>
    match hexEscape s with
    | .error failure => .error failure
    | .ok (_, s) => .ok s
  | c :: s =>
    match simpleEscape? c with
    | some _ => .ok s
    | none => failAt .invalidEscape (c :: s)

theorem fourDigits?_length {s rest : List Char} {n : Nat} (h : fourDigits? s = some (n, rest)) :
    rest.length < s.length := by
  unfold fourDigits? at h
  split at h
  · next a b c d s =>
    simp only [Option.bind_eq_bind, Option.bind_eq_some_iff, Option.pure_def, Option.some.injEq,
      Prod.mk.injEq] at h
    obtain ⟨_, _, _, _, _, _, _, _, _, rfl⟩ := h
    simp
    omega
  · cases h

theorem hexEscape_length {s rest : List Char} {n : Nat} (h : hexEscape s = .ok (n, rest)) :
    rest.length < s.length := by
  unfold hexEscape at h
  split at h
  · next reading hr =>
    cases h
    exact fourDigits?_length hr
  · split at h <;> cases h

theorem trailingSurrogate_length {s rest : List Char} {high : Nat} {c : Char}
    (h : trailingSurrogate high s = .ok (c, rest)) : rest.length < s.length := by
  unfold trailingSurrogate at h
  split at h
  · cases h
  · split at h
    · cases h
    · next hx =>
      split at h
      · obtain ⟨_, rfl⟩ := Prod.mk.inj (Except.ok.inj h)
        have := hexEscape_length hx
        simp only [List.length_cons]
        omega
      · cases h
  · cases h
  · cases h
  · cases h

theorem escape_length {s rest : List Char} {c : Char} (h : escape s = .ok (c, rest)) :
    rest.length < s.length := by
  unfold escape at h
  split at h
  · cases h
  · split at h
    · cases h
    · next hx =>
      have hlen := hexEscape_length hx
      split at h
      · cases h
      · split at h
        · have := trailingSurrogate_length h
          simp only [List.length_cons]
          omega
        · cases h
          simp only [List.length_cons]
          omega
  · split at h
    · cases h
      simp
    · cases h

theorem skipEscape_length {s rest : List Char} (h : skipEscape s = .ok rest) :
    rest.length < s.length := by
  unfold skipEscape at h
  split at h
  · cases h
  · split at h
    · cases h
    · next hx =>
      cases h
      have := hexEscape_length hx
      simp only [List.length_cons]
      omega
  · split at h
    · cases h
      simp
    · cases h

/-- Reads a string whose opening quote has been read. -/
def stringBody : List Char → Reading (List Char)
  | [] => failAfter .endInString []
  | '"' :: s => .ok ([], s)
  | '\\' :: s =>
    match h : escape s with
    | .error failure => .error failure
    | .ok (c, s') =>
      have := escape_length h
      match stringBody s' with
      | .error failure => .error failure
      | .ok (text, rest) => .ok (c :: text, rest)
  | c :: s =>
    if c.toNat < 0x20 then failAt .controlCharacter (c :: s)
    else
      match stringBody s with
      | .error failure => .error failure
      | .ok (text, rest) => .ok (c :: text, rest)
termination_by s => s.length

/-- Passes over a string whose opening quote has been read. -/
def skipString : List Char → Except Failure (List Char)
  | [] => failAfter .endInString []
  | '"' :: s => .ok s
  | '\\' :: s =>
    match h : skipEscape s with
    | .error failure => .error failure
    | .ok s' =>
      have := skipEscape_length h
      skipString s'
  | c :: s => if c.toNat < 0x20 then failAfter .controlCharacter (c :: s) else skipString s
termination_by s => s.length

theorem stringBody_length {s rest text : List Char} (h : stringBody s = .ok (text, rest)) :
    rest.length < s.length := by
  fun_induction stringBody s generalizing text with
  | case1 => cases h
  | case2 s => cases h; simp
  | case3 => cases h
  | case4 => cases h
  | case5 s c s' he _ text' rest' hs ih =>
    cases h
    have h1 := escape_length he
    have h2 := ih hs
    simp only [List.length_cons]
    omega
  | case6 => cases h
  | case7 => cases h
  | case8 c s _ _ _ text' rest' hs ih =>
    cases h
    have h2 := ih hs
    simp only [List.length_cons]
    omega

theorem skipString_length {s rest : List Char} (h : skipString s = .ok rest) :
    rest.length < s.length := by
  fun_induction skipString s with
  | case1 => cases h
  | case2 s => cases h; simp
  | case3 => cases h
  | case4 s s' he _ ih =>
    have h1 := skipEscape_length he
    have h2 := ih h
    simp only [List.length_cons]
    omega
  | case5 => cases h
  | case6 c s _ _ _ ih =>
    have h2 := ih h
    simp only [List.length_cons]
    omega

/-! ## Numbers -/

/-- The digits in front. -/
def takeDigits (s : List Char) : List Char := s.takeWhile isDigit

/-- What stands behind the digits in front. -/
def dropDigits (s : List Char) : List Char := s.dropWhile isDigit

/-- The largest integer that is kept exactly. -/
def maxInteger : Nat := Nat.pow 2 64 - 1

/-- Appends digits to a number for as long as it stays within `maxInteger`; returns the number and
how many digits are left. -/
def absorb (n : Nat) : List Char → Nat × Nat
  | [] => (n, 0)
  | c :: s =>
    if n * 10 + digitValue c ≤ maxInteger then absorb (n * 10 + digitValue c) s
    else (n, s.length + 1)

/-- The nearest magnitude to a power of ten that has one. -/
def tenTo (e : Nat) : Binary64 :=
  (Binary64.ofNat? (Nat.pow 10 e)).getD .zero

/-- The largest exponent of a power of ten with a magnitude. -/
def maxTenExponent : Nat := 308

/-- Divides by ten to an exponent, in steps of `maxTenExponent`, and rounds after every step. -/
def divideByTenTo (x : Binary64) : (steps exponent : Nat) → Binary64
  | 0, e => (x.div? (tenTo e)).getD .zero
  | steps + 1, e =>
    if x.mantissa = 0 then x
    else if e ≤ maxTenExponent then (x.div? (tenTo e)).getD .zero
    else divideByTenTo ((x.div? (tenTo maxTenExponent)).getD .zero) steps (e - maxTenExponent)

/-- The magnitude of a significand times a power of ten, rounded once for each of the two and once
for the result; nothing if it is too large. -/
def scale? (significand : Nat) (exponent : Int) : Option Binary64 := do
  let x ← Binary64.ofNat? significand
  if 0 ≤ exponent then
    if exponent.toNat ≤ maxTenExponent then x.mul? (tenTo exponent.toNat)
    else if x.mantissa = 0 then return x
    else none
  else
    let e := exponent.natAbs
    return divideByTenTo x (e / maxTenExponent + 1) e

/-- A floating-point number, if it is in range. -/
def floating (negative : Bool) (significand : Nat) (exponent : Int) (rest : List Char) :
    Reading Number :=
  match scale? significand exponent with
  | some x => .ok (.floating negative x, rest)
  | none => failAfter .numberOutOfRange rest

/-- Exponents beyond this are not counted out. -/
def maxExponent : Nat := Nat.pow 2 31 - 1

/-- Reads digits of an exponent; `none` if it grows beyond `maxExponent`, at the digit where it
does. -/
def exponentDigits (n : Nat) : List Char → Option Nat × List Char
  | [] => (some n, [])
  | c :: s =>
    if isDigit c then
      if n * 10 + digitValue c ≤ maxExponent then exponentDigits (n * 10 + digitValue c) s
      else (none, s)
    else (some n, c :: s)

/-- Whether the sign of an exponent is a minus, and what stands behind the sign, if any. -/
def splitSign : List Char → Bool × List Char
  | '+' :: s => (false, s)
  | '-' :: s => (true, s)
  | s => (false, s)

/-- Reads an exponent whose letter has been read. -/
def exponent (negative : Bool) (significand : Nat) (shift : Int) (s : List Char) :
    Reading Number :=
  let down := (splitSign s).1
  match (splitSign s).2 with
  | [] => failAfter .endInValue []
  | c :: s =>
    if isDigit c then
      match exponentDigits (digitValue c) s with
      | (some e, rest) =>
        floating negative significand (if down then shift - e else shift + e) rest
      | (none, rest) =>
        if significand != 0 && !down then failAfter .numberOutOfRange rest
        else .ok (.floating negative .zero, dropDigits rest)
    else failAt .invalidNumber (c :: s)

/-- Reads the digits behind a decimal point. -/
def fraction (negative : Bool) (significand : Nat) (shift : Int) (s : List Char) :
    Reading Number :=
  let digits := takeDigits s
  let rest := dropDigits s
  if digits.isEmpty then
    if rest.isEmpty then failAt .endInValue rest else failAt .invalidNumber rest
  else
    let (significand, left) := absorb significand digits
    let shift := shift - (digits.length - left : Nat)
    match rest with
    | 'e' :: rest => exponent negative significand shift rest
    | 'E' :: rest => exponent negative significand shift rest
    | rest => floating negative significand shift rest

/-- The number that an integer without fraction and exponent stands for. Minus zero and negative
integers beyond sixty-four bits are floating-point numbers. -/
def wholeNumber (negative : Bool) (n : Nat) : Number :=
  if !negative then .integer n
  else if n = 0 ∨ Nat.pow 2 63 < n then .floating true ((Binary64.ofNat? n).getD .zero)
  else .integer (-n)

/-- Reads a number whose sign has been read. -/
def number (negative : Bool) : List Char → Reading Number
  | [] => failAfter .endInValue []
  | '0' :: s =>
    if (takeDigits s).isEmpty then
      match s with
      | '.' :: s => fraction negative 0 0 s
      | 'e' :: s => exponent negative 0 0 s
      | 'E' :: s => exponent negative 0 0 s
      | s => .ok (wholeNumber negative 0, s)
    else failAt .invalidNumber s
  | c :: s =>
    if isDigit c then
      let (significand, left) := absorb 0 (takeDigits (c :: s))
      match dropDigits (c :: s) with
      | '.' :: s => fraction negative significand left s
      | 'e' :: s => exponent negative significand left s
      | 'E' :: s => exponent negative significand left s
      | rest =>
        if left = 0 then .ok (wholeNumber negative significand, rest)
        else floating negative significand left rest
    else failAt .invalidNumber (c :: s)

/-- Passes over an exponent whose letter has been read. -/
def skipExponent (s : List Char) : Except Failure (List Char) :=
  let digits := (splitSign s).2
  if (takeDigits digits).isEmpty then failAt .invalidNumber digits else .ok (dropDigits digits)

/-- Passes over what may follow the integer part of a number. -/
def skipFraction : List Char → Except Failure (List Char)
  | '.' :: s =>
    if (takeDigits s).isEmpty then failAt .invalidNumber s
    else
      match dropDigits s with
      | 'e' :: s => skipExponent s
      | 'E' :: s => skipExponent s
      | rest => .ok rest
  | 'e' :: s => skipExponent s
  | 'E' :: s => skipExponent s
  | s => .ok s

/-- Passes over a number whose sign has been read. -/
def skipNumber : List Char → Except Failure (List Char)
  | '0' :: s => if (takeDigits s).isEmpty then skipFraction s else failAt .invalidNumber s
  | s =>
    if (takeDigits s).isEmpty then failAt .invalidNumber s else skipFraction (dropDigits s)

theorem length_dropWhile_le (p : Char → Bool) (s : List Char) :
    (s.dropWhile p).length ≤ s.length :=
  (List.dropWhile_suffix p).length_le

theorem length_dropDigits_lt {s : List Char} (h : (takeDigits s).isEmpty = false) :
    (dropDigits s).length < s.length := by
  cases s with
  | nil => simp [takeDigits] at h
  | cons c s =>
    have hc : isDigit c = true := by
      cases hc : isDigit c with
      | true => rfl
      | false => simp [takeDigits, hc] at h
    rw [dropDigits, List.dropWhile_cons, if_pos hc]
    exact Nat.lt_succ_of_le (length_dropWhile_le isDigit s)

theorem splitSign_length (s : List Char) : (splitSign s).2.length ≤ s.length := by
  unfold splitSign
  split <;> simp

theorem skipExponent_length {s rest : List Char} (h : skipExponent s = .ok rest) :
    rest.length < s.length := by
  have hle := splitSign_length s
  simp only [skipExponent] at h
  split at h
  · cases h
  · next hs =>
    cases h
    have hlt := length_dropDigits_lt (Bool.eq_false_iff.2 hs)
    omega

theorem skipFraction_length {s rest : List Char} (h : skipFraction s = .ok rest) :
    rest.length ≤ s.length := by
  unfold skipFraction at h
  split at h
  · next s =>
    split at h
    · cases h
    · next hs =>
      have hlt := length_dropDigits_lt (Bool.eq_false_iff.2 hs)
      split at h
      · next he =>
        have := skipExponent_length h
        rw [he] at hlt
        simp only [List.length_cons] at hlt ⊢
        omega
      · next he =>
        have := skipExponent_length h
        rw [he] at hlt
        simp only [List.length_cons] at hlt ⊢
        omega
      · cases h
        simp only [List.length_cons]
        omega
  · have := skipExponent_length h
    simp only [List.length_cons]
    omega
  · have := skipExponent_length h
    simp only [List.length_cons]
    omega
  · cases h
    exact Nat.le_refl _

theorem skipNumber_length {s rest : List Char} (h : skipNumber s = .ok rest) :
    rest.length < s.length := by
  unfold skipNumber at h
  split at h
  · split at h
    · have := skipFraction_length h
      simp only [List.length_cons]
      omega
    · cases h
  · split at h
    · cases h
    · next hs =>
      have hlt := length_dropDigits_lt (Bool.eq_false_iff.2 hs)
      have := skipFraction_length h
      omega

end CaseReport.Json
