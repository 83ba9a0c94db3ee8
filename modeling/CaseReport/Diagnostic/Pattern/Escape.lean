import CaseReport.Diagnostic.Pattern.Basic
import CaseReport.Text.Blank
import CaseReport.Text.Digit

/-!
# Gaps and escapes

In a verbose pattern blank characters and comments may stand between any two parts, also between
the digits of an escape. A backslash makes a character of punctuation stand for itself and gives
some letters a meaning. It gives none to properties of characters and to earlier groups.
-/

namespace CaseReport.Diagnostic.Pattern

open Text

/-! ## Gaps -/

/-- The text behind blank characters and comments. A comment goes from a number sign to the end of
the line. -/
def behindGap (inComment : Bool) : List Char → List Char
  | [] => []
  | c :: s =>
    if inComment then behindGap (c != '\n') s
    else if isBlank c then behindGap false s
    else if c = '#' then behindGap true s
    else c :: s

/-- Passes over a gap, which only verbose patterns have. -/
def skipGap (verbose : Bool) (s : List Char) : List Char :=
  if verbose then behindGap false s else s

theorem behindGap_length (inComment : Bool) (s : List Char) :
    (behindGap inComment s).length ≤ s.length := by
  induction s generalizing inComment with
  | nil => exact Nat.le_refl _
  | cons c s ih =>
    unfold behindGap
    split
    · exact Nat.le_succ_of_le (ih _)
    · split
      · exact Nat.le_succ_of_le (ih _)
      · split
        · exact Nat.le_succ_of_le (ih _)
        · exact Nat.le_refl _

theorem skipGap_length (verbose : Bool) (s : List Char) :
    (skipGap verbose s).length ≤ s.length := by
  unfold skipGap
  split
  · exact behindGap_length ..
  · exact Nat.le_refl _

theorem lt_of_skipGap {verbose : Bool} {s rest : List Char} {c : Char}
    (h : skipGap verbose s = c :: rest) : rest.length < s.length :=
  calc rest.length < (skipGap verbose s).length := by rw [h]; exact Nat.lt_succ_self _
    _ ≤ s.length := skipGap_length ..

/-! ## Escapes -/

/-- What a backslash stands for together with the characters behind it. -/
inductive Escape where
  | literal (literal : Literal)
  | shorthand (negated : Bool)
  | boundary
  | wordBoundary
  deriving Repr, DecidableEq

/-- Whether a character stands for itself behind a backslash. -/
def isEscapable (c : Char) : Bool :=
  c.toNat < 0x80 && !c.isAlphanum && c != '<' && c != '>'

/-- What a single character stands for behind a backslash. -/
def Escape.ofCharacter? (c : Char) : Option Escape :=
  if isEscapable c then some (.literal ⟨c, false⟩)
  else if c = 'a' then some (.literal ⟨'\x07', false⟩)
  else if c = 'f' then some (.literal ⟨'\x0C', false⟩)
  else if c = 't' then some (.literal ⟨'\t', false⟩)
  else if c = 'n' then some (.literal ⟨'\n', false⟩)
  else if c = 'r' then some (.literal ⟨'\r', false⟩)
  else if c = 'v' then some (.literal ⟨'\x0B', false⟩)
  else if c = 'd' ∨ c = 's' ∨ c = 'w' then some (.shorthand false)
  else if c = 'D' ∨ c = 'S' ∨ c = 'W' then some (.shorthand true)
  else if c = 'A' ∨ c = 'z' then some .boundary
  else if c = 'b' ∨ c = 'B' ∨ c = '<' ∨ c = '>' then some .wordBoundary
  else none

/-- How many hexadecimal digits a letter asks for. -/
def digitCount? (c : Char) : Option Nat :=
  if c = 'x' then some 2 else if c = 'u' then some 4 else if c = 'U' then some 8 else none

/-- Reads the values of some hexadecimal digits. -/
def readDigits (verbose : Bool) : Nat → List Char → Option (List Nat × List Char)
  | 0, s => some ([], s)
  | n + 1, s =>
    match skipGap verbose s with
    | [] => none
    | c :: rest => do
      let value ← hexValue? c
      let (values, rest) ← readDigits verbose n rest
      return (value :: values, rest)

/-- Reads what stands behind a backslash. -/
def readEscape (verbose : Bool) : List Char → Option (Escape × List Char)
  | [] => none
  | c :: s =>
    match digitCount? c with
    | none => (Escape.ofCharacter? c).map fun escape => (escape, s)
    | some count => do
      let (values, rest) ← readDigits verbose count s
      let character ← scalar? (ofDigits 16 values)
      return (.literal ⟨character, c == 'x'⟩, rest)

theorem readDigits_length {verbose : Bool} {n : Nat} {s rest : List Char} {values : List Nat}
    (h : readDigits verbose n s = some (values, rest)) : rest.length ≤ s.length := by
  induction n generalizing s rest values with
  | zero => simp_all [readDigits]
  | succ n ih =>
    rw [readDigits] at h
    split at h
    · cases h
    · rename_i c s' hs
      have hlt := lt_of_skipGap hs
      simp only [Option.bind_eq_bind, Option.bind_eq_some_iff, Option.pure_def,
        Option.some.injEq, Prod.mk.injEq, Prod.exists] at h
      obtain ⟨_, _, _, _, hr, _, rfl⟩ := h
      have := ih hr
      omega

theorem readEscape_length {verbose : Bool} {s rest : List Char} {escape : Escape}
    (h : readEscape verbose s = some (escape, rest)) : rest.length < s.length := by
  unfold readEscape at h
  split at h
  · cases h
  · split at h
    · obtain ⟨_, _, h⟩ := Option.map_eq_some_iff.1 h
      rw [← (Prod.mk.inj h).2]
      exact Nat.lt_succ_self _
    · simp only [Option.bind_eq_bind, Option.bind_eq_some_iff, Option.pure_def,
        Option.some.injEq, Prod.mk.injEq, Prod.exists] at h
      obtain ⟨_, _, hr, _, _, _, rfl⟩ := h
      exact Nat.lt_succ_of_le (readDigits_length hr)

end CaseReport.Diagnostic.Pattern
