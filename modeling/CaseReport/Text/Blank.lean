/-!
# Blank characters

A character is blank when Unicode gives it the property White_Space. Trimming removes blank
characters at both ends of a text and nothing else.
-/

namespace CaseReport.Text

/-- The Unicode property White_Space. -/
def isBlank (c : Char) : Bool :=
  let n := c.toNat
  (0x09 ≤ n && n ≤ 0x0D) || n == 0x20 || n == 0x85 || n == 0xA0 || n == 0x1680 ||
    (0x2000 ≤ n && n ≤ 0x200A) || n == 0x2028 || n == 0x2029 || n == 0x202F || n == 0x205F ||
    n == 0x3000

/-- Removes the blank characters in front. -/
def trimStart (s : List Char) : List Char :=
  s.dropWhile isBlank

/-- Removes the blank characters at the end. -/
def trimEnd (s : List Char) : List Char :=
  (s.reverse.dropWhile isBlank).reverse

/-- Removes the blank characters at both ends. -/
def trim (s : List Char) : List Char :=
  trimEnd (trimStart s)

theorem isBlank_of_isWhitespace {c : Char} (h : c.isWhitespace = true) : isBlank c = true := by
  simp only [Char.isWhitespace, Bool.or_eq_true, decide_eq_true_eq] at h
  rcases h with ((rfl | rfl) | rfl) | rfl <;> decide

@[simp] theorem trim_nil : trim [] = [] := rfl

theorem dropWhile_isBlank_eq_nil_iff {s : List Char} :
    s.dropWhile isBlank = [] ↔ ∀ c ∈ s, isBlank c = true := by
  induction s with
  | nil => simp
  | cons c s ih =>
    by_cases hc : isBlank c = true <;> simp [hc, ih]

/-- Trimming leaves nothing exactly of a text that is blank throughout. -/
theorem trim_eq_nil_iff {s : List Char} : trim s = [] ↔ ∀ c ∈ s, isBlank c = true := by
  rw [trim, trimEnd, List.reverse_eq_nil_iff, dropWhile_isBlank_eq_nil_iff]
  constructor
  · intro h
    rw [← dropWhile_isBlank_eq_nil_iff]
    cases hs : s.dropWhile isBlank with
    | nil => rfl
    | cons c t =>
      have hmem : c ∈ (trimStart s).reverse := by simp [trimStart, hs]
      have hhead := List.head?_dropWhile_not isBlank s
      rw [hs] at hhead
      simp [h c hmem] at hhead
  · intro h
    rw [trimStart, dropWhile_isBlank_eq_nil_iff.2 h]
    simp

end CaseReport.Text
