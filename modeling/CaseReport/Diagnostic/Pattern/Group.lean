import CaseReport.Diagnostic.Pattern.Escape
import CaseReport.Text.Alphanumeric

/-!
# Starts of groups

An opening parenthesis starts a group, which may have a name or change flags, or it changes flags
for the rest of the group around it. Flags are letters. Those behind a dash are turned off, and
none may be given twice. Looking ahead and looking behind are not known.
-/

namespace CaseReport.Diagnostic.Pattern

open Text

/-- The flags that some letters stand for. -/
def Flags.ofLetters? (letters : List Char) : Option Flags :=
  if letters.Nodup ∧ letters.getLast? ≠ some '-' then do
    let on ← (letters.takeWhile (· != '-')).mapM Flag.ofLetter?
    let off ← (letters.dropWhile (· != '-')).tail.mapM Flag.ofLetter?
    return { on, off }
  else none

/-- Whether a text can be the name of a group. -/
def isGroupName : List Char → Bool
  | [] => false
  | c :: s =>
    (c == '_' || isAlphabetic c) &&
      s.all fun d => d == '_' || d == '.' || d == '[' || d == ']' || isAlphanumeric d

/-- What an opening parenthesis starts. -/
inductive GroupStart where
  /-- A change of flags that holds for the rest of the group around it. -/
  | change (flags : Flags)
  | group (name : Option (List Char)) (flags : Flags)
  deriving Repr, DecidableEq

/-- Reads the name of a group. -/
def readGroupName (s : List Char) : Option (GroupStart × List Char) :=
  match s.dropWhile (· != '>') with
  | [] => none
  | _ :: rest =>
    let name := s.takeWhile (· != '>')
    if isGroupName name then some (.group (some name) {}, rest) else none

/-- Whether a character ends flags. -/
def endsFlags (c : Char) : Bool := c == ':' || c == ')'

/-- Reads flags and the character that ends them. -/
def readFlags (s : List Char) : Option (GroupStart × List Char) :=
  let letters := s.takeWhile fun c => !endsFlags c
  match s.dropWhile fun c => !endsFlags c with
  | [] => none
  | c :: rest => do
    let flags ← Flags.ofLetters? letters
    if c = ':' then return (.group none flags, rest)
    else if letters.isEmpty then none
    else return (.change flags, rest)

/-- Reads the start of a group whose parenthesis has been read. -/
def readGroupStart (verbose : Bool) (s : List Char) : Option (GroupStart × List Char) :=
  match skipGap verbose s with
  | '?' :: 'P' :: '<' :: rest => readGroupName rest
  | '?' :: '<' :: rest => readGroupName rest
  | '?' :: rest => readFlags rest
  | rest => some (.group none {}, rest)

theorem readGroupName_length {s rest : List Char} {start : GroupStart}
    (h : readGroupName s = some (start, rest)) : rest.length ≤ s.length := by
  have hle := (List.dropWhile_suffix (· != '>') (l := s)).length_le
  unfold readGroupName at h
  split at h
  · cases h
  · rename_i hd
    rw [hd] at hle
    dsimp only at h
    split at h
    · simp only [Option.some.injEq, Prod.mk.injEq] at h
      rw [← h.2]
      exact Nat.le_of_succ_le hle
    · cases h

theorem readFlags_length {s rest : List Char} {start : GroupStart}
    (h : readFlags s = some (start, rest)) : rest.length ≤ s.length := by
  have hle := (List.dropWhile_suffix (fun c => !endsFlags c) (l := s)).length_le
  unfold readFlags at h
  dsimp only at h
  split at h
  · cases h
  · rename_i hd
    rw [hd] at hle
    simp only [Option.bind_eq_bind, Option.bind_eq_some_iff, Option.pure_def] at h
    obtain ⟨_, _, h⟩ := h
    split at h
    · simp only [Option.some.injEq, Prod.mk.injEq] at h
      rw [← h.2]
      exact Nat.le_of_succ_le hle
    · split at h
      · cases h
      · simp only [Option.some.injEq, Prod.mk.injEq] at h
        rw [← h.2]
        exact Nat.le_of_succ_le hle

theorem readGroupStart_length {verbose : Bool} {s rest : List Char} {start : GroupStart}
    (h : readGroupStart verbose s = some (start, rest)) : rest.length ≤ s.length := by
  have hle := skipGap_length verbose s
  unfold readGroupStart at h
  split at h
  · rename_i hs
    have := readGroupName_length h
    simp only [hs, List.length_cons] at hle
    omega
  · rename_i hs
    have := readGroupName_length h
    simp only [hs, List.length_cons] at hle
    omega
  · rename_i hs
    have := readFlags_length h
    simp only [hs, List.length_cons] at hle
    omega
  · simp only [Option.some.injEq, Prod.mk.injEq] at h
    rw [← h.2]
    exact hle

end CaseReport.Diagnostic.Pattern
