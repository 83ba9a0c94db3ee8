import CaseReport.Json.Lexeme

/-!
# Passing over a value

A value that nobody wants is passed over by a machine with a stack of the brackets that are open.
The machine checks the form of the value at any depth of nesting, and keeps nothing of it.
-/

namespace CaseReport.Json

/-- An open bracket. -/
inductive Bracket where
  | list
  | object
  deriving Repr, DecidableEq

namespace Bracket

/-- The character that closes a bracket. -/
def closing : Bracket → Char
  | .list => ']'
  | .object => '}'

/-- What is missing when a text ends inside a bracket. -/
def atEnd : Bracket → Cause
  | .list => .endInList
  | .object => .endInObject

/-- What is wanted behind a member. -/
def commaOrEnd : Bracket → Cause
  | .list => .expectedListCommaOrEnd
  | .object => .expectedObjectCommaOrEnd

end Bracket

/-- Reads the colon behind a name. -/
def colon (s : List Char) : Except Failure (List Char) :=
  match skipSpace s with
  | [] => failAt .endInObject []
  | ':' :: s => .ok s
  | s => failAt .expectedColon s

/-- Passes over the name and the colon in front of a member. -/
def skipName (s : List Char) : Except Failure (List Char) :=
  match skipSpace s with
  | [] => failAt .endInObject []
  | '"' :: s =>
    match skipString s with
    | .error failure => .error failure
    | .ok s => colon s
  | s => failAt .keyNotString s

/-- What the machine waits for. -/
inductive Wait where
  /-- The start of a value. -/
  | value
  /-- The first member behind an opening bracket, or the closing one. -/
  | first
  /-- What may stand behind a value. -/
  | next
  deriving Repr, DecidableEq

/-- Waiting for a first member may turn into waiting for a value without reading anything. -/
def Wait.rank : Wait → Nat
  | .first => 1
  | _ => 0

/-- Passes over a value without brackets, given its first character and what follows. -/
def skipScalar (c : Char) (s : List Char) : Except Failure (List Char) :=
  if c = 'n' then literal ['u', 'l', 'l'] s
  else if c = 't' then literal ['r', 'u', 'e'] s
  else if c = 'f' then literal ['a', 'l', 's', 'e'] s
  else if c = '"' then skipString s
  else if c = '-' then skipNumber s
  else if Text.isDigit c then skipNumber (c :: s)
  else failAt .expectedValue (c :: s)

/-- Goes on to the value of the next member. -/
def skipToValue : Bracket → List Char → Except Failure (List Char)
  | .list, s => .ok s
  | .object, s => skipName s

theorem skipSpace_length (s : List Char) : (skipSpace s).length ≤ s.length :=
  length_dropWhile_le isSpace s

theorem literal_length {expected s rest : List Char} (h : literal expected s = .ok rest) :
    rest.length ≤ s.length := by
  induction expected generalizing s with
  | nil => cases h; exact Nat.le_refl _
  | cons e expected ih =>
    cases s with
    | nil => cases h
    | cons c s =>
      rw [literal] at h
      split at h
      · exact Nat.le_succ_of_le (ih h)
      · cases h

theorem colon_length {s rest : List Char} (h : colon s = .ok rest) : rest.length < s.length := by
  have hle := skipSpace_length s
  unfold colon at h
  split at h
  · cases h
  · next hs =>
    cases h
    rw [hs] at hle
    exact hle
  · cases h

theorem skipName_length {s rest : List Char} (h : skipName s = .ok rest) :
    rest.length < s.length := by
  have hle := skipSpace_length s
  unfold skipName at h
  split at h
  · cases h
  · next hs =>
    rw [hs] at hle
    split at h
    · cases h
    · next hk =>
      have h1 := skipString_length hk
      have h2 := colon_length h
      simp only [List.length_cons] at hle
      omega
  · cases h

theorem skipToValue_length {bracket : Bracket} {s rest : List Char}
    (h : skipToValue bracket s = .ok rest) : rest.length ≤ s.length := by
  cases bracket with
  | list => cases h; exact Nat.le_refl _
  | object => exact Nat.le_of_lt (skipName_length h)

theorem skipScalar_length {c : Char} {s rest : List Char} (h : skipScalar c s = .ok rest) :
    rest.length ≤ s.length := by
  unfold skipScalar at h
  split at h
  · exact literal_length h
  · split at h
    · exact literal_length h
    · split at h
      · exact literal_length h
      · split at h
        · exact Nat.le_of_lt (skipString_length h)
        · split at h
          · exact Nat.le_of_lt (skipNumber_length h)
          · split at h
            · exact Nat.le_of_lt_succ (skipNumber_length h)
            · cases h

/-- Runs the machine until the value that it started with is over. -/
def skipFrom : Wait → List Bracket → List Char → Except Failure (List Char)
  | .value, brackets, s =>
    match h : skipSpace s with
    | [] => failAt .endInValue []
    | c :: s' =>
      have hlt : s'.length < s.length := by
        have := skipSpace_length s
        rw [h] at this
        exact this
      if c = '[' then skipFrom .first (.list :: brackets) s'
      else if c = '{' then skipFrom .first (.object :: brackets) s'
      else
        match hk : skipScalar c s' with
        | .error failure => .error failure
        | .ok rest =>
          have := skipScalar_length hk
          skipFrom .next brackets rest
  | _, [], s => .ok s
  | .first, bracket :: brackets, s =>
    match h : skipSpace s with
    | [] => failAt bracket.atEnd []
    | c :: s' =>
      have hle : (c :: s').length ≤ s.length := h ▸ skipSpace_length s
      if c = bracket.closing then skipFrom .next brackets s'
      else
        match hk : skipToValue bracket (c :: s') with
        | .error failure => .error failure
        | .ok rest =>
          have := skipToValue_length hk
          skipFrom .value (bracket :: brackets) rest
  | .next, bracket :: brackets, s =>
    match h : skipSpace s with
    | [] => failAt bracket.atEnd []
    | c :: s' =>
      have hle : (c :: s').length ≤ s.length := h ▸ skipSpace_length s
      if c = ',' then
        match hk : skipToValue bracket s' with
        | .error failure => .error failure
        | .ok rest =>
          have := skipToValue_length hk
          skipFrom .value (bracket :: brackets) rest
      else if c = bracket.closing then skipFrom .next brackets s'
      else failAt bracket.commaOrEnd (c :: s')
termination_by wait _ s => 2 * s.length + wait.rank
decreasing_by all_goals simp only [Wait.rank, List.length_cons] at *; omega

/-- Passes over one value. -/
def skipValue (s : List Char) : Except Failure (List Char) :=
  skipFrom .value [] s

theorem skipFrom_length {wait : Wait} {brackets : List Bracket} {s rest : List Char}
    (h : skipFrom wait brackets s = .ok rest) : rest.length ≤ s.length := by
  fun_induction skipFrom wait brackets s with
  | case1 => cases h
  | case2 _ _ _ hs hlt ih => exact Nat.le_trans (ih h) (Nat.le_of_lt hlt)
  | case3 _ _ _ hs hlt _ ih => exact Nat.le_trans (ih h) (Nat.le_of_lt hlt)
  | case4 => cases h
  | case5 _ _ _ _ hs hlt _ _ _ hk hle ih =>
    exact Nat.le_trans (ih h) (Nat.le_trans hle (Nat.le_of_lt hlt))
  | case6 => cases h; exact Nat.le_refl _
  | case7 => cases h
  | case8 _ _ _ _ hs hle ih => exact Nat.le_trans (ih h) (Nat.le_of_succ_le hle)
  | case9 => cases h
  | case10 _ _ _ _ _ hs hle _ _ hk hle' ih =>
    exact Nat.le_trans (ih h) (Nat.le_trans hle' hle)
  | case11 => cases h
  | case12 => cases h
  | case13 _ _ _ _ _ hk hle' hs hle ih =>
    exact Nat.le_trans (ih h) (Nat.le_trans hle' (Nat.le_of_succ_le hle))
  | case14 _ _ _ _ hs hle _ ih => exact Nat.le_trans (ih h) (Nat.le_of_succ_le hle)
  | case15 => cases h

theorem skipValue_length {s rest : List Char} (h : skipValue s = .ok rest) :
    rest.length ≤ s.length :=
  skipFrom_length h

end CaseReport.Json
