import CaseReport.Diagnostic.Pattern.Class
import CaseReport.Diagnostic.Pattern.Group

/-!
# Reading patterns

A pattern is read from left to right with a stack of the groups that are open. A vertical bar starts
another branch, a closing parenthesis ends a group, and a star, a plus or a question mark repeats
the piece in front of it, which must be there and no change of flags. Counted repetitions are not
available. No two groups may have the same name.
-/

namespace CaseReport.Diagnostic

namespace Pattern

/-- A group whose end has not been read. -/
structure OpenGroup where
  /-- The flags that the group changes. -/
  flags : Flags := {}
  /-- Whether what follows is verbose. -/
  verbose : Bool := false
  /-- The branches that have been read, the last one first. -/
  branches : List (List Piece) := []
  /-- The pieces of the branch that is being read, the last one first. -/
  pieces : List Piece := []

namespace OpenGroup

/-- Adds a piece. -/
def push (group : OpenGroup) (piece : Piece) : OpenGroup :=
  { group with pieces := piece :: group.pieces }

/-- Changes the flags for what follows. -/
def change (group : OpenGroup) (flags : Flags) : OpenGroup :=
  { group.push (.changeFlags flags) with verbose := flags.state .verbose group.verbose }

/-- Starts another branch. -/
def nextBranch (group : OpenGroup) : OpenGroup :=
  { group with branches := group.pieces.reverse :: group.branches, pieces := [] }

/-- The branches if the group ends here. -/
def allBranches (group : OpenGroup) : List (List Piece) :=
  (group.pieces.reverse :: group.branches).reverse

/-- Repeats the last piece. -/
def repeat? (group : OpenGroup) : Option OpenGroup :=
  match group.pieces with
  | [] => none
  | .changeFlags _ :: _ => none
  | piece :: pieces => some { group with pieces := .repeated piece :: pieces }

end OpenGroup

/-- A pattern whose end has not been read. -/
structure OpenPattern where
  /-- The names of groups so far. -/
  names : List (List Char) := []
  /-- The groups around the innermost one, from the inside. -/
  outer : List OpenGroup := []
  inner : OpenGroup := {}

namespace OpenPattern

/-- Adds a piece. -/
def push (p : OpenPattern) (piece : Piece) : OpenPattern :=
  { p with inner := p.inner.push piece }

/-- Starts a group or changes flags. -/
def start? (p : OpenPattern) : GroupStart → Option OpenPattern
  | .change flags => some { p with inner := p.inner.change flags }
  | .group name flags =>
    if name.any p.names.contains then none
    else some {
      names := name.toList ++ p.names
      outer := p.inner :: p.outer
      inner := { flags, verbose := flags.state .verbose p.inner.verbose } }

/-- Ends the innermost group. -/
def close? (p : OpenPattern) : Option OpenPattern :=
  match p.outer with
  | [] => none
  | group :: outer =>
    some { p with outer, inner := group.push (.group p.inner.flags p.inner.allBranches) }

/-- The pattern, if it may end here. -/
def finish? (p : OpenPattern) : Option Pattern :=
  if p.outer.isEmpty then some ⟨p.inner.allBranches⟩ else none

end OpenPattern

/-- The piece that an escape stands for. -/
def Escape.piece : Escape → Piece
  | .literal character => .literal character
  | .shorthand negated => .shorthand negated
  | .boundary => .boundary
  | .wordBoundary => .wordBoundary

/-- The piece that a character without a part in the grammar stands for. -/
def Piece.ofCharacter (c : Char) : Piece :=
  if c = '.' then .anyCharacter
  else if c = '^' ∨ c = '$' then .boundary
  else .literal ⟨c, false⟩

/-- Reads a piece or a sign that starts with a given character. -/
def OpenPattern.read (p : OpenPattern) (c : Char) (s : List Char) :
    Option (OpenPattern × List Char) :=
  if c = '(' then do
    let (start, rest) ← readGroupStart p.inner.verbose s
    return (← p.start? start, rest)
  else if c = ')' then p.close?.map fun p => (p, s)
  else if c = '|' then some ({ p with inner := p.inner.nextBranch }, s)
  else if c = '[' then
    (readClass p.inner.verbose s).map fun (item, rest) => (p.push (.oneOf item), rest)
  else if c = '*' ∨ c = '+' ∨ c = '?' then
    p.inner.repeat?.map fun inner => ({ p with inner }, if s.head? = some '?' then s.tail else s)
  else if c = '\x7b' then none
  else if c = '\\' then
    (readEscape p.inner.verbose s).map fun (escape, rest) => (p.push escape.piece, rest)
  else some (p.push (.ofCharacter c), s)

theorem OpenPattern.read_length {p q : OpenPattern} {c : Char} {s rest : List Char}
    (h : p.read c s = some (q, rest)) : rest.length ≤ s.length := by
  unfold OpenPattern.read at h
  split at h
  · simp only [Option.bind_eq_bind, Option.bind_eq_some_iff, Option.pure_def, Option.some.injEq,
      Prod.mk.injEq, Prod.exists] at h
    obtain ⟨_, _, hr, _, _, _, rfl⟩ := h
    exact readGroupStart_length hr
  split at h
  · obtain ⟨_, _, h⟩ := Option.map_eq_some_iff.1 h
    exact Nat.le_of_eq (congrArg List.length (Prod.mk.inj h).2.symm)
  split at h
  · simp only [Option.some.injEq, Prod.mk.injEq] at h
    exact Nat.le_of_eq (congrArg List.length h.2.symm)
  split at h
  · obtain ⟨⟨_, _⟩, hr, h⟩ := Option.map_eq_some_iff.1 h
    rw [← (Prod.mk.inj h).2]
    exact readClass_length hr
  split at h
  · obtain ⟨_, _, h⟩ := Option.map_eq_some_iff.1 h
    rw [← (Prod.mk.inj h).2]
    split
    · rw [List.length_tail]
      exact Nat.sub_le ..
    · exact Nat.le_refl _
  split at h
  · cases h
  split at h
  · obtain ⟨⟨_, _⟩, hr, h⟩ := Option.map_eq_some_iff.1 h
    rw [← (Prod.mk.inj h).2]
    exact Nat.le_of_lt (readEscape_length hr)
  · simp only [Option.some.injEq, Prod.mk.injEq] at h
    exact Nat.le_of_eq (congrArg List.length h.2.symm)

/-- Reads the rest of a pattern. -/
def OpenPattern.complete? (p : OpenPattern) (s : List Char) : Option Pattern :=
  match hs : skipGap p.inner.verbose s with
  | [] => p.finish?
  | c :: t =>
    have := lt_of_skipGap hs
    match ht : p.read c t with
    | none => none
    | some (q, rest) =>
      have := OpenPattern.read_length ht
      q.complete? rest
termination_by s.length

end Pattern

/-- The pattern that a text stands for. -/
def Pattern.parse? (text : List Char) : Option Pattern :=
  Pattern.OpenPattern.complete? {} text

end CaseReport.Diagnostic
