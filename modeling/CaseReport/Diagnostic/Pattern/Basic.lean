/-!
# The parts of a pattern

A pattern is a choice between sequences of pieces. A piece is a character, a place in the text, a
class of characters, a repetition, a group, or a change of the flags that holds up to the end of
the group. The depth of a pattern counts what encloses what: choices and sequences of more than one
part, groups, repetitions, classes, and the operators between the parts of a class.
-/

namespace CaseReport.Diagnostic.Pattern

/-! ## Flags -/

/-- A switch that changes how a pattern is read, or what it matches. -/
inductive Flag where
  | ignoreCase
  | multiLine
  | dotMatchesLineEnds
  | swapGreed
  | unicode
  | carriageReturns
  | verbose
  deriving Repr, DecidableEq

/-- The flag that a letter stands for. -/
def Flag.ofLetter? (c : Char) : Option Flag :=
  if c = 'i' then some .ignoreCase
  else if c = 'm' then some .multiLine
  else if c = 's' then some .dotMatchesLineEnds
  else if c = 'U' then some .swapGreed
  else if c = 'u' then some .unicode
  else if c = 'R' then some .carriageReturns
  else if c = 'x' then some .verbose
  else none

/-- The flags that are turned on and those that are turned off. -/
structure Flags where
  on : List Flag := []
  off : List Flag := []
  deriving Repr, DecidableEq

/-- The state of a flag behind a change, if it was in the given state before. -/
def Flags.state (flags : Flags) (flag : Flag) (before : Bool) : Bool :=
  flags.on.contains flag || (before && !flags.off.contains flag)

/-! ## Characters and classes -/

/-- A character in a pattern. -/
structure Literal where
  character : Char
  /-- Whether it is given by the number of a byte. -/
  isByte : Bool := false
  deriving Repr, DecidableEq

/-- Whether two literals are the ends of a range. -/
def Literal.isRange (first last : Literal) : Bool :=
  first.character.toNat ≤ last.character.toNat

/-- What may stand in a class. -/
inductive ClassItem where
  | literal (literal : Literal)
  | range (first last : Literal)
  /-- A class of ASCII characters that is called by its name. -/
  | named (negated : Bool)
  /-- The digits, the blank characters, or the characters of words. -/
  | shorthand (negated : Bool)
  /-- A class in brackets, with operators between its parts. -/
  | bracketed (negated : Bool) (parts : List (List ClassItem))

/-- The depth of parts that stand side by side. A single part counts as it is. -/
def sideBySide (depths : List Nat) : Nat :=
  (if depths.length ≤ 1 then 0 else 1) + depths.foldr max 0

/-- The depth of operands, of which the first two are combined first. -/
def leftToRight : List Nat → Nat
  | [] => 0
  | first :: others => others.foldl (fun depth operand => 1 + max depth operand) first

mutual

/-- How deep brackets and operators are nested in an item. -/
def ClassItem.depth : ClassItem → Nat
  | .bracketed _ parts => 1 + leftToRight (partDepths parts)
  | _ => 0

/-- The depths of the parts of a class. -/
def partDepths : List (List ClassItem) → List Nat
  | [] => []
  | items :: parts => sideBySide (itemDepths items) :: partDepths parts

/-- The depths of items. -/
def itemDepths : List ClassItem → List Nat
  | [] => []
  | item :: items => item.depth :: itemDepths items

end

/-! ## Pieces -/

/-- A piece of a pattern. -/
inductive Piece where
  | literal (literal : Literal)
  /-- Any character. -/
  | anyCharacter
  /-- The start or the end of a line or of the text. -/
  | boundary
  /-- A place that depends on whether a word ends there. -/
  | wordBoundary
  /-- The digits, the blank characters, or the characters of words. -/
  | shorthand (negated : Bool)
  | oneOf (item : ClassItem)
  | changeFlags (flags : Flags)
  | repeated (piece : Piece)
  /-- A group, with the flags that it changes. -/
  | group (flags : Flags) (branches : List (List Piece))

mutual

/-- How deep a piece is nested. -/
def Piece.depth : Piece → Nat
  | .oneOf item => item.depth
  | .repeated piece => 1 + piece.depth
  | .group _ branches => 1 + sideBySide (branchDepths branches)
  | _ => 0

/-- The depths of the branches of a choice. -/
def branchDepths : List (List Piece) → List Nat
  | [] => []
  | pieces :: branches => sideBySide (pieceDepths pieces) :: branchDepths branches

/-- The depths of pieces. -/
def pieceDepths : List Piece → List Nat
  | [] => []
  | piece :: pieces => piece.depth :: pieceDepths pieces

end

end Pattern

/-- A pattern: a choice between sequences of pieces. -/
structure Pattern where
  branches : List (List Pattern.Piece)

/-- How deep a pattern is nested. -/
def Pattern.depth (pattern : Pattern) : Nat :=
  Pattern.sideBySide (Pattern.branchDepths pattern.branches)

end CaseReport.Diagnostic
