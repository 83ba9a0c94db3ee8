import CaseReport.Diagnostic.Pattern.Basic

/-!
# Patterns that can be matched

Texts are matched as characters of Unicode, or as bytes if the flag for Unicode is off. No tables of
Unicode are at hand: with Unicode on, cases cannot be ignored, and digits, blank characters and
words are not known. With Unicode off only ASCII characters can be in a class, and nothing may match
a byte that is not ASCII.
-/

namespace CaseReport.Diagnostic

namespace Pattern

/-- The flags that decide what can be matched. -/
structure Mode where
  ignoreCase : Bool := false
  unicode : Bool := true
  deriving Repr, DecidableEq

/-- The mode behind a change of flags. -/
def Mode.change (mode : Mode) (flags : Flags) : Mode where
  ignoreCase := flags.state .ignoreCase mode.ignoreCase
  unicode := flags.state .unicode mode.unicode

/-- Whether a character is one of ASCII. -/
def Literal.isAscii (literal : Literal) : Bool :=
  literal.character.toNat < 0x80

namespace Mode

/-- Whether a literal can be matched. A byte that is not ASCII is no text. -/
def admitsLiteral (mode : Mode) (literal : Literal) : Bool :=
  if mode.unicode then !mode.ignoreCase else !literal.isByte || literal.isAscii

/-- Whether a literal can stand in a class. -/
def admitsMember (mode : Mode) (literal : Literal) : Bool :=
  if mode.unicode then !mode.ignoreCase else literal.isAscii

/-- Whether digits, blank characters and the like can be matched. -/
def admitsShorthand (mode : Mode) (negated : Bool) : Bool :=
  !mode.unicode && !negated

/-- Whether a named class can be matched. -/
def admitsNamed (mode : Mode) (negated : Bool) : Bool :=
  if mode.unicode then !mode.ignoreCase else !negated

mutual

/-- Whether an item of a class can be matched. -/
def admitsItem (mode : Mode) : ClassItem → Bool
  | .literal literal => mode.admitsMember literal
  | .range first last => mode.admitsMember first && mode.admitsMember last
  | .named negated => mode.admitsNamed negated
  | .shorthand negated => mode.admitsShorthand negated
  | .bracketed negated parts => (mode.unicode || !negated) && mode.admitsParts parts

/-- Whether all parts of a class can be matched. -/
def admitsParts (mode : Mode) : List (List ClassItem) → Bool
  | [] => true
  | items :: parts => mode.admitsItems items && mode.admitsParts parts

/-- Whether some items can be matched. -/
def admitsItems (mode : Mode) : List ClassItem → Bool
  | [] => true
  | item :: items => mode.admitsItem item && mode.admitsItems items

end

end Mode

mutual

/-- The mode behind a piece, if the piece can be matched in the given mode. -/
def Piece.modeAfter? (mode : Mode) : Piece → Option Mode
  | .literal literal => if mode.admitsLiteral literal then some mode else none
  | .anyCharacter => if mode.unicode then some mode else none
  | .boundary => some mode
  | .wordBoundary => if mode.unicode then none else some mode
  | .shorthand negated => if mode.admitsShorthand negated then some mode else none
  | .oneOf item => if mode.admitsItem item then some mode else none
  | .changeFlags flags => some (mode.change flags)
  | .repeated piece => piece.modeAfter? mode
  | .group flags branches => (branchesModeAfter? (mode.change flags) branches).map fun _ => mode

/-- The mode behind all branches. -/
def branchesModeAfter? (mode : Mode) : List (List Piece) → Option Mode
  | [] => some mode
  | pieces :: branches =>
    match piecesModeAfter? mode pieces with
    | none => none
    | some behind => branchesModeAfter? behind branches

/-- The mode behind a sequence of pieces. -/
def piecesModeAfter? (mode : Mode) : List Piece → Option Mode
  | [] => some mode
  | piece :: pieces =>
    match piece.modeAfter? mode with
    | none => none
    | some behind => piecesModeAfter? behind pieces

end

end Pattern

/-- Whether a pattern can be matched. -/
def Pattern.isMatchable (pattern : Pattern) : Bool :=
  (Pattern.branchesModeAfter? {} pattern.branches).isSome

end CaseReport.Diagnostic
