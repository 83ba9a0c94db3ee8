import CaseReport.Diagnostic
import CaseReport.Diagnostic.Pattern
import CaseReport.Text.Blank

/-!
# Filters on diagnostics

A filter is a list of directives, separated by commas in its written form. A directive sets the
limit for the targets that start with a given text: `target=level`, or `target` for no limit, or
`level` for all targets. In brackets behind the target it may name a span of work or, in braces
inside them, a field. The directive with the longest matching text decides, of two with the same
text the one that names a field, of two that do so the one with the later name, and otherwise the
one that is written later. A diagnostic that no directive matches is silent. Levels are written as
words in any case, or as numbers from zero for silence to five for the least serious level.
-/

namespace CaseReport.Diagnostic

/-- The diagnostics that a directive speaks of. -/
inductive Scope where
  | all
  /-- Those that have a field of this name. -/
  | field (name : List Char)
  /-- Those that are told in certain spans of work. This program has no spans. -/
  | span
  deriving Repr, DecidableEq

/-- What may pass for the targets that start with a text. -/
structure Directive where
  target : List Char
  scope : Scope := .all
  /-- The highest rank that passes. -/
  limit : Nat
  deriving Repr, DecidableEq

/-- The directives of a filter, in the order in which they are written. -/
abbrev Filter := List Directive

/-- Whether a diagnostic is among those of a scope. -/
def Scope.covers (scope : Scope) (diagnostic : Diagnostic) : Bool :=
  match scope with
  | .all => true
  | .field name => diagnostic.fieldNames.any fun field => field.toList = name
  | .span => false

namespace Directive

/-- Whether a directive applies to a diagnostic. -/
def applies (directive : Directive) (diagnostic : Diagnostic) : Bool :=
  directive.target.isPrefixOf diagnostic.target.toList && directive.scope.covers diagnostic

/-- Whether one name is not later than another in the order of code points. -/
def isOrdered : List Char → List Char → Bool
  | [], _ => true
  | _ :: _, [] => false
  | a :: s, b :: t => a.toNat < b.toNat || (a == b && isOrdered s t)

/-- Whether a directive leaves the decision to a later one that applies as well. -/
def yieldsTo (earlier later : Directive) : Bool :=
  if earlier.target.length = later.target.length then
    match earlier.scope, later.scope with
    | .field a, .field b => isOrdered a b
    | .field _, _ => false
    | _, _ => true
  else earlier.target.length < later.target.length

end Directive

namespace Filter

/-- The directive that decides, out of one that does so far and another one. -/
def decisive (diagnostic : Diagnostic) (best : Option Directive) (directive : Directive) :
    Option Directive :=
  if directive.applies diagnostic then
    match best with
    | none => some directive
    | some b => if b.yieldsTo directive then some directive else some b
  else best

/-- The highest rank that passes for a diagnostic. -/
def limit (filter : Filter) (diagnostic : Diagnostic) : Nat :=
  ((filter.foldl (decisive diagnostic) none).map Directive.limit).getD 0

/-- Whether a diagnostic passes. -/
def passes (filter : Filter) (diagnostic : Diagnostic) : Bool :=
  diagnostic.level.rank ≤ filter.limit diagnostic

/-- The highest rank there is. -/
def noLimit : Nat := Level.trace.rank

/-- A number without the plus sign that may stand in front of it. -/
def unsigned : List Char → List Char
  | '+' :: digits => digits
  | digits => digits

/-- The limit that a text stands for. -/
def limitOf? (text : List Char) : Option Nat :=
  match Text.number? 10 (unsigned text) with
  | some n => if n ≤ noLimit then some n else none
  | none =>
    match String.ofList (text.map Char.toLower) with
    | "off" => some 0
    | "error" => some Level.error.rank
    | "warn" => some Level.warn.rank
    | "info" => some Level.info.rank
    | "debug" => some Level.debug.rank
    | "trace" => some Level.trace.rank
    | _ => none

/-- Whether a directive may start with a character. -/
def startsDirective (c : Char) : Bool :=
  Text.isAlphanumeric c || c == '-' || c == ':' || c == '_' || c == '['

/-- The limit that ends a directive, which is none if nothing or no level is given. A level cannot
be given if the directive is indented. -/
def finalLimit? (indented : Bool) (s : List Char) : Option Nat :=
  match s with
  | '=' :: level =>
    if indented then none else if level.isEmpty then some noLimit else limitOf? level
  | s => if (Text.trim s).isEmpty then some noLimit else none

/-- Whether a text is the exponent of a number, or nothing. -/
def isExponent : List Char → Bool
  | [] => true
  | c :: '-' :: s => (c == 'e' || c == 'E') && (Text.number? 10 s).isSome
  | c :: s => (c == 'e' || c == 'E') && (Text.number? 10 (unsigned s)).isSome

/-- Whether a text is a number with a plus sign. Other numbers can be told by their patterns. -/
def isPositiveNumber : List Char → Bool
  | '+' :: s =>
    let (fraction, exponent) :=
      match s.dropWhile Text.isDigit with
      | '.' :: t => (t.takeWhile Text.isDigit, t.dropWhile Text.isDigit)
      | t => ([], t)
    ["inf", "infinity", "nan"].contains (String.ofList (s.map Char.toLower)) ||
      (!(s.takeWhile Text.isDigit ++ fraction).isEmpty && isExponent exponent)
  | _ => false

/-- The scope of a field. One that is compared with a value belongs to spans. -/
def fieldScope? (field : List Char) : Option Scope :=
  match field.dropWhile (· != '=') with
  | [] => if field.isEmpty then none else some (.field field)
  | _ :: s =>
    let value := s.takeWhile (· != '=')
    if isPositiveNumber value || Pattern.isPattern value then some .span else none

/-- The length of a text in bytes. -/
def byteLength (s : List Char) : Nat :=
  s.foldl (fun length c => length + c.utf8Size) 0

/-- Drops characters up to a number of bytes. -/
def dropBytes : Nat → List Char → List Char
  | 0, s => s
  | _, [] => []
  | n, c :: s => dropBytes (n - c.utf8Size) s

/-- Takes characters up to a number of bytes. -/
def takeBytes : Nat → List Char → List Char
  | 0, _ => []
  | _, [] => []
  | n, c :: s => c :: takeBytes (n - c.utf8Size) s

/-- What a directive takes for a text within it. Places are counted from the first character that
is not blank, and looked up from the start of the directive. -/
def within (directive before text : List Char) : List Char :=
  takeBytes (byteLength text) (dropBytes (byteLength before) directive)

/-- Reads a scope whose opening bracket ends the given start of the directive. -/
def readScope (directive before s : List Char) : Option (Scope × List Char) :=
  let span := s.takeWhile fun c => c != ']' && c != '\x7b'
  match s.dropWhile fun c => c != ']' && c != '\x7b' with
  | ']' :: rest => some (.span, rest)
  | '\x7b' :: s => do
    let field := s.takeWhile (· != '\x7d')
    let scope ← fieldScope? (within directive (before ++ span ++ ['\x7b']) field)
    match s.dropWhile (· != '\x7d') with
    | '\x7d' :: ']' :: rest => return (if span.isEmpty then scope else .span, rest)
    | _ => none
  | _ => none

/-- The directive that a text stands for. Blank characters in front are passed over in finding out
what stands where, but they are part of its target. -/
def directive? (text : List Char) : Option Directive := do
  let body := Text.trimStart text
  let first ← body.head?
  let indented := text.head? != some first
  if !startsDirective first then none
  else
    let target := text.takeWhile fun c => c != '=' && c != '['
    match text.dropWhile fun c => c != '=' && c != '[' with
    | [] =>
      match limitOf? text with
      | some limit => return { target := [], limit }
      | none => return { target := text, limit := noLimit }
    | '[' :: s =>
      let (scope, rest) ← readScope text (Text.trimStart target ++ ['[']) s
      return { target, scope, limit := ← finalLimit? indented rest }
    | s => return { target, limit := ← finalLimit? indented s }

/-- The texts between commas. -/
def pieces : List Char → List (List Char)
  | [] => [[]]
  | ',' :: s => [] :: pieces s
  | c :: s =>
    match pieces s with
    | [] => [[c]]
    | p :: ps => (c :: p) :: ps

/-- The filter that a text stands for. Nothing between two commas is no directive. -/
def parse? (text : List Char) : Option Filter :=
  ((pieces text).filter (· ≠ [])).mapM directive?

/-- The directive for the targets of this program. -/
def ownTargets (level : Level) : Directive :=
  { target := "e2e_report".toList, limit := level.rank }

/-- The targets of this program up to `info`, and those of all others up to `warn`. -/
def standard : Filter :=
  [ownTargets .info, { target := [], limit := Level.warn.rank }]

/-- The targets of this program up to `debug`. -/
def detailed : Filter :=
  [ownTargets .debug]

/-- The filter for the text that a user gives, if any; a text that is no filter counts as none. -/
def ofText (text : Option String) : Filter :=
  (text.bind fun t => parse? t.toList).getD standard

end Filter

end CaseReport.Diagnostic
