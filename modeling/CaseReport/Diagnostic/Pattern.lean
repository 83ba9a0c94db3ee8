import CaseReport.Diagnostic.Pattern.Mode
import CaseReport.Diagnostic.Pattern.Parser

/-!
# Patterns

A filter may ask for fields whose value matches a pattern, a regular expression. No diagnostic of
this program is chosen in that way, so all that counts is whether a text is a pattern: it can be
read, it is not nested too deeply, and what it asks for can be matched.
-/

namespace CaseReport.Diagnostic.Pattern

/-- The greatest depth of a pattern. -/
def maxDepth : Nat := 250

/-- Whether a text is a pattern that can be used. -/
def isPattern (text : List Char) : Bool :=
  (parse? text).any fun pattern => pattern.depth ≤ maxDepth && pattern.isMatchable

end CaseReport.Diagnostic.Pattern
