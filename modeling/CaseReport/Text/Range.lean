/-!
# Ranges of characters

A property of characters is given by the code points that have it, as closed ranges.
-/

namespace CaseReport.Text

/-- Whether a character lies in one of some closed ranges of code points. -/
def liesIn (ranges : List (Nat × Nat)) (c : Char) : Bool :=
  ranges.any fun range => range.1 ≤ c.toNat && c.toNat ≤ range.2

end CaseReport.Text
