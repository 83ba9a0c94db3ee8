import CaseReport.Text.Graphic

/-!
# Quoted texts

A text is shown between double quotes. A quote and a backslash get a backslash in front, the
characters NUL, tab, line feed and carriage return are written as a letter or digit after a
backslash, and any other character that is not graphic is written by its number.
-/

namespace CaseReport.Text

/-- The digits of a number in base sixteen, in lower case. -/
def hexadecimal (n : Nat) : String :=
  String.ofList (Nat.toDigits 16 n)

/-- How a character is written between quotes. -/
def quotedChar (c : Char) : String :=
  if c = '"' then "\\\""
  else if c = '\\' then "\\\\"
  else if c = '\x00' then "\\0"
  else if c = '\t' then "\\t"
  else if c = '\n' then "\\n"
  else if c = '\r' then "\\r"
  else if isGraphic c then c.toString
  else "\\u\x7b" ++ hexadecimal c.toNat ++ "\x7d"

/-- The quoted form of a text. -/
def quoted (s : String) : String :=
  "\"" ++ String.join (s.toList.map quotedChar) ++ "\""

/-- The quoted form of a path, in which a single quote has a backslash in front as well. -/
def quotedPath (path : String) : String :=
  "\"" ++ String.join (path.toList.map fun c => if c = '\x27' then "\\'" else quotedChar c) ++ "\""

end CaseReport.Text
