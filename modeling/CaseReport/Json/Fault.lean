import CaseReport.Decimal.Shortest
import CaseReport.Text.Quoted
import CaseReport.Text.Utf8

/-!
# Faults in a JSON text

A reader fails with a cause and the place where it fails. The place is kept as the part of the text
that is left there, and the number of further bytes that the reader has looked at; its line and
column are counted once the whole text is known.
-/

namespace CaseReport.Json

/-- A number, as far as messages tell numbers apart. -/
inductive Number where
  | integer (value : Int)
  | floating (negative : Bool) (magnitude : Decimal.Binary64)
  deriving Repr, DecidableEq

/-- A value that is not of the kind that is wanted. -/
inductive Found where
  | null
  | boolean (value : Bool)
  | number (value : Number)
  | string (value : String)
  | list
  | object
  deriving Repr, DecidableEq

/-- The text of a value in a message. -/
def Found.text : Found → String
  | .null => "null"
  | .boolean true => "boolean `true`"
  | .boolean false => "boolean `false`"
  | .number (.integer value) => "integer `" ++ toString value ++ "`"
  | .number (.floating negative magnitude) =>
    "floating point `" ++ (if negative then "-" else "") ++ Decimal.text magnitude ++ "`"
  | .string value => "string " ++ Text.quoted value
  | .list => "sequence"
  | .object => "map"

/-- Why a reader fails. -/
inductive Cause where
  | endInValue
  | endInList
  | endInObject
  | endInString
  | expectedValue
  | expectedLiteral
  | expectedColon
  | expectedListCommaOrEnd
  | expectedObjectCommaOrEnd
  | trailingComma
  | trailingCharacters
  | keyNotString
  | invalidNumber
  | numberOutOfRange
  | invalidEscape
  | endOfHexEscape
  | loneSurrogate
  | controlCharacter
  /-- A value of another kind than the one named. -/
  | unexpected (found : Found) (wanted : String)
  /-- A list with too few elements for what is named. -/
  | tooShort (length : Nat) (wanted : String)
  | missingField (name : String)
  | duplicateField (name : String)
  deriving Repr, DecidableEq

/-- The text of a cause. -/
def Cause.text : Cause → String
  | .endInValue => "EOF while parsing a value"
  | .endInList => "EOF while parsing a list"
  | .endInObject => "EOF while parsing an object"
  | .endInString => "EOF while parsing a string"
  | .expectedValue => "expected value"
  | .expectedLiteral => "expected ident"
  | .expectedColon => "expected `:`"
  | .expectedListCommaOrEnd => "expected `,` or `]`"
  | .expectedObjectCommaOrEnd => "expected `,` or `\x7d`"
  | .trailingComma => "trailing comma"
  | .trailingCharacters => "trailing characters"
  | .keyNotString => "key must be a string"
  | .invalidNumber => "invalid number"
  | .numberOutOfRange => "number out of range"
  | .invalidEscape => "invalid escape"
  | .endOfHexEscape => "unexpected end of hex escape"
  | .loneSurrogate => "lone leading surrogate in hex escape"
  | .controlCharacter => "control character (\\u0000-\\u001F) found while parsing a string"
  | .unexpected found wanted => "invalid type: " ++ found.text ++ ", expected " ++ wanted
  | .tooShort length wanted => "invalid length " ++ toString length ++ ", expected " ++ wanted
  | .missingField name => "missing field `" ++ name ++ "`"
  | .duplicateField name => "duplicate field `" ++ name ++ "`"

/-- A cause and the place of it: what is left of the text, and how many bytes of that have been
looked at. -/
structure Failure where
  cause : Cause
  rest : List Char
  ahead : Nat
  deriving Repr, DecidableEq

/-- The result of reading something from the front of a text: the value and what is left. -/
abbrev Reading (α : Type) := Except Failure (α × List Char)

/-- Fails after what has been read. -/
def failAfter (cause : Cause) (rest : List Char) : Except Failure α :=
  .error ⟨cause, rest, 0⟩

/-- Fails at the next byte, if there is one. -/
def failAt (cause : Cause) (rest : List Char) : Except Failure α :=
  .error ⟨cause, rest, 1⟩

/-- A cause with the line and the column of its place. -/
structure Fault where
  cause : Cause
  line : Nat
  column : Nat
  deriving Repr, DecidableEq

/-- The whole message of a fault. -/
def Fault.text (fault : Fault) : String :=
  fault.cause.text ++ " at line " ++ toString fault.line ++ " column " ++ toString fault.column

/-- The fault of a failure in a text. Lines are counted from one; the column is the number of bytes
since the last line feed. -/
def Failure.locate (text : List Char) (failure : Failure) : Fault :=
  let bytes := Text.Utf8.encode text
  let left := (Text.Utf8.encode failure.rest).length
  let read := bytes.take (bytes.length - left + failure.ahead)
  ⟨failure.cause, read.count 0x0A + 1, (read.reverse.takeWhile (· != 0x0A)).length⟩

end CaseReport.Json
