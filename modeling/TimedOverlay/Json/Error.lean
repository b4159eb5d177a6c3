/-
What can be wrong with a JSON text.

A cause is a value; its wording is in `Error.message` and nowhere else.
The causes fall into two kinds: the text is not JSON, or it is JSON that
does not have the form a reader asks for. Positions are not kept.
-/
import TimedOverlay.Decimal.Shortest
import TimedOverlay.Text.Shown

namespace TimedOverlay.Json

-- =============================================================== numbers

/-- A JSON number: exact where it is a whole number of 64 bits, a double
otherwise. -/
inductive Number where
  | integer (n : Int)
  | real (x : Binary64)
deriving DecidableEq

namespace Number

/-- The double nearest to a number. -/
def toBinary64 : Number → Binary64
  | .integer n => .ofInt n
  | .real x => x

/-- The number as JSON writes it. -/
def text : Number → String
  | .integer n => toString n
  | .real x => x.shortestText

end Number

-- ================================================================ causes

/-- What was seen where a reader wanted something else. -/
inductive Seen where
  | null
  | boolean (b : Bool)
  | number (n : Number)
  | string (s : String)
  | sequence
  | map
  | unitVariant
deriving DecidableEq

/-- Why a text could not be read. -/
inductive Error where
  | endOfValue
  | endOfArray
  | endOfObject
  | endOfString
  | expectedValue
  | expectedWord
  | expectedColon
  | expectedCommaOrBracket
  | expectedCommaOrBrace
  | trailingComma
  | trailingCharacters
  | keyNotString
  | invalidNumber
  | numberOutOfRange
  | invalidEscape
  | brokenPair
  | loneSurrogate
  | controlCharacter
  | tooDeep
  | duplicateField (name : String)
  | missingField (name : String)
  | unknownVariant (name : String) (variants : List String)
  | wrongType (seen : Seen) (expected : String)
  | wrongValue (seen : Seen) (expected : String)
  | wrongLength (length : Nat) (expected : String)
deriving DecidableEq

-- =============================================================== wording

/-- What was seen, in words. A null is told as such by every reader, also
by one that meets it in a value that was kept for it. -/
def Seen.describe : Seen → String
  | .null => "null"
  | .boolean b => "boolean `" ++ (if b then "true" else "false") ++ "`"
  | .number (.integer n) => "integer `" ++ toString n ++ "`"
  | .number (.real x) => "floating point `" ++ x.shortestText ++ "`"
  | .string s => "string " ++ Text.shown s
  | .sequence => "sequence"
  | .map => "map"
  | .unitVariant => "unit variant"

/-- The names a variant may have: two are joined by "or". -/
def oneOf : List String → String
  | [a] => "`" ++ a ++ "`"
  | [a, b] => "`" ++ a ++ "` or `" ++ b ++ "`"
  | names =>
    "one of " ++ String.intercalate ", " (names.map fun n => "`" ++ n ++ "`")

/-- A cause in words. -/
def Error.message : Error → String
  | .endOfValue => "EOF while parsing a value"
  | .endOfArray => "EOF while parsing a list"
  | .endOfObject => "EOF while parsing an object"
  | .endOfString => "EOF while parsing a string"
  | .expectedValue => "expected value"
  | .expectedWord => "expected ident"
  | .expectedColon => "expected `:`"
  | .expectedCommaOrBracket => "expected `,` or `]`"
  | .expectedCommaOrBrace => "expected `,` or `\x7d`"
  | .trailingComma => "trailing comma"
  | .trailingCharacters => "trailing characters"
  | .keyNotString => "key must be a string"
  | .invalidNumber => "invalid number"
  | .numberOutOfRange => "number out of range"
  | .invalidEscape => "invalid escape"
  | .brokenPair => "unexpected end of hex escape"
  | .loneSurrogate => "lone leading surrogate in hex escape"
  | .controlCharacter =>
    "control character (\\u0000-\\u001F) found while parsing a string"
  | .tooDeep => "recursion limit exceeded"
  | .duplicateField name => "duplicate field `" ++ name ++ "`"
  | .missingField name => "missing field `" ++ name ++ "`"
  | .unknownVariant name variants =>
    "unknown variant `" ++ name ++ "`, expected " ++ oneOf variants
  | .wrongType seen expected =>
    "invalid type: " ++ seen.describe ++ ", expected " ++ expected
  | .wrongValue seen expected =>
    "invalid value: " ++ seen.describe ++ ", expected " ++ expected
  | .wrongLength length expected =>
    "invalid length " ++ toString length ++ ", expected " ++ expected

end TimedOverlay.Json
