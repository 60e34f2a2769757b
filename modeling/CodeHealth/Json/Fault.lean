import CodeHealth.Text.Utf8

/-!
What can be wrong with a JSON text, and how it is told. A fault has a place: the line, and the
number of bytes of the line that were read.
-/

namespace CodeHealth.Json

inductive Fault where
  | endInList
  | endInObject
  | endInString
  | endInValue
  | expectedColon
  | expectedListCommaOrEnd
  | expectedObjectCommaOrEnd
  | expectedIdent
  | expectedValue
  | invalidEscape
  | invalidNumber
  | numberOutOfRange
  | controlCharacter
  | keyMustBeString
  | loneSurrogate
  | endOfHexEscape
  | trailingComma
  | trailingCharacters
  | tooDeep
  | wrongType (found expected : String)
  | wrongLength (found : Nat) (expected : String)
  | missingField (name : String)
  | duplicateField (name : String)
deriving DecidableEq, Repr

def Fault.message : Fault → String
  | .endInList => "EOF while parsing a list"
  | .endInObject => "EOF while parsing an object"
  | .endInString => "EOF while parsing a string"
  | .endInValue => "EOF while parsing a value"
  | .expectedColon => "expected `:`"
  | .expectedListCommaOrEnd => "expected `,` or `]`"
  | .expectedObjectCommaOrEnd => "expected `,` or `\x7d`"
  | .expectedIdent => "expected ident"
  | .expectedValue => "expected value"
  | .invalidEscape => "invalid escape"
  | .invalidNumber => "invalid number"
  | .numberOutOfRange => "number out of range"
  | .controlCharacter => "control character (\\u0000-\\u001F) found while parsing a string"
  | .keyMustBeString => "key must be a string"
  | .loneSurrogate => "lone leading surrogate in hex escape"
  | .endOfHexEscape => "unexpected end of hex escape"
  | .trailingComma => "trailing comma"
  | .trailingCharacters => "trailing characters"
  | .tooDeep => "recursion limit exceeded"
  | .wrongType found expected => "invalid type: " ++ found ++ ", expected " ++ expected
  | .wrongLength found expected => "invalid length " ++ toString found ++ ", expected " ++ expected
  | .missingField name => "missing field `" ++ name ++ "`"
  | .duplicateField name => "duplicate field `" ++ name ++ "`"

/-- A fault met while reading: what was not yet read, and how many bytes of it were looked at. -/
structure Stop where
  fault : Fault
  rest : List Char
  ahead : Nat

/-- The line, and the number of bytes in it, that stand before a byte offset. -/
def placeOf (line column : Nat) : Nat → List Char → Nat × Nat
  | 0, _ => (line, column)
  | _, [] => (line, column)
  | n + 1, c :: cs =>
    if c.utf8Size ≤ n + 1 then
      if c = '\n' then placeOf (line + 1) 0 (n + 1 - c.utf8Size) cs
      else placeOf line (column + c.utf8Size) (n + 1 - c.utf8Size) cs
    else (line, column + (n + 1))

/-- The text of a fault with its place in the text that was read. -/
def Stop.message (stop : Stop) (text : List Char) : String :=
  let read := Text.byteLength text - Text.byteLength stop.rest
  let offset := min (read + stop.ahead) (Text.byteLength text)
  let (line, column) := placeOf 1 0 offset text
  stop.fault.message ++ " at line " ++ toString line ++ " column " ++ toString column

end CodeHealth.Json
