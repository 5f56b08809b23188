/-!
# What is wrong with a text that is not JSON

A `Cause` names the rule that a text breaks; a `Fault` says where, as the part of the text that
was still to be read. `Fault.locate` turns that into the line and the column that a message
shows (`Located.message`). Columns count bytes.
-/

namespace TriggerDesk.Json

/-- The rules that a text can break. -/
inductive Cause where
  | endInValue
  | endInText
  | endInArray
  | endInObject
  | notAValue
  | notALiteral
  | notANumeral
  | numberOutOfRange
  | controlCharacter
  | unknownEscape
  | loneSurrogate
  | unfinishedPair
  | noColon
  | noCommaInArray
  | noCommaInObject
  | nameNotText
  | trailingComma
  | tooDeep
  | trailingCharacters
  deriving DecidableEq, Repr

/-- The wording of a cause. -/
def Cause.message : Cause → String
  | endInValue => "EOF while parsing a value"
  | endInText => "EOF while parsing a string"
  | endInArray => "EOF while parsing a list"
  | endInObject => "EOF while parsing an object"
  | notAValue => "expected value"
  | notALiteral => "expected ident"
  | notANumeral => "invalid number"
  | numberOutOfRange => "number out of range"
  | controlCharacter => "control character (\\u0000-\\u001F) found while parsing a string"
  | unknownEscape => "invalid escape"
  | loneSurrogate => "lone leading surrogate in hex escape"
  | unfinishedPair => "unexpected end of hex escape"
  | noColon => "expected `:`"
  | noCommaInArray => "expected `,` or `]`"
  | noCommaInObject => "expected `,` or `\x7d`"
  | nameNotText => "key must be a string"
  | trailingComma => "trailing comma"
  | tooDeep => "recursion limit exceeded"
  | trailingCharacters => "trailing characters"

/-- A cause and its place: `past` bytes into `rest`, the characters that were still to be
read. -/
structure Fault where
  cause : Cause
  rest : List Char
  past : Nat
  deriving DecidableEq, Repr

/-- The fault of the first character of `rest`, or of the end of the text. Its place is just
behind the first byte of that character. -/
def Fault.here (cause : Cause) (rest : List Char) : Fault :=
  { cause, rest, past := if rest.isEmpty then 0 else 1 }

/-- The fault of what stands in front of `rest`. -/
def Fault.before (cause : Cause) (rest : List Char) : Fault :=
  { cause, rest, past := 0 }

/-- A cause with a line and a column. -/
structure Located where
  cause : Cause
  line : Nat
  column : Nat
  deriving DecidableEq, Repr

/-- The line and the column after some bytes: newlines passed, and bytes since the last one. -/
def placeAfter (bytes : List UInt8) : Nat × Nat :=
  bytes.foldl (fun (line, column) (b : UInt8) =>
    if b = 10 then (line + 1, 0) else (line, column + 1)) (1, 0)

/-- The bytes of characters in UTF-8. -/
def bytesOf (chars : List Char) : List UInt8 :=
  (String.ofList chars).toUTF8.toList

/-- The place of a fault in the text. -/
def Fault.locate (text : List Char) (fault : Fault) : Located :=
  let bytes := bytesOf text
  let unread := (bytesOf fault.rest).length
  let (line, column) := placeAfter (bytes.take (bytes.length - unread + fault.past))
  { cause := fault.cause, line, column }

/-- The message that tells the cause and the place. -/
def Located.message (located : Located) : String :=
  s!"{located.cause.message} at line {located.line} column {located.column}"

end TriggerDesk.Json
