/-!
# Faults of JSON text

A fault has a cause and a place.  The place is counted in bytes: the line is one more than the
number of line feeds before it, and the column is the number of bytes since the last of them.
-/

namespace Schemata.Json

/-- Why a text is not JSON. -/
inductive Cause where
  | endOfArray
  | endOfObject
  | endOfString
  | endOfText
  | expectedColon
  | expectedCommaOrBracket
  | expectedCommaOrBrace
  | expectedIdent
  | expectedValue
  | controlCharacter
  | invalidEscape
  | invalidNumber
  | numberOutOfRange
  | keyMustBeString
  | loneSurrogate
  | endOfHexEscape
  | trailingComma
  | trailingCharacters
  | nestedTooDeeply
  deriving DecidableEq, Repr

/-- The wording of a cause. -/
def Cause.message : Cause → String
  | endOfArray => "EOF while parsing a list"
  | endOfObject => "EOF while parsing an object"
  | endOfString => "EOF while parsing a string"
  | endOfText => "EOF while parsing a value"
  | expectedColon => "expected `:`"
  | expectedCommaOrBracket => "expected `,` or `]`"
  | expectedCommaOrBrace => "expected `,` or `\x7d`"
  | expectedIdent => "expected ident"
  | expectedValue => "expected value"
  | controlCharacter => "control character (\\u0000-\\u001F) found while parsing a string"
  | invalidEscape => "invalid escape"
  | invalidNumber => "invalid number"
  | numberOutOfRange => "number out of range"
  | keyMustBeString => "key must be a string"
  | loneSurrogate => "lone leading surrogate in hex escape"
  | endOfHexEscape => "unexpected end of hex escape"
  | trailingComma => "trailing comma"
  | trailingCharacters => "trailing characters"
  | nestedTooDeeply => "recursion limit exceeded"

/-- A cause with the line and the column at which it was noticed. -/
structure Fault where
  cause : Cause
  line : Nat
  column : Nat
  deriving DecidableEq, Repr

/-- The wording of a fault. -/
def Fault.message (f : Fault) : String :=
  f.cause.message ++ " at line " ++ Nat.repr f.line ++ " column " ++ Nat.repr f.column

/-- Where reading stopped: the unread rest of the text, and how many bytes of it belong to the
fault. -/
structure Stop where
  cause : Cause
  rest : List Char
  extra : Nat

/-- The number of bytes of a text in UTF-8. -/
def byteCount (text : List Char) : Nat :=
  text.foldl (fun n c => n + c.utf8Size) 0

/-- The place of a stop in the whole text: all bytes before the rest, and the extra ones of it. -/
def Stop.fault (text : List Char) (s : Stop) : Fault :=
  let total := byteCount text
  let offset := min total (total - byteCount s.rest + s.extra)
  let before := ((String.ofList text).toUTF8.toList).take offset
  { cause := s.cause
    line := 1 + before.count 10
    column := (before.reverse.takeWhile (· != 10)).length }

end Schemata.Json
