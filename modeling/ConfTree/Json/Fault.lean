/-
Module: ConfTree.Json.Fault
Purpose: Why and where a text is not JSON.
Main exports:
  Json.Cause, Json.Cause.message, Json.SyntaxError, Json.SyntaxError.message,
  Json.Fault, Json.Fault.locate
-/

namespace ConfTree.Json

/-!
A reader that meets something wrong knows the cause, the text that it has not read
yet, and how many bytes of it already belong to the fault.  Only when the whole
text is at hand is that turned into a line and a column: `Fault.locate` counts the
lines before the offending byte, and the bytes since the last of them.
-/

/-- What is wrong with a text. -/
inductive Cause where
  | endInValue
  | endInString
  | endInArray
  | endInObject
  | expectedValue
  | expectedWord
  | expectedColon
  | expectedCommaOrBracket
  | expectedCommaOrBrace
  | keyNotString
  | trailingComma
  | trailingCharacters
  | tooDeep
  | invalidNumber
  | numberOutOfRange
  | invalidEscape
  | loneSurrogate
  | endInSurrogatePair
  | controlCharacter
  /-- A name outside a closed list of names. -/
  | unknownVariant (name : String) (known : List String)
  /-- A value of another type than the reader wants. -/
  | invalidType (found wanted : String)
deriving Repr, DecidableEq

/-- The wording of a cause. -/
def Cause.message : Cause → String
  | endInValue => "EOF while parsing a value"
  | endInString => "EOF while parsing a string"
  | endInArray => "EOF while parsing a list"
  | endInObject => "EOF while parsing an object"
  | expectedValue => "expected value"
  | expectedWord => "expected ident"
  | expectedColon => "expected `:`"
  | expectedCommaOrBracket => "expected `,` or `]`"
  | expectedCommaOrBrace => "expected `,` or `\x7d`"
  | keyNotString => "key must be a string"
  | trailingComma => "trailing comma"
  | trailingCharacters => "trailing characters"
  | tooDeep => "recursion limit exceeded"
  | invalidNumber => "invalid number"
  | numberOutOfRange => "number out of range"
  | invalidEscape => "invalid escape"
  | loneSurrogate => "lone leading surrogate in hex escape"
  | endInSurrogatePair => "unexpected end of hex escape"
  | controlCharacter =>
      "control character (\\u0000-\\u001F) found while parsing a string"
  | unknownVariant name known =>
      "unknown variant `" ++ name ++ "`, expected one of " ++
        String.intercalate ", " (known.map fun other => "`" ++ other ++ "`")
  | invalidType found wanted => "invalid type: " ++ found ++ ", expected " ++ wanted

/-- A cause with its place in the text. -/
structure SyntaxError where
  cause : Cause
  /-- Counted from one. -/
  line : Nat
  /-- The bytes since the last end of line. -/
  column : Nat
deriving Repr, DecidableEq

/-- The wording of an error. -/
def SyntaxError.message (error : SyntaxError) : String :=
  error.cause.message ++ " at line " ++ toString error.line ++
    " column " ++ toString error.column

/-- A cause as the reader meets it. -/
structure Fault where
  cause : Cause
  /-- The text that has not been read. -/
  rest : List Char
  /-- How many bytes of the unread text belong to the fault. -/
  ahead : Nat
deriving Repr, DecidableEq

/-- The length of a text in bytes. -/
def byteCount (text : List Char) : Nat :=
  text.foldl (fun count c => count + c.utf8Size) 0

/-- The line and the column after that many bytes of a text. -/
def placeAfter : Nat → List Char → Nat → Nat → Nat × Nat
  | _, [], line, column => (line, column)
  | bytes, c :: rest, line, column =>
      if bytes < c.utf8Size then (line, column + bytes)
      else if c = '\n' then placeAfter (bytes - 1) rest (line + 1) 0
      else placeAfter (bytes - c.utf8Size) rest line (column + c.utf8Size)

/-- The error that a fault makes in the whole text. -/
def Fault.locate (fault : Fault) (text : List Char) : SyntaxError :=
  let total := byteCount text
  let place := placeAfter (min total (total - byteCount fault.rest + fault.ahead)) text 1 0
  { cause := fault.cause, line := place.1, column := place.2 }

end ConfTree.Json
