import KeyLens.Source.Bytes

/-!
# Failures of reading a document

Why a text is no document, or not the expected one, and where that shows. Places are given by the
number of bytes that follow them, and turned into a line and a column at the end.
-/

namespace KeyLens.Json

/-- Why reading fails. -/
inductive Cause where
  /-- The text ends inside of a row. -/
  | endInArray
  /-- The text ends inside of an object. -/
  | endInObject
  /-- The text ends inside of a quoted text. -/
  | endInString
  /-- The text ends where a value should stand. -/
  | endInValue
  /-- No colon follows a name. -/
  | noColon
  /-- Neither a comma nor a bracket follows an item. -/
  | noCommaOrBracket
  /-- Neither a comma nor a brace follows a member. -/
  | noCommaOrBrace
  /-- A word other than the three known ones. -/
  | unknownWord
  /-- No value starts here. -/
  | noValue
  /-- A backslash before a character that has no such form. -/
  | badEscape
  /-- A number without digits where some are needed, or with a leading zero. -/
  | badNumber
  /-- A number that is too large. -/
  | tooLarge
  /-- A control character inside of a quoted text. -/
  | controlCharacter
  /-- A name that is not quoted. -/
  | nameNotQuoted
  /-- Half of a surrogate pair. -/
  | loneSurrogate
  /-- The first half of a surrogate pair without an escape after it. -/
  | pairNotContinued
  /-- A comma before the closing bracket. -/
  | trailingComma
  /-- More text after the value. -/
  | trailingText
  /-- Too many values inside of one another. -/
  | tooDeep
  /-- A value of another kind than the expected one. -/
  | otherKind (found expected : String)
  /-- A member that may stand once stands twice. -/
  | repeatedField (name : String)
  /-- A member that has to be there is not. -/
  | noField (name : String)
  /-- A value of the right kind out of the expected range. -/
  | otherValue (found expected : String)
  /-- A row of another length than the expected one. -/
  | otherLength (found : Nat) (expected : String)
  deriving Repr, DecidableEq

/-- The words for a cause. -/
def Cause.message : Cause → String
  | endInArray => "EOF while parsing a list"
  | endInObject => "EOF while parsing an object"
  | endInString => "EOF while parsing a string"
  | endInValue => "EOF while parsing a value"
  | noColon => "expected \x60:\x60"
  | noCommaOrBracket => "expected \x60,\x60 or \x60]\x60"
  | noCommaOrBrace => "expected \x60,\x60 or \x60\x7d\x60"
  | unknownWord => "expected ident"
  | noValue => "expected value"
  | badEscape => "invalid escape"
  | badNumber => "invalid number"
  | tooLarge => "number out of range"
  | controlCharacter => "control character (\\u0000-\\u001F) found while parsing a string"
  | nameNotQuoted => "key must be a string"
  | loneSurrogate => "lone leading surrogate in hex escape"
  | pairNotContinued => "unexpected end of hex escape"
  | trailingComma => "trailing comma"
  | trailingText => "trailing characters"
  | tooDeep => "recursion limit exceeded"
  | otherKind found expected => "invalid type: " ++ found ++ ", expected " ++ expected
  | repeatedField name => "duplicate field \x60" ++ name ++ "\x60"
  | noField name => "missing field \x60" ++ name ++ "\x60"
  | otherValue found expected => "invalid value: " ++ found ++ ", expected " ++ expected
  | otherLength found expected =>
    "invalid length " ++ toString found ++ ", expected " ++ expected

/-- A cause and its place, given by the number of bytes after it. -/
structure Failure where
  /-- Why reading fails. -/
  cause : Cause
  /-- How many bytes follow the place. -/
  remaining : Nat
  deriving Repr, DecidableEq

/-- The failure right before the text `rest`. -/
def Failure.before (cause : Cause) (rest : List Char) : Failure :=
  ⟨cause, byteLength rest⟩

/-- The failure behind the first byte of the text `rest`. -/
def Failure.inside (cause : Cause) (rest : List Char) : Failure :=
  ⟨cause, byteLength rest - 1⟩

/-- The line and the column of a byte offset, where lines count from one and columns count the
bytes since the start of the line. -/
def lineAndByte (line column : Nat) : List Char → Nat → Nat × Nat
  | [], _ => (line, column)
  | c :: rest, offset =>
    if offset < c.utf8Size then (line, column + offset)
    else if c = '\n' then lineAndByte (line + 1) 0 rest (offset - c.utf8Size)
    else lineAndByte line (column + c.utf8Size) rest (offset - c.utf8Size)

/-- The words for a failure in the given text, with its place. -/
def Failure.message (failure : Failure) (text : String) : String :=
  let chars := text.toList
  let (line, column) := lineAndByte 1 0 chars (byteLength chars - failure.remaining)
  failure.cause.message ++ " at line " ++ toString line ++ " column " ++ toString column

end KeyLens.Json
