import KeyLens.Json.Reader

/-!
# Skipping values

A value that nobody asks for is skipped. It has to be well formed, but its texts may name half of a
surrogate pair, its numbers may be of any size, and values may stand inside of one another to any
depth.
-/

namespace KeyLens.Json

/-- The rest behind a quoted text that is skipped, after its opening mark. -/
def skipQuotedIn : Nat → List Char → Except Failure (List Char)
  | 0, text => .error (.before .endInString text)
  | _ + 1, [] => .error (.before .endInString [])
  | steps + 1, c :: rest =>
    if c = '"' then .ok rest
    else if c = '\\' then
      match rest with
      | [] => .error (.before .endInString [])
      | e :: rest =>
        if e = 'u' then do
          let (_, rest) ← readUnit rest
          skipQuotedIn steps rest
        else if ['"', '\\', '/', 'b', 'f', 'n', 'r', 't'].contains e then skipQuotedIn steps rest
        else .error (.inside .badEscape (e :: rest))
    else if c.toNat < 0x20 then .error (.before .controlCharacter (c :: rest))
    else skipQuotedIn steps rest

/-- The rest behind a quoted text that is skipped, after its opening mark. -/
def skipQuoted (text : List Char) : Except Failure (List Char) :=
  skipQuotedIn (text.length + 1) text

/-- The rest behind digits, of which there has to be one. -/
def skipDigits : List Char → Except Failure (List Char)
  | [] => .error (.inside .badNumber [])
  | c :: rest =>
    if c.isDigit then .ok (rest.dropWhile Char.isDigit) else .error (.inside .badNumber (c :: rest))

/-- The rest behind an exponent, if one follows. -/
def skipExponent : List Char → Except Failure (List Char)
  | [] => .ok []
  | c :: rest =>
    if c = 'e' ∨ c = 'E' then skipDigits (readSign rest).2 else .ok (c :: rest)

/-- The rest behind decimals and an exponent, if they follow. -/
def skipFraction : List Char → Except Failure (List Char)
  | '.' :: rest => do skipExponent (← skipDigits rest)
  | text => skipExponent text

/-- The rest behind a number that is skipped, after its sign. -/
def skipNumber : List Char → Except Failure (List Char)
  | '0' :: c :: rest =>
    if c.isDigit then .error (.inside .badNumber (c :: rest)) else skipFraction (c :: rest)
  | text => do skipFraction (← skipDigits text)

/-- What surrounds a value. -/
inductive Frame where
  /-- A row of values. -/
  | row
  /-- An object. -/
  | object
  deriving Repr, DecidableEq

namespace Frame

/-- The bracket that ends the values inside. -/
def closing : Frame → Char
  | row => ']'
  | object => '\x7d'

/-- The failure of a text that ends inside. -/
def ended : Frame → Cause
  | row => .endInArray
  | object => .endInObject

/-- The failure of a text in which neither a comma nor a bracket follows a value inside. -/
def unseparated : Frame → Cause
  | row => .noCommaOrBracket
  | object => .noCommaOrBrace

end Frame

/-- What follows a value or an opening bracket, inside of `frames` from the innermost one: none
with the rest behind the last closing bracket, or the frames inside of which another value starts.
Commas and first values are told apart by `separated`. -/
def skipClosings (separated : Bool) : List Frame → List Char →
    Except Failure (List Frame × List Char)
  | [], text => .ok ([], text)
  | frame :: outer, text =>
    match skipSpace text with
    | [] => .error (.before frame.ended [])
    | c :: rest =>
      if separated ∧ c = ',' then .ok (frame :: outer, rest)
      else if c = frame.closing then skipClosings true outer rest
      else if separated then .error (.inside frame.unseparated (c :: rest))
      else .ok (frame :: outer, c :: rest)

/-- The rest behind a name and its colon. -/
def skipName (text : List Char) : Except Failure (List Char) :=
  match skipSpace text with
  | [] => .error (.before .endInObject [])
  | c :: rest =>
    if c = '"' then do readColon (← skipQuoted rest)
    else .error (.inside .nameNotQuoted (c :: rest))

/-- The frame that a value opens, or none, and the rest behind the value or its opening bracket. -/
def skipStart (text : List Char) : Except Failure (Option Frame × List Char) :=
  match skipSpace text with
  | [] => .error (.before .endInValue [])
  | c :: rest =>
    if c = 'n' then do pure (none, ← readWord ['u', 'l', 'l'] rest)
    else if c = 't' then do pure (none, ← readWord ['r', 'u', 'e'] rest)
    else if c = 'f' then do pure (none, ← readWord ['a', 'l', 's', 'e'] rest)
    else if c = '-' then do pure (none, ← skipNumber rest)
    else if c.isDigit then do pure (none, ← skipNumber (c :: rest))
    else if c = '"' then do pure (none, ← skipQuoted rest)
    else if c = '[' then .ok (some .row, rest)
    else if c = '\x7b' then .ok (some .object, rest)
    else .error (.inside .noValue (c :: rest))

/-- The rest behind a value inside of `frames`, and behind all of them. The number bounds the
values; a text as long as it holds no more. -/
def skipIn : Nat → List Frame → List Char → Except Failure (List Char)
  | 0, _, text => .error (.before .endInValue text)
  | steps + 1, frames, text => do
    let (opened, rest) ← skipStart text
    let (frames, rest) ← skipClosings opened.isNone (opened.toList ++ frames) rest
    match frames with
    | [] => pure rest
    | .row :: _ => skipIn steps frames rest
    | .object :: _ => skipIn steps frames (← skipName rest)

/-- The rest behind a value that is skipped. -/
def skip (text : List Char) : Except Failure (List Char) :=
  skipIn (text.length + 1) [] text

end KeyLens.Json
