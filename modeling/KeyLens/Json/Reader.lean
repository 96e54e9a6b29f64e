import KeyLens.Json.Basic
import KeyLens.Json.Failure

/-!
# Reading documents

A document is read from left to right, and each reader returns the value with the text after it.
Values may stand inside of one another up to a fixed depth, and the last value of a repeated name
counts.
-/

namespace KeyLens.Json

/-- A blank between the parts of a document. -/
def isSpace (c : Char) : Bool :=
  c == ' ' || c == '\n' || c == '\t' || c == '\r'

/-- The text after its leading blanks. -/
def skipSpace (text : List Char) : List Char :=
  text.dropWhile isSpace

/-- The text after the rest of a known word. -/
def readWord : List Char → List Char → Except Failure (List Char)
  | [], text => .ok text
  | _ :: _, [] => .error (.before .endInValue [])
  | w :: word, c :: rest =>
    if c = w then readWord word rest else .error (.inside .unknownWord (c :: rest))

/-- The value of a digit of either case below sixteen. -/
def hexValue? (c : Char) : Option Nat :=
  if '0' ≤ c ∧ c ≤ '9' then some (c.toNat - 48)
  else if 'a' ≤ c ∧ c ≤ 'f' then some (c.toNat - 87)
  else if 'A' ≤ c ∧ c ≤ 'F' then some (c.toNat - 55)
  else none

/-- The unit that four digits spell, after `\u`. -/
def readUnit (text : List Char) : Except Failure (Nat × List Char) :=
  let bytes := byteLength text
  if bytes < 4 then .error ⟨.endInString, 0⟩
  else match text with
    | a :: b :: c :: d :: rest =>
      match hexValue? a, hexValue? b, hexValue? c, hexValue? d with
      | some a, some b, some c, some d => .ok (((a * 16 + b) * 16 + c) * 16 + d, rest)
      | _, _, _, _ => .error ⟨.badEscape, bytes - 4⟩
    | _ => .error ⟨.badEscape, bytes - 4⟩

/-- Whether a unit is the first half of a surrogate pair. -/
def isHighSurrogate (unit : Nat) : Bool :=
  0xD800 ≤ unit && unit ≤ 0xDBFF

/-- Whether a unit is the second half of a surrogate pair. -/
def isLowSurrogate (unit : Nat) : Bool :=
  0xDC00 ≤ unit && unit ≤ 0xDFFF

/-- The text after a character that has to follow the first half of a pair. -/
def readPairMark (mark : Char) : List Char → Except Failure (List Char)
  | [] => .error (.before .endInString [])
  | c :: rest => if c = mark then .ok rest else .error (.inside .pairNotContinued (c :: rest))

/-- The character that an escape with four digits stands for, or two of them that form a pair. -/
def readUnicode (text : List Char) : Except Failure (Char × List Char) := do
  let (first, rest) ← readUnit text
  if isLowSurrogate first then throw (.before .loneSurrogate rest)
  if isHighSurrogate first then
    let rest ← readPairMark '\\' rest
    let rest ← readPairMark 'u' rest
    let (second, rest) ← readUnit rest
    if isLowSurrogate second then
      pure (Char.ofNat ((first - 0xD800) * 1024 + (second - 0xDC00) + 0x10000), rest)
    else throw (.before .loneSurrogate rest)
  else pure (Char.ofNat first, rest)

/-- The character that the text after a backslash stands for. -/
def readEscape : List Char → Except Failure (Char × List Char)
  | [] => .error (.before .endInString [])
  | c :: rest =>
    if c = '"' ∨ c = '\\' ∨ c = '/' then .ok (c, rest)
    else if c = 'b' then .ok ('\x08', rest)
    else if c = 'f' then .ok ('\x0c', rest)
    else if c = 'n' then .ok ('\n', rest)
    else if c = 'r' then .ok ('\r', rest)
    else if c = 't' then .ok ('\t', rest)
    else if c = 'u' then readUnicode rest
    else .error (.inside .badEscape (c :: rest))

/-- The rest of a quoted text up to its closing mark. The number bounds the steps; a text as long
as it is read whole. -/
def readQuotedIn : Nat → List Char → Except Failure (List Char × List Char)
  | 0, text => .error (.before .endInString text)
  | _ + 1, [] => .error (.before .endInString [])
  | steps + 1, c :: rest =>
    if c = '"' then .ok ([], rest)
    else if c = '\\' then do
      let (escaped, rest) ← readEscape rest
      let (text, rest) ← readQuotedIn steps rest
      pure (escaped :: text, rest)
    else if c.toNat < 0x20 then .error (.inside .controlCharacter (c :: rest))
    else do
      let (text, rest) ← readQuotedIn steps rest
      pure (c :: text, rest)

/-- The rest of a quoted text, after its opening mark. -/
def readQuoted (text : List Char) : Except Failure (String × List Char) := do
  let (chars, rest) ← readQuotedIn (text.length + 1) text
  pure (String.ofList chars, rest)

/-- The greatest whole number that is kept digit by digit. -/
def greatestWhole : Nat := 18446744073709551615

/-- The greatest exponent that is kept digit by digit. -/
def greatestExponent : Nat := 2147483647

/-- Adds leading digits of a text to a number as long as it does not pass `limit`, and counts
them. -/
def addDigits (limit : Nat) (value count : Nat) : List Char → (Nat × Nat) × List Char
  | [] => ((value, count), [])
  | c :: rest =>
    if c.isDigit ∧ value * 10 + (c.toNat - 48) ≤ limit then
      addDigits limit (value * 10 + (c.toNat - 48)) (count + 1) rest
    else ((value, count), c :: rest)

/-- The number that a significand and a power of ten give. -/
def readScaled (negative : Bool) (significand : Nat) (power : Int) (rest : List Char) :
    Except Failure (Number × List Char) :=
  match Binary64.ofDecimal? negative significand power with
  | some value => .ok (.binary value, rest)
  | none => .error (.before .tooLarge rest)

/-- The text after an optional sign, and whether the sign is a minus. -/
def readSign : List Char → Bool × List Char
  | '+' :: rest => (false, rest)
  | '-' :: rest => (true, rest)
  | text => (false, text)

/-- A number whose exponent follows, after the letter that starts it. -/
def readExponent (negative : Bool) (significand : Nat) (power : Int) (text : List Char) :
    Except Failure (Number × List Char) :=
  let (minus, text) := readSign text
  match text with
  | [] => .error (.before .endInValue [])
  | c :: rest =>
    if c.isDigit then
      let ((exponent, _), rest) := addDigits greatestExponent (c.toNat - 48) 0 rest
      match rest with
      | d :: after =>
        if d.isDigit then
          if significand ≠ 0 ∧ !minus then .error (.before .tooLarge after)
          else .ok (.binary { Binary64.zero with negative := negative },
            after.dropWhile Char.isDigit)
        else readScaled negative significand (if minus then power - exponent else power + exponent)
          rest
      | [] =>
        readScaled negative significand (if minus then power - exponent else power + exponent) rest
    else .error (.inside .badNumber (c :: rest))

/-- A number whose significand is complete. -/
def readPower (negative : Bool) (significand : Nat) (power : Int) :
    List Char → Except Failure (Number × List Char)
  | [] => readScaled negative significand power []
  | c :: rest =>
    if c = 'e' ∨ c = 'E' then readExponent negative significand power rest
    else readScaled negative significand power (c :: rest)

/-- A number whose decimals follow, after its point. Digits beyond the greatest significand do not
count. -/
def readDecimals (negative : Bool) (significand : Nat) (power : Int) (text : List Char) :
    Except Failure (Number × List Char) :=
  let ((significand, count), rest) := addDigits greatestWhole significand 0 text
  match rest with
  | [] =>
    if count = 0 then .error (.before .endInValue [])
    else readPower negative significand (power - count) []
  | c :: after =>
    if c.isDigit then
      readPower negative significand (power - count) (after.dropWhile Char.isDigit)
    else if count = 0 then .error (.inside .badNumber (c :: after))
    else readPower negative significand (power - count) (c :: after)

/-- A whole number; below the least one of sixty-four bits, and for zero with a sign, a binary
one. -/
def wholeNumber (negative : Bool) (significand : Nat) : Number :=
  if negative then
    if significand = 0 ∨ significand > 9223372036854775808 then
      match Binary64.ofDecimal? true significand 0 with
      | some value => .binary value
      | none => .whole (-significand)
    else .whole (-significand)
  else .whole significand

/-- A number whose leading digits are read: the whole ones that are kept, and how many others
follow them. -/
def readFraction (negative : Bool) (significand dropped : Nat) (text : List Char) :
    Except Failure (Number × List Char) :=
  match text with
  | '.' :: rest => readDecimals negative significand dropped rest
  | _ =>
    match text with
    | c :: rest =>
      if c = 'e' ∨ c = 'E' then readExponent negative significand dropped rest
      else if dropped = 0 then .ok (wholeNumber negative significand, c :: rest)
      else readScaled negative significand dropped (c :: rest)
    | [] =>
      if dropped = 0 then .ok (wholeNumber negative significand, [])
      else readScaled negative significand dropped []

/-- A number after its sign. -/
def readNumber (negative : Bool) : List Char → Except Failure (Number × List Char)
  | [] => .error (.before .endInValue [])
  | c :: rest =>
    if c = '0' then
      match rest with
      | d :: after =>
        if d.isDigit then .error (.inside .badNumber (d :: after))
        else readFraction negative 0 0 (d :: after)
      | [] => readFraction negative 0 0 []
    else if c.isDigit then
      let ((significand, _), rest) := addDigits greatestWhole (c.toNat - 48) 0 rest
      readFraction negative significand (rest.takeWhile Char.isDigit).length
        (rest.dropWhile Char.isDigit)
    else .error (.inside .badNumber (c :: rest))

/-- Whether another item follows in a row: the text at which it starts, or none with the text after
the closing bracket. -/
def nextItem (isFirst : Bool) (text : List Char) : Except Failure (Option (List Char)) :=
  match skipSpace text with
  | [] => .error (.before .endInArray [])
  | c :: rest =>
    if c = ']' then .ok none
    else if isFirst then .ok (some (c :: rest))
    else if c = ',' then
      match skipSpace rest with
      | [] => .error (.before .endInValue [])
      | d :: after =>
        if d = ']' then .error (.inside .trailingComma (d :: after)) else .ok (some (d :: after))
    else .error (.inside .noCommaOrBracket (c :: rest))

/-- Whether another member follows in an object: the text after the mark that opens its name, or
none with the text at the closing brace. -/
def nextName (isFirst : Bool) (text : List Char) : Except Failure (Option (List Char)) :=
  match skipSpace text with
  | [] => .error (.before .endInObject [])
  | c :: rest =>
    if c = '\x7d' then .ok none
    else if isFirst then
      if c = '"' then .ok (some rest) else .error (.inside .nameNotQuoted (c :: rest))
    else if c = ',' then
      match skipSpace rest with
      | [] => .error (.before .endInValue [])
      | d :: after =>
        if d = '"' then .ok (some after)
        else if d = '\x7d' then .error (.inside .trailingComma (d :: after))
        else .error (.inside .nameNotQuoted (d :: after))
    else .error (.inside .noCommaOrBrace (c :: rest))

/-- The text after the colon that follows a name. -/
def readColon (text : List Char) : Except Failure (List Char) :=
  match skipSpace text with
  | [] => .error (.before .endInObject [])
  | c :: rest => if c = ':' then .ok rest else .error (.inside .noColon (c :: rest))

/-- The text after a closing character that has just been seen. -/
def afterClosing (text : List Char) : List Char :=
  (skipSpace text).drop 1

/-- The items of a row up to its closing bracket, each read by `read`. The number bounds the items;
a text as long as it holds no more. -/
def readItems {α : Type} (read : List Char → Except Failure (α × List Char)) (isFirst : Bool) :
    Nat → List Char → Except Failure (List α × List Char)
  | 0, text => .error (.before .endInArray text)
  | steps + 1, text => do
    match ← nextItem isFirst text with
    | none => pure ([], afterClosing text)
    | some start =>
      let (item, rest) ← read start
      let (items, rest) ← readItems read false steps rest
      pure (item :: items, rest)

/-- The members of an object up to its closing brace, their values read by `read`. The number
bounds the members; a text as long as it holds no more. -/
def readMembers {α : Type} (read : List Char → Except Failure (α × List Char)) (isFirst : Bool) :
    Nat → List Char → Except Failure (List (String × α) × List Char)
  | 0, text => .error (.before .endInObject text)
  | steps + 1, text => do
    match ← nextName isFirst text with
    | none => pure ([], afterClosing text)
    | some start =>
      let (name, rest) ← readQuoted start
      let rest ← readColon rest
      let (value, rest) ← read rest
      let (members, rest) ← readMembers read false steps rest
      pure ((name, value) :: members, rest)

/-- How many values may stand inside of one another. -/
def greatestDepth : Nat := 127

/-- A value in which others may be nested `depth` deep. -/
def readValue : Nat → List Char → Except Failure (Json × List Char)
  | depth, text =>
    match skipSpace text with
    | [] => .error (.before .endInValue [])
    | c :: rest =>
      if c = 'n' then do pure (null, ← readWord ['u', 'l', 'l'] rest)
      else if c = 't' then do pure (bool true, ← readWord ['r', 'u', 'e'] rest)
      else if c = 'f' then do pure (bool false, ← readWord ['a', 'l', 's', 'e'] rest)
      else if c = '-' then do
        let (value, rest) ← readNumber true rest
        pure (number value, rest)
      else if c.isDigit then do
        let (value, rest) ← readNumber false (c :: rest)
        pure (number value, rest)
      else if c = '"' then do
        let (value, rest) ← readQuoted rest
        pure (string value, rest)
      else if c = '[' then
        match depth with
        | 0 => .error (.inside .tooDeep (c :: rest))
        | depth + 1 => do
          let (items, rest) ← readItems (readValue depth) true (rest.length + 1) rest
          pure (array items, rest)
      else if c = '\x7b' then
        match depth with
        | 0 => .error (.inside .tooDeep (c :: rest))
        | depth + 1 => do
          let (members, rest) ← readMembers (readValue depth) true (rest.length + 1) rest
          pure (object (ofMembers members), rest)
      else .error (.inside .noValue (c :: rest))

/-- Nothing but blanks may follow. -/
def readEnd (text : List Char) : Except Failure Unit :=
  match skipSpace text with
  | [] => .ok ()
  | c :: rest => .error (.inside .trailingText (c :: rest))

/-- The document that a text spells. -/
def read (text : String) : Except Failure Json := do
  let (value, rest) ← readValue greatestDepth text.toList
  readEnd rest
  pure value

end KeyLens.Json
