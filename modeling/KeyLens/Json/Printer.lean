import KeyLens.Json.Basic
import KeyLens.Json.Shortest

/-!
# Printing documents

A document is printed either in one line without blanks, or with every value on a line of its own
that two blanks per level set in.
-/

namespace KeyLens.Json

/-- The lower-case digit of a value below sixteen. -/
def hexDigit (n : Nat) : Char :=
  Nat.digitChar n

/-- The form of a character inside a quoted text. -/
def escapedChar (c : Char) : List Char :=
  if c = '"' then ['\\', '"']
  else if c = '\\' then ['\\', '\\']
  else if c = '\x08' then ['\\', 'b']
  else if c = '\t' then ['\\', 't']
  else if c = '\n' then ['\\', 'n']
  else if c = '\x0c' then ['\\', 'f']
  else if c = '\r' then ['\\', 'r']
  else if c.toNat < 0x20 then
    ['\\', 'u', '0', '0', hexDigit (c.toNat / 16), hexDigit (c.toNat % 16)]
  else [c]

/-- A text between quotation marks. -/
def quotedText (text : List Char) : List Char :=
  '"' :: (text.flatMap escapedChar ++ ['"'])

/-- The text of a whole number. -/
def wholeText (value : Int) : List Char :=
  if value < 0 then '-' :: decimalDigits value.natAbs else decimalDigits value.natAbs

/-- The text of a number. -/
def numberText : Number → List Char
  | .whole value => wholeText value
  | .binary value => value.text

/-- The text of a value that has no parts. -/
def boolText (value : Bool) : List Char :=
  if value then ['t', 'r', 'u', 'e'] else ['f', 'a', 'l', 's', 'e']

/-- Parts with a separator between neighbours. -/
def separated (separator : List Char) : List (List Char) → List Char
  | [] => []
  | [part] => part
  | part :: parts => part ++ separator ++ separated separator parts

mutual

/-- The text of a value in one line. -/
def compactChars : Json → List Char
  | null => ['n', 'u', 'l', 'l']
  | bool value => boolText value
  | number value => numberText value
  | string value => quotedText value.toList
  | array items => '[' :: (separated [','] (compactItems items) ++ [']'])
  | object members => '\x7b' :: (separated [','] (compactMembers members) ++ ['\x7d'])

/-- The texts of the items of a row. -/
def compactItems : List Json → List (List Char)
  | [] => []
  | item :: rest => compactChars item :: compactItems rest

/-- The texts of the members of an object. -/
def compactMembers : List (String × Json) → List (List Char)
  | [] => []
  | (name, value) :: rest =>
    (quotedText name.toList ++ ':' :: compactChars value) :: compactMembers rest

end

/-- A line break and the indentation of a level. -/
def newLine (level : Nat) : List Char :=
  '\n' :: List.replicate (2 * level) ' '

/-- Parts on lines of their own between two brackets; without parts the brackets stand together. -/
def block (level : Nat) (opening closing : Char) (parts : List (List Char)) : List Char :=
  if parts = [] then [opening, closing]
  else opening :: (newLine (level + 1) ++ separated (',' :: newLine (level + 1)) parts ++
    newLine level ++ [closing])

mutual

/-- The text of a value in lines, inside of `level` others. -/
def prettyChars (level : Nat) : Json → List Char
  | null => ['n', 'u', 'l', 'l']
  | bool value => boolText value
  | number value => numberText value
  | string value => quotedText value.toList
  | array items => block level '[' ']' (prettyItems (level + 1) items)
  | object members => block level '\x7b' '\x7d' (prettyMembers (level + 1) members)

/-- The texts of the items of a row. -/
def prettyItems (level : Nat) : List Json → List (List Char)
  | [] => []
  | item :: rest => prettyChars level item :: prettyItems level rest

/-- The texts of the members of an object. -/
def prettyMembers (level : Nat) : List (String × Json) → List (List Char)
  | [] => []
  | (name, value) :: rest =>
    (quotedText name.toList ++ ':' :: ' ' :: prettyChars level value) ::
      prettyMembers level rest

end

/-- A document in one line. -/
def compact (value : Json) : String :=
  String.ofList (compactChars value)

/-- A document in lines. -/
def pretty (value : Json) : String :=
  String.ofList (prettyChars 0 value)

end KeyLens.Json
