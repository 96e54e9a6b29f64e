import KeyLens.Text.Printable

/-!
# Quoted texts in messages

Messages show a path or a value between quotation marks. A character without a form of its own is
shown by its number.
-/

namespace KeyLens.Text

/-- The number of a character in braces, as an escape. -/
def numberEscape (c : Char) : List Char :=
  ['\\', 'u', '\x7b'] ++ Nat.toDigits 16 c.toNat ++ ['\x7d']

/-- The form of a character between quotation marks. A backslash stands before the characters in
`marked`. -/
def shown (marked : List Char) (c : Char) : List Char :=
  if c = Char.ofNat 0 then ['\\', '0']
  else if c = '\t' then ['\\', 't']
  else if c = '\r' then ['\\', 'r']
  else if c = '\n' then ['\\', 'n']
  else if c ∈ marked then ['\\', c]
  else if isPrintable c then [c]
  else numberEscape c

/-- A value between quotation marks. -/
def quotedValue (text : String) : String :=
  String.ofList ('"' :: (text.toList.flatMap (shown ['\\', '"']) ++ ['"']))

/-- A path between quotation marks; an apostrophe in it is marked too. -/
def quotedPath (text : String) : String :=
  String.ofList ('"' :: (text.toList.flatMap (shown ['\\', '"', '\'']) ++ ['"']))

end KeyLens.Text
