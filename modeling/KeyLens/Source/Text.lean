import KeyLens.Source.Bytes
import KeyLens.Source.Span
import KeyLens.Text.Blank

/-!
# Source texts

A source text answers where a byte offset lies as a line and a column, and back. Lines end with
a line feed, both numbers start at one, and a column counts characters.
-/

namespace KeyLens

/-- A place in a text as its line and its column, both counted from one. -/
structure Position where
  /-- The number of the line. -/
  line : Nat
  /-- The number of the character within the line. -/
  column : Nat
  deriving Repr, DecidableEq

/-- A position written with a colon between line and column. -/
def Position.display (position : Position) : String :=
  toString position.line ++ ":" ++ toString position.column

/-- The position after a character that stands at `position`. -/
def Position.after (position : Position) (c : Char) : Position :=
  if c = '\n' then ⟨position.line + 1, 1⟩ else ⟨position.line, position.column + 1⟩

/-- The lines of a text: the pieces between its line feeds. -/
def linesOf (text : List Char) : List (List Char) :=
  List.splitOn '\n' text

/-- The text of a program. -/
structure SourceText where
  /-- All of its characters. -/
  text : String
  deriving Repr, DecidableEq

namespace SourceText

/-- The number of bytes of the text. -/
def length (source : SourceText) : Nat :=
  byteLength source.text.toList

/-- The text before `offset`; an offset inside a character stands for the character's start, one
past the end for the end. -/
def preceding (source : SourceText) (offset : Nat) : String :=
  String.ofList (takeBytes source.text.toList offset)

/-- The characters of a span; none if an end of it cuts a character or lies outside. -/
def sliceChars? (text : List Char) (span : Span) : Option (List Char) :=
  if span.start ≤ span.stop then
    (splitAtByte? text span.start).bind fun (_, after) =>
      (splitAtByte? after (span.stop - span.start)).map Prod.fst
  else none

/-- The text of a span; none if an end of it cuts a character or lies outside. -/
def slice? (source : SourceText) (span : Span) : Option String :=
  (sliceChars? source.text.toList span).map String.ofList

/-- The position of the character before which the characters `before` stand. -/
def positionAfter (before : List Char) : Position :=
  before.foldl Position.after ⟨1, 1⟩

/-- The position of a byte offset; none inside a character and past the end. -/
def position? (source : SourceText) (offset : Nat) : Option Position :=
  (splitAtByte? source.text.toList offset).map fun (before, _) => positionAfter before

/-- The byte offset at which the line of the given index, counted from zero, starts, together
with its text. -/
def lineAt? : List (List Char) → Nat → Option (Nat × List Char)
  | [], _ => none
  | line :: _, 0 => some (0, line)
  | line :: lines, index + 1 =>
    (lineAt? lines index).map fun (offset, found) => (byteLength line + 1 + offset, found)

/-- The byte offset of a position; none without such a line. A column past the end of the line
stands for the end of the line. -/
def offsetOf? (source : SourceText) (position : Position) : Option Nat :=
  if position.line = 0 ∨ position.column = 0 then none
  else (lineAt? (linesOf source.text.toList) (position.line - 1)).map fun (start, line) =>
    start + byteLength (line.take (position.column - 1))

/-- The text of a line, counted from one, without the carriage returns at its end. -/
def lineText? (source : SourceText) (line : Nat) : Option String :=
  if line = 0 then none
  else (lineAt? (linesOf source.text.toList) (line - 1)).map fun (_, text) =>
    String.ofList (Text.trimEndWhile (· == '\r') text)

end SourceText

end KeyLens
