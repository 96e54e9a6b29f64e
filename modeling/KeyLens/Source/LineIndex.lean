import KeyLens.Source.Text

/-!
# The line index of a text

A line index keeps the offsets at which the lines of a text start, so that the line of an offset is
found by halving a stretch of them. Readings look the offsets up by their number and cut the text at
them. Each of these steps can fail, and a failure is kept apart from the answer that there is no
such place in the text.
-/

namespace KeyLens

/-- What goes wrong in a reading by numbers. -/
inductive Fault where
  /-- Nothing has the number that is looked up. -/
  | outOfRange
  /-- The text cannot be cut at an offset. -/
  | offBoundary
  /-- More is taken away from a number than there is. -/
  | belowZero
  deriving Repr, DecidableEq

/-- A text with the offsets at which its lines start. -/
structure LineIndex where
  /-- All characters of the text. -/
  text : List Char
  /-- The offset of the first character of each line. -/
  starts : Array Nat
  deriving Repr, DecidableEq

/-- Where a number belongs among increasing ones. -/
inductive Slot where
  /-- It is the one with this index. -/
  | found (index : Nat)
  /-- It is none of them, and the one with this index is the first greater one. -/
  | between (index : Nat)
  deriving Repr, DecidableEq

namespace LineIndex

/-- The offsets behind the line feeds of a text of which the first character stands at `offset`. -/
def startsFrom (offset : Nat) : List Char → List Nat
  | [] => []
  | c :: rest =>
    if c = '\n' then (offset + 1) :: startsFrom (offset + 1) rest
    else startsFrom (offset + c.utf8Size) rest

/-- The index of a text. The first line starts with the text, each other one behind a line feed. -/
def ofText (text : List Char) : LineIndex :=
  ⟨text, (0 :: startsFrom 0 text).toArray⟩

/-- The number with an index. -/
def lookUp (numbers : Array Nat) (index : Nat) : Except Fault Nat :=
  match numbers[index]? with
  | some number => .ok number
  | none => .error .outOfRange

/-- The difference of two numbers. -/
def minus (number amount : Nat) : Except Fault Nat :=
  if amount ≤ number then .ok (number - amount) else .error .belowZero

/-- The part of a text between two offsets. -/
def cut (text : List Char) (start stop : Nat) : Except Fault (List Char) :=
  match SourceText.sliceChars? text ⟨start, stop⟩ with
  | some part => .ok part
  | none => .error .offBoundary

/-- Where a number belongs among those from index `low` up to, and not including, index `high`. -/
def searchBetween (numbers : Array Nat) (number low high : Nat) : Except Fault Slot :=
  if low < high then do
    let middle := low + (high - low) / 2
    let candidate ← lookUp numbers middle
    if candidate = number then
      return .found middle
    else if candidate < number then
      searchBetween numbers number (middle + 1) high
    else
      searchBetween numbers number low middle
  else
    return .between low
termination_by high - low

/-- The index of the line to which an offset belongs. -/
def lineOf (index : LineIndex) (offset : Nat) : Except Fault Nat := do
  match ← searchBetween index.starts offset 0 index.starts.size with
  | .found line => return line
  | .between line => minus line 1

/-- The position of a byte offset; none inside a character and past the end. -/
def position? (index : LineIndex) (offset : Nat) : Except Fault (Option Position) :=
  if byteLength index.text < offset then
    return none
  else do
    let line ← index.lineOf offset
    let start ← lookUp index.starts line
    return (SourceText.sliceChars? index.text ⟨start, offset⟩).map fun before =>
      ⟨line + 1, before.length + 1⟩

/-- The offset behind the last character of a line, which is the start of the next line less its
line feed, or the end of the text. -/
def stopOf (index : LineIndex) (line : Nat) : Except Fault Nat :=
  match index.starts[line + 1]? with
  | some next => minus next 1
  | none => return byteLength index.text

/-- The byte offset of a position; none without such a line. A column past the end of the line
stands for the end of the line. -/
def offsetOf? (index : LineIndex) (position : Position) : Except Fault (Option Nat) :=
  if position.line = 0 ∨ position.column = 0 then
    return none
  else
    match index.starts[position.line - 1]? with
    | none => return none
    | some start => do
      let stop ← index.stopOf (position.line - 1)
      let line ← cut index.text start stop
      return some (start + byteLength (line.take (position.column - 1)))

end LineIndex

end KeyLens
