/-!
# Styled text

A line of a report is a row of parts, each with its own styles. Shown in colour, a part with styles
stands between a sequence that starts them and one that ends all styles; shown without, only the
texts remain.
-/

namespace KeyLens

/-- A style of a part of a line. -/
inductive Style where
  /-- Heavy letters. -/
  | bold
  /-- Pale letters. -/
  | dimmed
  /-- Red letters. -/
  | red
  /-- Green letters. -/
  | green
  /-- Yellow letters. -/
  | yellow
  /-- Blue letters. -/
  | blue
  /-- Cyan letters. -/
  | cyan
  deriving Repr, DecidableEq

/-- The number of a style in a sequence. -/
def Style.code : Style → List Char
  | bold => ['1']
  | dimmed => ['2']
  | red => ['3', '1']
  | green => ['3', '2']
  | yellow => ['3', '3']
  | blue => ['3', '4']
  | cyan => ['3', '6']

/-- A text with its styles. -/
structure Styled where
  /-- The styles, in the order in which they are written. -/
  styles : List Style
  /-- The text. -/
  text : String
  deriving Repr, DecidableEq

namespace Styled

/-- A text without a style. -/
def plain (text : String) : Styled := ⟨[], text⟩

/-- The numbers of styles with a semicolon between neighbours. -/
def codes : List Style → List Char
  | [] => []
  | [style] => style.code
  | style :: rest => style.code ++ ';' :: codes rest

/-- The sequence that starts styles. -/
def opening (styles : List Style) : List Char :=
  '\x1b' :: '[' :: (codes styles ++ ['m'])

/-- The sequence that ends all styles. -/
def closing : List Char :=
  ['\x1b', '[', '0', 'm']

/-- A text in which `start` stands behind each sequence that ends all styles. -/
def reopen (start : List Char) : List Char → List Char
  | '\x1b' :: '[' :: '0' :: 'm' :: rest => closing ++ start ++ reopen start rest
  | c :: rest => c :: reopen start rest
  | [] => []

/-- The characters of a part. -/
def chars (colored : Bool) (part : Styled) : List Char :=
  if colored ∧ part.styles ≠ [] then
    opening part.styles ++ reopen (opening part.styles) part.text.toList ++ closing
  else part.text.toList

/-- The text of a row of parts. -/
def render (colored : Bool) (parts : List Styled) : String :=
  String.ofList (parts.flatMap (chars colored))

/-- Without colour the texts of the parts remain. -/
theorem chars_false (part : Styled) : part.chars false = part.text.toList := by
  simp [chars]

end Styled

end KeyLens
