import KeyLens.Present.Hint
import KeyLens.Present.Styled
import KeyLens.Text.DisplayWidth

/-!
# Reports

A report lists hints file by file: a headline, the place of the call, its line with a caret under
the last character of the call, and what the hint says below. A summary of all files ends it.
-/

namespace KeyLens

/-- A hint and the line of text that its call ends in. -/
structure HintReport where
  /-- The hint. -/
  hint : Hint
  /-- The line of text, if there is one. -/
  sourceLine : Option String

/-- Whether the key of a hint has a translation. -/
def HintReport.isFound (report : HintReport) : Bool :=
  report.hint.resolved.isFound

/-- The hints of one file. -/
structure FileReport where
  /-- The path of the file as it is shown. -/
  path : String
  /-- The hints in order. -/
  hints : List HintReport

/-- The number of hints whose key has no translation. -/
def FileReport.missing (file : FileReport) : Nat :=
  (file.hints.filter fun report => !report.isFound).length

namespace Report

/-- The mark of success. -/
def successMark : String := "✓"

/-- The mark of failure. -/
def failureMark : String := "✘"

/-- A row of styled parts in one line of a terminal. -/
abbrev Line := List Styled

/-- The parts of lines, each with a line break at its end. -/
def parts (lines : List Line) : List Styled :=
  lines.flatMap (· ++ [.plain "\n"])

/-- The text of lines. -/
def textOf (colored : Bool) (lines : List Line) : String :=
  Styled.render colored (parts lines)

/-- All hints of files. -/
def allHints (files : List FileReport) : List HintReport :=
  files.flatMap FileReport.hints

/-- The column to which the numbers of lines are set. -/
def numberWidth (files : List FileReport) : Nat :=
  (((allHints files).map fun report =>
    (toString report.hint.position.line).length).max?).getD 1

/-- A row of blanks. -/
def blanks (count : Nat) : String :=
  String.ofList (List.replicate count ' ')

/-- A text set to the right of `width` characters. -/
def setRight (width : Nat) (text : String) : String :=
  blanks (width - text.length) ++ text

/-- The bar between the numbers of lines and the lines. -/
def bar : Styled := ⟨[.blue], "|"⟩

/-- A line below the place of a hint that starts with `mark`. -/
def below (width : Nat) (mark : Styled) (rest : Line) : Line :=
  [.plain (blanks width ++ " "), mark] ++ rest

/-- The headline of a hint. -/
def headline (report : HintReport) : Line :=
  let hint := report.hint
  if report.isFound then
    [⟨[.bold, .cyan], "hint"⟩, .plain (": " ++ hint.label ++ "  "), ⟨[.dimmed], hint.key.text⟩]
  else
    [⟨[.bold, .yellow], "warning"⟩,
      .plain (": missing translation for \"" ++ hint.key.text ++ "\"  "),
      ⟨[.dimmed, .cyan], hint.namespaces.display⟩]

/-- The line with the place of a hint. -/
def placeLine (path : String) (position : Position) : Line :=
  [.plain "  ", ⟨[.blue], "-->"⟩, .plain (" " ++ path ++ ":" ++ position.display)]

/-- The text on a line before the last character of a call that ends before `column`. -/
def beforeLast (line : String) (column : Nat) : List Char :=
  line.toList.take (column - 2)

/-- The lines with the line of text of a hint and with the caret. -/
def sourceLines (width : Nat) (report : HintReport) (line : String) : List Line :=
  let position := report.hint.position
  let caret : Styled := ⟨[if report.isFound then .cyan else .yellow], "^"⟩
  [below width bar [],
    [⟨[.blue], setRight width (toString position.line)⟩, .plain " ", bar, .plain (" " ++ line)],
    below width bar
      [.plain (" " ++ blanks (Text.displayWidth (beforeLast line position.column))), caret]]

/-- The greatest number of columns that can be left free in front of a caret. -/
def greatestIndent : Nat := 65535

/-- The columns in front of the caret of a hint; none without a line of text. -/
def caretIndent? (report : HintReport) : Option Nat :=
  report.sourceLine.map fun line =>
    Text.displayWidth (beforeLast line report.hint.position.column)

/-- Whether each caret of a report can be set under its line. -/
def canBeSet (files : List FileReport) : Bool :=
  (allHints files).all fun report => (caretIndent? report).all (· ≤ greatestIndent)

/-- The lines with what a hint says below. -/
def notes (width : Nat) (hint : Hint) : List Line :=
  let mark : Styled := ⟨[.blue], "="⟩
  (hint.resolved.matchedNamespace.toList.map fun name =>
    below width mark [.plain " ", ⟨[.bold], "namespace:"⟩, .plain (" " ++ name)]) ++
  hint.blockLines.map fun line => below width mark [.plain (" " ++ line)]

/-- The lines of a hint, with an empty one at the end. -/
def hintLines (width : Nat) (path : String) (report : HintReport) : List Line :=
  [headline report, placeLine path report.hint.position] ++
    ((report.sourceLine.map (sourceLines width report)).getD []) ++ notes width report.hint ++ [[]]

/-- The line at the end of a report. -/
def summary (files : List FileReport) : Line :=
  let total := (allHints files).length
  let missing := ((allHints files).filter fun report => !report.isFound).length
  let count := toString files.length ++ " " ++ if files.length = 1 then "file" else "files"
  if missing = 0 then
    [⟨[.green], successMark⟩, .plain " ",
      ⟨[.green], "Resolved " ++ toString total ++ " translation call(s) in " ++ count⟩]
  else
    [⟨[.red], failureMark⟩, .plain " ",
      ⟨[.red], toString missing ++ " of " ++ toString total ++
        " translation call(s) have no translation (" ++ count ++ ")"⟩]

/-- The lines of a report. -/
def lines (files : List FileReport) : List Line :=
  let width := numberWidth files
  (files.flatMap fun file => file.hints.flatMap (hintLines width file.path)) ++ [summary files]

/-- The text of a report. -/
def text (colored : Bool) (files : List FileReport) : String :=
  textOf colored (lines files)

/-- The text of a report; none if it breaks off in front of a caret that cannot be set. -/
def text? (colored : Bool) (files : List FileReport) : Option String :=
  if canBeSet files then some (text colored files) else none

/-- A line that warns. -/
def warningLine (rest : Line) : Line :=
  ⟨[.bold, .yellow], "warning:"⟩ :: .plain " " :: rest

/-- The warning about files that are no programs; without details it says how to get them. -/
def unreadableLines (count : Nat) (verbose : Bool) : List Line :=
  if count = 0 then []
  else
    let told := Styled.plain (toString count ++ " file(s) could not be parsed")
    [warningLine (told :: if verbose then []
      else [.plain " (use ", ⟨[.cyan], "-v"⟩, .plain " for details)"])]

end Report

end KeyLens
