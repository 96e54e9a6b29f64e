import KeyLens.Key
import KeyLens.Text.Alphanumeric
import KeyLens.Text.Blank

/-!
# Selectors

A selector is an arrow function whose body reads properties of its one parameter, such as
`$ => $.greeting.hello` or `(p) => { return p.errors["network"]; }`. The names of the properties
are the path of a translation key. Nothing is evaluated: a text of any other shape is no selector.
-/

namespace KeyLens.Selector

open KeyLens.Text

/-- How much text may follow the last property. -/
inductive Tolerance where
  /-- Nothing but blanks may follow. -/
  | strict
  /-- Any text may follow. -/
  | lenient
  deriving Repr, DecidableEq

/-- A character that may start the name of a parameter. -/
def isParameterStart (c : Char) : Bool :=
  c.isAlpha || c == '_' || c == '$'

/-- A character that may follow in the name of a parameter. -/
def isParameterPart (c : Char) : Bool :=
  c.isAlphanum || c == '_' || c == '$'

/-- A character of a property name after a dot. -/
def isSegmentChar (c : Char) : Bool :=
  isAlphanumeric c || c == '_' || c == '$' || c == '-'

/-- One of the three characters that enclose a string. -/
def isQuote (c : Char) : Bool :=
  c == '"' || c == '\'' || c == '\x60'

/-- The text without `c` at its start, if it is there. -/
def dropOptional (c : Char) : List Char → List Char
  | [] => []
  | d :: rest => if d = c then rest else d :: rest

/-- The text after `=>`; none if it starts otherwise. -/
def afterArrow? : List Char → Option (List Char)
  | '=' :: '>' :: rest => some rest
  | _ => none

/-- The parameter and the trimmed body of an arrow function with one parameter. -/
def arrow? (text : List Char) : Option (List Char × List Char) :=
  match skipBlank (dropOptional '(' (skipBlank text)) with
  | [] => none
  | c :: rest =>
    if isParameterStart c then
      (afterArrow? (skipBlank (dropOptional ')' (skipBlank (rest.dropWhile isParameterPart))))).map
        fun body => (c :: rest.takeWhile isParameterPart, trim body)
    else none

/-- The text after a leading `word`; none if it starts otherwise. -/
def dropWord? : List Char → List Char → Option (List Char)
  | [], text => some text
  | _ :: _, [] => none
  | w :: word, c :: text => if w = c then dropWord? word text else none

/-- The expression that a block returns: the block holds one `return` statement, closed by the
first semicolon, and nothing else. -/
def returned? : List Char → Option (List Char)
  | '\x7b' :: block =>
    (dropWord? "return".toList (skipBlank block)).bind fun rest =>
      match rest with
      | [] => none
      | c :: expression =>
        if isBlank c && skipBlank ((expression.dropWhile (· != ';')).drop 1) == ['\x7d'] then
          some (trim (expression.takeWhile (· != ';')))
        else none
  | _ => none

/-- The expression that a body stands for: what it returns if it is a block, else itself. -/
def bodyExpression? (body : List Char) : Option (List Char) :=
  if body.head? = some '\x7b' then returned? body else some body

/-- The property name after a dot, and the text after it; none without a name. -/
def dotSegment? (text : List Char) : Option (List Char × List Char) :=
  if text.takeWhile isSegmentChar = [] then none
  else some (text.takeWhile isSegmentChar, text.dropWhile isSegmentChar)

/-- The text after a closing bracket, which blanks may precede. -/
def afterBracket? (text : List Char) : Option (List Char) :=
  match skipBlank text with
  | ']' :: rest => some rest
  | _ => none

/-- The quoted property name after an opening bracket, and the text after the closing one; none
if the name is empty, not quoted or not closed. -/
def bracketSegment? (text : List Char) : Option (List Char × List Char) :=
  match skipBlank text with
  | [] => none
  | quote :: rest =>
    if isQuote quote && rest.takeWhile (· != quote) != [] then
      match rest.dropWhile (· != quote) with
      | [] => none
      | _ :: after => (afterBracket? after).map fun tail => (rest.takeWhile (· != quote), tail)
    else none

/-- Skipping blanks makes a text no longer. -/
theorem length_skipBlank_le (text : List Char) : (skipBlank text).length ≤ text.length :=
  (List.dropWhile_sublist _).length_le

/-- The text after a dotted name is shorter than the text with it. -/
theorem length_of_dotSegment? {text segment rest : List Char}
    (h : dotSegment? text = some (segment, rest)) : rest.length ≤ text.length := by
  unfold dotSegment? at h
  split at h
  · cases h
  · cases h
    exact (List.dropWhile_sublist _).length_le

/-- The text after a closing bracket is shorter than the text with it. -/
theorem length_of_afterBracket? {text rest : List Char} (h : afterBracket? text = some rest) :
    rest.length < text.length := by
  have hle := length_skipBlank_le text
  unfold afterBracket? at h
  split at h
  · next heq =>
    cases h
    rw [heq, List.length_cons] at hle
    omega
  · cases h

/-- The text after a bracketed name is shorter than the text with it. -/
theorem length_of_bracketSegment? {text segment rest : List Char}
    (h : bracketSegment? text = some (segment, rest)) : rest.length ≤ text.length := by
  have hle := length_skipBlank_le text
  unfold bracketSegment? at h
  split at h
  · cases h
  · next quote inner heq =>
    rw [heq, List.length_cons] at hle
    split at h
    · split at h
      · cases h
      · next c after hafter =>
        obtain ⟨tail, ht, hpair⟩ := Option.map_eq_some_iff.1 h
        cases hpair
        have h1 := length_of_afterBracket? ht
        have h2 := (List.dropWhile_sublist (l := inner) (· != quote)).length_le
        rw [hafter, List.length_cons] at h2
        omega
    · cases h

/-- The text after a blank-led character is shorter than the text with it. -/
theorem length_of_skipBlank_cons {text rest : List Char} {c : Char}
    (h : skipBlank text = c :: rest) : rest.length < text.length := by
  have hle := length_skipBlank_le text
  rw [h, List.length_cons] at hle
  omega

/-- The property names of a chain of dots and brackets and the text after the chain; none if a
dot or a bracket starts something that is no property. -/
def members? (text : List Char) : Option (List (List Char) × List Char) :=
  match htext : skipBlank text with
  | '.' :: afterDot =>
    match hstep : dotSegment? afterDot with
    | none => none
    | some (segment, rest) =>
      have := length_of_skipBlank_cons htext
      have := length_of_dotSegment? hstep
      (members? rest).map fun (segments, tail) => (segment :: segments, tail)
  | '[' :: afterOpen =>
    match hstep : bracketSegment? afterOpen with
    | none => none
    | some (segment, rest) =>
      have := length_of_skipBlank_cons htext
      have := length_of_bracketSegment? hstep
      (members? rest).map fun (segments, tail) => (segment :: segments, tail)
  | rest => some ([], rest)
termination_by text.length

/-- The names that an expression reads from the parameter, one after the other. -/
def path? (tolerance : Tolerance) (parameter expression : List Char) :
    Option (List (List Char)) :=
  (dropWord? parameter expression).bind fun chain =>
    (members? chain).bind fun (segments, rest) =>
      if segments = [] ∨ (tolerance = .strict ∧ rest ≠ []) then none else some segments

/-- The key that a selector stands for; none if the text is no selector. -/
def read (tolerance : Tolerance) (text : String) : Option Key :=
  (arrow? text.toList).bind fun (parameter, body) =>
    (bodyExpression? body).bind fun expression =>
      (path? tolerance parameter expression).bind fun segments =>
        Key.ofSegments? (segments.map String.ofList)

end KeyLens.Selector
