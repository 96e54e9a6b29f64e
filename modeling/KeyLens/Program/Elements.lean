import KeyLens.Program.Literal
import KeyLens.Program.Types

/-!
# Reading tags

A tag has a name, attributes and, unless it closes itself, children up to a closing tag of the same
name. Between tags and braces stands text in which no lexemes are told apart.
-/

namespace KeyLens.Program.Elements

open Reader

/-- The number of characters of a tag or attribute name, in which hyphens count; none without
one. -/
def nameLength? (text : List Char) : Option Nat :=
  if startsName text then
    some (text.takeWhile fun c => Text.isNamePart c || c == '-').length
  else none

/-- The name at the start of a text, with blanks before it left out, and the text after it. -/
def nameAt (text : List Char) : List Char × List Char :=
  let text := skipBlanks text
  let count := (nameLength? text).getD 0
  (text.take count, text.drop count)

/-- A name that may have a namespace before a colon, without the blanks in it, and the text after
it. -/
def attributeNameAt (text : List Char) : List Char × List Char :=
  let (first, rest) := nameAt text
  match skipBlanks rest with
  | ':' :: rest =>
    let (second, rest) := nameAt rest
    (first ++ ':' :: second, rest)
  | _ => (first, rest)

/-- The attribute at the start of a text. Its value is a string if it is quoted, or a literal in
braces. -/
def attributeAt (text : List Char) : Attribute :=
  let (name, rest) := attributeNameAt text
  let value :=
    match skipBlanks rest with
    | '=' :: rest =>
      match skipBlanks rest with
      | '\x7b' :: rest => bracedLiteral? rest
      | c :: rest => if c = '"' ∨ c = '\'' then some (quotedAttribute (c :: rest)) else none
      | [] => none
    | _ => none
  ⟨String.ofList name, value⟩

/-- The number of characters of a quoted attribute value; lines may end in it. -/
def quotedLength? : List Char → Option Nat
  | [] => none
  | quote :: rest =>
    if (quote = '"' ∨ quote = '\'') ∧ rest.contains quote then
      some ((rest.takeWhile (· != quote)).length + 2)
    else none

/-- Takes a name and gives its text. -/
def name : Reader String := do
  let text ← upcoming
  measured nameLength?
  pure (String.ofList (nameAt text).1)

/-- Takes the names after a first one that a mark separates, and gives the whole name. -/
def nameAfter (mark : String) (first : String) : Reader String := do
  if ← optionalMark mark then
    let second ← name
    pure (first ++ mark ++ second)
  else pure first

/-- Takes the members after a name, at most `count`. -/
def members (text : String) : Nat → Reader String
  | 0 => stop .unexpected
  | count + 1 => do
    if ← isMark "." then members (← nameAfter "." text) count else pure text

/-- Takes the name of a tag: a name with a namespace or with members. -/
def tagName : Reader String := do
  let first ← name
  if ← isMark ":" then nameAfter ":" first else members first ((← ahead).length + 1)

/-- An expression in braces. -/
def braced (read : Readers) : Reader Unit := do
  mark "\x7b"
  let _ ← read (.expression .free)
  mark "\x7d"

/-- An attribute with its value. -/
def oneAttribute (read : Readers) : Reader Unit := do
  let first ← name
  let _ ← nameAfter ":" first
  if ← optionalMark "=" then
    match ← next with
    | .quoted => measured quotedLength?
    | .mark "\x7b" => braced read
    | .mark "<" =>
      let _ ← read .element
    | _ => stop .unexpected

/-- Attributes, and objects whose members are attributes. -/
def attributes (read : Readers) : Reader Unit :=
  repeatWhile do
    match ← next with
    | .word _ =>
      part (.attribute (attributeAt (← upcoming))) (oneAttribute read)
      pure true
    | .mark "\x7b" =>
      mark "\x7b"
      mark "..."
      let _ ← read (.assignment .free)
      mark "\x7d"
      pure true
    | _ => pure false

/-- An expression among the children of a tag: it may be empty, or a row of children. -/
def child (read : Readers) : Reader Unit := do
  mark "\x7b"
  if ← isMark "\x7d" then pure ()
  else
    let _ ← optionalMark "..."
    let _ ← read (.expression .free)
  mark "\x7d"

/-- Whether a closing tag starts a text. -/
def startsClosing : List Char → Bool
  | '<' :: '/' :: _ => true
  | _ => false

/-- The children of a tag up to its closing tag. -/
def children (read : Readers) : Reader Unit :=
  repeatWhile do
    let text ← ahead
    match text with
    | [] => stop .unexpected
    | c :: _ =>
      if c = '<' then
        if startsClosing text then pure false
        else
          let _ ← read .element
          pure true
      else if c = '\x7b' then
        child read
        pure true
      else
        take (text.takeWhile fun d => d != '<' && d != '\x7b').length
        pure true

/-- The closing tag of the given name; a fragment has none. -/
def closing (opened : Option String) : Reader Unit := do
  angle '<'
  angle '/'
  let closed ← if (← upcoming).head? = some '>' then pure none else some <$> tagName
  if closed != opened then
    match opened with
    | some text => stop (.otherClosingTag text)
    | none => stop .unexpected
  angle '>'

/-- A tag with its children, behind the bracket that opens it. Its type arguments are visited behind
the attributes, and the children after both. -/
def tag (language : Language) (read : Readers) : Reader Unit := do
  let text ← part .tagName tagName
  if language.typed then Types.optionalArguments read 1
  attributes read
  if (← upcoming).head? = some '/' then
    angle '/'
    angle '>'
  else
    angle '>'
    enclose (.delayed 2) do
      children read
      closing (some text)

/-- Whether a fragment starts a text: a bracket that opens and, behind blanks, one that closes, even
where it starts a longer mark. -/
def startsFragment : List Char → Bool
  | '<' :: rest => (skipBlanks rest).head? == some '>'
  | _ => false

/-- A tag or a fragment. -/
def element (language : Language) (read : Readers) : Reader Shape := do
  if startsFragment (← upcoming) then
    angle '<'
    angle '>'
    children read
    closing none
  else
    blanks
    encloseTag (tag language read)
  pure .value

end KeyLens.Program.Elements
