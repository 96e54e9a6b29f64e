import KeyLens.Selector

/-!
# The namespace option

A translation call may carry its namespace in an object literal, as in `t($ => $.a, { ns: 'b' })`.
Only a property of the object itself counts, not one of an object inside it.
-/

namespace KeyLens.NamespaceOption

open KeyLens.Text
open KeyLens.Selector (isQuote dropWord?)

/-- A character of an unquoted property name. -/
def isNameChar (c : Char) : Bool :=
  isAlphanumeric c || c == '_' || c == '$'

/-- The text from a quote up to the next quote of its kind, where at least one character stands
between them. -/
def quoted? : List Char → Option (List Char)
  | [] => none
  | quote :: rest =>
    let content := rest.takeWhile (· != quote)
    if isQuote quote && content != [] && rest.contains quote then some content else none

/-- The string that follows `ns` and a colon at the start of a text. -/
def property? (text : List Char) : Option (List Char) :=
  (dropWord? "ns".toList text).bind fun rest =>
    match skipBlank rest with
    | ':' :: value => quoted? (skipBlank value)
    | _ => none

/-- An opening bracket of any kind. -/
def isOpening (c : Char) : Bool :=
  c == '\x7b' || c == '(' || c == '['

/-- A closing bracket of any kind. -/
def isClosing (c : Char) : Bool :=
  c == '\x7d' || c == ')' || c == ']'

/-- The text after the next `quote`. -/
def afterQuote (quote : Char) (text : List Char) : List Char :=
  (text.dropWhile (· != quote)).drop 1

/-- The text after a quote is no longer than the text with it. -/
theorem length_afterQuote_le (quote : Char) (text : List Char) :
    (afterQuote quote text).length ≤ text.length := by
  have := (List.dropWhile_sublist (l := text) (· != quote)).length_le
  simp only [afterQuote, List.length_drop]
  omega

/-- The first namespace property in a text that stands at nesting depth one. The scan has passed
`depth` open brackets, and `afterName` tells whether the character before the text belongs to a
name. Strings are passed over up to the next quote of their kind. -/
def search? (depth : Nat) (afterName : Bool) : List Char → Option (List Char)
  | [] => none
  | c :: rest =>
    if isOpening c then search? (depth + 1) false rest
    else if isClosing c then search? (depth - 1) false rest
    else if isQuote c then
      have := length_afterQuote_le c rest
      search? depth false (afterQuote c rest)
    else if c == 'n' && depth == 1 && !afterName then
      match property? (c :: rest) with
      | some namespaceName => some namespaceName
      | none => search? depth true rest
    else search? depth (isNameChar c) rest
termination_by text => text.length

/-- The namespace that an options text names in a property `ns` of its own. -/
def read (options : String) : Option String :=
  let text := trim options.toList
  if text.head? = some '\x7b' then (search? 0 false text).map String.ofList else none

end KeyLens.NamespaceOption
