/-!
# Shortened texts

Values are shown up to a greatest number of characters. A longer value ends in three dots, which
count as well.
-/

namespace KeyLens.Present

/-- The marks at the end of a shortened text. -/
def ellipsis : List Char := ['.', '.', '.']

/-- A text with no more than `limit` characters as it is, and a longer one cut so that it has
`limit` characters with its ellipsis; the ellipsis stands whole even where it is longer than
that. -/
def truncateChars (text : List Char) (limit : Nat) : List Char :=
  if text.length ≤ limit then text else text.take (limit - 3) ++ ellipsis

/-- A text shortened to `limit` characters. -/
def truncate (text : String) (limit : Nat) : String :=
  String.ofList (truncateChars text.toList limit)

/-- What is shown in place of a value that no namespace holds. -/
def missingText : String := "<missing>"

/-- A value as it is shown in at most `limit` characters. -/
def shownValue (limit : Nat) : Option String → String
  | some value => truncate value limit
  | none => missingText

/-- With room for the ellipsis, a shortened text keeps the limit. -/
theorem length_truncateChars_le {text : List Char} {limit : Nat} (h : 3 ≤ limit) :
    (truncateChars text limit).length ≤ limit := by
  unfold truncateChars
  split
  · assumption
  · simp only [List.length_append, List.length_take, ellipsis, List.length_cons, List.length_nil]
    omega

end KeyLens.Present
