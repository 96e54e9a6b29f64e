/-!
# Markup

Markup is a row of tags and texts. A text is written so that no character of it can start or end a
tag.
-/

namespace KeyLens

/-- A part of markup. -/
inductive Markup where
  /-- A tag, by what stands between its angle brackets. -/
  | tag (name : String)
  /-- A text. -/
  | text (content : String)
  deriving Repr, DecidableEq

namespace Markup

/-- The form of a character of a text. -/
def escapedChar (c : Char) : List Char :=
  if c = '&' then ['&', 'a', 'm', 'p', ';']
  else if c = '<' then ['&', 'l', 't', ';']
  else if c = '>' then ['&', 'g', 't', ';']
  else if c = '"' then ['&', 'q', 'u', 'o', 't', ';']
  else [c]

/-- The characters of a part. -/
def chars : Markup → List Char
  | tag name => '<' :: (name.toList ++ ['>'])
  | text content => content.toList.flatMap escapedChar

/-- The text of a row of parts. -/
def render (parts : List Markup) : String :=
  String.ofList (parts.flatMap chars)

/-- No character of a text is written with an angle bracket. -/
theorem not_mem_escapedChar {c d : Char} (h : d ∈ escapedChar c) : d ≠ '<' ∧ d ≠ '>' := by
  simp only [escapedChar] at h
  split at h
  · refine ⟨?_, ?_⟩ <;> rintro rfl <;> revert h <;> decide
  split at h
  · refine ⟨?_, ?_⟩ <;> rintro rfl <;> revert h <;> decide
  split at h
  · refine ⟨?_, ?_⟩ <;> rintro rfl <;> revert h <;> decide
  split at h
  · refine ⟨?_, ?_⟩ <;> rintro rfl <;> revert h <;> decide
  · next h₁ h₂ h₃ h₄ =>
    simp only [List.mem_singleton] at h
    subst h
    exact ⟨h₂, h₃⟩

end Markup

end KeyLens
