/-!
# Translation keys

A key names a place in a translation document by a path of names, written with a dot between
neighbours.
-/

namespace KeyLens

/-- A dotted translation key. -/
structure Key where
  /-- The key as it is written. -/
  text : String
  deriving Repr, DecidableEq

namespace Key

/-- The key that a text spells; the empty text spells none. -/
def ofText? (text : String) : Option Key :=
  if text = "" then none else some ⟨text⟩

/-- The key that leads through the given names; no name at all makes no key. -/
def ofSegments? (segments : List String) : Option Key :=
  if segments = [] then none
  else some ⟨String.ofList (List.intercalate ['.'] (segments.map String.toList))⟩

/-- The names along the path of a key. -/
def segments (key : Key) : List String :=
  (List.splitOn '.' key.text.toList).map String.ofList

/-- A key made from a text keeps the text, and the text was not empty. -/
theorem ofText?_eq_some_iff {text : String} {key : Key} :
    ofText? text = some key ↔ text ≠ "" ∧ key.text = text := by
  unfold ofText?
  split
  · next h => simp [h]
  · next h =>
    constructor
    · intro hk; cases hk; exact ⟨h, rfl⟩
    · rintro ⟨-, rfl⟩; rfl

end Key

end KeyLens
