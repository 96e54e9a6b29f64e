/-!
# Byte offsets in a text

A text is a list of characters, each of which takes one to four bytes. An offset counts bytes
from the start, and only the offsets between two characters can cut the text.
-/

namespace KeyLens

/-- The number of bytes that a text takes. -/
def byteLength : List Char → Nat
  | [] => 0
  | c :: rest => c.utf8Size + byteLength rest

/-- The two parts of a text before and after `offset`; none if the offset lies inside a
character or past the end. -/
def splitAtByte? : List Char → Nat → Option (List Char × List Char)
  | text, 0 => some ([], text)
  | [], _ + 1 => none
  | c :: rest, offset + 1 =>
    if offset + 1 < c.utf8Size then none
    else
      (splitAtByte? rest (offset + 1 - c.utf8Size)).map fun (before, after) => (c :: before, after)

/-- The longest part at the start of a text that takes at most `limit` bytes. -/
def takeBytes : List Char → Nat → List Char
  | [], _ => []
  | c :: rest, limit =>
    if limit < c.utf8Size then [] else c :: takeBytes rest (limit - c.utf8Size)

/-- A text one after another takes the bytes of both. -/
@[simp] theorem byteLength_append (left right : List Char) :
    byteLength (left ++ right) = byteLength left + byteLength right := by
  induction left with
  | nil => simp [byteLength]
  | cons c rest ih => simp [byteLength, ih, Nat.add_assoc]

/-- Every character takes a byte. -/
theorem utf8Size_ne_zero (c : Char) : c.utf8Size ≠ 0 := by
  have := Char.utf8Size_pos c
  omega

/-- Cutting a text at the length of its first part gives back both parts. -/
theorem splitAtByte?_append (before after : List Char) :
    splitAtByte? (before ++ after) (byteLength before) = some (before, after) := by
  induction before with
  | nil => cases after <;> rfl
  | cons c rest ih =>
    obtain ⟨n, hn⟩ : ∃ n, c.utf8Size + byteLength rest = n + 1 :=
      ⟨_, (Nat.succ_pred_eq_of_pos (by have := Char.utf8Size_pos c; omega)).symm⟩
    simp only [List.cons_append, byteLength, hn, splitAtByte?]
    rw [if_neg (by omega), show n + 1 - c.utf8Size = byteLength rest by omega, ih]
    rfl

/-- A cut falls between two parts that make up the text, the first as long as the offset. -/
theorem splitAtByte?_eq_some_iff {text before after : List Char} {offset : Nat} :
    splitAtByte? text offset = some (before, after) ↔
      text = before ++ after ∧ byteLength before = offset := by
  constructor
  · intro h
    induction text generalizing before offset with
    | nil =>
      cases offset with
      | zero => simp [splitAtByte?] at h; simp [h, byteLength]
      | succ n => simp [splitAtByte?] at h
    | cons c rest ih =>
      cases offset with
      | zero => simp [splitAtByte?] at h; simp [h, byteLength]
      | succ n =>
        simp only [splitAtByte?] at h
        split at h
        · cases h
        · next hn =>
          obtain ⟨⟨b, a⟩, hs, hb⟩ := Option.map_eq_some_iff.1 h
          cases hb
          obtain ⟨rfl, hl⟩ := ih hs
          refine ⟨rfl, ?_⟩
          simp only [byteLength, hl]
          omega
  · rintro ⟨rfl, rfl⟩
    exact splitAtByte?_append before after

end KeyLens
