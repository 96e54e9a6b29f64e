import KeyLens.Proofs.Text.Pieces
import KeyLens.Source.Text

/-!
# Offsets and positions

The position behind a beginning of a text counts the lines and the characters of that beginning. It
leads back to the number of bytes that the beginning takes.
-/

namespace KeyLens

namespace SourceText

/-- From the start of a line, the position behind a beginning of the rest lies on a line that
starts as many bytes before it as the characters in front of it take. -/
theorem exists_lineAt?_foldl {before : List Char} (hbefore : '\n' ∉ before) (front rest : List Char)
    (index : Nat) :
    let position := front.foldl Position.after ⟨index + 1, before.length + 1⟩
    index < position.line ∧ 0 < position.column ∧
      ∃ start line, lineAt? (linesOf (before ++ (front ++ rest))) (position.line - 1 - index) =
          some (start, line) ∧
        start + byteLength (line.take (position.column - 1)) = byteLength (before ++ front) := by
  intro position
  induction front generalizing before index with
  | nil =>
    obtain ⟨piece, pieces, -, hlines⟩ := Text.exists_splitOn_append hbefore rest
    refine ⟨Nat.lt_succ_self index, Nat.succ_pos _, 0, before ++ piece, ?_, ?_⟩
    · simp only [position, List.foldl_nil, List.nil_append, linesOf, hlines, Nat.add_sub_cancel,
        Nat.sub_self, lineAt?]
    · simp [position]
  | cons c front ih =>
    by_cases hc : c = '\n'
    · -- A line ends here, and the next one starts without characters.
      subst hc
      obtain ⟨hline, hcolumn, start, line, hat, hbytes⟩ := ih List.not_mem_nil (index + 1)
      have hsame : position =
          front.foldl Position.after ⟨index + 1 + 1, ([] : List Char).length + 1⟩ := rfl
      rw [← hsame] at hline hcolumn hat hbytes
      have hlines : linesOf (before ++ ('\n' :: front ++ rest)) =
          before :: linesOf ([] ++ (front ++ rest)) :=
        List.splitOn_append_cons_self_of_not_mem hbefore (front ++ rest)
      have hindex : position.line - 1 - index = position.line - 1 - (index + 1) + 1 := by omega
      refine ⟨by omega, hcolumn, byteLength before + 1 + start, line, ?_, ?_⟩
      · rw [hlines, hindex, lineAt?, hat]
        rfl
      · have hfeed : '\n'.utf8Size = 1 := rfl
        simp only [byteLength_append, byteLength, List.nil_append] at hbytes ⊢
        omega
    · obtain ⟨hline, hcolumn, start, line, hat, hbytes⟩ :=
        @ih (before ++ [c]) (by simp [hbefore, Ne.symm hc]) index
      have hsame : position =
          front.foldl Position.after ⟨index + 1, (before ++ [c]).length + 1⟩ := by
        simp [position, Position.after, hc]
      rw [hsame]
      refine ⟨hline, hcolumn, start, line, ?_, ?_⟩
      · rw [← hat]
        simp
      · rw [hbytes]
        simp

/-- The position behind a beginning of a text leads back to the bytes of that beginning. -/
theorem offsetOf?_positionAfter {source : SourceText} {front rest : List Char}
    (htext : source.text.toList = front ++ rest) :
    source.offsetOf? (positionAfter front) = some (byteLength front) := by
  obtain ⟨hline, hcolumn, start, line, hat, hbytes⟩ :=
    exists_lineAt?_foldl List.not_mem_nil front rest 0
  change 0 < (positionAfter front).line at hline
  change 0 < (positionAfter front).column at hcolumn
  change lineAt? (linesOf (front ++ rest)) ((positionAfter front).line - 1) = some (start, line)
    at hat
  rw [offsetOf?, if_neg (by omega), htext, hat, Option.map_some]
  exact congrArg some hbytes

/-- One column back from behind a character that ends no line is the position of that character. -/
theorem positionAfter_concat {front : List Char} {c : Char} (hc : c ≠ '\n') :
    positionAfter (front ++ [c]) =
      ⟨(positionAfter front).line, (positionAfter front).column + 1⟩ := by
  rw [positionAfter, List.foldl_append, List.foldl_cons, List.foldl_nil, Position.after, if_neg hc]
  rfl

/-- An offset between two characters, or at an end of the text. -/
def IsBoundary (source : SourceText) (offset : Nat) : Prop :=
  ∃ before after, source.text.toList = before ++ after ∧ byteLength before = offset

/-- A text can be split at its boundaries and nowhere else. -/
theorem isSome_splitAtByte?_iff {source : SourceText} {offset : Nat} :
    (splitAtByte? source.text.toList offset).isSome ↔ source.IsBoundary offset := by
  rw [Option.isSome_iff_exists]
  constructor
  · rintro ⟨⟨before, after⟩, hsplit⟩
    obtain ⟨htext, hbytes⟩ := splitAtByte?_eq_some_iff.mp hsplit
    exact ⟨before, after, htext, hbytes⟩
  · rintro ⟨before, after, htext, hbytes⟩
    exact ⟨(before, after), splitAtByte?_eq_some_iff.mpr ⟨htext, hbytes⟩⟩

instance (source : SourceText) (offset : Nat) : Decidable (source.IsBoundary offset) :=
  decidable_of_iff _ isSome_splitAtByte?_iff

/-- A position is that of a boundary, and it is the one behind the text before the boundary. -/
theorem position?_eq_some_iff {source : SourceText} {offset : Nat} {position : Position} :
    source.position? offset = some position ↔
      ∃ before after, source.text.toList = before ++ after ∧ byteLength before = offset ∧
        positionAfter before = position := by
  rw [position?, Option.map_eq_some_iff]
  constructor
  · rintro ⟨⟨before, after⟩, hsplit, rfl⟩
    obtain ⟨htext, hbytes⟩ := splitAtByte?_eq_some_iff.mp hsplit
    exact ⟨before, after, htext, hbytes, rfl⟩
  · rintro ⟨before, after, htext, hbytes, rfl⟩
    exact ⟨(before, after), splitAtByte?_eq_some_iff.mpr ⟨htext, hbytes⟩, rfl⟩

/-- The boundaries of a text have positions, and no other offsets. -/
theorem isSome_position?_iff {source : SourceText} {offset : Nat} :
    (source.position? offset).isSome ↔ source.IsBoundary offset := by
  rw [position?, Option.isSome_map, isSome_splitAtByte?_iff]

/-- No boundary lies inside a character. -/
theorem IsBoundary.le_of_lt {source : SourceText} {front after : List Char} {c : Char}
    {offset : Nat} (h : source.IsBoundary offset) (htext : source.text.toList = front ++ c :: after)
    (hlt : byteLength front < offset) : byteLength front + c.utf8Size ≤ offset := by
  obtain ⟨before, rest, hsplit, rfl⟩ := h
  rw [htext] at hsplit
  obtain ⟨more, rfl, hmore⟩ | ⟨more, rfl, -⟩ := List.append_eq_append_iff.mp hsplit
  · cases more with
    | nil => simp at hlt
    | cons d more =>
      obtain ⟨rfl, -⟩ := List.cons.inj hmore
      rw [byteLength_append, byteLength]
      omega
  · rw [byteLength_append] at hlt
    omega

/-- The text before a boundary is the beginning of the text up to it. -/
theorem takeBytes_append (before after : List Char) :
    takeBytes (before ++ after) (byteLength before) = before := by
  induction before with
  | nil =>
    cases after with
    | nil => rfl
    | cons c after =>
      have hsize := Char.utf8Size_pos c
      rw [List.nil_append, byteLength, takeBytes, if_pos hsize]
  | cons c before ih =>
    rw [List.cons_append, byteLength, takeBytes, if_neg (by omega), Nat.add_sub_cancel_left, ih]

/-- The span of a part of a text cuts that part out. -/
theorem sliceChars?_append (before middle after : List Char) :
    sliceChars? (before ++ (middle ++ after))
      ⟨byteLength before, byteLength before + byteLength middle⟩ = some middle := by
  simp only [sliceChars?, Nat.le_add_right, if_true, splitAtByte?_append, Option.bind_some,
    Nat.add_sub_cancel_left, Option.map_some]

end SourceText

end KeyLens
