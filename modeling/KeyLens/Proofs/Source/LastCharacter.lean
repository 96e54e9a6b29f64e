import KeyLens.Proofs.Source.Lines
import KeyLens.Proofs.Text.Blanks
import Mathlib.Data.List.DropRight

/-!
# The text in front of the last character

A text that ends at an offset has its last character on a line. What stands in front of that
character on the line is found from the position of the offset and the text of the line as it is
shown, whatever carriage returns are left out at its end.
-/

namespace KeyLens.SourceText

variable {source : SourceText} {offset : Nat} {position : Position}

/-- The text in front of the last character before an offset, from the start of its line. -/
def beforeLast (source : SourceText) (offset : Nat) : List Char :=
  (source.preceding offset).toList.dropLast.rtakeWhile (· ≠ '\n')

/-- Columns are counted from one. -/
theorem column_positionAfter_pos (front : List Char) : 0 < (positionAfter front).column :=
  (exists_lineAt?_foldl List.not_mem_nil front [] 0).2.1

/-- A first column follows the start of the text or a line feed. -/
theorem rtakeWhile_of_column {front : List Char} (h : (positionAfter front).column = 1) :
    front.rtakeWhile (· ≠ '\n') = [] := by
  rcases List.eq_nil_or_concat front with rfl | ⟨above, c, rfl⟩
  · rfl
  · rw [List.concat_eq_append] at h ⊢
    have hc : c = '\n' := by
      by_contra hc
      rw [positionAfter_concat hc] at h
      exact absurd (Nat.succ.inj h) (column_positionAfter_pos above).ne'
    rw [List.rtakeWhile_concat, hc]
    rfl

/-- Characters that are no line feeds stand on the line of what is in front of them. -/
theorem rtakeWhile_append {more : List Char} (h : '\n' ∉ more) (front : List Char) :
    (front ++ more).rtakeWhile (· ≠ '\n') = front.rtakeWhile (· ≠ '\n') ++ more := by
  have hmore : ∀ c ∈ more.reverse, decide (c ≠ '\n') = true := by
    intro c hc
    rw [decide_eq_true_eq]
    rintro rfl
    exact h (List.mem_reverse.mp hc)
  rw [List.rtakeWhile, List.reverse_append, List.takeWhile_append_of_pos hmore,
    List.reverse_append, List.reverse_reverse, List.rtakeWhile]

/-- Two beginnings of a text with as many bytes are the same. -/
theorem eq_of_byteLength_eq {before before' : List Char} (after after' : List Char)
    (htext : before ++ after = before' ++ after')
    (hbytes : byteLength before = byteLength before') : before = before' := by
  have hsplit := splitAtByte?_append before after
  rw [htext, hbytes, splitAtByte?_append] at hsplit
  exact (Prod.mk.inj (Option.some.inj hsplit)).1.symm

/-- The line of a position starts behind a part of the text, and the characters of the line in front
of its column stand before the offset. -/
theorem exists_isLine_of_position? (h : source.position? offset = some position) :
    ∃ front within behind rest,
      IsLine source.text.toList (position.line - 1) front (within ++ behind) rest ∧
      (source.preceding offset).toList = front ++ within ∧
      position = ⟨position.line - 1 + 1, within.length + 1⟩ ∧
      lineAt? (linesOf source.text.toList) (position.line - 1) =
        some (byteLength front, within ++ behind) := by
  obtain ⟨before, after, htext, rfl, rfl⟩ := position?_eq_some_iff.mp h
  obtain ⟨hline, hcolumn, start, line, hat, hbytes⟩ :=
    exists_lineAt?_foldl List.not_mem_nil before after 0
  change 0 < (positionAfter before).line at hline
  change lineAt? (linesOf (before ++ after)) ((positionAfter before).line - 1) = some (start, line)
    at hat
  change start + byteLength (line.take ((positionAfter before).column - 1)) = byteLength before
    at hbytes
  rw [← htext] at hat
  obtain ⟨front, rest, hisLine, rfl⟩ := exists_isLine_of_lineAt? hat
  have hpreceding : (source.preceding (byteLength before)).toList = before := by
    rw [preceding, htext, String.toList_ofList, takeBytes_append]
  rw [hpreceding]
  generalize hwithin : line.take ((positionAfter before).column - 1) = within at hbytes
  have hsplit : line = within ++ line.drop ((positionAfter before).column - 1) := by
    rw [← hwithin, List.take_append_drop]
  generalize line.drop ((positionAfter before).column - 1) = behind at hsplit
  subst hsplit
  have hbefore : before = front ++ within := by
    refine eq_of_byteLength_eq after (behind ++ rest) ?_ ?_
    · rw [← htext, hisLine.text_eq, List.append_assoc, List.append_assoc]
    · rw [byteLength_append, hbytes]
  refine ⟨front, within, behind, rest, hisLine, hbefore, ?_, hat⟩
  have hfree : '\n' ∉ within := fun hfeed => hisLine.free (List.mem_append_left _ hfeed)
  have hposition : positionAfter before =
      ⟨(positionAfter before).line - 1 + 1, 1 + within.length⟩ := by
    conv_lhs => rw [hbefore, positionAfter_append hfree, hisLine.position_eq]
  rw [Nat.add_comm within.length]
  exact hposition

/-- Where the last character before an offset ends no line, the text of its line shows it behind
what stands in front of it, and the offset has the next column. -/
theorem exists_lineText?_of_getLast? {c : Char} (h : source.position? offset = some position)
    (hlast : (source.preceding offset).toList.getLast? = some c) (hfeed : c ≠ '\n')
    (hreturn : c ≠ '\r') :
    ∃ line behind, source.lineText? position.line = some line ∧
      line.toList = source.beforeLast offset ++ c :: behind ∧
      position.column = (source.beforeLast offset).length + 2 := by
  obtain ⟨front, within, behind, rest, hisLine, hpreceding, hposition, hat⟩ :=
    exists_isLine_of_position? h
  have hfirst : (positionAfter front).column = 1 := by rw [hisLine.position_eq]
  have hfree : '\n' ∉ within := fun hmem => hisLine.free (List.mem_append_left _ hmem)
  -- The character stands on the line, because what is in front of the line ends with a line feed.
  obtain ⟨before, rfl⟩ : ∃ before, within = before ++ [c] := by
    rcases List.eq_nil_or_concat within with rfl | ⟨before, d, rfl⟩
    · rw [hpreceding, List.append_nil] at hlast
      obtain ⟨above, rfl⟩ := List.getLast?_eq_some_iff.mp hlast
      rw [positionAfter_concat hfeed] at hfirst
      exact absurd (Nat.succ.inj hfirst) (column_positionAfter_pos above).ne'
    · rw [List.concat_eq_append] at hpreceding ⊢
      rw [hpreceding, ← List.append_assoc, List.getLast?_concat] at hlast
      cases hlast
      exact ⟨before, rfl⟩
  have hnone : '\n' ∉ before := fun hmem => hfree (List.mem_append_left _ hmem)
  have hbefore : source.beforeLast offset = before := by
    rw [beforeLast, hpreceding, ← List.append_assoc, List.dropLast_concat,
      rtakeWhile_append hnone, rtakeWhile_of_column hfirst, List.nil_append]
  have hnumber : position.line ≠ 0 := by
    rw [hposition]
    exact Nat.succ_ne_zero _
  refine ⟨String.ofList (Text.trimEndWhile (· == '\r') (before ++ [c] ++ behind)),
    Text.trimEndWhile (· == '\r') behind, ?_, ?_, ?_⟩
  · rw [lineText?, if_neg hnumber, hat, Option.map_some]
  · rw [String.toList_ofList, hbefore, List.append_assoc, List.singleton_append]
    exact Text.trimEndWhile_append (by simpa using hreturn) before behind
  · rw [hposition, hbefore, List.length_append, List.length_singleton]

end KeyLens.SourceText
