import KeyLens.Proofs.Source.Lines
import KeyLens.Source.LineIndex

/-!
# Readings with the line index

The offsets of a line index increase, so that halving finds the line of every offset. No look-up,
cut or difference of a reading with the index ever fails, and the answers are those that are found
by going through the text.
-/

namespace KeyLens

namespace LineIndex

/-! ### The offsets of the lines -/

/-- Behind further bytes all lines start further behind. -/
theorem startsFrom_add (count offset : Nat) (text : List Char) :
    startsFrom (count + offset) text = (startsFrom offset text).map (count + ·) := by
  induction text generalizing offset with
  | nil => rfl
  | cons c text ih =>
    rw [startsFrom, startsFrom, Nat.add_assoc, Nat.add_assoc, ih, ih]
    split
    · rfl
    · rfl

/-- Behind the characters of the first line so far, the offsets are those at which lines start. -/
theorem getElem?_startsFrom {before : List Char} (hbefore : '\n' ∉ before) (text : List Char)
    (index : Nat) :
    (0 :: startsFrom (byteLength before) text)[index]? =
      (SourceText.lineAt? (linesOf (before ++ text)) index).map Prod.fst := by
  induction text generalizing before index with
  | nil =>
    rw [List.append_nil, linesOf, List.splitOn_eq_singleton hbefore, startsFrom]
    cases index with
    | zero => rfl
    | succ index => simp [SourceText.lineAt?]
  | cons c text ih =>
    by_cases hc : c = '\n'
    · subst hc
      have hlines : linesOf (before ++ '\n' :: text) = before :: linesOf text :=
        List.splitOn_append_cons_self_of_not_mem hbefore text
      have hrest := ih List.not_mem_nil
      rw [List.nil_append] at hrest
      rw [hlines, startsFrom, if_pos rfl]
      cases index with
      | zero => rfl
      | succ index =>
        have hmoved : (byteLength before + 1) :: startsFrom (byteLength before + 1) text =
            (0 :: startsFrom (byteLength []) text).map (byteLength before + 1 + ·) := by
          rw [List.map_cons, ← startsFrom_add]
          rfl
        rw [List.getElem?_cons_succ, hmoved, List.getElem?_map, hrest, SourceText.lineAt?,
          Option.map_map, Option.map_map]
        rfl
    · have hfree : '\n' ∉ before ++ [c] := by
        rw [List.mem_append, List.mem_singleton, not_or]
        exact ⟨hbefore, Ne.symm hc⟩
      have hrest := ih hfree index
      rw [byteLength_append, byteLength, byteLength, Nat.add_zero, List.append_assoc,
        List.singleton_append] at hrest
      rw [startsFrom, if_neg hc, hrest]

/-- An index keeps the text. -/
@[simp] theorem text_ofText (text : List Char) : (ofText text).text = text :=
  rfl

/-- The offsets of an index are those at which the lines of the text start. -/
theorem starts_getElem? (text : List Char) (index : Nat) :
    (ofText text).starts[index]? =
      (SourceText.lineAt? (linesOf text) index).map Prod.fst := by
  rw [ofText, List.getElem?_toArray]
  exact getElem?_startsFrom List.not_mem_nil text index

/-- Lines start behind the start of the text, each behind the one before. -/
theorem pairwise_startsFrom (offset : Nat) (text : List Char) :
    (∀ start ∈ startsFrom offset text, offset < start) ∧
      (startsFrom offset text).Pairwise (· < ·) := by
  induction text generalizing offset with
  | nil => exact ⟨nofun, List.Pairwise.nil⟩
  | cons c text ih =>
    rw [startsFrom]
    split
    · obtain ⟨hbehind, hpairwise⟩ := ih (offset + 1)
      refine ⟨?_, List.pairwise_cons.mpr ⟨hbehind, hpairwise⟩⟩
      intro start hstart
      rcases List.mem_cons.mp hstart with rfl | hstart
      · exact Nat.lt_succ_self offset
      · exact Nat.lt_of_succ_lt (hbehind start hstart)
    · obtain ⟨hbehind, hpairwise⟩ := ih (offset + c.utf8Size)
      exact ⟨fun start hstart => Nat.lt_of_le_of_lt (Nat.le_add_right _ _) (hbehind start hstart),
        hpairwise⟩

/-! ### Halving -/

/-- Numbers each of which is greater than those before it. -/
def Increasing (numbers : Array Nat) : Prop :=
  numbers.toList.Pairwise (· < ·)

/-- The offsets of an index increase. -/
theorem increasing_starts (text : List Char) : Increasing (ofText text).starts := by
  obtain ⟨hbehind, hpairwise⟩ := pairwise_startsFrom 0 text
  exact List.pairwise_cons.mpr ⟨hbehind, hpairwise⟩

/-- Of two increasing numbers the one in front is smaller. -/
theorem Increasing.lt {numbers : Array Nat} (h : Increasing numbers) {index next first second : Nat}
    (hlt : index < next) (hfirst : numbers[index]? = some first)
    (hsecond : numbers[next]? = some second) : first < second := by
  rw [← Array.getElem?_toList, List.getElem?_eq_some_iff] at hfirst hsecond
  obtain ⟨hindex, rfl⟩ := hfirst
  obtain ⟨hnext, rfl⟩ := hsecond
  exact List.pairwise_iff_getElem.mp h index next hindex hnext hlt

/-- A number belongs in a slot: it stands there, or all in front are smaller and all others
greater. -/
inductive Fits (numbers : Array Nat) (number : Nat) : Slot → Prop where
  /-- The number is found. -/
  | found {index : Nat} (hindex : numbers[index]? = some number) :
    Fits numbers number (.found index)
  /-- The number is missing. -/
  | between {index : Nat} (hindex : index ≤ numbers.size)
    (hfront : ∀ i a, i < index → numbers[i]? = some a → a < number)
    (hback : ∀ i a, index ≤ i → numbers[i]? = some a → number < a) :
    Fits numbers number (.between index)

/-- Halving increasing numbers finds the slot of a number without failing, if all numbers outside of
the stretch that is halved are smaller or greater. -/
theorem exists_searchBetween {numbers : Array Nat} (h : Increasing numbers) {number low high : Nat}
    (hle : low ≤ high) (hhigh : high ≤ numbers.size)
    (hfront : ∀ i a, i < low → numbers[i]? = some a → a < number)
    (hback : ∀ i a, high ≤ i → numbers[i]? = some a → number < a) :
    ∃ slot, searchBetween numbers number low high = .ok slot ∧ Fits numbers number slot := by
  induction hlength : high - low using Nat.strong_induction_on generalizing low high with
  | _ length ih =>
  rw [searchBetween]
  by_cases hlow : low < high
  · have hmiddle : low + (high - low) / 2 < numbers.size := by omega
    generalize hindex : low + (high - low) / 2 = middle at hmiddle
    have hcandidate : numbers[middle]? = some numbers[middle] := Array.getElem?_eq_getElem hmiddle
    generalize numbers[middle] = candidate at hcandidate
    have hlookUp : lookUp numbers middle = .ok candidate := by rw [lookUp, hcandidate]
    simp only [if_pos hlow, hlookUp, bind, Except.bind, pure, Except.pure]
    split
    · next heq =>
      rw [heq] at hcandidate
      exact ⟨_, rfl, .found hcandidate⟩
    · next hne =>
      split
      · next hlt =>
        -- All up to the middle are smaller.
        refine ih (high - (middle + 1)) (by omega) (by omega) hhigh (fun i a hi ha => ?_) hback rfl
        rcases Nat.lt_or_eq_of_le (Nat.le_of_lt_succ hi) with hi | rfl
        · exact Nat.lt_trans (h.lt hi ha hcandidate) hlt
        · rw [hcandidate] at ha
          cases ha
          exact hlt
      · next hle =>
        -- All from the middle on are greater.
        have hgt : number < candidate := by omega
        refine ih (middle - low) (by omega) (by omega) (by omega) hfront (fun i a hi ha => ?_) rfl
        rcases Nat.lt_or_eq_of_le hi with hi | rfl
        · exact Nat.lt_trans hgt (h.lt hi hcandidate ha)
        · rw [hcandidate] at ha
          cases ha
          exact hgt
  · rw [if_neg hlow]
    exact ⟨_, rfl, .between (by omega) hfront fun i a hi ha => hback i a (by omega) ha⟩

/-- The line to which an offset belongs is found: it starts there or before, and the next line does
not. -/
theorem exists_lineOf (text : List Char) (offset : Nat) :
    ∃ line start, (ofText text).lineOf offset = .ok line ∧
      (ofText text).starts[line]? = some start ∧ start ≤ offset ∧
      ∀ next, (ofText text).starts[line + 1]? = some next → offset < next := by
  have hincreasing := increasing_starts text
  have hback : ∀ i a, (ofText text).starts.size ≤ i → (ofText text).starts[i]? = some a →
      offset < a := by
    intro i a hi ha
    rw [Array.getElem?_eq_none hi] at ha
    cases ha
  obtain ⟨slot, hslot, hfits⟩ := exists_searchBetween hincreasing
    (Nat.zero_le (ofText text).starts.size) (Nat.le_refl _)
    (fun i _ hi => absurd hi (Nat.not_lt_zero i)) hback
  have hfirst : (ofText text).starts[0]? = some 0 := rfl
  cases hfits with
  | @found index hindex =>
    refine ⟨index, offset, ?_, hindex, Nat.le_refl offset,
      fun next hnext => hincreasing.lt (Nat.lt_succ_self index) hindex hnext⟩
    simp only [lineOf, hslot, bind, Except.bind, pure, Except.pure]
  | @between index hindex hfront hback =>
    -- The first line starts with the text, so that the slot is not in front of it.
    have hpos : 0 < index := by
      by_contra hzero
      exact Nat.not_lt_zero offset (hback 0 0 (by omega) hfirst)
    have hminus : minus index 1 = .ok (index - 1) := if_pos hpos
    have hsucc : index - 1 + 1 = index := Nat.sub_add_cancel hpos
    have hstart := Array.getElem?_eq_getElem (show index - 1 < (ofText text).starts.size by omega)
    refine ⟨index - 1, _, ?_, hstart, ?_, ?_⟩
    · simp only [lineOf, hslot, bind, Except.bind, hminus]
    · exact Nat.le_of_lt (hfront (index - 1) _ (by omega) hstart)
    · rw [hsucc]
      exact fun next hnext => hback index next (Nat.le_refl index) hnext

/-! ### Readings -/

/-- An offset of the index is the start of a line. -/
theorem exists_isLine_of_starts {text : List Char} {index start : Nat}
    (h : (ofText text).starts[index]? = some start) :
    ∃ front line rest, SourceText.IsLine text index front line rest ∧ byteLength front = start := by
  rw [starts_getElem?, Option.map_eq_some_iff] at h
  obtain ⟨⟨offset, line⟩, hat, rfl⟩ := h
  obtain ⟨front, rest, hline, hstart⟩ := SourceText.exists_isLine_of_lineAt? hat
  exact ⟨front, line, rest, hline, hstart⟩

/-- The offset behind the last character of a line is the end of the line. -/
theorem stopOf_eq {text front line rest : List Char} {index : Nat}
    (h : SourceText.IsLine text index front line rest) :
    (ofText text).stopOf index = .ok (byteLength front + byteLength line) := by
  rw [stopOf, starts_getElem?]
  rcases h.next with ⟨rfl, hnext⟩ | ⟨behind, following, -, hnext⟩
  · have hlength : byteLength text = byteLength front + byteLength line := by
      rw [h.text_eq, byteLength_append, byteLength_append, byteLength, Nat.add_zero]
    rw [hnext]
    exact congrArg Except.ok hlength
  · rw [hnext]
    exact if_pos (Nat.le_add_left 1 _)

/-- The index finds the position of every offset, and does not fail. -/
theorem position?_ofText (source : SourceText) (offset : Nat) :
    (ofText source.text.toList).position? offset = .ok (source.position? offset) := by
  by_cases hpast : byteLength source.text.toList < offset
  · have hnone : source.position? offset = none := by
      rw [Option.eq_none_iff_forall_ne_some]
      intro position hposition
      obtain ⟨before, after, htext, rfl, -⟩ := SourceText.position?_eq_some_iff.mp hposition
      rw [htext, byteLength_append] at hpast
      omega
    rw [position?, hnone]
    exact if_pos hpast
  · obtain ⟨index, start, hlineOf, hstart, hle, hnext⟩ := exists_lineOf source.text.toList offset
    obtain ⟨front, line, rest, hline, rfl⟩ := exists_isLine_of_starts hstart
    obtain ⟨amount, rfl⟩ := Nat.exists_eq_add_of_le hle
    -- The offset lies on the line, which ends with the text or in front of the next line.
    have hamount : amount ≤ byteLength line := by
      rcases hline.next with ⟨rfl, -⟩ | ⟨behind, following, -, hat⟩
      · rw [hline.text_eq, byteLength_append, byteLength_append, byteLength] at hpast
        omega
      · have hbefore := hnext _ (by rw [starts_getElem?, hat]; rfl)
        omega
    have hlookUp : lookUp (ofText source.text.toList).starts index = .ok (byteLength front) := by
      rw [lookUp, hstart]
    have hcut : SourceText.sliceChars? source.text.toList
        ⟨byteLength front, byteLength front + amount⟩ =
        (splitAtByte? (line ++ rest) amount).map Prod.fst := by
      rw [hline.text_eq, SourceText.sliceChars?, if_pos (Nat.le_add_right _ _),
        splitAtByte?_append, Nat.add_sub_cancel_left]
      rfl
    rw [hline.position?_eq hamount, position?]
    simp only [text_ofText, if_neg hpast, hlineOf, hlookUp, hcut, bind, Except.bind, pure,
      Except.pure, Option.map_map]
    rfl

/-- The index finds the offset of every position, and does not fail. -/
theorem offsetOf?_ofText (source : SourceText) (position : Position) :
    (ofText source.text.toList).offsetOf? position = .ok (source.offsetOf? position) := by
  rw [offsetOf?, SourceText.offsetOf?]
  by_cases hzero : position.line = 0 ∨ position.column = 0
  · rw [if_pos hzero, if_pos hzero]
    rfl
  · rw [if_neg hzero, if_neg hzero, starts_getElem?]
    cases hat : SourceText.lineAt? (linesOf source.text.toList) (position.line - 1) with
    | none => rfl
    | some found =>
      obtain ⟨start, line⟩ := found
      obtain ⟨front, rest, hline, rfl⟩ := SourceText.exists_isLine_of_lineAt? hat
      have hcut : cut source.text.toList (byteLength front) (byteLength front + byteLength line) =
          .ok line := by
        rw [cut, hline.text_eq, SourceText.sliceChars?_append]
      simp only [Option.map_some, stopOf_eq hline, text_ofText, hcut, bind, Except.bind]
      rfl

/-- Offsets and positions correspond to each other. An offset has a position exactly if the text can
be cut there, greater offsets have later positions, and a position leads back to its offset. A
position has an offset exactly if both of its numbers count from one and its line is there, and the
offset has that position again, with the end of the line for a column behind it. Readings with the
line index give the same answers and never fail. -/
theorem positions_correspond (source : SourceText) :
    (∀ offset, (ofText source.text.toList).position? offset = .ok (source.position? offset) ∧
      ((source.position? offset).isSome ↔ source.IsBoundary offset) ∧
      ∀ position, source.position? offset = some position →
        source.offsetOf? position = some offset) ∧
    (∀ first second position next, source.position? first = some position →
      source.position? second = some next → (first < second ↔ position.Precedes next)) ∧
    (∀ position, (ofText source.text.toList).offsetOf? position = .ok (source.offsetOf? position) ∧
      (source.offsetOf? position = none ↔ position.line = 0 ∨ position.column = 0 ∨
        (linesOf source.text.toList).length < position.line) ∧
      ∀ offset, source.offsetOf? position = some offset →
        ∃ line, (linesOf source.text.toList)[position.line - 1]? = some line ∧
          source.position? offset =
            some ⟨position.line, min position.column (1 + line.length)⟩) := by
  refine ⟨fun offset => ?_, fun first second position next hfirst hsecond => ?_,
    fun position => ?_⟩
  · exact ⟨position?_ofText source offset, SourceText.isSome_position?_iff,
      fun position h => SourceText.offsetOf?_of_position? h⟩
  · exact SourceText.lt_iff_precedes hfirst hsecond
  · exact ⟨offsetOf?_ofText source position, SourceText.offsetOf?_eq_none_iff,
      fun offset h => SourceText.position?_of_offsetOf? h⟩

/-- The carriage return in front of a line feed takes a column, the line feed itself takes the one
behind it, and no offset lies within a character of two bytes. -/
theorem positions_of_two_lines :
    let source : SourceText := ⟨"é\r\nb"⟩
    source.offsetOf? ⟨1, 3⟩ = some 3 ∧ source.offsetOf? ⟨1, 9⟩ = some 3 ∧
      source.offsetOf? ⟨2, 1⟩ = some 4 ∧ source.offsetOf? ⟨3, 1⟩ = none ∧
      source.position? 1 = none ∧ (3 < 4 ↔ (Position.mk 1 3).Precedes ⟨2, 1⟩) := by
  intro source
  obtain ⟨hoffsets, horder, hpositions⟩ := positions_correspond source
  have hfeed : source.position? 3 = some ⟨1, 3⟩ := by decide +kernel
  have hnext : source.position? 4 = some ⟨2, 1⟩ := by decide +kernel
  have hlast : (linesOf source.text.toList).length < 3 := by decide +kernel
  have hinside : ¬source.IsBoundary 1 := by decide +kernel
  refine ⟨(hoffsets 3).2.2 _ hfeed, by decide +kernel, (hoffsets 4).2.2 _ hnext,
    (hpositions ⟨3, 1⟩).2.1.mpr (Or.inr (Or.inr hlast)), ?_, horder 3 4 _ _ hfeed hnext⟩
  rwa [← (hoffsets 1).2.1, Bool.not_eq_true, Option.isSome_eq_false_iff,
    Option.isNone_iff_eq_none] at hinside

end LineIndex

end KeyLens
