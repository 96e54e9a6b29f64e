import KeyLens.Proofs.Source.Positions

/-!
# The lines of a text

Each line of a text stands at its own offset between the line feeds around it, and the positions of
the places on it have its number. Positions grow with the offsets: a character moves a position
forward, on its line or to the start of the next one.
-/

namespace KeyLens

/-- A position on an earlier line, or further to the left on the same line. -/
def Position.Precedes (first second : Position) : Prop :=
  first.line < second.line ∨ (first.line = second.line ∧ first.column < second.column)

instance (first second : Position) : Decidable (first.Precedes second) :=
  inferInstanceAs (Decidable (_ ∨ _))

/-- A position that precedes another one precedes what that one precedes. -/
theorem Position.Precedes.trans {first second third : Position} (h : first.Precedes second)
    (hnext : second.Precedes third) : first.Precedes third := by
  unfold Position.Precedes at h hnext ⊢
  omega

/-- No two positions precede each other. -/
theorem Position.Precedes.asymm {first second : Position} (h : first.Precedes second) :
    ¬second.Precedes first := by
  unfold Position.Precedes at h ⊢
  omega

/-- A character moves the position forward. -/
theorem Position.precedes_after (position : Position) (c : Char) :
    position.Precedes (position.after c) := by
  unfold Position.after
  split
  · exact Or.inl (Nat.lt_succ_self _)
  · exact Or.inr ⟨rfl, Nat.lt_succ_self _⟩

/-- Characters move the position forward. -/
theorem Position.precedes_foldl {more : List Char} (hmore : more ≠ []) (position : Position) :
    position.Precedes (more.foldl Position.after position) := by
  induction more generalizing position with
  | nil => exact absurd rfl hmore
  | cons c more ih =>
    have hstep := position.precedes_after c
    rw [List.foldl_cons]
    by_cases hrest : more = []
    · rw [hrest]
      exact hstep
    · exact hstep.trans (ih hrest _)

/-- Only characters take bytes. -/
theorem eq_nil_of_byteLength {text : List Char} (h : byteLength text = 0) : text = [] := by
  cases text with
  | nil => rfl
  | cons c text =>
    have hsize := utf8Size_ne_zero c
    rw [byteLength] at h
    omega

/-- Behind a first part of a text, the cuts of the text are those of the rest. -/
theorem splitAtByte?_append_add (front tail : List Char) (offset : Nat) :
    splitAtByte? (front ++ tail) (byteLength front + offset) =
      (splitAtByte? tail offset).map fun parts => (front ++ parts.1, parts.2) := by
  rw [Option.ext_iff]
  rintro ⟨before, after⟩
  rw [splitAtByte?_eq_some_iff, Option.map_eq_some_iff]
  constructor
  · rintro ⟨htext, hbytes⟩
    rcases List.append_eq_append_iff.mp htext with ⟨more, rfl, htail⟩ | ⟨more, hfront, hafter⟩
    · rw [byteLength_append, Nat.add_left_cancel_iff] at hbytes
      exact ⟨(more, after), splitAtByte?_eq_some_iff.mpr ⟨htail, hbytes⟩, rfl⟩
    · -- The cut lies at the end of the first part, where both parts are as long.
      rw [hfront, byteLength_append] at hbytes
      have hnone : more = [] := eq_nil_of_byteLength (by omega)
      have hoffset : offset = 0 := by omega
      subst hnone hoffset
      rw [List.append_nil] at hfront
      refine ⟨([], tail), ?_, ?_⟩
      · cases tail <;> rfl
      · rw [hfront, hafter, List.append_nil, List.nil_append]
  · rintro ⟨⟨more, rest⟩, hsplit, hparts⟩
    obtain ⟨rfl, rfl⟩ := splitAtByte?_eq_some_iff.mp hsplit
    cases hparts
    exact ⟨(List.append_assoc front more rest).symm, byteLength_append front more⟩

namespace SourceText

/-! ### Positions on a line -/

/-- Later lines have greater numbers by as much. -/
theorem foldl_after_add (front : List Char) (line column count : Nat) :
    front.foldl Position.after ⟨line + count, column⟩ =
      ⟨(front.foldl Position.after ⟨line, column⟩).line + count,
        (front.foldl Position.after ⟨line, column⟩).column⟩ := by
  induction front generalizing line column with
  | nil => rfl
  | cons c front ih =>
    by_cases hc : c = '\n'
    · simp only [List.foldl_cons, Position.after, if_pos hc]
      rw [← ih, Nat.add_right_comm]
    · simp only [List.foldl_cons, Position.after, if_neg hc]
      exact ih line (column + 1)

/-- Without a line feed the column grows by one for each character. -/
theorem foldl_after_of_free {more : List Char} (h : '\n' ∉ more) (position : Position) :
    more.foldl Position.after position = ⟨position.line, position.column + more.length⟩ := by
  induction more generalizing position with
  | nil => rfl
  | cons c more ih =>
    rw [List.mem_cons, not_or] at h
    rw [List.foldl_cons, ih h.2, Position.after, if_neg (Ne.symm h.1), List.length_cons]
    simp only [Nat.add_assoc, Nat.add_comm 1]

/-- The position behind characters of the same line. -/
theorem positionAfter_append {front more : List Char} (h : '\n' ∉ more) :
    positionAfter (front ++ more) =
      ⟨(positionAfter front).line, (positionAfter front).column + more.length⟩ := by
  rw [positionAfter, List.foldl_append, foldl_after_of_free h]
  rfl

/-- Behind the first line of a text, positions are those in the rest, one line further down. -/
theorem positionAfter_line {first : List Char} (h : '\n' ∉ first) (front : List Char) :
    positionAfter (first ++ '\n' :: front) =
      ⟨(positionAfter front).line + 1, (positionAfter front).column⟩ := by
  rw [positionAfter, List.foldl_append, foldl_after_of_free h, List.foldl_cons, Position.after,
    if_pos rfl, foldl_after_add]
  rfl

/-! ### Lines of a text -/

/-- A text has one line only, or a first line with a line feed and other lines behind it. -/
theorem linesOf_cases (text : List Char) :
    ('\n' ∉ text ∧ linesOf text = [text]) ∨
      ∃ first rest, '\n' ∉ first ∧ text = first ++ '\n' :: rest ∧
        linesOf text = first :: linesOf rest := by
  by_cases hfeed : '\n' ∈ text
  · obtain ⟨first, rest, rfl, hfirst⟩ := List.eq_append_cons_of_mem hfeed
    exact Or.inr ⟨first, rest, hfirst, rfl, List.splitOn_append_cons_self_of_not_mem hfirst rest⟩
  · exact Or.inl ⟨hfeed, List.splitOn_eq_singleton hfeed⟩

/-- A line of a text with the parts of the text in front of it and behind it. -/
structure IsLine (text : List Char) (index : Nat) (front line rest : List Char) : Prop where
  /-- The three parts make up the text. -/
  text_eq : text = front ++ (line ++ rest)
  /-- The line does not go on behind a line feed. -/
  free : '\n' ∉ line
  /-- The line starts in the first column. -/
  position_eq : positionAfter front = ⟨index + 1, 1⟩
  /-- The text ends with the line, or the next line starts behind a line feed. -/
  next : (rest = [] ∧ lineAt? (linesOf text) (index + 1) = none) ∨
    ∃ behind following, rest = '\n' :: behind ∧
      lineAt? (linesOf text) (index + 1) = some (byteLength front + byteLength line + 1, following)

/-- A text has a first line. -/
theorem exists_lineAt?_zero (text : List Char) :
    ∃ line, lineAt? (linesOf text) 0 = some (0, line) := by
  rcases linesOf_cases text with ⟨-, hlines⟩ | ⟨first, rest, -, -, hlines⟩
  · exact ⟨text, by rw [hlines]; rfl⟩
  · exact ⟨first, by rw [hlines]; rfl⟩

/-- What is found at an index is a line, which starts behind the part in front of it. -/
theorem exists_isLine_of_lineAt? {text line : List Char} {index start : Nat}
    (h : lineAt? (linesOf text) index = some (start, line)) :
    ∃ front rest, IsLine text index front line rest ∧ byteLength front = start := by
  induction index generalizing text start with
  | zero =>
    rcases linesOf_cases text with ⟨hfree, hlines⟩ | ⟨first, rest, hfirst, rfl, hlines⟩
    · rw [hlines] at h
      cases h
      refine ⟨[], [], ⟨by simp, hfree, rfl, Or.inl ⟨rfl, ?_⟩⟩, rfl⟩
      rw [hlines]
      rfl
    · obtain ⟨following, hnext⟩ := exists_lineAt?_zero rest
      rw [hlines] at h
      cases h
      refine ⟨[], '\n' :: rest, ⟨rfl, hfirst, rfl, Or.inr ⟨rest, following, rfl, ?_⟩⟩, rfl⟩
      rw [hlines, lineAt?, hnext]
      simp [byteLength]
  | succ index ih =>
    rcases linesOf_cases text with ⟨-, hlines⟩ | ⟨first, tail, hfirst, rfl, hlines⟩
    · rw [hlines] at h
      cases h
    · rw [hlines, lineAt?, Option.map_eq_some_iff] at h
      obtain ⟨⟨offset, found⟩, hfound, hpair⟩ := h
      cases hpair
      obtain ⟨front, rest, hline, rfl⟩ := ih hfound
      have hfeed : '\n'.utf8Size = 1 := rfl
      have hstart : byteLength (first ++ '\n' :: front) =
          byteLength first + 1 + byteLength front := by
        rw [byteLength_append, byteLength, hfeed, Nat.add_assoc]
      refine ⟨first ++ '\n' :: front, rest, ⟨?_, hline.free, ?_, ?_⟩, hstart⟩
      · rw [hline.text_eq]
        simp
      · rw [positionAfter_line hfirst, hline.position_eq]
      · rw [hlines, lineAt?]
        rcases hline.next with ⟨hrest, hnext⟩ | ⟨behind, following, hrest, hnext⟩
        · exact Or.inl ⟨hrest, by rw [hnext]; rfl⟩
        · refine Or.inr ⟨behind, following, hrest, ?_⟩
          rw [hnext, hstart]
          simp only [Option.map_some, Nat.add_assoc]

/-- There is a line with each index below the number of lines. -/
theorem lineAt?_eq_none_iff {lines : List (List Char)} {index : Nat} :
    lineAt? lines index = none ↔ lines.length ≤ index := by
  induction lines generalizing index with
  | nil => simp [lineAt?]
  | cons line lines ih =>
    cases index with
    | zero => simp [lineAt?]
    | succ index =>
      rw [lineAt?, Option.map_eq_none_iff, ih, List.length_cons]
      exact Nat.succ_le_succ_iff.symm

/-- The line that is found at an index is the one with that index. -/
theorem getElem?_of_lineAt? {lines : List (List Char)} {index start : Nat} {line : List Char}
    (h : lineAt? lines index = some (start, line)) : lines[index]? = some line := by
  induction lines generalizing index start with
  | nil => cases h
  | cons first lines ih =>
    cases index with
    | zero =>
      cases h
      rfl
    | succ index =>
      rw [lineAt?, Option.map_eq_some_iff] at h
      obtain ⟨⟨offset, found⟩, hfound, hpair⟩ := h
      cases hpair
      rw [List.getElem?_cons_succ]
      exact ih hfound

/-- No line feed stands in a line in front of an offset. -/
theorem IsLine.free_of_split {text front line rest before after : List Char} {index offset : Nat}
    (h : IsLine text index front line rest) (hoffset : offset ≤ byteLength line)
    (hsplit : splitAtByte? (line ++ rest) offset = some (before, after)) : '\n' ∉ before := by
  obtain ⟨htail, hbytes⟩ := splitAtByte?_eq_some_iff.mp hsplit
  intro hfeed
  rcases List.append_eq_append_iff.mp htail with ⟨more, hbefore, -⟩ | ⟨more, hline, -⟩
  · rw [hbefore, byteLength_append] at hbytes
    have hnone : more = [] := eq_nil_of_byteLength (by omega)
    rw [hbefore, hnone, List.append_nil] at hfeed
    exact h.free hfeed
  · have hfree := h.free
    rw [hline] at hfree
    exact hfree (List.mem_append_left _ hfeed)

/-- The position of an offset on a line. -/
theorem IsLine.position?_eq {source : SourceText} {front line rest : List Char} {index offset : Nat}
    (h : IsLine source.text.toList index front line rest) (hoffset : offset ≤ byteLength line) :
    source.position? (byteLength front + offset) =
      (splitAtByte? (line ++ rest) offset).map fun parts => ⟨index + 1, parts.1.length + 1⟩ := by
  rw [position?, h.text_eq, splitAtByte?_append_add, Option.map_map]
  refine Option.map_congr ?_
  rintro ⟨before, after⟩ hsplit
  simp only [Function.comp_apply]
  rw [positionAfter_append (h.free_of_split hoffset hsplit), h.position_eq, Nat.add_comm 1]

/-! ### Offsets and positions -/

/-- The position of an offset leads back to it. -/
theorem offsetOf?_of_position? {source : SourceText} {offset : Nat} {position : Position}
    (h : source.position? offset = some position) : source.offsetOf? position = some offset := by
  obtain ⟨before, after, htext, rfl, rfl⟩ := position?_eq_some_iff.mp h
  exact offsetOf?_positionAfter htext

/-- A greater offset has a later position. -/
theorem precedes_of_lt {source : SourceText} {first second : Nat} {position next : Position}
    (hfirst : source.position? first = some position)
    (hsecond : source.position? second = some next) (hlt : first < second) :
    position.Precedes next := by
  obtain ⟨before, after, htext, rfl, rfl⟩ := position?_eq_some_iff.mp hfirst
  obtain ⟨before', after', htext', rfl, rfl⟩ := position?_eq_some_iff.mp hsecond
  rw [htext] at htext'
  rcases List.append_eq_append_iff.mp htext' with ⟨more, rfl, -⟩ | ⟨more, rfl, -⟩
  · have hmore : more ≠ [] := by
      rintro rfl
      simp at hlt
    rw [positionAfter, positionAfter, List.foldl_append]
    exact Position.precedes_foldl hmore _
  · rw [byteLength_append] at hlt
    omega

/-- Offsets are in the order of their positions. -/
theorem lt_iff_precedes {source : SourceText} {first second : Nat} {position next : Position}
    (hfirst : source.position? first = some position)
    (hsecond : source.position? second = some next) :
    first < second ↔ position.Precedes next := by
  constructor
  · exact precedes_of_lt hfirst hsecond
  · intro hprecedes
    by_contra hle
    rcases Nat.eq_or_lt_of_le (Nat.le_of_not_lt hle) with rfl | hlt
    · rw [hfirst] at hsecond
      cases hsecond
      exact hprecedes.asymm hprecedes
    · exact (precedes_of_lt hsecond hfirst hlt).asymm hprecedes

/-- A position has an offset unless it counts from zero or its line is not there. -/
theorem offsetOf?_eq_none_iff {source : SourceText} {position : Position} :
    source.offsetOf? position = none ↔ position.line = 0 ∨ position.column = 0 ∨
      (linesOf source.text.toList).length < position.line := by
  rw [offsetOf?]
  split
  · next hzero =>
    rcases hzero with hline | hcolumn
    · exact iff_of_true rfl (Or.inl hline)
    · exact iff_of_true rfl (Or.inr (Or.inl hcolumn))
  · next hzero =>
    rw [not_or] at hzero
    rw [Option.map_eq_none_iff, lineAt?_eq_none_iff]
    have hline := hzero.1
    have hcolumn := hzero.2
    omega

/-- The offset of a position has that position again, unless the column lies past the end of the
line and stands for it. -/
theorem position?_of_offsetOf? {source : SourceText} {position : Position} {offset : Nat}
    (h : source.offsetOf? position = some offset) :
    ∃ line, (linesOf source.text.toList)[position.line - 1]? = some line ∧
      source.position? offset = some ⟨position.line, min position.column (1 + line.length)⟩ := by
  rw [offsetOf?] at h
  split at h
  · cases h
  · next hzero =>
    rw [not_or] at hzero
    obtain ⟨⟨start, line⟩, hat, hoffset⟩ := Option.map_eq_some_iff.mp h
    obtain ⟨front, rest, hline, rfl⟩ := exists_isLine_of_lineAt? hat
    refine ⟨line, getElem?_of_lineAt? hat, ?_⟩
    have hfree : '\n' ∉ line.take (position.column - 1) :=
      fun hfeed => hline.free (List.mem_of_mem_take hfeed)
    have hnumber : position.line - 1 + 1 = position.line := by omega
    have hcolumn : 1 + (line.take (position.column - 1)).length =
        min position.column (1 + line.length) := by
      rw [List.length_take]
      omega
    refine position?_eq_some_iff.mpr ⟨front ++ line.take (position.column - 1),
      line.drop (position.column - 1) ++ rest, ?_, ?_, ?_⟩
    · rw [hline.text_eq, List.append_assoc, ← List.append_assoc (List.take _ _),
        List.take_append_drop]
    · rw [byteLength_append]
      exact hoffset
    · rw [positionAfter_append hfree, hline.position_eq, hnumber, hcolumn]

end SourceText

end KeyLens
