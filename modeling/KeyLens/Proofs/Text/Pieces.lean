import Mathlib.Data.List.TakeWhile

/-!
# Splitting texts in parts

A text is split where its characters change their kind, or at its separators. What stands in front
of the split and behind it then determines the split.
-/

namespace KeyLens.Text

variable {separator : Char} {front : List Char}

/-- Characters of a kind are taken up to the first character of another kind. -/
theorem takeWhile_append_stop {p : Char → Bool} {rest : List Char}
    (hfront : ∀ c ∈ front, p c = true) (hrest : ∀ c ∈ rest.head?, p c = false) :
    (front ++ rest).takeWhile p = front := by
  rw [List.takeWhile_append_of_pos hfront]
  cases rest with
  | nil => rw [List.takeWhile_nil, List.append_nil]
  | cons c rest =>
    rw [List.takeWhile_cons_of_neg (by rw [hrest c rfl]; exact Bool.false_ne_true), List.append_nil]

/-- Characters of a kind are dropped up to the first character of another kind. -/
theorem dropWhile_append_stop {p : Char → Bool} {rest : List Char}
    (hfront : ∀ c ∈ front, p c = true) (hrest : ∀ c ∈ rest.head?, p c = false) :
    (front ++ rest).dropWhile p = rest := by
  rw [List.dropWhile_append_of_pos hfront]
  cases rest with
  | nil => rfl
  | cons c rest => exact List.dropWhile_cons_of_neg (by rw [hrest c rfl]; exact Bool.false_ne_true)

/-- What is left starts with a character of another kind. -/
theorem head?_dropWhile_stop {p : Char → Bool} (text : List Char) :
    ∀ c ∈ (text.dropWhile p).head?, p c = false := by
  intro c hc
  have hstop := List.head?_dropWhile_not p text
  rwa [hc] at hstop

/-- A separator at the start of a text ends an empty piece. -/
theorem splitOn_cons_self (separator : Char) (text : List Char) :
    (separator :: text).splitOn separator = [] :: text.splitOn separator :=
  List.splitOn_append_cons_self_of_not_mem List.not_mem_nil text

/-- A character that is no separator belongs to the first piece. -/
theorem splitOn_cons_of_ne {c : Char} (h : c ≠ separator) (text : List Char) :
    (c :: text).splitOn separator = (text.splitOn separator).modifyHead (c :: ·) := by
  rw [List.splitOn_cons_eq_if_modifyHead, if_neg (by simpa using h)]

/-- What stands in front of the first separator belongs to the first piece. -/
theorem exists_splitOn_append (h : separator ∉ front) (rest : List Char) :
    ∃ piece pieces, rest.splitOn separator = piece :: pieces ∧
      (front ++ rest).splitOn separator = (front ++ piece) :: pieces := by
  induction front with
  | nil =>
    obtain ⟨piece, pieces, hpieces⟩ :=
      List.exists_cons_of_ne_nil (List.splitOn_ne_nil separator rest)
    exact ⟨piece, pieces, hpieces, hpieces⟩
  | cons c front ih =>
    rw [List.mem_cons, not_or] at h
    obtain ⟨piece, pieces, hrest, hfront⟩ := ih h.2
    refine ⟨piece, pieces, hrest, ?_⟩
    rw [List.cons_append, splitOn_cons_of_ne (Ne.symm h.1), hfront, List.modifyHead_cons,
      List.cons_append]

/-- The separator stands between pieces and one more. -/
theorem intercalate_concat {pieces : List (List Char)} (hpieces : pieces ≠ [])
    (piece : List Char) :
    [separator].intercalate (pieces ++ [piece]) =
      [separator].intercalate pieces ++ separator :: piece := by
  induction pieces with
  | nil => exact absurd rfl hpieces
  | cons first rest ih =>
    cases rest with
    | nil => simp
    | cons next others =>
      have hrest := ih (List.cons_ne_nil next others)
      rw [List.cons_append] at hrest
      simp only [List.cons_append, List.intercalate_cons_cons, hrest, List.append_assoc]

/-- Each character of joined pieces is the separator or one of a piece. -/
theorem eq_or_mem_of_mem_intercalate {pieces : List (List Char)} {c : Char}
    (h : c ∈ [separator].intercalate pieces) : c = separator ∨ ∃ piece ∈ pieces, c ∈ piece := by
  induction pieces with
  | nil => cases h
  | cons piece rest ih =>
    cases rest with
    | nil =>
      rw [List.intercalate_singleton] at h
      exact Or.inr ⟨piece, List.mem_cons_self, h⟩
    | cons next others =>
      rw [List.intercalate_cons_cons, List.append_assoc, List.mem_append, List.mem_append,
        List.mem_singleton] at h
      rcases h with hpiece | hseparator | hrest
      · exact Or.inr ⟨piece, List.mem_cons_self, hpiece⟩
      · exact Or.inl hseparator
      · exact (ih hrest).imp_right fun ⟨other, hother, hc⟩ =>
          ⟨other, List.mem_cons_of_mem piece hother, hc⟩

/-- Pieces that are joined stand in front of more pieces that are joined to them. -/
theorem intercalate_prefix_append (pieces rest : List (List Char)) :
    [separator].intercalate pieces <+: [separator].intercalate (pieces ++ rest) := by
  induction pieces with
  | nil => exact List.nil_prefix
  | cons piece others ih =>
    cases others with
    | nil =>
      rw [List.intercalate_singleton]
      cases rest with
      | nil => simp
      | cons next more =>
        rw [List.singleton_append, List.intercalate_cons_cons, List.append_assoc]
        exact List.prefix_append _ _
    | cons next more =>
      rw [List.cons_append, List.cons_append, List.intercalate_cons_cons,
        List.intercalate_cons_cons]
      exact (List.prefix_append_right_inj _).mpr ih

/-- The pieces of a text that was joined are those of the texts of which it was. -/
theorem splitOn_intercalate_eq_flatMap {texts : List (List Char)} (h : texts ≠ []) :
    ([separator].intercalate texts).splitOn separator =
      texts.flatMap fun text => text.splitOn separator := by
  induction texts with
  | nil => exact absurd rfl h
  | cons text rest ih =>
    cases rest with
    | nil => simp
    | cons next others =>
      rw [List.intercalate_cons_cons, List.append_assoc, List.singleton_append,
        List.splitOn_append_cons_self, ih (List.cons_ne_nil next others), ← List.flatMap_cons]

/-- The characters of a piece that is joined are in the text. -/
theorem mem_intercalate {pieces : List (List Char)} {piece : List Char} {c : Char}
    (hpiece : piece ∈ pieces) (hc : c ∈ piece) : c ∈ [separator].intercalate pieces := by
  induction pieces with
  | nil => cases hpiece
  | cons first rest ih =>
    cases rest with
    | nil =>
      rw [List.intercalate_singleton]
      rwa [List.mem_singleton.mp hpiece] at hc
    | cons next others =>
      rw [List.intercalate_cons_cons, List.mem_append, List.mem_append]
      rcases List.mem_cons.mp hpiece with rfl | hpiece
      · exact Or.inl (Or.inl hc)
      · exact Or.inr (ih hpiece)

/-- The characters of the pieces of a text are characters of the text. -/
theorem mem_of_mem_splitOn {text piece : List Char} {c : Char}
    (h : piece ∈ text.splitOn separator) (hc : c ∈ piece) : c ∈ text := by
  rw [← @List.intercalate_splitOn _ text _ _ separator]
  exact mem_intercalate h hc

/-- Only an empty text and one that starts with the separator have an empty first piece. -/
theorem eq_nil_or_of_head?_splitOn {text : List Char}
    (h : (text.splitOn separator).head? = some []) : text = [] ∨ text.head? = some separator := by
  obtain ⟨rest, hsplit⟩ := List.head?_eq_some_iff.mp h
  rw [← @List.intercalate_splitOn _ text _ _ separator, hsplit]
  cases rest with
  | nil => exact Or.inl rfl
  | cons next others => exact Or.inr rfl

/-- No piece of a text holds the separator. -/
theorem not_mem_of_mem_splitOn {text piece : List Char} (h : piece ∈ text.splitOn separator) :
    separator ∉ piece := by
  induction text generalizing piece with
  | nil =>
    rw [List.splitOn_nil, List.mem_singleton] at h
    rw [h]
    exact List.not_mem_nil
  | cons c rest ih =>
    by_cases hc : c = separator
    · rw [hc, splitOn_cons_self] at h
      rcases List.mem_cons.mp h with rfl | hrest
      · exact List.not_mem_nil
      · exact ih hrest
    · obtain ⟨first, others, hsplit⟩ :=
        List.exists_cons_of_ne_nil (List.splitOn_ne_nil separator rest)
      rw [splitOn_cons_of_ne hc, hsplit, List.modifyHead_cons] at h
      rw [hsplit] at ih
      rcases List.mem_cons.mp h with rfl | hothers
      · rw [List.mem_cons, not_or]
        exact ⟨Ne.symm hc, ih List.mem_cons_self⟩
      · exact ih (List.mem_cons_of_mem first hothers)

/-- Only a single empty piece, and none at all, are joined to an empty text. -/
theorem intercalate_eq_nil_iff {pieces : List (List Char)} :
    [separator].intercalate pieces = [] ↔ pieces = [] ∨ pieces = [[]] := by
  cases pieces with
  | nil => simp
  | cons piece rest => cases rest <;> simp

/-- What is taken up to a character does not hold the character. -/
theorem not_mem_takeWhile_ne (c : Char) (text : List Char) : c ∉ text.takeWhile (· != c) := by
  intro hmem
  have hne : (c != c) = true := List.mem_takeWhile_imp (p := (· != c)) hmem
  exact bne_iff_ne.mp hne rfl

/-- What is left behind the characters up to `c` starts with `c`. -/
theorem eq_of_dropWhile_ne {c d : Char} {text rest : List Char}
    (h : text.dropWhile (· != c) = d :: rest) : d = c := by
  have hstop := head?_dropWhile_stop (p := (· != c)) text d (by rw [h]; rfl)
  exact bne_eq_false_iff_eq.mp hstop

/-- What stands in front of the first `c` is taken. -/
theorem takeWhile_ne_append {c : Char} (h : c ∉ front) (rest : List Char) :
    (front ++ c :: rest).takeWhile (· != c) = front := by
  refine takeWhile_append_stop (fun d hd => bne_iff_ne.mpr (ne_of_mem_of_not_mem hd h)) ?_
  rintro d ⟨⟩
  exact bne_self_eq_false c

/-- What stands in front of the first `c` is dropped. -/
theorem dropWhile_ne_append {c : Char} (h : c ∉ front) (rest : List Char) :
    (front ++ c :: rest).dropWhile (· != c) = c :: rest := by
  refine dropWhile_append_stop (fun d hd => bne_iff_ne.mpr (ne_of_mem_of_not_mem hd h)) ?_
  rintro d ⟨⟩
  exact bne_self_eq_false c

end KeyLens.Text
