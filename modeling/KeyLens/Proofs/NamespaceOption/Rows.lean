import KeyLens.Proofs.NamespaceOption.Grammar
import KeyLens.Proofs.Text.Pieces

/-!
# How rows are read

A row is read in one way only: what stands first in it, a character, a string or a group, is the
same for every row that a text starts with. In front of a closing bracket a whole row is determined.
-/

namespace KeyLens.NamespaceOption

open KeyLens.Text
open KeyLens.Selector (isQuote)

variable {grouped other : Bool} {c quote opening closing : Char} {row content rest : List Char}

/-! ### Rows in front of rows -/

/-- A row behind a row makes a row. -/
theorem Row.append (h : Row grouped row) (hrest : Row grouped rest) :
    Row grouped (row ++ rest) := by
  induction h with
  | nil => exact hrest
  | sign hc _ ih => exact .sign hc (ih hrest)
  | separator hc _ ih => exact .separator hc (ih hrest)
  | string hquote hfree _ ih =>
    rw [List.cons_append, List.append_assoc, List.cons_append]
    exact .string hquote hfree (ih hrest)
  | group hpair hcontent _ _ ih =>
    rw [List.cons_append, List.append_assoc, List.cons_append]
    exact .group hpair hcontent (ih hrest)

/-- A row may stand within a group. -/
theorem Row.inside (h : Row grouped row) : Row true row := by
  induction h with
  | nil => exact .nil
  | sign hc _ ih => exact .sign hc ih
  | separator hc _ ih => exact .separator hc ih
  | string hquote hfree _ ih => exact .string hquote hfree ih
  | group hpair hcontent _ _ ih => exact .group hpair hcontent ih

/-- Signs make a row. -/
theorem Row.of_signs (h : ∀ d ∈ row, isSign d = true) : Row grouped row := by
  induction row with
  | nil => exact .nil
  | cons d row ih =>
    rw [List.forall_mem_cons] at h
    exact .sign h.1 (ih h.2)

/-- Whether all characters of a row are signs can be computed. -/
theorem Row.of_all (h : row.all isSign = true) : Row grouped row :=
  .of_signs (List.all_eq_true.mp h)

/-! ### The first part of a row -/

/-- No row starts with a closing bracket. -/
theorem Row.not_isClosing (h : Row grouped (c :: rest)) : isClosing c = false := by
  cases h with
  | sign hc => exact (plain_of_isSign hc).2.1
  | separator hc => rcases hc with rfl | rfl <;> rfl
  | string hquote => exact (not_bracket_of_isQuote hquote).2
  | group hpair => cases hpair <;> rfl

/-- A character at the start of a row that neither quotes nor groups is a row. -/
theorem Row.only_char (h : Row grouped (c :: rest)) (hopening : isOpening c = false)
    (hquote : isQuote c = false) : Row grouped [c] := by
  cases h with
  | sign hc => exact .sign hc .nil
  | separator hc => exact .separator hc .nil
  | string hc => rw [hc] at hquote; cases hquote
  | group hpair => rw [hpair.opens_closes.1] at hopening; cases hopening

/-- Two brackets that belong to the same one are the same. -/
theorem IsPair.eq {first second : Char} (h : IsPair opening first) (h' : IsPair opening second) :
    first = second := by
  cases h <;> cases h' <;> rfl

/-- Behind the group at its start a row goes on. -/
theorem Row.behind_group (h : Row grouped (opening :: rest)) (hpair : IsPair opening closing) :
    ∃ content tail, rest = content ++ closing :: tail ∧ Row true content ∧ Row grouped tail := by
  obtain ⟨hopening, -⟩ := hpair.opens_closes
  cases h with
  | sign hc => rw [(plain_of_isSign hc).1] at hopening; cases hopening
  | separator hc => rcases hc with rfl | rfl <;> cases hopening
  | string hc => rw [(not_bracket_of_isQuote hc).1] at hopening; cases hopening
  | group hpair' hcontent htail =>
    obtain rfl := hpair.eq hpair'
    exact ⟨_, _, rfl, hcontent, htail⟩

/-! ### Unique reading -/

/-- A string at the start of a text is determined. -/
theorem eq_of_append_quote {content' rest' : List Char} (hfree : quote ∉ content)
    (hfree' : quote ∉ content') (h : content ++ quote :: rest = content' ++ quote :: rest') :
    content = content' ∧ rest = rest' := by
  have hcontent : content = content' := by
    rw [← takeWhile_ne_append hfree rest, h, takeWhile_ne_append hfree']
  subst hcontent
  exact ⟨rfl, (List.cons.inj (List.append_cancel_left h)).2⟩

/-- A row in front of a closing bracket is determined. -/
theorem Row.eq_of_closing {row' rest' : List Char} {closing' : Char} (h : Row grouped row)
    (h' : Row other row') (hclosing : isClosing closing = true)
    (hclosing' : isClosing closing' = true)
    (heq : row ++ closing :: rest = row' ++ closing' :: rest') : row = row' ∧ rest = rest' := by
  induction h generalizing other row' closing rest closing' rest' with
  | nil =>
    cases row' with
    | nil => exact ⟨rfl, (List.cons.inj heq).2⟩
    | cons d row' =>
      obtain ⟨rfl, -⟩ := List.cons.inj heq
      rw [h'.not_isClosing] at hclosing
      cases hclosing
  | @sign grouped c row hc _ ih =>
    obtain ⟨hopening, hnot, hquote⟩ := plain_of_isSign hc
    cases row' with
    | nil =>
      obtain ⟨rfl, -⟩ := List.cons.inj heq
      rw [hnot] at hclosing'
      cases hclosing'
    | cons d row' =>
      obtain ⟨rfl, htail⟩ := List.cons.inj heq
      obtain ⟨rfl, hrest⟩ := ih (h'.behind_char hopening hquote) hclosing hclosing' htail
      exact ⟨rfl, hrest⟩
  | @separator c row hc _ ih =>
    have hplain : isOpening c = false ∧ isClosing c = false ∧ isQuote c = false := by
      rcases hc with rfl | rfl <;> exact ⟨rfl, rfl, rfl⟩
    cases row' with
    | nil =>
      obtain ⟨rfl, -⟩ := List.cons.inj heq
      rw [hplain.2.1] at hclosing'
      cases hclosing'
    | cons d row' =>
      obtain ⟨rfl, htail⟩ := List.cons.inj heq
      obtain ⟨rfl, hrest⟩ := ih (h'.behind_char hplain.1 hplain.2.2) hclosing hclosing' htail
      exact ⟨rfl, hrest⟩
  | @string grouped quote content row hquote hfree _ ih =>
    cases row' with
    | nil =>
      obtain ⟨rfl, -⟩ := List.cons.inj heq
      rw [(not_bracket_of_isQuote hquote).2] at hclosing'
      cases hclosing'
    | cons d row' =>
      obtain ⟨rfl, htail⟩ := List.cons.inj heq
      obtain ⟨content', row', rfl, hfree', hrow'⟩ := h'.behind_string hquote
      have hsplit : content ++ quote :: (row ++ closing :: rest) =
          content' ++ quote :: (row' ++ closing' :: rest') := by
        simpa using htail
      obtain ⟨rfl, hbehind⟩ := eq_of_append_quote hfree hfree' hsplit
      obtain ⟨rfl, hrest⟩ := ih hrow' hclosing hclosing' hbehind
      exact ⟨rfl, hrest⟩
  | @group grouped opened closed content row hpair _ _ ihcontent ih =>
    obtain ⟨hopened, hclosed⟩ := hpair.opens_closes
    cases row' with
    | nil =>
      obtain ⟨rfl, -⟩ := List.cons.inj heq
      rw [isOpening_of_isClosing hclosing'] at hopened
      cases hopened
    | cons d row' =>
      obtain ⟨rfl, htail⟩ := List.cons.inj heq
      obtain ⟨content', row', rfl, hcontent', hrow'⟩ := h'.behind_group hpair
      have hsplit : content ++ closed :: (row ++ closing :: rest) =
          content' ++ closed :: (row' ++ closing' :: rest') := by
        simpa using htail
      obtain ⟨rfl, hbehind⟩ := ihcontent hcontent' hclosed hclosed hsplit
      obtain ⟨rfl, hrest⟩ := ih hrow' hclosing hclosing' hbehind
      exact ⟨rfl, hrest⟩

/-- A part of a row with the property that every row which starts within it passes all of it. -/
def IsPart (part : List Char) : Prop :=
  ∀ grouped front behind rest, Row grouped front → front ++ behind = part ++ rest →
    front = [] ∨ ∃ more, front = part ++ more ∧ Row grouped more ∧ more ++ behind = rest

/-- A character that neither quotes nor groups is a part. -/
theorem isPart_char (hopening : isOpening c = false) (hquote : isQuote c = false) : IsPart [c] := by
  intro grouped front behind rest hfront heq
  cases front with
  | nil => exact Or.inl rfl
  | cons d more =>
    obtain ⟨rfl, htail⟩ := List.cons.inj heq
    exact Or.inr ⟨more, rfl, hfront.behind_char hopening hquote, htail⟩

/-- A string is a part. -/
theorem isPart_string (hquote : isQuote quote = true) (hfree : quote ∉ content) :
    IsPart (quote :: (content ++ [quote])) := by
  intro grouped front behind rest hfront heq
  cases front with
  | nil => exact Or.inl rfl
  | cons d tail =>
    obtain ⟨hd, htail⟩ := List.cons.inj heq
    rw [hd] at hfront ⊢
    obtain ⟨content', more, rfl, hfree', hmore⟩ := hfront.behind_string hquote
    have hsplit : content' ++ quote :: (more ++ behind) = content ++ quote :: rest := by
      simpa using htail
    obtain ⟨rfl, hbehind⟩ := eq_of_append_quote hfree' hfree hsplit
    exact Or.inr ⟨more, by simp, hmore, hbehind⟩

/-- A group is a part. -/
theorem isPart_group (hpair : IsPair opening closing) (hcontent : Row true content) :
    IsPart (opening :: (content ++ [closing])) := by
  intro grouped front behind rest hfront heq
  obtain ⟨-, hclosed⟩ := hpair.opens_closes
  cases front with
  | nil => exact Or.inl rfl
  | cons d tail =>
    obtain ⟨rfl, htail⟩ := List.cons.inj heq
    obtain ⟨content', more, rfl, hcontent', hmore⟩ := hfront.behind_group hpair
    have hsplit : content' ++ closing :: (more ++ behind) = content ++ closing :: rest := by
      simpa using htail
    obtain ⟨rfl, hbehind⟩ := hcontent'.eq_of_closing hcontent hclosed hclosed hsplit
    exact Or.inr ⟨more, by simp, hmore, hbehind⟩

/-- Behind a part that is not empty a row goes on. -/
theorem IsPart.behind {part : List Char} (hpart : IsPart part) (hne : part ≠ [])
    (h : Row grouped (part ++ rest)) : Row grouped rest := by
  rcases hpart grouped (part ++ rest) [] rest h (List.append_nil _) with
    hnil | ⟨more, hmore, hrow, -⟩
  · exact absurd (List.append_eq_nil_iff.mp hnil).1 hne
  · rwa [List.append_cancel_left hmore]

/-- Behind a row at its start a row goes on. -/
theorem Row.behind_row (h : Row other (row ++ rest)) (hrow : Row grouped row) : Row other rest := by
  induction hrow with
  | nil => exact h
  | sign hc _ ih =>
    obtain ⟨hopening, -, hquote⟩ := plain_of_isSign hc
    exact ih (h.behind_char hopening hquote)
  | separator hc _ ih =>
    rcases hc with rfl | rfl <;> exact ih (h.behind_char rfl rfl)
  | @string grouped quote content row hquote hfree _ ih =>
    have hsplit : quote :: (content ++ quote :: row) ++ rest =
        quote :: (content ++ [quote]) ++ (row ++ rest) := by
      simp
    rw [hsplit] at h
    exact ih ((isPart_string hquote hfree).behind (List.cons_ne_nil _ _) h)
  | @group grouped opening closing content row hpair hcontent _ _ ih =>
    have hsplit : opening :: (content ++ closing :: row) ++ rest =
        opening :: (content ++ [closing]) ++ (row ++ rest) := by
      simp
    rw [hsplit] at h
    exact ih ((isPart_group hpair hcontent).behind (List.cons_ne_nil _ _) h)

end KeyLens.NamespaceOption
