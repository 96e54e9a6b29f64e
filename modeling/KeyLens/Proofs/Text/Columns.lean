import KeyLens.Text.DisplayWidth

/-!
# Columns of blanks

Blanks belong to no sign of several characters, so that a text takes as many columns more as there
are blanks in front of it.
-/

namespace KeyLens.Text

/-- No ligature starts with a blank. -/
theorem ligature?_blank (rest : List Char) : ligature? ' ' rest = none := by
  have harabic : arabicLigature? ' ' rest = none := if_neg (by decide)
  have hgap : (' ' :: rest).takeWhile isLigatureTransparent = [] :=
    List.takeWhile_cons_of_neg (by decide)
  have hstarts : ∀ ligature ∈ ligatures,
      ∃ part ∈ ligature.parts.head?, inInversionList part.bounds 32 = false := by
    decide +kernel
  rw [ligature?, harabic, Option.none_or, List.findSome?_eq_none_iff]
  intro ligature hligature
  obtain ⟨part, hhead, hout⟩ := hstarts ligature hligature
  obtain ⟨parts, hparts⟩ := List.head?_eq_some_iff.mp hhead
  rw [hparts, partsLength?, hgap]
  simp [hout]

/-- No picture starts with a blank. -/
theorem picture?_blank (rest : List Char) : picture? ' ' rest = none := by
  have hpicture : isPicture ' ' = false := by decide +kernel
  have hstyle : hasPictureStyle ' ' = false := by decide +kernel
  have hbase : isModifierBase ' ' = false := by decide +kernel
  cases rest with
  | nil => simp [picture?, hpicture]
  | cons d rest => simp [picture?, hpicture, hstyle, hbase]

/-- A blank takes one column, whatever follows. -/
theorem displayWidth_blank (rest : List Char) :
    displayWidth (' ' :: rest) = 1 + displayWidth rest := by
  have hsign : signColumns ' ' rest = (1, 0) := by
    have hstyle : hasTextStyle ' ' = false := by decide +kernel
    simp only [signColumns, ligature?_blank, picture?_blank, hstyle]
    simp
    decide
  rw [displayWidth, hsign]
  rfl

/-- Blanks take as many columns as there are. -/
theorem displayWidth_replicate_append (count : Nat) (rest : List Char) :
    displayWidth (List.replicate count ' ' ++ rest) = count + displayWidth rest := by
  induction count with
  | zero => rw [List.replicate_zero, List.nil_append, Nat.zero_add]
  | succ count ih =>
    rw [List.replicate_succ, List.cons_append, displayWidth_blank, ih]
    omega

end KeyLens.Text
