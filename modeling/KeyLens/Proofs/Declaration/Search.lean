import KeyLens.Proofs.Declaration.Grammar

/-!
# The last declaration

A search for the last declaration passes over a place that has been found and goes on behind it. It
finds nothing in a text no part of which starts a declaration.
-/

namespace KeyLens.Declaration

open KeyLens.Text

variable {declaration? : List Char → Option (List Char × List Char)} {inWord : Bool}
  {found : Option (List Char)} {front rest inner : List Char}

/-- Whether a word goes on behind a text, if `inWord` tells so for what stands in front of it. -/
def inWordBehind (inWord : Bool) (text : List Char) : Bool :=
  (text.getLast?.map isWord).getD inWord

/-- Only the last character counts for whether a word goes on. -/
theorem inWordBehind_cons (inWord : Bool) (c : Char) (text : List Char) :
    inWordBehind inWord (c :: text) = inWordBehind (isWord c) text := by
  rw [inWordBehind, inWordBehind, List.getLast?_cons]
  cases text.getLast? <;> rfl

/-- A place that has been found is passed over. -/
theorem lastOf_skip (inWord : Bool) (found : Option (List Char)) (front rest : List Char) :
    lastOf declaration? inWord front.length found (front ++ rest) =
      lastOf declaration? (inWordBehind inWord front) 0 found rest := by
  induction front generalizing inWord with
  | nil => rfl
  | cons c front ih =>
    rw [List.length_cons, List.cons_append, lastOf, ih, inWordBehind_cons]

/-- A search goes on behind the declaration with which a text starts. -/
theorem lastOf_found (hfront : front ≠ [])
    (h : declaration? (front ++ rest) = some (inner, rest)) (found : Option (List Char)) :
    lastOf declaration? false 0 found (front ++ rest) =
      lastOf declaration? (inWordBehind false front) 0 (some inner) rest := by
  obtain ⟨c, front, rfl⟩ := List.exists_cons_of_ne_nil hfront
  have hlength : (front ++ rest).length - rest.length = front.length := by
    rw [List.length_append, Nat.add_sub_cancel]
  rw [List.cons_append] at h ⊢
  rw [lastOf, if_neg Bool.false_ne_true, h]
  simp only
  rw [hlength, lastOf_skip, inWordBehind_cons]

/-- A search passes a character at which no declaration starts. -/
theorem lastOf_cons_of_none {c : Char} (h : inWord = false → declaration? (c :: rest) = none)
    (found : Option (List Char)) :
    lastOf declaration? inWord 0 found (c :: rest) =
      lastOf declaration? (isWord c) 0 found rest := by
  cases inWord with
  | true => rw [lastOf, if_pos rfl]
  | false => rw [lastOf, if_neg Bool.false_ne_true, h rfl]

/-- In a text no part of which starts a declaration nothing more is found. -/
theorem lastOf_eq_found {text : List Char}
    (h : ∀ suffix, suffix <:+ text → declaration? suffix = none) (inWord : Bool)
    (found : Option (List Char)) : lastOf declaration? inWord 0 found text = found := by
  induction text generalizing inWord with
  | nil => rfl
  | cons c rest ih =>
    rw [lastOf_cons_of_none (fun _ => h _ List.suffix_rfl)]
    exact ih (fun suffix hsuffix => h suffix (hsuffix.trans (List.suffix_cons c rest))) _

/-- If every text that starts with a declaration holds a word, nothing more is found where the word
does not stand. -/
theorem lastOf_eq_found_of_free {word text : List Char}
    (hword : ∀ suffix reading, declaration? suffix = some reading → word <:+: suffix)
    (hfree : ¬ word <:+: text) (inWord : Bool) (found : Option (List Char)) :
    lastOf declaration? inWord 0 found text = found := by
  refine lastOf_eq_found (fun suffix hsuffix => ?_) inWord found
  rw [Option.eq_none_iff_forall_ne_some]
  intro reading hreading
  exact hfree ((hword suffix reading hreading).trans hsuffix.isInfix)

end KeyLens.Declaration
