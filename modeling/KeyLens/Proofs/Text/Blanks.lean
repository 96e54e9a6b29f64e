import KeyLens.Text.Alphanumeric
import KeyLens.Text.Blank
import Mathlib.Data.List.TakeWhile

/-!
# Texts and the blanks around them

Leading blanks are skipped up to the first other character, and trimming takes a text out of the
blanks on both sides of it. Blanks are no letters and no digits.
-/

namespace KeyLens.Text

/-- A text of blanks only. -/
def Blanks (text : List Char) : Prop :=
  ∀ c ∈ text, isBlank c = true

/-- A text that starts and ends with characters that are not blank. -/
structure Solid (text : List Char) : Prop where
  /-- The first character is not blank. -/
  first : ∃ c, text.head? = some c ∧ isBlank c = false
  /-- The last character is not blank. -/
  last : ∃ c, text.getLast? = some c ∧ isBlank c = false

/-- The empty text is one of blanks. -/
theorem Blanks.nil : Blanks [] :=
  fun _ hc => absurd hc List.not_mem_nil

/-- Blanks behind blanks are blanks. -/
theorem Blanks.append {first second : List Char} (hfirst : Blanks first) (hsecond : Blanks second) :
    Blanks (first ++ second) := by
  intro c hc
  rcases List.mem_append.mp hc with h | h
  · exact hfirst c h
  · exact hsecond c h

/-- A blank in front of blanks makes blanks. -/
theorem Blanks.cons {c : Char} {text : List Char} (hc : isBlank c = true) (h : Blanks text) :
    Blanks (c :: text) := by
  intro d hd
  rcases List.mem_cons.mp hd with rfl | hmem
  · exact hc
  · exact h d hmem

/-- Leading blanks are skipped. -/
theorem skipBlank_append {before : List Char} (h : Blanks before) (text : List Char) :
    skipBlank (before ++ text) = skipBlank text :=
  List.dropWhile_append_of_pos h

/-- Nothing is skipped in front of a character that is not blank. -/
theorem skipBlank_cons {c : Char} (h : isBlank c = false) (text : List Char) :
    skipBlank (c :: text) = c :: text :=
  List.dropWhile_cons_of_neg (by rw [h]; exact Bool.false_ne_true)

/-- Nothing is left of blanks. -/
theorem skipBlank_eq_nil_iff {text : List Char} : skipBlank text = [] ↔ Blanks text :=
  List.dropWhile_eq_nil_iff

/-- What is skipped are blanks. -/
theorem exists_blanks_skipBlank (text : List Char) :
    ∃ before, Blanks before ∧ text = before ++ skipBlank text :=
  ⟨text.takeWhile isBlank, fun _ hc => List.mem_takeWhile_imp hc,
    (List.takeWhile_append_dropWhile).symm⟩

/-- The first character that is not blank stands behind blanks. -/
theorem skipBlank_eq_cons_iff {text rest : List Char} {c : Char} :
    skipBlank text = c :: rest ↔
      isBlank c = false ∧ ∃ before, Blanks before ∧ text = before ++ c :: rest := by
  constructor
  · intro h
    obtain ⟨before, hbefore, htext⟩ := exists_blanks_skipBlank text
    rw [h] at htext
    exact ⟨head?_skipBlank h, before, hbefore, htext⟩
  · rintro ⟨hc, before, hbefore, rfl⟩
    rw [skipBlank_append hbefore, skipBlank_cons hc]

/-- What is trimmed away are blanks. -/
theorem exists_blanks_trim (text : List Char) :
    ∃ before after, Blanks before ∧ Blanks after ∧ text = before ++ (trim text ++ after) := by
  obtain ⟨before, hbefore, htext⟩ := exists_blanks_skipBlank text
  obtain ⟨after, hafter, hskip⟩ := exists_blanks_skipBlank (skipBlank text).reverse
  refine ⟨before, after.reverse, hbefore, fun c hc => hafter c (List.mem_reverse.mp hc), ?_⟩
  have hsplit : skipBlank text = trim text ++ after.reverse := by
    rw [← List.reverse_inj, hskip, List.reverse_append, List.reverse_reverse]
    simp only [trim, trimEndWhile, skipBlank, List.reverse_reverse]
  rw [← hsplit]
  exact htext

/-- A solid text is what trimming leaves of it and the blanks around it. -/
theorem Solid.trim_eq {before text after : List Char} (h : Solid text) (hbefore : Blanks before)
    (hafter : Blanks after) : trim (before ++ (text ++ after)) = text := by
  obtain ⟨c, hhead, hc⟩ := h.first
  obtain ⟨rest, hfirst⟩ := List.head?_eq_some_iff.mp hhead
  obtain ⟨d, htail, hd⟩ := h.last
  obtain ⟨front, hlast⟩ := List.getLast?_eq_some_iff.mp htail
  have hstart : skipBlank (before ++ (text ++ after)) = text ++ after := by
    rw [skipBlank_append hbefore, hfirst, List.cons_append, skipBlank_cons hc]
  have hend : skipBlank (text ++ after).reverse = text.reverse := by
    rw [List.reverse_append, skipBlank_append fun c hc => hafter c (List.mem_reverse.mp hc), hlast,
      List.reverse_append, List.reverse_singleton, List.singleton_append, skipBlank_cons hd]
  calc trim (before ++ (text ++ after))
      = (skipBlank (skipBlank (before ++ (text ++ after))).reverse).reverse := rfl
    _ = text := by rw [hstart, hend, List.reverse_reverse]

/-- What trimming leaves is solid, if it leaves anything. -/
theorem solid_trim {text : List Char} (h : trim text ≠ []) : Solid (trim text) := by
  have htrim : trim text = (skipBlank (skipBlank text).reverse).reverse := rfl
  obtain ⟨after, -, hafter⟩ := exists_blanks_skipBlank (skipBlank text).reverse
  have hskip : skipBlank text = trim text ++ after.reverse := by
    rw [htrim, ← List.reverse_append, ← hafter, List.reverse_reverse]
  obtain ⟨c, rest, hfirst⟩ := List.exists_cons_of_ne_nil h
  obtain ⟨d, front, hlast⟩ := List.exists_cons_of_ne_nil (List.reverse_ne_nil_iff.mpr h)
  refine ⟨⟨c, by rw [hfirst]; rfl, ?_⟩, d, ?_, ?_⟩
  · rw [hfirst] at hskip
    exact head?_skipBlank hskip
  · rw [← List.head?_reverse, hlast]
    rfl
  · rw [htrim, List.reverse_reverse] at hlast
    exact head?_skipBlank hlast

/-- The code points of the blanks. -/
def blankCodes : List Nat :=
  [9, 10, 11, 12, 13, 0x20, 0x85, 0xA0, 0x1680, 0x2000, 0x2001, 0x2002, 0x2003, 0x2004, 0x2005,
    0x2006, 0x2007, 0x2008, 0x2009, 0x200A, 0x2028, 0x2029, 0x202F, 0x205F, 0x3000]

/-- A blank has one of the code points of the blanks. -/
theorem mem_blankCodes {c : Char} (h : isBlank c = true) : c.toNat ∈ blankCodes := by
  simp only [isBlank, Bool.or_eq_true, Bool.and_eq_true, decide_eq_true_eq, beq_iff_eq] at h
  simp only [blankCodes, List.mem_cons, List.not_mem_nil, or_false]
  omega

/-- No blank is a letter or a digit. -/
theorem isBlank_of_isAlphanumeric {c : Char} (h : isAlphanumeric c = true) : isBlank c = false := by
  have htable : ∀ code ∈ blankCodes, inInversionList alphanumericBounds code = false := by
    decide +kernel
  cases hblank : isBlank c with
  | false => rfl
  | true =>
    rw [isAlphanumeric, htable c.toNat (mem_blankCodes hblank)] at h
    cases h

/-- Nothing in front of a character that is kept is trimmed away at the end. -/
theorem trimEndWhile_append {p : Char → Bool} {c : Char} (hc : p c = false)
    (front rest : List Char) :
    trimEndWhile p (front ++ c :: rest) = front ++ c :: trimEndWhile p rest := by
  have hstop : (c :: front.reverse).dropWhile p = c :: front.reverse :=
    List.dropWhile_cons_of_neg (by rw [hc]; exact Bool.false_ne_true)
  have hreverse : (front ++ c :: rest).reverse = rest.reverse ++ c :: front.reverse := by simp
  rw [trimEndWhile, hreverse, List.dropWhile_append, trimEndWhile]
  split
  · next hempty =>
    rw [List.isEmpty_iff] at hempty
    rw [hstop, hempty]
    simp
  · simp

end KeyLens.Text
