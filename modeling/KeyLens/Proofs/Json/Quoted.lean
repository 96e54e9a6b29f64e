import KeyLens.Json.Kind
import Mathlib.Tactic.SplitIfs

/-!
# Quoted texts

A text that is printed between quotation marks is read back, whatever characters it holds: every
character has one form inside of the marks, and reading that form gives the character again.
-/

namespace KeyLens.Json

variable {c : Char}

/-! ### Characters -/

/-- A digit below sixteen is read back. -/
theorem hexValue?_hexDigit : ∀ n < 16, hexValue? (hexDigit n) = some n := by
  decide

/-- Four digits spell a unit, of which the first two are zero for a small one. -/
theorem readUnit_of_small {n : Nat} (h : n < 256) (rest : List Char) :
    readUnit ('0' :: '0' :: hexDigit (n / 16) :: hexDigit (n % 16) :: rest) = .ok (n, rest) := by
  have hbytes : ¬byteLength ('0' :: '0' :: hexDigit (n / 16) :: hexDigit (n % 16) :: rest) < 4 := by
    have hfirst := Char.utf8Size_pos (hexDigit (n / 16))
    have hsecond := Char.utf8Size_pos (hexDigit (n % 16))
    have hzero : '0'.utf8Size = 1 := rfl
    simp only [byteLength, hzero]
    omega
  have hzero : hexValue? '0' = some 0 := hexValue?_hexDigit 0 (by omega)
  have hvalue : ((0 * 16 + 0) * 16 + n / 16) * 16 + n % 16 = n := by omega
  simp only [readUnit, if_neg hbytes, hzero, hexValue?_hexDigit (n / 16) (by omega),
    hexValue?_hexDigit (n % 16) (by omega), hvalue]

/-- A control character is read back from its four digits. -/
theorem readUnicode_of_control (h : c.toNat < 0x20) (rest : List Char) :
    readUnicode ('0' :: '0' :: hexDigit (c.toNat / 16) :: hexDigit (c.toNat % 16) :: rest) =
      .ok (c, rest) := by
  have hhigh : isHighSurrogate c.toNat = false := by
    simp only [isHighSurrogate, Bool.and_eq_false_imp, decide_eq_true_eq, decide_eq_false_iff_not]
    omega
  have hlow : isLowSurrogate c.toNat = false := by
    simp only [isLowSurrogate, Bool.and_eq_false_imp, decide_eq_true_eq, decide_eq_false_iff_not]
    omega
  rw [readUnicode, readUnit_of_small (Nat.lt_trans h (by decide))]
  simp [bind, Except.bind, hhigh, hlow, Char.ofNat_toNat, pure, Except.pure]

/-- A character stands for itself, or follows a backslash in a form from which it is read back. -/
theorem escapedChar_cases (c : Char) :
    (∃ form, escapedChar c = '\\' :: form ∧ ∀ rest, readEscape (form ++ rest) = .ok (c, rest)) ∨
      escapedChar c = [c] ∧ c ≠ '"' ∧ c ≠ '\\' ∧ 0x20 ≤ c.toNat := by
  unfold escapedChar
  split_ifs with hmark hbackslash hback htab hline hfeed hreturn hcontrol
  · exact Or.inl ⟨['"'], rfl, fun rest => by rw [hmark]; rfl⟩
  · exact Or.inl ⟨['\\'], rfl, fun rest => by rw [hbackslash]; rfl⟩
  · exact Or.inl ⟨['b'], rfl, fun rest => by rw [hback]; rfl⟩
  · exact Or.inl ⟨['t'], rfl, fun rest => by rw [htab]; rfl⟩
  · exact Or.inl ⟨['n'], rfl, fun rest => by rw [hline]; rfl⟩
  · exact Or.inl ⟨['f'], rfl, fun rest => by rw [hfeed]; rfl⟩
  · exact Or.inl ⟨['r'], rfl, fun rest => by rw [hreturn]; rfl⟩
  · exact Or.inl ⟨_, rfl, fun rest => readUnicode_of_control hcontrol rest⟩
  · exact Or.inr ⟨rfl, hmark, hbackslash, Nat.not_lt.mp hcontrol⟩

/-- The form of a character is read as that character, in one step. -/
theorem readQuotedIn_escapedChar (steps : Nat) (c : Char) (rest : List Char) :
    readQuotedIn (steps + 1) (escapedChar c ++ rest) =
      (readQuotedIn steps rest).map fun (text, rest) => (c :: text, rest) := by
  rcases escapedChar_cases c with ⟨form, hform, hread⟩ | ⟨hself, hmark, hbackslash, hcontrol⟩
  · rw [hform, List.cons_append, readQuotedIn, if_neg (by decide), if_pos rfl, hread]
    simp only [bind, Except.bind]
    cases readQuotedIn steps rest <;> rfl
  · rw [hself, List.cons_append, List.nil_append, readQuotedIn, if_neg hmark, if_neg hbackslash,
      if_neg (Nat.not_lt.mpr hcontrol)]
    cases readQuotedIn steps rest <;> rfl

/-! ### Texts -/

/-- The forms of a text are read up to the closing mark, in more steps than it has characters. -/
theorem readQuotedIn_flatMap {text : List Char} {steps : Nat} (h : text.length < steps)
    (rest : List Char) :
    readQuotedIn steps (text.flatMap escapedChar ++ '"' :: rest) = .ok (text, rest) := by
  induction text generalizing steps with
  | nil =>
    obtain ⟨steps, rfl⟩ := Nat.exists_eq_add_one_of_ne_zero (Nat.ne_zero_of_lt h)
    rfl
  | cons c text ih =>
    obtain ⟨steps, rfl⟩ := Nat.exists_eq_add_one_of_ne_zero (Nat.ne_zero_of_lt h)
    rw [List.flatMap_cons, List.append_assoc, readQuotedIn_escapedChar,
      ih (Nat.lt_of_succ_lt_succ h)]
    rfl

/-- A character has a form. -/
theorem escapedChar_ne_nil (c : Char) : escapedChar c ≠ [] := by
  rcases escapedChar_cases c with ⟨form, hform, -⟩ | ⟨hself, -⟩
  · rw [hform]
    exact List.cons_ne_nil _ _
  · rw [hself]
    exact List.cons_ne_nil _ _

/-- Parts that are not empty are together no shorter than they are many. -/
theorem length_le_length_flatMap {α β : Type} {part : α → List β} (h : ∀ item, part item ≠ [])
    (items : List α) : items.length ≤ (items.flatMap part).length := by
  induction items with
  | nil => exact Nat.le_refl 0
  | cons item items ih =>
    have hpos := List.length_pos_iff.mpr (h item)
    rw [List.flatMap_cons, List.length_append, List.length_cons]
    omega

/-- What follows the opening mark of a quoted text is read as the text. -/
theorem readQuoted_flatMap (text : String) (rest : List Char) :
    readQuoted (text.toList.flatMap escapedChar ++ '"' :: rest) = .ok (text, rest) := by
  have hlength := length_le_length_flatMap escapedChar_ne_nil text.toList
  have hsteps : text.toList.length <
      (text.toList.flatMap escapedChar ++ '"' :: rest).length + 1 := by
    rw [List.length_append]
    omega
  rw [readQuoted, readQuotedIn_flatMap hsteps]
  simp [bind, Except.bind, pure, Except.pure]

/-- A quoted text is read back where a text is expected. -/
theorem readText_quotedText (text : String) (rest : List Char) :
    readText (quotedText text.toList ++ rest) = .ok (text, rest) := by
  have hquoted : quotedText text.toList ++ rest =
      '"' :: (text.toList.flatMap escapedChar ++ '"' :: rest) := by
    simp [quotedText]
  have hskip : ∀ after, skipSpace ('"' :: after) = '"' :: after := fun _ => rfl
  rw [hquoted, readText, hskip]
  exact readQuoted_flatMap text rest

end KeyLens.Json
