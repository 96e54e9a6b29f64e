/-!
# Replaced texts

All occurrences of one text in another one are replaced from the left to the right; what has been
put in is not looked at again.
-/

namespace KeyLens.Text

variable {old new : List Char} {c d : Char}

/-- A text in which `new` stands in place of each occurrence of `old`, which has a character. -/
def replaceAll (old new : List Char) : List Char → List Char
  | [] => []
  | c :: rest =>
    if old.isPrefixOf (c :: rest) then new ++ replaceAll old new (rest.drop (old.length - 1))
    else c :: replaceAll old new rest
termination_by text => text.length
decreasing_by
  · simp only [List.length_drop, List.length_cons]
    omega
  · simp

/-- In nothing there is nothing to replace. -/
@[simp] theorem replaceAll_nil (old new : List Char) : replaceAll old new [] = [] := by
  rw [replaceAll]

/-- An occurrence at the start is replaced. -/
theorem replaceAll_append (hold : old ≠ []) (new rest : List Char) :
    replaceAll old new (old ++ rest) = new ++ replaceAll old new rest := by
  obtain ⟨c, tail, rfl⟩ := List.exists_cons_of_ne_nil hold
  have hprefix : (c :: tail).isPrefixOf (c :: (tail ++ rest)) = true :=
    List.isPrefixOf_iff_prefix.mpr (List.prefix_append _ rest)
  rw [List.cons_append, replaceAll, if_pos hprefix]
  simp

/-- Where no occurrence starts the text stays as it is. -/
theorem replaceAll_cons {rest : List Char} (h : old.isPrefixOf (c :: rest) = false) :
    replaceAll old new (c :: rest) = c :: replaceAll old new rest := by
  rw [replaceAll, if_neg (by rw [h]; exact Bool.false_ne_true)]

/-- A character with which no occurrence starts stays as it is. -/
theorem replaceAll_cons_of_ne (h : d ≠ c) (tail new rest : List Char) :
    replaceAll (d :: tail) new (c :: rest) = c :: replaceAll (d :: tail) new rest :=
  replaceAll_cons (by simp [List.isPrefixOf, h])

/-- A single character is replaced wherever it stands. -/
theorem replaceAll_singleton (d : Char) (new text : List Char) :
    replaceAll [d] new text = text.flatMap fun c => if c = d then new else [c] := by
  induction text with
  | nil => simp
  | cons c rest ih =>
    rw [List.flatMap_cons, ← ih]
    by_cases h : c = d
    · rw [if_pos h, h]
      exact replaceAll_append (List.cons_ne_nil d []) new rest
    · rw [if_neg h]
      exact replaceAll_cons_of_ne (Ne.symm h) [] new rest

end KeyLens.Text
