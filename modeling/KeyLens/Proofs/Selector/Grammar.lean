import KeyLens.Proofs.Text.Blanks
import KeyLens.Proofs.Text.Pieces
import KeyLens.Selector

/-!
# The grammar of selectors

A selector names its parameter, in parentheses or without, and after an arrow spells a chain of
property accesses on it, either as it is or returned from a block. Blanks may stand between the
tokens, but none between a dot and the name behind it.
-/

namespace KeyLens.Selector

open KeyLens.Text

/-- A name of a parameter. -/
def IsParameter (name : List Char) : Prop :=
  ∃ c rest, name = c :: rest ∧ isParameterStart c = true ∧ ∀ d ∈ rest, isParameterPart d = true

/-- A text that spells the access to a property, and the name of the property. -/
inductive Access : List Char → List Char → Prop where
  /-- The name stands behind a dot. -/
  | dot {name : List Char} (hname : name ≠ []) (hchars : ∀ c ∈ name, isSegmentChar c = true) :
    Access ('.' :: name) name
  /-- The name stands between quotes in brackets. -/
  | bracket {before name after : List Char} {quote : Char} (hbefore : Blanks before)
    (hquote : isQuote quote = true) (hname : name ≠ []) (hfree : quote ∉ name)
    (hafter : Blanks after) :
    Access ('[' :: (before ++ quote :: (name ++ quote :: (after ++ [']'])))) name

/-- A text that spells accesses one after the other, and the names of their properties. -/
inductive Chain : List Char → List (List Char) → Prop where
  /-- There is no access. -/
  | nil : Chain [] []
  /-- Blanks and an access stand before others. -/
  | cons {blanks access rest name : List Char} {names : List (List Char)} (hblanks : Blanks blanks)
    (haccess : Access access name) (hrest : Chain rest names) :
    Chain (blanks ++ (access ++ rest)) (name :: names)

/-- A text that spells accesses to a parameter, at least one, and the names of the properties. -/
def Expression (parameter text : List Char) (names : List (List Char)) : Prop :=
  names ≠ [] ∧ ∃ chain, Chain chain names ∧ text = parameter ++ chain

/-- A text that is the body of a selector. -/
inductive Body (parameter : List Char) : List Char → List (List Char) → Prop where
  /-- The body is an expression. -/
  | plain {text : List Char} {names : List (List Char)} (htext : Expression parameter text names)
    (hbrace : text.head? ≠ some '\x7b') : Body parameter text names
  /-- The body is a block that returns an expression. -/
  | block {before between text after behind : List Char} {names : List (List Char)}
    (htext : Expression parameter text names) (hclosed : ';' ∉ text) (hbefore : Blanks before)
    (hbetween : Blanks between) (hgap : between ≠ []) (hafter : Blanks after)
    (hbehind : Blanks behind) :
    Body parameter ('\x7b' :: (before ++ ("return".toList ++
      (between ++ (text ++ (after ++ ';' :: (behind ++ ['\x7d']))))))) names

/-- What may stand where `c` may or may not stand. -/
def Optional (c : Char) (text : List Char) : Prop :=
  text = [] ∨ text = [c]

/-- A text up to the end of its arrow, and the name of its parameter. -/
inductive Head (parameter : List Char) : List Char → Prop where
  /-- The parameter may stand in parentheses. -/
  | mk {leading opening before after closing behind : List Char}
    (hparameter : IsParameter parameter) (hleading : Blanks leading)
    (hopening : Optional '(' opening) (hbefore : Blanks before) (hafter : Blanks after)
    (hclosing : Optional ')' closing) (hbehind : Blanks behind) :
    Head parameter (leading ++ (opening ++ (before ++ (parameter ++
      (after ++ (closing ++ (behind ++ ['=', '>'])))))))

/-- A text that spells a selector, and the names that it reads. -/
inductive Spells : List Char → List (List Char) → Prop where
  /-- The body stands between blanks behind the arrow. -/
  | mk {parameter head before body after : List Char} {names : List (List Char)}
    (hhead : Head parameter head) (hbefore : Blanks before) (hbody : Body parameter body names)
    (hafter : Blanks after) : Spells (head ++ (before ++ (body ++ after))) names

/-- A head names a parameter. -/
theorem Head.isParameter {parameter text : List Char} (h : Head parameter text) :
    IsParameter parameter := by
  cases h with
  | mk hparameter => exact hparameter

/-- A character of a parameter is one of a property name. -/
theorem isSegmentChar_of_isParameterPart {c : Char} (h : isParameterPart c = true) :
    isSegmentChar c = true := by
  simp only [isParameterPart, isSegmentChar, Bool.or_eq_true] at h ⊢
  rcases h with (halphanum | hline) | hdollar
  · exact Or.inl (Or.inl (Or.inl (isAlphanumeric_of_isAlphanum halphanum)))
  · exact Or.inl (Or.inl (Or.inr hline))
  · exact Or.inl (Or.inr hdollar)

/-- The first character of a parameter may also follow in it. -/
theorem isParameterPart_of_isParameterStart {c : Char} (h : isParameterStart c = true) :
    isParameterPart c = true := by
  simp only [isParameterStart, isParameterPart, Char.isAlphanum, Bool.or_eq_true] at h ⊢
  rcases h with (halpha | hline) | hdollar
  · exact Or.inl (Or.inl (Or.inl halpha))
  · exact Or.inl (Or.inr hline)
  · exact Or.inr hdollar

/-- A character of a property name is not blank. -/
theorem isBlank_of_isSegmentChar {c : Char} (h : isSegmentChar c = true) : isBlank c = false := by
  simp only [isSegmentChar, Bool.or_eq_true, beq_iff_eq] at h
  rcases h with ((halphanumeric | rfl) | rfl) | rfl
  · exact isBlank_of_isAlphanumeric halphanumeric
  · rfl
  · rfl
  · rfl

/-- A blank is no character of a property name. -/
theorem isSegmentChar_of_isBlank {c : Char} (h : isBlank c = true) : isSegmentChar c = false := by
  cases hsegment : isSegmentChar c with
  | false => rfl
  | true => rw [isBlank_of_isSegmentChar hsegment] at h; cases h

/-- A quote is not blank. -/
theorem isBlank_of_isQuote {c : Char} (h : isQuote c = true) : isBlank c = false := by
  simp only [isQuote, Bool.or_eq_true, beq_iff_eq] at h
  rcases h with (rfl | rfl) | rfl <;> rfl

/-- A blank is no character of a parameter. -/
theorem isParameterPart_of_isBlank {c : Char} (h : isBlank c = true) :
    isParameterPart c = false := by
  cases hpart : isParameterPart c with
  | false => rfl
  | true =>
    have hsegment := isSegmentChar_of_isParameterPart hpart
    rw [isSegmentChar_of_isBlank h] at hsegment
    cases hsegment

/-- The name of a parameter holds only characters of property names. -/
theorem IsParameter.isSegmentChar {name : List Char} (h : IsParameter name) {c : Char}
    (hc : c ∈ name) : isSegmentChar c = true := by
  obtain ⟨first, rest, rfl, hfirst, hrest⟩ := h
  rcases List.mem_cons.mp hc with rfl | hmem
  · exact isSegmentChar_of_isParameterPart (isParameterPart_of_isParameterStart hfirst)
  · exact isSegmentChar_of_isParameterPart (hrest c hmem)

/-- An access ends in a character of its name or in a bracket. -/
theorem Access.exists_last {access name : List Char} (h : Access access name) :
    ∃ c, access.getLast? = some c ∧ isBlank c = false := by
  cases h with
  | dot hname hchars =>
    refine ⟨name.getLast hname, ?_,
      isBlank_of_isSegmentChar (hchars (name.getLast hname) (List.getLast_mem hname))⟩
    rw [List.getLast?_cons_of_ne_nil hname, List.getLast?_eq_some_getLast hname]
  | bracket => exact ⟨']', by simp [List.getLast?_cons, List.getLast?_append], rfl⟩

/-- A chain with an access does not end in a blank. -/
theorem Chain.exists_last {chain : List Char} {names : List (List Char)} (h : Chain chain names)
    (hnames : names ≠ []) : ∃ c, chain.getLast? = some c ∧ isBlank c = false := by
  induction h with
  | nil => exact absurd rfl hnames
  | @cons blanks access rest name names hblanks haccess hrest ih =>
    by_cases hmore : names = []
    · subst hmore
      cases hrest
      obtain ⟨c, hlast, hc⟩ := haccess.exists_last
      exact ⟨c, by simp [List.getLast?_append, hlast], hc⟩
    · obtain ⟨c, hlast, hc⟩ := ih hmore
      exact ⟨c, by simp [List.getLast?_append, hlast], hc⟩

/-- An expression starts with its parameter and ends with an access. -/
theorem Expression.solid {parameter text : List Char} {names : List (List Char)}
    (h : Expression parameter text names) (hparameter : IsParameter parameter) : Solid text := by
  obtain ⟨hnames, chain, hchain, rfl⟩ := h
  refine ⟨?_, ?_⟩
  · obtain ⟨c, rest, rfl, hstart, -⟩ := hparameter
    exact ⟨c, rfl, isBlank_of_isSegmentChar
      (isSegmentChar_of_isParameterPart (isParameterPart_of_isParameterStart hstart))⟩
  · obtain ⟨c, hlast, hc⟩ := hchain.exists_last hnames
    exact ⟨c, by simp [List.getLast?_append, hlast], hc⟩

/-- A body starts with its parameter or a brace and ends with an access or a brace. -/
theorem Body.solid {parameter text : List Char} {names : List (List Char)}
    (h : Body parameter text names) (hparameter : IsParameter parameter) : Solid text := by
  cases h with
  | plain htext => exact htext.solid hparameter
  | block =>
    exact ⟨⟨'\x7b', rfl, rfl⟩, '\x7d',
      by simp [List.getLast?_cons, List.getLast?_append], rfl⟩

end KeyLens.Selector
