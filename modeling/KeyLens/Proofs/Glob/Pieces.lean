import KeyLens.Glob.Expand
import KeyLens.Proofs.Text.Pieces
import Mathlib.Data.List.Forall2

/-!
# Pieces of a pattern

A pattern falls into pieces at its slashes, and each piece is one step. A piece without wildcards is
the name that it spells.
-/

namespace KeyLens.Glob

/-- A character that stands for itself wherever it is in a pattern. -/
def IsPlain (c : Char) : Prop :=
  c ≠ '*' ∧ c ≠ '?' ∧ c ≠ '['

instance (c : Char) : Decidable (IsPlain c) :=
  inferInstanceAs (Decidable (_ ∧ _))

-- Looks at the characters of the text, and not at all that there are.
instance (text : List Char) : Decidable (∀ c ∈ text, IsPlain c) :=
  List.decidableBAll IsPlain text

/-- A pattern with a wildcard is not empty. -/
theorem ne_nil_of_isWild {text : String} (h : Pattern.isWild text = true) : text.toList ≠ [] := by
  intro hnil
  rw [Pattern.isWild, hnil] at h
  cases h

/-- A value that was changed behind a success is one that was a success. -/
theorem exists_of_map_eq_ok {ε α β : Type} {f : α → β} {result : Except ε α} {value : β}
    (h : result.map f = .ok value) : ∃ found, result = .ok found ∧ f found = value := by
  cases result with
  | error error => cases h
  | ok found => exact ⟨found, rfl, Except.ok.inj h⟩

variable {position : Nat} {before : Option Char} {text : List Char}

/-- A character that stands for itself is a part of the pattern. -/
theorem tokens_cons {c : Char} (hc : IsPlain c) (rest : List Char) :
    tokens position before (c :: rest) =
      (tokens (position + 1) (some c) rest).map (.char c :: ·) := by
  obtain ⟨hstar, hmark, hbracket⟩ := hc
  rw [tokens.eq_def]
  split <;> simp_all

/-- Characters that stand for themselves are the parts of a pattern. -/
theorem tokens_of_isPlain (h : ∀ c ∈ text, IsPlain c) :
    tokens position before text = .ok (text.map .char) := by
  induction text generalizing position before with
  | nil => rw [tokens]; rfl
  | cons c rest ih =>
    rw [tokens_cons (h c List.mem_cons_self), ih fun d hd => h d (List.mem_cons_of_mem c hd)]
    rfl

/-- If all parts of a pattern stand for characters, the first one does. -/
theorem mapM_plain?_cons {token : Token} {row : List Token} {chars : List Char}
    (h : (token :: row).mapM Token.plain? = some chars) :
    ∃ c rest, token.plain? = some c ∧ row.mapM Token.plain? = some rest ∧ chars = c :: rest := by
  rw [List.mapM_cons] at h
  obtain ⟨c, hc, h⟩ := Option.bind_eq_some_iff.mp h
  obtain ⟨rest, hrest, h⟩ := Option.bind_eq_some_iff.mp h
  exact ⟨c, rest, hc, hrest, (Option.some.inj h).symm⟩

/-- Parts of a pattern that stand for characters spell the pattern. -/
theorem eq_of_mapM_plain? {row : List Token} {chars : List Char}
    (h : tokens position before text = .ok row) (hplain : row.mapM Token.plain? = some chars) :
    chars = text := by
  -- A part that is a wildcard stands for no character.
  have hwild : ∀ {token : Token} {rest : Except Fault (List Token)} {row : List Token}
      {chars : List Char}, token.plain? = none → rest.map (token :: ·) = .ok row →
        row.mapM Token.plain? ≠ some chars := by
    intro token rest row chars hnone hrest hplain
    obtain ⟨found, -, rfl⟩ := exists_of_map_eq_ok hrest
    obtain ⟨c, _, hc, -⟩ := mapM_plain?_cons hplain
    rw [hnone] at hc
    cases hc
  fun_induction tokens position before text generalizing row chars with
  | case1 => cases h; exact (Option.some.inj hplain).symm
  | case2 | case5 | case6 | case7 | case9 | case10 | case12 => cases h
  | case3 => cases h; cases hplain
  | case4 | case8 | case11 => exact absurd hplain (hwild rfl h)
  | case13 =>
    rename_i c rest _ _ _ _ _ token ih
    obtain ⟨found, hfound, rfl⟩ := exists_of_map_eq_ok h
    obtain ⟨d, more, hd, hmore, rfl⟩ := mapM_plain?_cons hplain
    have htoken : d = c := by
      by_cases hmark : c = '?'
      · simp [token, hmark, Token.plain?] at hd
      · by_cases hstar : c = '*'
        · simp [token, hstar, Token.plain?] at hd
        · simpa [token, hmark, hstar, Token.plain?] using hd.symm
    rw [htoken, ih hfound hmore]

/-- A pattern without wildcards is the name that it spells. -/
theorem Pattern.eq_of_plain? {text name : String} {pattern : Pattern}
    (h : Pattern.parse text = .ok pattern) (hplain : pattern.plain? = some name) : name = text := by
  obtain ⟨row, hrow, rfl⟩ := exists_of_map_eq_ok h
  obtain ⟨chars, hchars, rfl⟩ := Option.map_eq_some_iff.mp hplain
  rw [eq_of_mapM_plain? hrow hchars, String.ofList_toList]

/-- Characters that stand for themselves are a name. -/
theorem ofPattern_of_isPlain (name : String) (h : ∀ c ∈ name.toList, IsPlain c) :
    (Pattern.parse name).map Step.ofPattern = .ok (.plain name) := by
  have hchars : ∀ text : List Char, (text.map Token.char).mapM Token.plain? = some text := by
    intro text
    induction text with
    | nil => rfl
    | cons c rest ih => rw [List.map_cons, List.mapM_cons, ih]; rfl
  have hne : name.toList.map Token.char ≠ [.directories] := by
    cases name.toList <;> simp
  simp only [Pattern.parse, tokens_of_isPlain h, Except.map, Step.ofPattern, if_neg hne,
    Pattern.plain?, hchars, Option.map_some, String.ofList_toList]

/-- A step that is a name is that of a pattern without wildcards. -/
theorem Step.plain?_of_ofPattern {pattern : Pattern} {name : String}
    (h : Step.ofPattern pattern = .plain name) : pattern.plain? = some name := by
  unfold ofPattern at h
  split at h
  · cases h
  · cases hplain : pattern.plain? with
    | none => rw [hplain] at h; cases h
    | some own =>
      rw [hplain] at h
      exact congrArg some (Step.plain.inj h)

/-! ### Steps -/

/-- Results that are all successes come from the values in turn. -/
theorem mapM_eq_ok_iff {ε α β : Type} {f : α → Except ε β} {values : List α} {results : List β} :
    values.mapM f = .ok results ↔
      List.Forall₂ (fun value result => f value = .ok result) values results := by
  induction values generalizing results with
  | nil =>
    simp only [List.mapM_nil, List.forall₂_nil_left_iff]
    exact ⟨fun h => (Except.ok.inj h).symm, fun h => by rw [h]; rfl⟩
  | cons value rest ih =>
    rw [List.mapM_cons, List.forall₂_cons_left_iff]
    constructor
    · intro h
      cases hvalue : f value with
      | error error => simp [hvalue, bind, Except.bind] at h
      | ok result =>
        cases hrest : rest.mapM f with
        | error error => simp [hvalue, hrest, bind, Except.bind] at h
        | ok others =>
          simp only [hvalue, hrest, bind, Except.bind, pure, Except.pure, Except.ok.injEq] at h
          exact ⟨result, others, rfl, ih.mp hrest, h.symm⟩
    · rintro ⟨result, others, hvalue, hrest, rfl⟩
      rw [hvalue, ih.mpr hrest]
      rfl

/-- Each step that is left when steps are collapsed was there before. -/
theorem mem_of_mem_collapse {row : List Step} {step : Step} (h : step ∈ collapse row) :
    step ∈ row := by
  fun_induction collapse row with
  | case1 rest ih => exact List.mem_cons_of_mem _ (ih h)
  | case2 first rest _ ih =>
    rcases List.mem_cons.mp h with rfl | h
    · exact List.mem_cons_self
    · exact List.mem_cons_of_mem first (ih h)
  | case3 => cases h

/-- The first step stays the first one when steps are collapsed. -/
theorem head?_collapse (row : List Step) : (collapse row).head? = row.head? := by
  fun_induction collapse row with
  | case1 rest ih => exact ih
  | case2 => rfl
  | case3 => rfl

/-- Pieces without an empty one at the end are pieces of the text. -/
theorem pieces_isPrefix_split (text : List Char) : pieces text <+: List.splitOn '/' text := by
  unfold pieces
  simp only
  split
  · exact List.dropLast_prefix _
  · exact List.prefix_rfl

/-- The steps of a pattern come from the pieces behind the slash at its start. -/
theorem exists_forall₂_of_steps {row : List Step} (h : steps text = .ok row) :
    ∃ all, row = collapse all ∧
      List.Forall₂ (fun piece step =>
          (Pattern.parse (String.ofList piece)).map Step.ofPattern = .ok step)
        (pieces (if text.head? = some '/' then text.tail else text)) all := by
  obtain ⟨all, hall, hrow⟩ := exists_of_map_eq_ok h
  exact ⟨all, hrow.symm, mapM_eq_ok_iff.mp hall⟩

/-- Each step of a pattern is that of one of its pieces. -/
theorem exists_piece_of_mem_steps {row : List Step} {step : Step} (h : steps text = .ok row)
    (hstep : step ∈ row) :
    ∃ piece ∈ List.splitOn '/' text, ∃ pattern,
      Pattern.parse (String.ofList piece) = .ok pattern ∧ Step.ofPattern pattern = step := by
  obtain ⟨all, rfl, hall⟩ := exists_forall₂_of_steps h
  replace hstep := mem_of_mem_collapse hstep
  clear h
  have hpieces : pieces (if text.head? = some '/' then text.tail else text) ⊆
      List.splitOn '/' text := by
    refine List.Subset.trans (pieces_isPrefix_split _).subset ?_
    split
    · next hhead =>
      obtain ⟨rest, rfl⟩ := List.head?_eq_some_iff.mp hhead
      rw [Text.splitOn_cons_self]
      exact List.subset_cons_self [] _
    · exact List.Subset.refl _
  generalize pieces (if text.head? = some '/' then text.tail else text) = row at hall hpieces
  induction hall with
  | nil => cases hstep
  | cons hread _ ih =>
    obtain ⟨hpiece, hrest⟩ := List.cons_subset.mp hpieces
    rcases List.mem_cons.mp hstep with rfl | hstep
    · exact ⟨_, hpiece, exists_of_map_eq_ok hread⟩
    · exact ih hstep hrest

/-- The first step of a pattern without a slash at its start is that of its first piece. -/
theorem exists_head?_of_steps {row : List Step} {step : Step} (h : steps text = .ok row)
    (htext : text.head? ≠ some '/') (hstep : row.head? = some step) :
    ∃ piece, (List.splitOn '/' text).head? = some piece ∧ ∃ pattern,
      Pattern.parse (String.ofList piece) = .ok pattern ∧ Step.ofPattern pattern = step := by
  obtain ⟨all, rfl, hall⟩ := exists_forall₂_of_steps h
  rw [head?_collapse] at hstep
  rw [if_neg htext] at hall
  obtain ⟨rest, rfl⟩ := List.head?_eq_some_iff.mp hstep
  obtain ⟨piece, others, hread, -, hpieces⟩ := List.forall₂_cons_right_iff.mp hall
  have hprefix := pieces_isPrefix_split text
  rw [hpieces] at hprefix
  obtain ⟨back, hback⟩ := hprefix
  exact ⟨piece, by rw [← hback]; rfl, exists_of_map_eq_ok hread⟩

end KeyLens.Glob
