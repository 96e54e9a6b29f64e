import KeyLens.Proofs.Selector.Grammar

/-!
# Reading chains of accesses

Reading accesses takes the longest chain that a text starts with, and there is only one such chain.
It stops in front of the first character that neither is a blank nor starts an access, and a name
behind a dot is taken as a whole.
-/

namespace KeyLens.Selector

open KeyLens.Text

/-- A name behind a dot is read up to the first character that does not belong to it. -/
theorem dotSegment?_eq_some_iff {text name rest : List Char} :
    dotSegment? text = some (name, rest) ↔
      text = name ++ rest ∧ name ≠ [] ∧ (∀ c ∈ name, isSegmentChar c = true) ∧
        ∀ c ∈ rest.head?, isSegmentChar c = false := by
  unfold dotSegment?
  constructor
  · intro h
    split at h
    · cases h
    · next hname =>
      cases h
      exact ⟨List.takeWhile_append_dropWhile.symm, hname, fun _ hc => List.mem_takeWhile_imp hc,
        head?_dropWhile_stop text⟩
  · rintro ⟨rfl, hname, hchars, hstop⟩
    rw [takeWhile_append_stop hchars hstop, dropWhile_append_stop hchars hstop, if_neg hname]

/-- A closing bracket stands behind blanks. -/
theorem afterBracket?_eq_some_iff {text rest : List Char} :
    afterBracket? text = some rest ↔ ∃ before, Blanks before ∧ text = before ++ ']' :: rest := by
  unfold afterBracket?
  constructor
  · intro h
    split at h
    · next hskip =>
      cases h
      exact (skipBlank_eq_cons_iff.mp hskip).2
    · cases h
  · rintro ⟨before, hbefore, rfl⟩
    simp only [skipBlank_append hbefore, skipBlank_cons (c := ']') rfl]

/-- A quoted name is read up to the quote that closes it. -/
theorem bracketSegment?_eq_some_iff {text name rest : List Char} :
    bracketSegment? text = some (name, rest) ↔
      ∃ before quote after, Blanks before ∧ isQuote quote = true ∧ name ≠ [] ∧ quote ∉ name ∧
        Blanks after ∧ text = before ++ quote :: (name ++ quote :: (after ++ ']' :: rest)) := by
  unfold bracketSegment?
  constructor
  · intro h
    split at h
    · cases h
    · next quote inner hskip =>
      obtain ⟨-, before, hbefore, htext⟩ := skipBlank_eq_cons_iff.mp hskip
      split at h
      · next hopen =>
        rw [Bool.and_eq_true, bne_iff_ne] at hopen
        split at h
        · cases h
        · next c tail htail =>
          obtain ⟨rest', hclose, hpair⟩ := Option.map_eq_some_iff.mp h
          cases hpair
          obtain ⟨after, hafter, rfl⟩ := afterBracket?_eq_some_iff.mp hclose
          have hquote : c = quote := eq_of_dropWhile_ne htail
          have hinner : inner =
              inner.takeWhile (· != quote) ++ quote :: (after ++ ']' :: rest) := by
            rw [← hquote, ← htail, hquote, List.takeWhile_append_dropWhile]
          refine ⟨before, quote, after, hbefore, hopen.1, hopen.2, not_mem_takeWhile_ne quote inner,
            hafter, ?_⟩
          rw [← hinner]
          exact htext
      · cases h
  · rintro ⟨before, quote, after, hbefore, hquote, hname, hfree, hafter, rfl⟩
    have hclose : afterBracket? (after ++ ']' :: rest) = some rest :=
      afterBracket?_eq_some_iff.mpr ⟨after, hafter, rfl⟩
    rw [skipBlank_append hbefore, skipBlank_cons (isBlank_of_isQuote hquote)]
    simp only [takeWhile_ne_append hfree, dropWhile_ne_append hfree, hquote,
      bne_iff_ne.mpr hname, Bool.and_self, if_true, hclose, Option.map_some]

/-- Where reading a chain stops: a name behind a dot has ended, and no access follows. -/
structure Stops (chain rest : List Char) : Prop where
  /-- No character belongs to the name at the end of the chain. -/
  name : ∀ c ∈ chain.getLast?, isSegmentChar c = true → ∀ d ∈ rest.head?, isSegmentChar d = false
  /-- No access stands behind blanks. -/
  access : ∀ c ∈ (skipBlank rest).head?, c ≠ '.' ∧ c ≠ '['

/-- A chain with one more name in front. -/
def withName (name : List Char) (chain : List (List Char) × List Char) :
    List (List Char) × List Char :=
  (name :: chain.1, chain.2)

/-- Behind a dot a name is read, and then the rest of the chain. -/
theorem members?_dot {text after : List Char} (h : skipBlank text = '.' :: after) :
    members? text =
      (dotSegment? after).bind fun (name, rest) => (members? rest).map (withName name) := by
  rw [members?]
  split
  · next hskip =>
    rw [h] at hskip
    cases hskip
    split
    · next hstep => rw [hstep, Option.bind_none]
    · next name rest hstep => simp only [hstep, Option.bind_some]; rfl
  · next hskip => rw [h] at hskip; cases hskip
  · next hdot _ => exact absurd h (hdot after)

/-- Behind an opening bracket a name is read, and then the rest of the chain. -/
theorem members?_bracket {text after : List Char} (h : skipBlank text = '[' :: after) :
    members? text =
      (bracketSegment? after).bind fun (name, rest) => (members? rest).map (withName name) := by
  rw [members?]
  split
  · next hskip => rw [h] at hskip; cases hskip
  · next hskip =>
    rw [h] at hskip
    cases hskip
    split
    · next hstep => rw [hstep, Option.bind_none]
    · next name rest hstep => simp only [hstep, Option.bind_some]; rfl
  · next _ hbracket => exact absurd h (hbracket after)

/-- In front of text that starts no access there is no chain. -/
theorem members?_of_no_access {text : List Char}
    (h : ∀ c ∈ (skipBlank text).head?, c ≠ '.' ∧ c ≠ '[') :
    members? text = some ([], skipBlank text) := by
  rw [members?]
  split
  · next hskip => exact absurd rfl (h '.' (by rw [hskip]; rfl)).1
  · next hskip => exact absurd rfl (h '[' (by rw [hskip]; rfl)).2
  · rfl

/-- An access is read in front of what follows it. -/
theorem members?_of_access {blanks access name rest : List Char} (hblanks : Blanks blanks)
    (haccess : Access access name)
    (hstop : ∀ c ∈ access.getLast?, isSegmentChar c = true →
      ∀ d ∈ rest.head?, isSegmentChar d = false) :
    members? (blanks ++ (access ++ rest)) = (members? rest).map (withName name) := by
  cases haccess with
  | dot hname hchars =>
    have hlast : ('.' :: name).getLast? = some (name.getLast hname) := by
      rw [List.getLast?_cons_of_ne_nil hname, List.getLast?_eq_some_getLast hname]
    have hskip : skipBlank (blanks ++ ('.' :: name ++ rest)) = '.' :: (name ++ rest) := by
      rw [skipBlank_append hblanks, List.cons_append, skipBlank_cons rfl]
    have hread : dotSegment? (name ++ rest) = some (name, rest) :=
      dotSegment?_eq_some_iff.mpr ⟨rfl, hname, hchars,
        hstop (name.getLast hname) hlast (hchars _ (List.getLast_mem hname))⟩
    rw [members?_dot hskip, hread, Option.bind_some]
  | @bracket before _ after quote hbefore hquote hname hfree hafter =>
    have hskip : skipBlank (blanks ++
        ('[' :: (before ++ quote :: (name ++ quote :: (after ++ [']']))) ++ rest)) =
          '[' :: (before ++ quote :: (name ++ quote :: (after ++ ']' :: rest))) := by
      rw [skipBlank_append hblanks, List.cons_append, skipBlank_cons rfl]
      simp
    have hread : bracketSegment? (before ++ quote :: (name ++ quote :: (after ++ ']' :: rest))) =
        some (name, rest) :=
      bracketSegment?_eq_some_iff.mpr
        ⟨before, quote, after, hbefore, hquote, hname, hfree, hafter, rfl⟩
    rw [members?_bracket hskip, hread, Option.bind_some]

/-- A chain does not start with a character of a property name. -/
theorem Chain.head_stop {chain : List Char} {names : List (List Char)} (h : Chain chain names) :
    ∀ c ∈ chain.head?, isSegmentChar c = false := by
  cases h with
  | nil => rintro c ⟨⟩
  | @cons blanks access rest name names hblanks haccess hrest =>
    cases blanks with
    | nil =>
      cases haccess with
      | dot => rintro c ⟨⟩; decide +kernel
      | bracket => rintro c ⟨⟩; decide +kernel
    | cons b blanks =>
      rintro c ⟨⟩
      exact isSegmentChar_of_isBlank (hblanks b List.mem_cons_self)

/-- A chain is read in front of what follows it, and then the accesses that follow. -/
theorem Chain.members?_append_eq {chain rest : List Char} {names : List (List Char)}
    (h : Chain chain names)
    (hstop : ∀ c ∈ chain.getLast?, isSegmentChar c = true →
      ∀ d ∈ rest.head?, isSegmentChar d = false) :
    members? (chain ++ rest) = (members? rest).map fun found => (names ++ found.1, found.2) := by
  induction h with
  | nil => simp
  | @cons blanks access others name names hblanks haccess hothers ih =>
    have hmore : ∀ c ∈ others.getLast?, isSegmentChar c = true →
        ∀ d ∈ rest.head?, isSegmentChar d = false := by
      refine fun c hc => hstop c ?_
      simp [List.getLast?_append, Option.mem_def.mp hc]
    have hnext : ∀ c ∈ access.getLast?, isSegmentChar c = true →
        ∀ d ∈ (others ++ rest).head?, isSegmentChar d = false := by
      intro c hc hsegment d hd
      cases others with
      | nil => exact hstop c (by simp [List.getLast?_append, Option.mem_def.mp hc]) hsegment d hd
      | cons first others => exact hothers.head_stop d hd
    rw [List.append_assoc, List.append_assoc, members?_of_access hblanks haccess hnext, ih hmore,
      Option.map_map]
    rfl

/-- A chain is read where it stops. -/
theorem Chain.members?_append {chain rest : List Char} {names : List (List Char)}
    (h : Chain chain names) (hstops : Stops chain rest) :
    members? (chain ++ rest) = some (names, skipBlank rest) := by
  rw [h.members?_append_eq hstops.name, members?_of_no_access hstops.access, Option.map_some,
    List.append_nil]

/-- A chain stops where it stops without its first access. -/
theorem Stops.cons {blanks access chain rest name : List Char} (h : Stops chain rest)
    (haccess : Access access name)
    (hstop : ∀ c ∈ access.getLast?, isSegmentChar c = true →
      ∀ d ∈ (chain ++ rest).head?, isSegmentChar d = false) :
    Stops (blanks ++ (access ++ chain)) rest := by
  refine ⟨fun c hc => ?_, h.access⟩
  cases chain with
  | nil =>
    obtain ⟨last, hlast, -⟩ := haccess.exists_last
    refine hstop c ?_
    simpa [List.getLast?_append, hlast] using hc
  | cons first chain =>
    refine h.name c ?_
    simpa [List.getLast?_append, List.getLast?_cons] using hc

/-- What is read is a chain up to where it stops. -/
theorem chain_of_members? {text rest : List Char} {names : List (List Char)}
    (h : members? text = some (names, rest)) :
    ∃ chain tail, text = chain ++ tail ∧ Chain chain names ∧ Stops chain tail ∧
      skipBlank tail = rest := by
  fun_induction members? text generalizing names with
  | case1 => cases h
  | case2 text after hskip name tail hstep _ _ ih =>
    obtain ⟨⟨names, rest⟩, hrest, hpair⟩ := Option.map_eq_some_iff.mp h
    cases hpair
    obtain ⟨chain, tail, rfl, hchain, hstops, hend⟩ := ih hrest
    obtain ⟨rfl, hname, hchars, hstop⟩ := dotSegment?_eq_some_iff.mp hstep
    obtain ⟨-, blanks, hblanks, rfl⟩ := skipBlank_eq_cons_iff.mp hskip
    have haccess : Access ('.' :: name) name := .dot hname hchars
    exact ⟨blanks ++ ('.' :: name ++ chain), tail, by simp, .cons hblanks haccess hchain,
      hstops.cons haccess fun _ _ _ => hstop, hend⟩
  | case3 => cases h
  | case4 text after hskip name tail hstep _ _ ih =>
    obtain ⟨⟨names, rest⟩, hrest, hpair⟩ := Option.map_eq_some_iff.mp h
    cases hpair
    obtain ⟨chain, tail, rfl, hchain, hstops, hend⟩ := ih hrest
    obtain ⟨before, quote, after, hbefore, hquote, hname, hfree, hafter, rfl⟩ :=
      bracketSegment?_eq_some_iff.mp hstep
    obtain ⟨-, blanks, hblanks, rfl⟩ := skipBlank_eq_cons_iff.mp hskip
    have haccess := Access.bracket hbefore hquote hname hfree hafter
    refine ⟨_, tail, ?_, .cons hblanks haccess hchain, hstops.cons haccess ?_, hend⟩
    · simp
    · -- A bracket ends the name whatever follows.
      intro c hc hsegment
      have hbracket : c = ']' := by simpa [List.getLast?_cons, List.getLast?_append] using hc.symm
      rw [hbracket] at hsegment
      exact absurd hsegment (by decide +kernel)
  | case5 text hdot hbracket =>
    cases h
    refine ⟨[], text, rfl, .nil, ⟨by simp, ?_⟩, rfl⟩
    intro c hc
    obtain ⟨after, hskip⟩ := List.head?_eq_some_iff.mp hc
    refine ⟨?_, ?_⟩
    · rintro rfl
      exact hdot after hskip
    · rintro rfl
      exact hbracket after hskip

/-- Reading takes exactly a chain up to where it stops. -/
theorem members?_eq_some_iff {text rest : List Char} {names : List (List Char)} :
    members? text = some (names, rest) ↔
      ∃ chain tail, text = chain ++ tail ∧ Chain chain names ∧ Stops chain tail ∧
        skipBlank tail = rest := by
  refine ⟨chain_of_members?, ?_⟩
  rintro ⟨chain, tail, rfl, hchain, hstops, rfl⟩
  exact hchain.members?_append hstops

/-- A word is dropped from the start of a text. -/
theorem dropWord?_eq_some_iff {word text rest : List Char} :
    dropWord? word text = some rest ↔ text = word ++ rest := by
  fun_induction dropWord? word text with
  | case1 text => simp only [Option.some.injEq, List.nil_append]
  | case2 => simp
  | case3 word w text ih => rw [ih, List.cons_append, List.cons_inj_right]
  | case4 w word c text hne => simp [Ne.symm hne]

/-- What is read strictly is read the same way if any text may follow. -/
theorem path?_lenient_of_strict {parameter text : List Char} {names : List (List Char)}
    (h : path? .strict parameter text = some names) :
    path? .lenient parameter text = some names := by
  unfold path? at h ⊢
  obtain ⟨chain, hword, h⟩ := Option.bind_eq_some_iff.mp h
  obtain ⟨⟨found, rest⟩, hmembers, h⟩ := Option.bind_eq_some_iff.mp h
  dsimp only at h
  split at h
  · cases h
  · next hnone =>
    cases h
    simp [hword, hmembers, (not_or.mp hnone).1]

/-- Read strictly, an expression spells its accesses, and only blanks follow. -/
theorem path?_strict_eq_some_iff {parameter text : List Char} {names : List (List Char)} :
    path? .strict parameter text = some names ↔
      ∃ expression after, Expression parameter expression names ∧ Blanks after ∧
        text = expression ++ after := by
  unfold path?
  constructor
  · intro h
    obtain ⟨chain, hword, h⟩ := Option.bind_eq_some_iff.mp h
    obtain ⟨⟨found, rest⟩, hmembers, h⟩ := Option.bind_eq_some_iff.mp h
    dsimp only at h
    split at h
    · cases h
    · next hnone =>
      cases h
      obtain ⟨hnames, hrest⟩ := not_or.mp hnone
      obtain ⟨front, after, rfl, hchain, -, hafter⟩ := chain_of_members? hmembers
      have hblanks : Blanks after := by
        rw [← skipBlank_eq_nil_iff, hafter]
        simpa using hrest
      rw [dropWord?_eq_some_iff] at hword
      exact ⟨parameter ++ front, after, ⟨hnames, front, hchain, rfl⟩, hblanks, by
        rw [hword, List.append_assoc]⟩
  · rintro ⟨expression, after, ⟨hnames, chain, hchain, rfl⟩, hafter, rfl⟩
    have hskip : skipBlank after = [] := skipBlank_eq_nil_iff.mpr hafter
    have hstops : Stops chain after := by
      refine ⟨fun c _ _ d hd => ?_, by simp [hskip]⟩
      exact isSegmentChar_of_isBlank (hafter d (List.mem_of_mem_head? hd))
    have hword : dropWord? parameter (parameter ++ chain ++ after) = some (chain ++ after) := by
      rw [dropWord?_eq_some_iff, List.append_assoc]
    rw [hword, Option.bind_some, hchain.members?_append hstops, Option.bind_some, hskip]
    simp [hnames]

end KeyLens.Selector
