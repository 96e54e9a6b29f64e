import KeyLens.Proofs.NamespaceOption.Reading

/-!
# Strings in options

A string is passed over up to the next quote of its kind. What it holds does not count if that is
the quote that ends it. In general it does not count exactly if the search, where it has passed the
string as it is written, stands at the depth of the object and outside of strings.
-/

namespace KeyLens.NamespaceOption

open KeyLens.Text
open KeyLens.Selector (isQuote)

variable {quote : Char} {key content front rest : List Char}

/-- The body of a string as it is written: its quote and backslashes stand behind a backslash only,
which stands in front of any other character too. -/
inductive Body (quote : Char) : List Char → Prop where
  /-- The string is empty. -/
  | nil : Body quote []
  /-- A character stands for itself. -/
  | plain {c : Char} {rest : List Char} (hquote : c ≠ quote) (hescape : c ≠ '\\')
    (hrest : Body quote rest) : Body quote (c :: rest)
  /-- A character is escaped. -/
  | escaped {c : Char} {rest : List Char} (hrest : Body quote rest) : Body quote ('\\' :: c :: rest)

/-- An options text in which a string stands behind the first key. -/
def withString (key : List Char) (quote : Char) (content rest : List Char) : List Char :=
  '\x7b' :: ' ' :: (key ++ ':' :: ' ' :: (quote :: (content ++ [quote]) ++ rest))

/-- A key that ends in `ns` where no name goes on. -/
def EndsInNs (key : List Char) : Prop :=
  ∃ front, key = front ++ "ns".toList ∧ nameBehind false front = false

/-- How the search stands behind a part of an options text. -/
inductive Standing where
  /-- It has found a namespace. -/
  | found (namespaceName : List Char)
  /-- It is within a string with this quote. -/
  | within (quote : Char)
  /-- It is outside of strings and goes on. -/
  | outside (depth : Nat) (afterName : Bool)
  deriving Repr, DecidableEq

/-- How the search stands behind a part of an options text that it has passed. -/
def standing (depth : Nat) (afterName : Bool) : List Char → Standing
  | [] => .outside depth afterName
  | c :: rest =>
    if isOpening c then standing (depth + 1) false rest
    else if isClosing c then standing (depth - 1) false rest
    else if isQuote c then
      have := length_afterQuote_le c rest
      if c ∈ rest then standing depth false (afterQuote c rest) else .within c
    else if c == 'n' && depth == 1 && !afterName then
      match property? (c :: rest) with
      | some namespaceName => .found namespaceName
      | none => standing depth true rest
    else standing depth (isNameChar c) rest
termination_by text => text.length

/-- What a search gives that stands so in front of a text. Within a string nothing is found if the
string does not end. -/
def Standing.Gives (rest : List Char) (result : Option (List Char)) : Standing → Prop
  | .found namespaceName => result = some namespaceName
  | .within quote => isQuote quote = true ∧ (quote ∉ rest → result = none)
  | .outside depth afterName => result = search? depth afterName rest

/-! ### Properties at the end of a part -/

/-- A property that a text starts with is found whatever stands behind the text. -/
theorem property?_append {text name : List Char} (h : property? text = some name)
    (rest : List Char) : property? (text ++ rest) = some name := by
  obtain ⟨after, value, hafter, rfl, hname, before, quote, tail, hbefore, hquote, hfree, rfl⟩ :=
    property?_eq_some_iff.mp h
  refine property?_eq_some_iff.mpr
    ⟨after, before ++ quote :: (name ++ quote :: (tail ++ rest)), hafter, by simp, hname, ?_⟩
  exact ⟨before, quote, tail ++ rest, hbefore, hquote, hfree, rfl⟩

/-- A character that the search passes wherever it stands. -/
def IsPassed (c : Char) : Prop :=
  isOpening c = false ∧ isClosing c = false ∧ isQuote c = false ∧ c ≠ 'n'

/-- A blank is passed. -/
theorem isPassed_of_isBlank {c : Char} (h : isBlank c = true) : IsPassed c := by
  obtain ⟨hopening, hclosing, hquote⟩ := plain_of_isSign (isSign_of_isBlank h)
  refine ⟨hopening, hclosing, hquote, ?_⟩
  rintro rfl
  cases h

/-- Characters that the search passes lead into the string behind them. -/
theorem standing_of_passed {passed tail : List Char} (h : ∀ c ∈ passed, IsPassed c)
    (hquote : isQuote quote = true) (hopen : quote ∉ tail) (depth : Nat) (afterName : Bool) :
    standing depth afterName (passed ++ quote :: tail) = .within quote := by
  induction passed generalizing afterName with
  | nil =>
    obtain ⟨hopening, hclosing⟩ := not_bracket_of_isQuote hquote
    rw [List.nil_append, standing, hopening, hclosing, hquote, if_neg Bool.false_ne_true,
      if_neg Bool.false_ne_true, if_pos rfl, if_neg hopen]
  | cons c passed ih =>
    rw [List.forall_mem_cons] at h
    obtain ⟨⟨hopening, hclosing, hplain, hstart⟩, hpassed⟩ := h
    rw [List.cons_append, standing, hopening, hclosing, hplain, if_neg Bool.false_ne_true,
      if_neg Bool.false_ne_true, if_neg Bool.false_ne_true, if_neg (by simp [hstart])]
    exact ih hpassed _

/-- If a property that starts in a part is found only together with what stands behind the part, its
string goes on there. -/
theorem exists_open_string {text name : List Char}
    (hlast : ∀ c ∈ ('n' :: text).getLast?, isQuote c = true)
    (hnone : property? ('n' :: text) = none) (h : property? ('n' :: (text ++ rest)) = some name) :
    ∃ passed quote tail, text = passed ++ quote :: tail ∧ (∀ c ∈ passed, IsPassed c) ∧
      isQuote quote = true ∧ quote ∉ tail ∧ quote ∈ rest := by
  have hns : "ns".toList = ['n', 's'] := rfl
  obtain ⟨after, value, hafter, htext, hname, before, quote, behind, hbefore, hquote, hfree, rfl⟩ :=
    property?_eq_some_iff.mp h
  have hpassed : ∀ c ∈ 's' :: (after ++ ':' :: before), IsPassed c := by
    intro c hc
    simp only [List.mem_cons, List.mem_append] at hc
    rcases hc with rfl | hc | rfl | hc
    · exact ⟨rfl, rfl, rfl, by decide⟩
    · exact isPassed_of_isBlank (hafter c hc)
    · exact ⟨rfl, rfl, rfl, by decide⟩
    · exact isPassed_of_isBlank (hbefore c hc)
  have hsplit : text ++ rest =
      ('s' :: (after ++ ':' :: before)) ++ quote :: (name ++ quote :: behind) := by
    rw [hns] at htext
    rw [(List.cons.inj htext).2]
    simp
  -- The part ends in a quote, and so it holds the one that starts the string.
  have hinside : ¬ ∀ c ∈ text, IsPassed c := by
    intro hall
    by_cases hne : text = []
    · subst hne
      cases hlast 'n' rfl
    · have hmem := List.getLast_mem hne
      have hlast' := List.getLast?_eq_some_getLast hne
      have hend := hlast (text.getLast hne) (by rw [List.getLast?_cons, hlast']; rfl)
      rw [(hall _ hmem).2.2.1] at hend
      cases hend
  rcases List.append_eq_append_iff.mp hsplit with ⟨more, hmore, -⟩ | ⟨more, rfl, hmore⟩
  · rw [hmore] at hpassed
    exact absurd (fun c hc => hpassed c (List.mem_append_left _ hc)) hinside
  · cases more with
    | nil =>
      rw [List.append_nil] at hinside
      exact absurd hpassed hinside
    | cons d tail =>
      obtain ⟨rfl, hcontent⟩ := List.cons.inj hmore
      have hopen : quote ∉ tail := by
        intro hmem
        obtain ⟨inner, others, rfl, hinner⟩ := List.eq_append_cons_of_mem hmem
        have hbehind : name ++ quote :: behind = inner ++ quote :: (others ++ rest) := by
          rw [hcontent]
          simp
        have hsame : name = inner := by
          rw [← takeWhile_ne_append hfree behind, hbehind, takeWhile_ne_append hinner]
        have hfound : property? ('n' :: (('s' :: (after ++ ':' :: before)) ++
            quote :: (inner ++ quote :: others))) = some name := by
          refine property?_eq_some_iff.mpr ⟨after, before ++ quote :: (name ++ quote :: others),
            hafter, by simp [hns, hsame], hname, before, quote, others, hbefore, hquote, hfree, rfl⟩
        rw [hnone] at hfound
        cases hfound
      have hbehind : quote ∈ tail ++ rest := by
        change quote ∈ tail.append rest
        rw [← hcontent]
        simp
      exact ⟨_, quote, tail, rfl, hpassed, hquote, hopen,
        (List.mem_append.mp hbehind).resolve_left hopen⟩

/-! ### The search behind a part -/

/-- What ends a text ends every part at its end. -/
theorem getLast?_of_suffix {text part : List Char} (h : part <:+ text)
    (hlast : ∀ c ∈ text.getLast?, isQuote c = true) : ∀ c ∈ part.getLast?, isQuote c = true := by
  obtain ⟨front, rfl⟩ := h
  intro c hc
  refine hlast c ?_
  rw [List.getLast?_append, hc, Option.some_or]
  rfl

/-- Behind a part that ends in a quote the search goes on as it stands there. -/
theorem gives_standing (depth : Nat) (afterName : Bool) {text : List Char}
    (hlast : ∀ c ∈ text.getLast?, isQuote c = true) (rest : List Char) :
    (standing depth afterName text).Gives rest (search? depth afterName (text ++ rest)) := by
  fun_induction standing depth afterName text with
  | case1 depth afterName => exact rfl
  | case2 depth afterName c text hopening ih =>
    rw [List.cons_append, search?_opening hopening]
    exact ih (getLast?_of_suffix (List.suffix_cons c text) hlast)
  | case3 depth afterName c text hopening hclosing ih =>
    rw [List.cons_append, search?_closing hclosing]
    exact ih (getLast?_of_suffix (List.suffix_cons c text) hlast)
  | case4 depth afterName c text hopening hclosing hquote _ hmem ih =>
    obtain ⟨content, tail, rfl, hfree⟩ := List.eq_append_cons_of_mem hmem
    have hbehind : afterQuote c (content ++ c :: tail) = tail := by
      rw [afterQuote, dropWhile_ne_append hfree, List.drop_one, List.tail_cons]
    rw [hbehind] at ih ⊢
    rw [List.cons_append, List.append_assoc, List.cons_append, search?_string hquote hfree]
    refine ih (getLast?_of_suffix ?_ hlast)
    exact ⟨c :: (content ++ [c]), by simp⟩
  | case5 depth afterName c text hopening hclosing hquote _ hmem =>
    refine ⟨hquote, fun hrest => ?_⟩
    have hfree : ∀ d ∈ text ++ rest, (d != c) = true := by
      intro d hd
      refine bne_iff_ne.mpr (ne_of_mem_of_not_mem hd ?_)
      simp [hmem, hrest]
    have hbehind : afterQuote c (text ++ rest) = [] := by
      rw [afterQuote, List.dropWhile_eq_nil_iff.mpr hfree]
      rfl
    rw [List.cons_append, search?, if_neg hopening, if_neg hclosing, if_pos hquote, hbehind,
      search?]
  | case6 depth afterName c text hopening hclosing hquote hstart name hproperty =>
    simp only [Bool.and_eq_true, beq_iff_eq, Bool.not_eq_true'] at hstart
    obtain ⟨⟨rfl, rfl⟩, rfl⟩ := hstart
    exact search?_property (property?_append hproperty rest)
  | case7 depth afterName c text hopening hclosing hquote hstart hproperty ih =>
    simp only [Bool.and_eq_true, beq_iff_eq, Bool.not_eq_true'] at hstart
    obtain ⟨⟨rfl, rfl⟩, rfl⟩ := hstart
    have hrest := ih (getLast?_of_suffix (List.suffix_cons 'n' text) hlast)
    have hname : isNameChar 'n' = true := by decide +kernel
    cases hfound : property? ('n' :: (text ++ rest)) with
    | none =>
      rw [List.cons_append, search?_other rfl rfl rfl fun _ _ _ => hfound, hname]
      exact hrest
    | some name =>
      -- The string of the property goes on behind the part, and so the search stands within it.
      obtain ⟨passed, quote, tail, rfl, hpassed, hquote', hopen, hmem⟩ :=
        exists_open_string hlast hproperty hfound
      rw [standing_of_passed hpassed hquote' hopen]
      exact ⟨hquote', fun hfree => absurd hmem hfree⟩
  | case8 depth afterName c text hopening hclosing hquote hstart ih =>
    rw [List.cons_append, search?_other (by simpa using hopening) (by simpa using hclosing)
      (by simpa using hquote)]
    · exact ih (getLast?_of_suffix (List.suffix_cons c text) hlast)
    · rintro rfl rfl rfl
      exact absurd rfl hstart

/-! ### Options with a string -/

/-- A key that is a name does not end in `ns` unless it is `ns`. -/
theorem endsInNs_iff (hkey : ∀ c ∈ key, isNameChar c = true) :
    EndsInNs key ↔ key = "ns".toList := by
  constructor
  · rintro ⟨front, rfl, hfront⟩
    rcases List.eq_nil_or_concat front with rfl | ⟨before, c, rfl⟩
    · rfl
    · have hc := hkey c (by simp)
      rw [List.concat_eq_append, nameBehind_append_cons, nameBehind, List.foldl_nil, hc] at hfront
      cases hfront
  · rintro rfl
    exact ⟨[], rfl, rfl⟩

/-- A key is passed up to its colon unless it ends in `ns`. -/
theorem search?_key {afterName : Bool} (hkey : ∀ c ∈ key, isSign c = true ∧ isBlank c = false)
    (hns : ∀ front, key = front ++ "ns".toList → nameBehind afterName front = true)
    (rest : List Char) : search? 1 afterName (key ++ ':' :: rest) = search? 1 false rest := by
  induction key generalizing afterName with
  | nil =>
    have hcolon : isNameChar ':' = false := isNameChar_of_isSign rfl
    rw [List.nil_append, search?_other rfl rfl rfl (by simp), hcolon]
  | cons c key ih =>
    have hkey' := List.forall_mem_cons.mp hkey
    obtain ⟨hopening, hclosing, hquote⟩ := plain_of_isSign hkey'.1.1
    have hproperty : c = 'n' → 1 = 1 → afterName = false →
        property? (c :: (key ++ ':' :: rest)) = none := by
      rintro rfl - rfl
      rw [Option.eq_none_iff_forall_ne_some]
      intro content hoption
      rw [property?_eq_some_iff, ← List.cons_append] at hoption
      have hsame := ((startsWithOption_key_iff hkey Blanks.nil).mp hoption).1
      cases hns [] hsame
    rw [List.cons_append, search?_other hopening hclosing hquote hproperty]
    refine ih hkey'.2 fun front hfront => ?_
    exact hns (c :: front) (by rw [hfront]; rfl)

/-- A key in front of a string that is not the namespace option. -/
structure Leads (key : List Char) (quote : Char) : Prop where
  /-- The key holds no blanks and nothing that separates, groups or quotes. -/
  signs : ∀ c ∈ key, isSign c = true ∧ isBlank c = false
  /-- The key does not end in `ns`. -/
  other : ¬EndsInNs key
  /-- A string starts behind the colon. -/
  quote : isQuote quote = true

/-- Behind the key the search starts with the string. -/
theorem read_withString (h : Leads key quote) (content rest : List Char) :
    read (String.ofList (withString key quote content rest)) =
      (search? 1 false (quote :: (content ++ [quote]) ++ trimEndWhile isBlank rest)).map
        String.ofList := by
  have hquote : isBlank quote = false := Selector.isBlank_of_isQuote h.quote
  have hsplit : withString key quote content rest =
      ('\x7b' :: ' ' :: (key ++ ':' :: ' ' :: quote :: content)) ++ quote :: rest := by
    simp [withString]
  have htrim : trim (withString key quote content rest) =
      '\x7b' :: ' ' :: (key ++ ':' :: ' ' ::
        (quote :: (content ++ [quote]) ++ trimEndWhile isBlank rest)) := by
    have hstart : skipBlank (withString key quote content rest) =
        withString key quote content rest := skipBlank_cons rfl _
    rw [trim, hstart, hsplit, trimEndWhile_append hquote]
    simp
  have hns : ∀ front, key = front ++ "ns".toList → nameBehind false front = true := by
    intro front hfront
    by_contra hname
    exact h.other ⟨front, hfront, by simpa using hname⟩
  have hspace : Blanks [' '] := Blanks.nil.cons rfl
  have hfirst := @search?_blanks 1 _ hspace (key ++ ':' :: ' ' ::
    (quote :: (content ++ [quote]) ++ trimEndWhile isBlank rest))
  have hsecond := @search?_blanks 1 _ hspace
    (quote :: (content ++ [quote]) ++ trimEndWhile isBlank rest)
  rw [List.singleton_append] at hfirst hsecond
  rw [read, String.toList_ofList, htrim, List.head?_cons, if_pos rfl, search?_opening rfl, hfirst,
    search?_key h.signs hns, hsecond]

/-- Two quotes of different kinds. -/
theorem exists_other_quote (quote : Char) : ∃ other, isQuote other = true ∧ other ≠ quote := by
  by_cases hquote : quote = '"'
  · exact ⟨'\'', rfl, by rw [hquote]; decide⟩
  · exact ⟨'"', rfl, Ne.symm hquote⟩

/-- A namespace option with the given quotes. -/
def namespaceOption (quote : Char) : List Char :=
  ['n', 's', ':', quote, 'x', quote]

/-- The search finds the option where one may stand. -/
theorem search?_namespaceOption (hquote : isQuote quote = true) :
    search? 1 false (namespaceOption quote) = some ['x'] := by
  refine search?_property (property?_eq_some_iff.mpr ⟨[], [quote, 'x', quote], Blanks.nil, rfl,
    List.cons_ne_nil _ _, [], quote, [], Blanks.nil, hquote, ?_, rfl⟩)
  rw [List.mem_singleton]
  rintro rfl
  cases hquote

/-- The search does not find the option at another depth or behind a name. -/
theorem search?_namespaceOption_eq_none (hquote : isQuote quote = true) {depth : Nat}
    {afterName : Bool} (h : ¬(depth = 1 ∧ afterName = false)) :
    search? depth afterName (namespaceOption quote) = none := by
  have hx : quote ∉ ['x'] := by
    rw [List.mem_singleton]
    rintro rfl
    cases hquote
  have hstring := @search?_string depth quote ['x'] hquote hx (isNameChar ':') []
  rw [namespaceOption, search?_other rfl rfl rfl fun _ hdepth hname => absurd ⟨hdepth, hname⟩ h,
    search?_other rfl rfl rfl (by simp), search?_other rfl rfl rfl (by simp)]
  rw [search?] at hstring
  exact hstring

/-- What a string holds in front of its quote does not count for how the search stands behind it. -/
theorem standing_string (hquote : isQuote quote = true) (hfree : quote ∉ content) :
    standing 1 false (quote :: (content ++ [quote])) = .outside 1 false := by
  obtain ⟨hopening, hclosing⟩ := not_bracket_of_isQuote hquote
  have hbehind : afterQuote quote (content ++ [quote]) = [] := by
    rw [afterQuote, dropWhile_ne_append hfree, List.drop_one, List.tail_cons]
  rw [standing, hopening, hclosing, hquote, if_neg Bool.false_ne_true, if_neg Bool.false_ne_true,
    if_pos rfl, if_pos (by simp), hbehind, standing]

/-- What a string behind a key holds makes no difference if its own quote does not stand in it, with
or without a backslash. In general it makes none, whatever stands behind the string, exactly if the
search that has passed it stands outside of strings at the depth of the object. -/
theorem content_makes_no_difference (h : Leads key quote) :
    (∀ first second, quote ∉ first → quote ∉ second → ∀ rest,
      read (String.ofList (withString key quote first rest)) =
        read (String.ofList (withString key quote second rest))) ∧
    ∀ content, (∀ rest, read (String.ofList (withString key quote content rest)) =
        read (String.ofList (withString key quote [] rest))) ↔
      standing 1 false (quote :: (content ++ [quote])) = .outside 1 false := by
  have hlast : ∀ content, ∀ c ∈ (quote :: (content ++ [quote])).getLast?, isQuote c = true := by
    intro content c hc
    rw [← List.cons_append, List.getLast?_append, List.getLast?_singleton, Option.some_or] at hc
    cases hc
    exact h.quote
  have hgives := fun content rest => gives_standing 1 false (hlast content) rest
  have hpassed : ∀ content, standing 1 false (quote :: (content ++ [quote])) = .outside 1 false →
      ∀ rest, read (String.ofList (withString key quote content rest)) =
        (search? 1 false (trimEndWhile isBlank rest)).map String.ofList := by
    intro content hstanding rest
    have hsearch := hgives content (trimEndWhile isBlank rest)
    rw [hstanding] at hsearch
    rw [read_withString h]
    exact congrArg _ hsearch
  have hempty := hpassed [] (standing_string h.quote List.not_mem_nil)
  refine ⟨fun first second hfirst hsecond rest => ?_, fun content => ⟨fun hsame => ?_, ?_⟩⟩
  · rw [hpassed first (standing_string h.quote hfirst),
      hpassed second (standing_string h.quote hsecond)]
  · -- An option behind the string is found exactly if the search is outside of strings there.
    have hoption : ∀ {other}, isQuote other = true →
        search? 1 false (quote :: (content ++ [quote]) ++ namespaceOption other) = some ['x'] := by
      intro other hother
      have hkept : trimEndWhile isBlank (namespaceOption other) = namespaceOption other :=
        trimEndWhile_append (Selector.isBlank_of_isQuote hother) ['n', 's', ':', other, 'x'] []
      have hread := hsame (namespaceOption other)
      rw [hempty, read_withString h, hkept, search?_namespaceOption hother] at hread
      obtain ⟨found, hfound, hname⟩ := Option.map_eq_some_iff.mp hread
      rw [hfound, String.ofList_inj.mp hname]
    have hnothing := hsame []
    rw [hempty, read_withString h] at hnothing
    have hsearch := hgives content
    cases hstanding : standing 1 false (quote :: (content ++ [quote])) with
    | found name =>
      have hnone : trimEndWhile isBlank [] = [] := rfl
      rw [hstanding] at hsearch
      rw [hnone, show search? 1 false _ = some name from hsearch [], search?] at hnothing
      cases hnothing
    | within opened =>
      obtain ⟨other, hother, hne⟩ := exists_other_quote opened
      rw [hstanding] at hsearch
      obtain ⟨hopened, hnone⟩ := hsearch (namespaceOption other)
      have hfree : opened ∉ namespaceOption other := by
        simp only [namespaceOption, List.mem_cons, List.not_mem_nil, or_false, hne.symm, false_or]
        rintro (rfl | rfl | rfl | rfl) <;> cases hopened
      have hfound := hoption hother
      rw [hnone hfree] at hfound
      cases hfound
    | outside depth afterName =>
      by_cases hsame : depth = 1 ∧ afterName = false
      · rw [hsame.1, hsame.2]
      · rw [hstanding] at hsearch
        have hfound := hoption h.quote
        rw [show search? 1 false _ = search? depth afterName _ from hsearch _,
          search?_namespaceOption_eq_none h.quote hsame] at hfound
        cases hfound
  · intro hstanding rest
    rw [hpassed content hstanding, hempty]

/-- Brackets, quotes of another kind and an option within a string make no difference. -/
theorem read_behind_text_with_option :
    read (String.ofList (withString "defaultValue".toList '"' "ns: 'a' \x7b [".toList
        ", ns: 'b' \x7d".toList)) =
      read (String.ofList (withString "defaultValue".toList '"' [] ", ns: 'b' \x7d".toList)) := by
  have hkey : ∀ c ∈ "defaultValue".toList, isNameChar c = true :=
    List.all_eq_true.mp (by decide +kernel)
  have hleads : Leads "defaultValue".toList '"' := by
    refine ⟨fun c hc => sign_of_isNameChar (hkey c hc), ?_, rfl⟩
    rw [endsInNs_iff hkey]
    decide +kernel
  exact (content_makes_no_difference hleads).1 _ _ (by decide +kernel) (by decide) _

/-- An apostrophe behind a backslash ends the string for the search, and the quote that ends it in
truth starts another one, so that the option behind it is lost. -/
theorem read_behind_escaped_quote :
    Body '\'' "it\\'s".toList ∧ Body '\'' "a".toList ∧
    read (String.ofList (withString "k".toList '\'' "it\\'s".toList ", ns: 'x' \x7d".toList)) =
      none ∧
    read (String.ofList (withString "k".toList '\'' "a".toList ", ns: 'x' \x7d".toList)) =
      some "x" := by
  refine ⟨?_, .plain (by decide) (by decide) .nil, by decide +kernel, by decide +kernel⟩
  exact .plain (by decide) (by decide) (.plain (by decide) (by decide)
    (.escaped (.plain (by decide) (by decide) .nil)))

end KeyLens.NamespaceOption
