import KeyLens.Proofs.Declaration.Nearest

/-!
# Arguments behind the first one

The arguments of a declaration are searched as one text, first for brackets and then for a string.
A first argument that lists names is found before all others. A single name is found as long as the
other arguments hold no brackets, and where the first argument names nothing, what the others hold
between brackets or quotes is taken.
-/

namespace KeyLens.Declaration

open KeyLens.Text
open KeyLens.Selector (isQuote)

/-- A first argument of a declaration, and the names in it. -/
inductive First : List Char → List (List Char) → Prop where
  /-- No names are given. -/
  | undefined : First "undefined".toList []
  /-- One name stands between quotes. -/
  | single {quote : Char} {name : List Char} (hquote : isQuote quote = true) (hne : name ≠ [])
    (hname : Unquoted name) (hbracket : '[' ∉ name) (hparenthesis : ')' ∉ name) :
    First (quote :: (name ++ [quote])) [name]
  /-- The names are listed between brackets. -/
  | list {list : List Char} {names : List (List Char)}
    (hlist : Lists (fun _ => Plain) list names) : First ('[' :: (list ++ [']'])) names

variable {text first options inner front rest gap list : List Char} {names : List (List Char)}

/-! ### Brackets in a text -/

/-- Characters that stand in a text in their order stand behind a part without the first of them. -/
theorem sublist_of_append {c : Char} {others : List Char} (hc : c ∉ front)
    (h : (c :: others).Sublist (front ++ rest)) : (c :: others).Sublist rest := by
  obtain ⟨before, after, hsplit, hbefore, hafter⟩ := List.sublist_append_iff.mp h
  cases before with
  | nil =>
    rw [List.nil_append] at hsplit
    rwa [hsplit]
  | cons d before =>
    obtain ⟨rfl, -⟩ := List.cons.inj hsplit
    exact absurd (hbefore.subset List.mem_cons_self) hc

/-- Brackets that stand in a text in front of a parenthesis stand in the text. -/
theorem sublist_of_concat (h : ['[', ']'].Sublist (text ++ [')'])) : ['[', ']'].Sublist text := by
  rw [← List.reverse_sublist, List.reverse_append] at h
  exact List.reverse_sublist.mp (sublist_of_append (by decide) h)

/-- A text holds brackets if one is opened in it and one is closed behind that. -/
theorem listText?_eq_none_iff : listText? text = none ↔ ¬ ['[', ']'].Sublist text := by
  unfold listText?
  by_cases hopen : '[' ∈ text
  · obtain ⟨front, rest, rfl, hfront⟩ := List.eq_append_cons_of_mem hopen
    rw [dropWhile_ne_append hfront]
    have hclosed : ['[', ']'].Sublist (front ++ '[' :: rest) ↔ ']' ∈ rest := by
      constructor
      · intro hsub
        have hrest := sublist_of_append hfront hsub
        rw [List.cons_sublist_cons] at hrest
        exact List.singleton_sublist.mp hrest
      · intro hclose
        exact ((List.singleton_sublist.mpr hclose).cons_cons '[').trans
          (List.sublist_append_right front _)
    rw [hclosed]
    constructor
    · intro hnone hclose
      obtain ⟨inner, after, rfl, hinner⟩ := List.eq_append_cons_of_mem hclose
      have hread : enclosed? ']' (inner ++ ']' :: after) = some (inner, after) :=
        enclosed?_eq_some_iff.mpr ⟨rfl, hinner⟩
      simp only [hread, Option.map_some, reduceCtorEq] at hnone
    · intro hclose
      have hread : enclosed? ']' rest = none := by
        rw [Option.eq_none_iff_forall_ne_some]
        rintro ⟨inner, after⟩ hread
        obtain ⟨rfl, -⟩ := enclosed?_eq_some_iff.mp hread
        exact hclose (by simp)
      simp only [hread, Option.map_none]
  · have hdrop : text.dropWhile (· != '[') = [] := by
      rw [List.dropWhile_eq_nil_iff]
      exact fun c hc => bne_iff_ne.mpr (ne_of_mem_of_not_mem hc hopen)
    rw [hdrop]
    exact iff_of_true rfl fun hsub => hopen (hsub.subset List.mem_cons_self)

/-- The first brackets stand behind a text in which none is opened. -/
theorem listText?_append (h : '[' ∉ front) (rest : List Char) :
    listText? (front ++ rest) = listText? rest := by
  have hfront : ∀ c ∈ front, (c != '[') = true :=
    fun c hc => bne_iff_ne.mpr (ne_of_mem_of_not_mem hc h)
  rw [listText?, listText?, List.dropWhile_append_of_pos hfront]

/-- A type that lists names has parameters in front of the brackets of its list. -/
theorem Typed.sublist (h : Typed front inner) : ['<', '[', ']'].Sublist front := by
  cases h with
  | @mk before between name gap inside _ =>
    have hlist : ['[', ']'].Sublist ('[' :: (inner ++ [']'])) :=
      (List.sublist_append_right inner [']']).cons_cons '['
    have hparameters : ['<', '[', ']'].Sublist ('<' :: (inside ++ '[' :: (inner ++ [']']))) :=
      (hlist.trans (List.sublist_append_right inside _)).cons_cons '<'
    refine hparameters.trans (List.IsSuffix.sublist ?_)
    exact ⟨'t' :: (before ++ ':' :: (between ++ (name ++ gap))), by simp⟩

/-- Where no brackets stand behind the first parameters of a type, no type lists names. -/
theorem lastOf_typed?_of_not_sublist (h : ¬ ['<', '[', ']'].Sublist text) (inWord : Bool)
    (found : Option (List Char)) : lastOf typed? inWord 0 found text = found := by
  refine lastOf_eq_found (fun suffix hsuffix => ?_) inWord found
  rw [Option.eq_none_iff_forall_ne_some]
  rintro ⟨inner, after⟩ hreading
  obtain ⟨front, hfront, rfl⟩ := typed?_eq_some_iff.mp hreading
  exact h (hfront.sublist.trans ((List.sublist_append_left front after).trans hsuffix.sublist))

/-! ### First arguments -/

/-- A first argument does not end the arguments. -/
theorem First.not_mem_closing (h : First first names) : ')' ∉ first := by
  cases h with
  | undefined => decide
  | single hquote _ _ _ hparenthesis =>
    intro hmem
    rcases List.mem_cons.mp hmem with rfl | hmem
    · cases hquote
    rcases List.mem_append.mp hmem with hmem | hmem
    · exact hparenthesis hmem
    · rw [← List.mem_singleton.mp hmem] at hquote
      cases hquote
  | @list list names hlist =>
    have hfree : ')' ∉ list := by
      refine hlist.not_mem (by decide) fun name hname => ?_
      obtain ⟨quote, hplain⟩ := hlist.exists_fits hname
      exact hplain.parenthesis
    simp [hfree]

/-- A first argument without names gives no parameters to a type. -/
theorem First.not_mem_parameters (h : First first []) : '<' ∉ first := by
  cases h with
  | undefined => decide
  | @list list _ hlist =>
    have hfree : '<' ∉ list := hlist.not_mem (by decide) fun name hname => nomatch hname
    simp [hfree]

/-- An argument that is not given has no names. -/
theorem First.eq_nil_of_head (h : First first names) (hhead : first.head? = some 'u') :
    names = [] := by
  cases h with
  | undefined => rfl
  | single hquote =>
    cases hhead
    cases hquote
  | list => cases hhead

/-- A list of names is found in front of whatever stands behind it. -/
theorem exists_ofArguments?_list (hlist : Lists (fun _ => Plain) list names) (hne : names ≠ []) :
    ∃ namespaces, ∀ rest, ofArguments? ('[' :: (list ++ [']']) ++ rest) = some namespaces := by
  have hplain : ∀ name ∈ names, Plain name := fun name hname => by
    obtain ⟨quote, hfits⟩ := hlist.exists_fits hname
    exact hfits
  have hstrings := hlist.strings_eq (fun name hname => (hplain name hname).unquoted)
    fun name hname => (hplain name (List.dropLast_subset names hname)).ne_nil
  have hcandidates := map_toList_candidates? hstrings
  rw [distinct?_of_ne_nil hne fun name hname => (hplain name hname).ne_nil] at hcandidates
  obtain ⟨namespaces, hsome, -⟩ := Option.map_eq_some_iff.mp hcandidates
  have hclosed : ']' ∉ list :=
    hlist.not_mem (by decide) fun name hname => (hplain name hname).bracket
  refine ⟨namespaces, fun rest => ?_⟩
  have hread := @ofArguments?_list list [] rest Blanks.nil hclosed
  rw [← hsome, ← hread]
  simp

/-- A single name is found as long as no brackets stand behind it. -/
theorem exists_ofArguments?_single {quote : Char} {name : List Char} (hquote : isQuote quote = true)
    (hne : name ≠ []) (hname : Unquoted name) (hbracket : '[' ∉ name) :
    ∃ namespaces, ∀ rest, listText? rest = none →
      ofArguments? (quote :: (name ++ [quote]) ++ rest) = some namespaces := by
  have hsingle : Namespaces.single? (String.ofList name) ≠ none := by
    rw [Namespaces.single?, ne_eq, Namespaces.ofList?_eq_none_iff]
    intro hempty
    have heq := hempty _ List.mem_cons_self
    exact hne (by simpa using heq)
  obtain ⟨namespaces, hsome⟩ := Option.ne_none_iff_exists'.mp hsingle
  refine ⟨namespaces, fun rest hrest => ?_⟩
  have hopen : '[' ∉ quote :: (name ++ [quote]) := by
    have hne : quote ≠ '[' := by
      rintro rfl
      cases hquote
    simp [hbracket, hne.symm]
  have hstrings := strings_name hquote hne hname rest
  rw [ofArguments?, listText?_append hopen, hrest]
  simp only [List.cons_append, List.append_assoc, List.nil_append, hstrings, List.head?_cons,
    Option.bind_some, hsome]

/-- Behind a first argument that is no name and no list, the other arguments are searched. -/
theorem ofArguments?_undefined (rest : List Char) :
    ofArguments? ("undefined".toList ++ rest) = ofArguments? rest := by
  rw [ofArguments?, ofArguments?, listText?_append (by decide +kernel),
    strings_append_of_unquoted (by decide +kernel)]

/-- An empty list names nothing. -/
theorem ofArguments?_emptyList (hlist : Lists (fun _ => Plain) list []) (rest : List Char) :
    ofArguments? ('[' :: (list ++ [']']) ++ rest) = none := by
  have hempty : candidates? list = none := by
    rw [← Option.map_eq_none_iff, map_toList_candidates? (hlist.strings_eq (by simp) (by simp))]
    rfl
  have hclosed : ']' ∉ list := hlist.not_mem (by decide) fun name hname => nomatch hname
  have hread := @ofArguments?_list list [] rest Blanks.nil hclosed
  rw [← hempty, ← hread]
  simp

/-- Behind a first argument without names, no type lists names where no brackets stand. -/
theorem lastOf_typed?_of_first_nil (h : First first []) (hrest : listText? rest = none) :
    lastOf typed? false 0 none (declaring (first ++ rest)) = none := by
  refine lastOf_typed?_of_not_sublist (fun hsub => ?_) false none
  have hsplit : declaring (first ++ rest) = (callOpening ++ first) ++ (rest ++ [')']) := by
    simp only [declaring, List.append_assoc]
  have hopening : '<' ∉ callOpening := by decide +kernel
  rw [hsplit] at hsub
  have hbehind := sublist_of_append (by simp [hopening, h.not_mem_parameters]) hsub
  exact listText?_eq_none_iff.mp hrest
    (sublist_of_concat ((List.sublist_cons_self '<' _).trans hbehind))

/-- A declaration whose first argument gives no names declares none, if neither a string nor
brackets stand behind it. -/
theorem ambient?_of_first_nil (h : First first []) (hfree : ')' ∉ first ++ rest)
    (hrest : listText? rest = none) (hnone : first = "undefined".toList → strings rest = []) :
    ambient? (String.ofList (declaring (first ++ rest))) = none := by
  have harguments : ofArguments? (first ++ rest) = none := by
    cases h with
    | undefined =>
      rw [ofArguments?_undefined, ofArguments?, hrest]
      simp only [hnone rfl, List.head?_nil, Option.bind_none]
    | list hlist => exact ofArguments?_emptyList hlist rest
  rw [ambient?_declaring hfree, harguments, lastOf_typed?_of_first_nil h hrest]
  rfl

/-- Candidates that the arguments of a declaration name are those that it declares. -/
theorem ambient?_of_ofArguments? {arguments : List Char} {namespaces : Namespaces}
    (hfree : ')' ∉ arguments) (h : ofArguments? arguments = some namespaces) :
    ambient? (String.ofList (declaring arguments)) = some namespaces := by
  rw [ambient?_declaring hfree, h]
  rfl

/-- Options behind the first argument of a declaration do not count if that argument lists names, or
if the options hold no brackets and, behind an argument that is not given, no string either. The
names in the first brackets count instead of a first argument that is no list, and behind an
argument that is not given the first string counts where no brackets stand. -/
theorem ambient_beside_options (hfirst : First first names) (hoptions : ')' ∉ options) :
    ((first.head? = some '[' ∧ names ≠ []) ∨
        (listText? options = none ∧ (first = "undefined".toList → strings options = [])) →
      ambient? (String.ofList (declaring (first ++ ',' :: options))) =
        ambient? (String.ofList (declaring first))) ∧
    (first.head? ≠ some '[' → ∀ inner, listText? options = some inner →
      candidates? inner ≠ none →
        ambient? (String.ofList (declaring (first ++ ',' :: options))) = candidates? inner) ∧
    (first = "undefined".toList → listText? options = none →
      ambient? (String.ofList (declaring (first ++ ',' :: options))) =
        (strings options).head?.bind fun name => Namespaces.single? (String.ofList name)) := by
  have hfree : ')' ∉ first ++ ',' :: options := by simp [hfirst.not_mem_closing, hoptions]
  have hfree' : ')' ∉ first ++ [] := by simp [hfirst.not_mem_closing]
  have hlisted : listText? (',' :: options) = listText? options :=
    @listText?_append [','] (by decide) options
  have hstrings : strings (',' :: options) = strings options :=
    @strings_append_of_unquoted [','] (by decide) options
  refine ⟨?_, ?_, ?_⟩
  · rintro (⟨hlist, hne⟩ | ⟨hnone, hundefined⟩)
    · cases hfirst with
      | undefined => exact absurd rfl hne
      | single hquote =>
        cases hlist
        cases hquote
      | list hnames =>
        obtain ⟨namespaces, hread⟩ := exists_ofArguments?_list hnames hne
        have halone := ambient?_of_ofArguments? hfree' (hread [])
        rw [List.append_nil] at halone
        rw [ambient?_of_ofArguments? hfree (hread _), halone]
    · rw [← hlisted] at hnone
      by_cases hnames : names = []
      · subst hnames
        rw [← hstrings] at hundefined
        have halone := ambient?_of_first_nil hfirst hfree' rfl fun _ => by rw [strings]
        rw [List.append_nil] at halone
        rw [ambient?_of_first_nil hfirst hfree hnone hundefined, halone]
      · have hread : ∃ namespaces, ofArguments? (first ++ []) = some namespaces ∧
            ofArguments? (first ++ ',' :: options) = some namespaces := by
          cases hfirst with
          | undefined => exact absurd rfl hnames
          | single hquote hne hname hbracket =>
            obtain ⟨namespaces, hread⟩ := exists_ofArguments?_single hquote hne hname hbracket
            exact ⟨namespaces, hread [] rfl, hread _ hnone⟩
          | list hlist =>
            obtain ⟨namespaces, hread⟩ := exists_ofArguments?_list hlist hnames
            exact ⟨namespaces, hread [], hread _⟩
        obtain ⟨namespaces, hread, hbeside⟩ := hread
        have halone := ambient?_of_ofArguments? hfree' hread
        rw [List.append_nil] at halone
        rw [ambient?_of_ofArguments? hfree hbeside, halone]
  · intro hlist inner hinner hcandidates
    have hopen : '[' ∉ first := by
      cases hfirst with
      | undefined => decide
      | single hquote _ _ hbracket =>
        simp only [List.mem_cons, List.mem_append, List.not_mem_nil, or_false, hbracket, false_or,
          or_self]
        rintro rfl
        cases hquote
      | list => exact absurd rfl hlist
    obtain ⟨namespaces, hsome⟩ := Option.ne_none_iff_exists'.mp hcandidates
    rw [hsome]
    refine ambient?_of_ofArguments? hfree ?_
    rw [ofArguments?, listText?_append hopen, hlisted, hinner]
    exact hsome
  · rintro rfl hnone
    rw [← hlisted] at hnone
    obtain rfl := hfirst.eq_nil_of_head rfl
    rw [ambient?_declaring hfree, ofArguments?_undefined, ofArguments?, hnone,
      lastOf_typed?_of_first_nil hfirst hnone, hstrings]
    cases (strings options).head?.bind fun name => Namespaces.single? (String.ofList name) <;> rfl

/-- Options with a list of their own do not count beside a list of names, but they do beside one
name. -/
theorem options_beside_list :
    ambient? "const \x7b t \x7d = useTranslation(['a', 'b'], \x7b lngs: ['en', 'de'] \x7d)" =
      ambient? "const \x7b t \x7d = useTranslation(['a', 'b'])" ∧
    ambient? "const \x7b t \x7d = useTranslation('a', \x7b lngs: ['en', 'de'] \x7d)" =
      candidates? "'en', 'de'".toList := by
  have hlist : First "['a', 'b']".toList [['a'], ['b']] :=
    .list (@Lists.cons _ [] ['a'] _ '\'' _ (by decide) rfl
      ⟨by decide, by decide, by decide, by decide⟩
      (@Lists.cons _ [',', ' '] ['b'] _ '\'' _ (by decide) rfl
        ⟨by decide, by decide, by decide, by decide⟩ (@Lists.nil _ [] (by decide))))
  have hname : First "'a'".toList [['a']] :=
    @First.single '\'' ['a'] rfl (by decide) (by decide) (by decide) (by decide)
  have hoptions : ')' ∉ " \x7b lngs: ['en', 'de'] \x7d".toList := by decide +kernel
  refine ⟨(ambient_beside_options hlist hoptions).1 (Or.inl (by decide +kernel)), ?_⟩
  exact (ambient_beside_options hname hoptions).2.1 (by decide +kernel) _ (by decide +kernel)
    (by decide +kernel)

/-- Options that name namespaces although they are not the first argument: a string behind an
argument that is not given, a list beside one name, brackets that go on from the name into the
options, and a type behind a list or a name that the search cuts off. -/
theorem ambient_of_options_alone :
    (ambient? "const \x7b t \x7d = useTranslation(undefined, \x7b keyPrefix: 'page' \x7d)").map
        Namespaces.toList = some ["page"] ∧
      ambient? "const \x7b t \x7d = useTranslation(undefined)" = none ∧
    (ambient? "const \x7b t \x7d = useTranslation('a', \x7b lngs: ['en', 'de'] \x7d)").map
        Namespaces.toList = some ["en", "de"] ∧
      (ambient? "const \x7b t \x7d = useTranslation('a')").map Namespaces.toList = some ["a"] ∧
    (ambient? "const \x7b t \x7d = useTranslation('a[', \x7b x: ']' \x7d)").map
        Namespaces.toList = some [", \x7b x: "] ∧
      (ambient? "const \x7b t \x7d = useTranslation('a[')").map Namespaces.toList = some ["a["] ∧
    (ambient? "const \x7b t \x7d = useTranslation(['a]'], \x7b t: TFunction<['x']>1 \x7d)").map
        Namespaces.toList = some ["x"] ∧
      ambient? "const \x7b t \x7d = useTranslation(['a]'])" = none ∧
    (ambient? "const \x7b t \x7d = useTranslation('a)', \x7b t: TFunction<['x']>1 \x7d)").map
        Namespaces.toList = some ["x"] ∧
      ambient? "const \x7b t \x7d = useTranslation('a)')" = none := by
  refine ⟨?_, ?_, ?_, ?_, ?_, ?_, ?_, ?_, ?_, ?_⟩ <;> decide +kernel

end KeyLens.Declaration
