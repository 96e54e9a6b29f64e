import Mathlib.Data.List.Infix
import KeyLens.Proofs.Declaration.Search

/-!
# Lists of names

The arguments of a declaration list names between quotes. The names are read as they are written
as long as they hold no quotes themselves, and only the last of them may be empty: behind two quotes
in a row, the next string would start at the second one.
-/

namespace KeyLens.Declaration

open KeyLens.Text
open KeyLens.Selector (isQuote isBlank_of_isQuote)

/-- A text of commas and blanks. -/
def Gap (text : List Char) : Prop :=
  ∀ c ∈ text, c = ',' ∨ isBlank c = true

/-- A text that lists names between quotes, with gaps around them. Each name and its quote go
together as `fits` says. -/
inductive Lists (fits : Char → List Char → Prop) : List Char → List (List Char) → Prop where
  /-- There is no name. -/
  | nil {gap : List Char} (hgap : Gap gap) : Lists fits gap []
  /-- A name stands before others. -/
  | cons {gap name rest : List Char} {quote : Char} {names : List (List Char)} (hgap : Gap gap)
    (hquote : isQuote quote = true) (hname : fits quote name) (hrest : Lists fits rest names) :
    Lists fits (gap ++ quote :: (name ++ quote :: rest)) (name :: names)

/-- A name that may stand between any two quotes of one kind: it holds neither the quote nor
what ends a list or escapes a character. -/
structure Fits (quote : Char) (name : List Char) : Prop where
  /-- It does not hold its quote. -/
  quote : quote ∉ name
  /-- It escapes nothing. -/
  escape : '\\' ∉ name
  /-- It does not end the list. -/
  bracket : ']' ∉ name
  /-- It does not end the arguments. -/
  parenthesis : ')' ∉ name

/-- A text without quotes. -/
def Unquoted (text : List Char) : Prop :=
  ∀ c ∈ text, isQuote c = false

instance (text : List Char) : Decidable (Gap text) :=
  List.decidableBAll _ text

instance (text : List Char) : Decidable (Unquoted text) :=
  List.decidableBAll _ text

instance (quote : Char) (name : List Char) : Decidable (Fits quote name) :=
  decidable_of_iff (quote ∉ name ∧ '\\' ∉ name ∧ ']' ∉ name ∧ ')' ∉ name)
    ⟨fun ⟨hquote, hescape, hbracket, hparenthesis⟩ =>
      ⟨hquote, hescape, hbracket, hparenthesis⟩,
    fun h => ⟨h.quote, h.escape, h.bracket, h.parenthesis⟩⟩

/-- The names of a list that are not empty, each where it first stands; none if there is none. -/
def distinct? (names : List (List Char)) : Option (List String) :=
  let distinct := ((names.filter (· ≠ [])).map String.ofList).eraseDups
  if distinct = [] then none else some distinct

variable {fits : Char → List Char → Prop} {text list front rest name : List Char}
  {names : List (List Char)} {quote : Char}

/-! ### Strings of a text -/

/-- A gap holds no quotes. -/
theorem Gap.unquoted (h : Gap text) : Unquoted text := by
  intro c hc
  rcases h c hc with rfl | hblank
  · rfl
  · cases hquote : isQuote c with
    | false => rfl
    | true =>
      rw [isBlank_of_isQuote hquote] at hblank
      cases hblank

/-- A text without quotes holds no string. -/
theorem strings_append_of_unquoted (h : Unquoted front) (rest : List Char) :
    strings (front ++ rest) = strings rest := by
  induction front with
  | nil => rfl
  | cons c front ih =>
    have hc : isQuote c = false := h c List.mem_cons_self
    rw [List.cons_append, strings, hc, Bool.false_and, if_neg Bool.false_ne_true]
    exact ih fun d hd => h d (List.mem_cons_of_mem c hd)

/-- A name between quotes is a string. -/
theorem strings_name (hquote : isQuote quote = true) (hne : name ≠ []) (hname : Unquoted name)
    (rest : List Char) :
    strings (quote :: (name ++ quote :: rest)) = name :: strings rest := by
  have hchars : ∀ c ∈ name, (!isQuote c) = true := fun c hc => by rw [hname c hc, Bool.not_false]
  have hstop : ∀ c ∈ (quote :: rest).head?, (!isQuote c) = false := by
    rintro c ⟨⟩
    rw [hquote, Bool.not_true]
  have htake := takeWhile_append_stop hchars hstop
  have hdrop := dropWhile_append_stop hchars hstop
  rw [strings, htake, hquote, Bool.true_and, if_pos (bne_iff_ne.mpr hne)]
  split
  · next hnone => rw [hdrop] at hnone; cases hnone
  · next c after hafter =>
    rw [hdrop] at hafter
    cases hafter
    rfl

/-- A quote starts no string if another quote follows at once. -/
theorem strings_quote_quote (hquote : isQuote quote = true) (rest : List Char) :
    strings (quote :: quote :: rest) = strings (quote :: rest) := by
  have htake : (quote :: rest).takeWhile (!isQuote ·) = [] := by
    rw [List.takeWhile_cons_of_neg (by rw [hquote]; exact Bool.false_ne_true)]
  rw [strings, htake, hquote]
  rfl

/-- In front of text without quotes no character starts a string. -/
theorem strings_cons_of_unquoted (c : Char) (hrest : Unquoted rest) :
    strings (c :: rest) = [] := by
  have hnone := strings_append_of_unquoted hrest []
  have hdrop : rest.dropWhile (!isQuote ·) = [] := by
    rw [List.dropWhile_eq_nil_iff]
    exact fun d hd => by rw [hrest d hd, Bool.not_false]
  rw [List.append_nil] at hnone
  rw [strings, hnone]
  split
  · split
    · rfl
    · next d after hafter => rw [hdrop] at hafter; cases hafter
  · rw [strings]

/-- No string holds a quote. -/
theorem unquoted_of_mem_strings (h : name ∈ strings text) : Unquoted name := by
  fun_induction strings text with
  | case1 => cases h
  | case2 => cases h
  | case3 c rest hopen first after hafter hlength ih =>
    rcases List.mem_cons.mp h with rfl | hmore
    · intro d hd
      simpa using List.mem_takeWhile_imp hd
    · exact ih hmore
  | case4 c rest hopen ih => exact ih h

/-! ### Names of a list -/

/-- The names of a list are read as they are written, without the empty ones, if they hold no
quotes and only the last of them is empty. -/
theorem Lists.strings_eq (h : Lists fits list names) (hquotes : ∀ name ∈ names, Unquoted name)
    (hlast : ∀ name ∈ names.dropLast, name ≠ []) : strings list = names.filter (· ≠ []) := by
  induction h with
  | nil hgap =>
    have hnone := strings_append_of_unquoted hgap.unquoted []
    rwa [List.append_nil, strings] at hnone
  | @cons gap name rest quote names hgap hquote _ hrest ih =>
    have hmore : ∀ other ∈ names.dropLast, other ≠ [] := by
      intro other hother
      refine hlast other ?_
      have hne := List.ne_nil_of_mem ((List.dropLast_sublist names).subset hother)
      rw [List.dropLast_cons_of_ne_nil hne]
      exact List.mem_cons_of_mem name hother
    have hothers := ih (fun other hother => hquotes other (List.mem_cons_of_mem name hother)) hmore
    rw [strings_append_of_unquoted hgap.unquoted]
    by_cases hname : name = []
    · -- An empty name is the last one, so that no quote stands behind it.
      have hnames : names = [] := by
        by_contra hne
        refine hlast name ?_ hname
        rw [List.dropLast_cons_of_ne_nil hne]
        exact List.mem_cons_self
      subst hname hnames
      cases hrest with
      | nil hbehind =>
        rw [List.nil_append, strings_quote_quote hquote,
          strings_cons_of_unquoted quote hbehind.unquoted]
        rfl
    · rw [strings_name hquote hname (hquotes name List.mem_cons_self), hothers,
        List.filter_cons_of_pos (by simpa using hname)]

/-- Strings that are names of a list, without the empty ones, are its candidates. -/
theorem map_toList_candidates? (h : strings text = names.filter (· ≠ [])) :
    (candidates? text).map Namespaces.toList = distinct? names := by
  have hfilter : ((names.filter (· ≠ [])).map String.ofList).filter (· ≠ "") =
      (names.filter (· ≠ [])).map String.ofList := by
    rw [List.filter_eq_self]
    intro name hname
    obtain ⟨chars, hchars, rfl⟩ := List.mem_map.mp hname
    simpa using (List.mem_filter.mp hchars).2
  rw [candidates?, h, distinct?, Namespaces.ofList?]
  simp only [distinctNames, hfilter]
  split
  · rfl
  · next hnil => rw [if_pos (not_not.mp hnil), Option.map_none]

/-- A name that is not empty is kept. -/
theorem mem_kept (hname : name ∈ names) (hne : name ≠ []) :
    String.ofList name ∈ ((names.filter (· ≠ [])).map String.ofList).eraseDups := by
  rw [List.mem_eraseDups]
  exact List.mem_map_of_mem (List.mem_filter.mpr ⟨hname, by simpa using hne⟩)

/-- Names that are not empty are all kept, each where it first stands. -/
theorem distinct?_of_ne_nil (hne : names ≠ []) (hnames : ∀ name ∈ names, name ≠ []) :
    distinct? names = some (names.map String.ofList).eraseDups := by
  have hfilter : names.filter (· ≠ []) = names :=
    List.filter_eq_self.mpr fun name hname => by simpa using hnames name hname
  obtain ⟨name, rest, rfl⟩ := List.exists_cons_of_ne_nil hne
  rw [distinct?, hfilter, List.map_cons, List.eraseDups_cons]
  exact if_neg (List.cons_ne_nil _ _)

/-- What the first brackets of the arguments enclose is read as a list. -/
theorem ofArguments?_list {before after : List Char} (hbefore : Blanks before)
    (hlist : ']' ∉ list) :
    ofArguments? (before ++ '[' :: (list ++ ']' :: after)) = candidates? list := by
  have hopen : '[' ∉ before := fun hmem => by cases hbefore '[' hmem
  have hinner : enclosed? ']' (list ++ ']' :: after) = some (list, after) :=
    enclosed?_eq_some_iff.mpr ⟨rfl, hlist⟩
  have hfound : listText? (before ++ '[' :: (list ++ ']' :: after)) = some list := by
    rw [listText?, dropWhile_ne_append hopen]
    simp only [hinner, Option.map_some]
  rw [ofArguments?, hfound]

/-! ### Candidates hold no quotes -/

/-- Candidates that are given by names without quotes hold none. -/
theorem unquoted_of_ofList? {namespaces : Namespaces}
    (h : Namespaces.ofList? (names.map String.ofList) = some namespaces)
    (hnames : ∀ name ∈ names, Unquoted name) {candidate : String}
    (hcandidate : candidate ∈ namespaces.toList) : Unquoted candidate.toList := by
  rw [Namespaces.toList_of_ofList? h, mem_distinctNames] at hcandidate
  obtain ⟨name, hname, rfl⟩ := List.mem_map.mp hcandidate.1
  rw [String.toList_ofList]
  exact hnames name hname

/-- The candidates that arguments name hold no quotes. -/
theorem unquoted_of_ofArguments? {namespaces : Namespaces}
    (h : ofArguments? text = some namespaces) {candidate : String}
    (hcandidate : candidate ∈ namespaces.toList) : Unquoted candidate.toList := by
  unfold ofArguments? at h
  split at h
  · exact unquoted_of_ofList? h (fun name hname => unquoted_of_mem_strings hname) hcandidate
  · obtain ⟨name, hname, hsingle⟩ := Option.bind_eq_some_iff.mp h
    refine @unquoted_of_ofList? [name] namespaces hsingle ?_ candidate hcandidate
    intro other hother
    rw [List.mem_singleton.mp hother]
    exact unquoted_of_mem_strings (List.mem_of_mem_head? hname)

/-- The candidates that a text declares hold no quotes. -/
theorem unquoted_of_ambient? {preceding : String} {namespaces : Namespaces}
    (h : ambient? preceding = some namespaces) {candidate : String}
    (hcandidate : candidate ∈ namespaces.toList) : Unquoted candidate.toList := by
  simp only [ambient?, Option.orElse_eq_orElse, Option.orElse_eq_or, Option.or_eq_some_iff] at h
  rcases h with h | ⟨-, h⟩
  · obtain ⟨arguments, -, harguments⟩ := Option.bind_eq_some_iff.mp h
    exact unquoted_of_ofArguments? harguments hcandidate
  · obtain ⟨inner, -, hinner⟩ := Option.bind_eq_some_iff.mp h
    exact unquoted_of_ofList? hinner (fun name hname => unquoted_of_mem_strings hname) hcandidate

/-- Names one of which holds a quote are not the candidates that a text declares. -/
theorem ambient?_ne_of_quote {preceding : String} (hname : name ∈ names)
    (hquote : ¬ Unquoted name) :
    (ambient? preceding).map Namespaces.toList ≠ distinct? names := by
  intro heq
  have hne : name ≠ [] := by
    rintro rfl
    exact hquote nofun
  have hmem := mem_kept hname hne
  rw [distinct?, if_neg (List.ne_nil_of_mem hmem), Option.map_eq_some_iff] at heq
  obtain ⟨namespaces, hfound, hlist⟩ := heq
  rw [← hlist] at hmem
  have hunquoted := unquoted_of_ambient? hfound hmem
  rw [String.toList_ofList] at hunquoted
  exact hquote hunquoted

/-! ### Characters of a list -/

/-- A character of a list stands in a gap, is a quote or belongs to one of the names. -/
theorem Lists.mem_cases (h : Lists fits list names) {c : Char} (hc : c ∈ list) :
    (c = ',' ∨ isBlank c = true) ∨ isQuote c = true ∨ ∃ name ∈ names, c ∈ name := by
  induction h with
  | nil hgap => exact Or.inl (hgap c hc)
  | @cons gap name rest quote names hgap hquote _ _ ih =>
    rcases List.mem_append.mp hc with hc | hc
    · exact Or.inl (hgap c hc)
    rcases List.mem_cons.mp hc with rfl | hc
    · exact Or.inr (Or.inl hquote)
    rcases List.mem_append.mp hc with hc | hc
    · exact Or.inr (Or.inr ⟨name, List.mem_cons_self, hc⟩)
    rcases List.mem_cons.mp hc with rfl | hc
    · exact Or.inr (Or.inl hquote)
    rcases ih hc with hsign | hquote | ⟨other, hother, hc⟩
    · exact Or.inl hsign
    · exact Or.inr (Or.inl hquote)
    · exact Or.inr (Or.inr ⟨other, List.mem_cons_of_mem name hother, hc⟩)

/-- Each name of a list fits between some quotes. -/
theorem Lists.exists_fits (h : Lists fits list names) (hname : name ∈ names) :
    ∃ quote, fits quote name := by
  induction h with
  | nil => cases hname
  | @cons gap first rest quote names _ _ hfirst _ ih =>
    rcases List.mem_cons.mp hname with rfl | hname
    · exact ⟨quote, hfirst⟩
    · exact ih hname

/-- A character that belongs to no name and neither separates nor encloses names is not in the
list. -/
theorem Lists.not_mem (h : Lists fits list names) {c : Char}
    (hsign : c ≠ ',' ∧ isBlank c = false ∧ isQuote c = false) (hnames : ∀ name ∈ names, c ∉ name) :
    c ∉ list := by
  obtain ⟨hcomma, hblank, hquote⟩ := hsign
  intro hc
  rcases h.mem_cases hc with (heq | hc) | hc | ⟨name, hname, hc⟩
  · exact hcomma heq
  · rw [hblank] at hc
    cases hc
  · rw [hquote] at hc
    cases hc
  · exact hnames name hname hc

/-- Neither the list nor the arguments end within a list of names that fit. -/
theorem Lists.not_mem_closing (h : Lists Fits list names) : ']' ∉ list ∧ ')' ∉ list := by
  refine ⟨h.not_mem (by decide) fun name hname => ?_, h.not_mem (by decide) fun name hname => ?_⟩
  · obtain ⟨quote, hfits⟩ := h.exists_fits hname
    exact hfits.bracket
  · obtain ⟨quote, hfits⟩ := h.exists_fits hname
    exact hfits.parenthesis

/-! ### Two declarations of a list -/

/-- The destructuring of a list, up to the list. -/
def hookOpening : List Char :=
  "const \x7b t \x7d = useTranslation([".toList

/-- The destructuring that declares a list of names. -/
def listedHook (list : List Char) : List Char :=
  hookOpening ++ (list ++ [']', ')'])

/-- The parameter whose type lists names, up to the list. -/
def typeOpening : List Char :=
  "t: TFunction<[".toList

/-- The parameter whose type declares a list of names. -/
def listedType (list : List Char) : List Char :=
  typeOpening ++ (list ++ [']', '>'])

/-- The destructuring that calls `useTranslation`, up to its arguments. -/
def callOpening : List Char :=
  "const \x7b t \x7d = useTranslation(".toList

/-- The destructuring that calls `useTranslation` with the given arguments. -/
def declaring (arguments : List Char) : List Char :=
  callOpening ++ (arguments ++ [')'])

/-- A destructuring of a list has the list in brackets as its argument. -/
theorem listedHook_eq (list : List Char) :
    listedHook list = declaring ('[' :: (list ++ [']'])) := by
  have hopening : hookOpening = callOpening ++ ['['] := by decide +kernel
  rw [listedHook, declaring, hopening]
  simp only [List.append_assoc, List.cons_append, List.nil_append]

/-- The tokens of a destructuring in front of its arguments. -/
theorem declaring_eq (arguments : List Char) : declaring arguments =
    "const".toList ++ ([' '] ++ '\x7b' :: (([' '] ++ 't' :: [' ']) ++ '\x7d' :: ([' '] ++ '=' ::
      ([' '] ++ ("useTranslation".toList ++ ([] ++ '(' :: (arguments ++ [')']))))))) := by
  have hopening : callOpening =
      "const".toList ++ ([' '] ++ '\x7b' :: (([' '] ++ 't' :: [' ']) ++ '\x7d' ::
        ([' '] ++ '=' :: ([' '] ++ ("useTranslation".toList ++ ['(']))))) := by
    decide +kernel
  rw [declaring, hopening]
  simp only [List.append_assoc, List.cons_append, List.nil_append]

/-- The tokens of a parameter in front of the list of its type. -/
theorem typeOpening_eq : typeOpening =
    't' :: ([] ++ ':' :: ([' '] ++ ("TFunction".toList ++ ([] ++ '<' :: ([] ++ ['[']))))) := by
  decide +kernel

/-- A destructuring closes its arguments, so that none is found where no parenthesis is closed. -/
theorem lastOf_hook?_of_not_mem (h : ')' ∉ text) (inWord : Bool) (found : Option (List Char)) :
    lastOf hook? inWord 0 found text = found := by
  rw [← List.singleton_infix_iff] at h
  refine lastOf_eq_found_of_free (fun suffix reading hreading => ?_) h inWord found
  obtain ⟨front, hfront, rfl⟩ := hook?_eq_some_iff.mp hreading
  cases hfront with
  | mk _ _ _ _ hcall =>
    cases hcall with
    | mk => simp [List.singleton_infix_iff]

/-- A type that lists names has parameters, so that none is found where none are opened. -/
theorem lastOf_typed?_of_not_mem (h : '<' ∉ text) (inWord : Bool) (found : Option (List Char)) :
    lastOf typed? inWord 0 found text = found := by
  rw [← List.singleton_infix_iff] at h
  refine lastOf_eq_found_of_free (fun suffix reading hreading => ?_) h inWord found
  obtain ⟨front, hfront, rfl⟩ := typed?_eq_some_iff.mp hreading
  cases hfront with
  | mk => simp [List.singleton_infix_iff]

/-- A destructuring with arguments binds `t`, if the arguments do not end within. -/
theorem hook_declaring {arguments : List Char} (h : ')' ∉ arguments) :
    Hook (declaring arguments) arguments := by
  have hspace : Blanks [' '] := Blanks.nil.cons rfl
  have hword : isWord ' ' = false := by decide +kernel
  have hbefore : ∀ c ∈ [' '].getLast?, isWord c = false := fun c hc => by cases hc; exact hword
  have hafter : ∀ c ∈ [' '].head?, isWord c = false := fun c hc => by cases hc; exact hword
  have hhook := Hook.mk .const hspace (by decide) (BindsT.mk hbefore hafter)
    (Call.mk hspace hspace Blanks.nil h)
  rwa [← declaring_eq] at hhook

/-- The candidates that the arguments of a destructuring name count; if they name none, those of a
type that stands in the text do. -/
theorem ambient?_declaring {arguments : List Char} (h : ')' ∉ arguments) :
    ambient? (String.ofList (declaring arguments)) =
      (ofArguments? arguments <|>
        (lastOf typed? false 0 none (declaring arguments)).bind candidates?) := by
  have hread : hook? (declaring arguments ++ []) = some (arguments, []) :=
    hook?_eq_some_iff.mpr ⟨_, hook_declaring h, rfl⟩
  have hhook : lastOf hook? false 0 none (declaring arguments) = some arguments := by
    have hfound := lastOf_found (by simp [declaring]) hread none
    rwa [List.append_nil, lastOf] at hfound
  simp only [ambient?, String.toList_ofList, hhook, Option.bind_some]

/-- The parameter whose type lists names binds `t` to the list. -/
theorem typed_listedType (hlist : ']' ∉ list) (hne : list ≠ []) :
    Typed (typeOpening ++ (list ++ [']'])) list := by
  have hspace : Blanks [' '] := Blanks.nil.cons rfl
  have hname : "TFunction".toList.map Char.toLower = "tfunction".toList := by decide +kernel
  have htyped := Typed.mk Blanks.nil hspace hname Blanks.nil Blanks.nil hlist hne
  rw [typeOpening_eq]
  simpa only [List.append_assoc, List.cons_append, List.nil_append] using htyped

/-- A type declares the names of its list. -/
theorem ambient?_listedType (hlist : ']' ∉ list ∧ ')' ∉ list) (hne : list ≠ []) :
    ambient? (String.ofList (listedType list)) = candidates? list := by
  have hclosed : ')' ∉ listedType list := by
    rw [listedType, List.mem_append, List.mem_append]
    exact not_or.mpr ⟨by decide +kernel, not_or.mpr ⟨hlist.2, by decide⟩⟩
  have hhook := lastOf_hook?_of_not_mem hclosed false none
  have htyped : lastOf typed? false 0 none (listedType list) = some list := by
    have hsplit : listedType list = (typeOpening ++ (list ++ [']'])) ++ ['>'] := by
      rw [listedType, List.append_assoc, List.append_assoc, List.cons_append, List.nil_append]
    have hread : typed? ((typeOpening ++ (list ++ [']'])) ++ ['>']) = some (list, ['>']) :=
      typed?_eq_some_iff.mpr ⟨_, typed_listedType hlist.1 hne, rfl⟩
    rw [hsplit, lastOf_found (by simp) hread, lastOf_typed?_of_not_mem (by decide)]
  simp only [ambient?, String.toList_ofList, hhook, htyped, Option.bind_none, Option.bind_some]
  rfl

/-- A destructuring declares the names of its list. If it lists none, the list must not hold the
parameters of a type. -/
theorem ambient?_listedHook (hlist : ']' ∉ list ∧ ')' ∉ list)
    (h : candidates? list = none → '<' ∉ list) :
    ambient? (String.ofList (listedHook list)) = candidates? list := by
  have hfree : ')' ∉ '[' :: (list ++ [']']) := by simp [hlist.2]
  have harguments : ofArguments? ('[' :: (list ++ [']'])) = candidates? list :=
    ofArguments?_list Blanks.nil hlist.1
  rw [listedHook_eq, ambient?_declaring hfree, harguments]
  cases hcandidates : candidates? list with
  | some namespaces => rfl
  | none =>
    have hopen : '<' ∉ declaring ('[' :: (list ++ [']'])) := by
      rw [← listedHook_eq, listedHook, List.mem_append, List.mem_append]
      exact not_or.mpr ⟨by decide +kernel, not_or.mpr ⟨h hcandidates, by decide⟩⟩
    rw [lastOf_typed?_of_not_mem hopen]
    rfl

/-- Without names a list holds nothing but gaps and quotes. -/
theorem Lists.not_mem_of_candidates? (h : Lists fits list names)
    (hquotes : ∀ name ∈ names, Unquoted name) (hlast : ∀ name ∈ names.dropLast, name ≠ [])
    (hnone : candidates? list = none) : '<' ∉ list := by
  have hdistinct : distinct? names = none := by
    rw [← map_toList_candidates? (h.strings_eq hquotes hlast), hnone, Option.map_none]
  refine h.not_mem (by decide) fun name hname hc => ?_
  have hkept := mem_kept hname (List.ne_nil_of_mem hc)
  rw [distinct?, if_neg (List.ne_nil_of_mem hkept)] at hdistinct
  cases hdistinct

/-- A list of names of which only the last may be empty is read as it is written from a
destructuring exactly if none of its names holds a quote, and so it is from a type. The candidates
are then the names that are not empty, each where it first stands. -/
theorem listed_names_read_iff (h : Lists Fits list names)
    (hlast : ∀ name ∈ names.dropLast, name ≠ []) :
    ((ambient? (String.ofList (listedHook list))).map Namespaces.toList = distinct? names ↔
      ∀ name ∈ names, Unquoted name) ∧
    (list ≠ [] →
      ((ambient? (String.ofList (listedType list))).map Namespaces.toList = distinct? names ↔
        ∀ name ∈ names, Unquoted name)) := by
  -- A name with a quote in it is never a candidate.
  have hquote : ∀ preceding : String,
      (ambient? preceding).map Namespaces.toList = distinct? names →
        ∀ name ∈ names, Unquoted name := by
    intro preceding heq name hname
    by_contra hquote
    exact ambient?_ne_of_quote hname hquote heq
  refine ⟨⟨hquote _, fun hquotes => ?_⟩, fun hne => ⟨hquote _, fun hquotes => ?_⟩⟩
  · rw [ambient?_listedHook h.not_mem_closing (h.not_mem_of_candidates? hquotes hlast)]
    exact map_toList_candidates? (h.strings_eq hquotes hlast)
  · rw [ambient?_listedType h.not_mem_closing hne]
    exact map_toList_candidates? (h.strings_eq hquotes hlast)

/-- Names between quotes of two kinds, the first of them twice, are read from both. -/
theorem listed_names_of_two_quotes :
    (ambient? (String.ofList (listedHook "'a', \"b\",\n 'a'".toList))).map Namespaces.toList =
      some ["a", "b"] ∧
    (ambient? (String.ofList (listedType "'a', \"b\",\n 'a'".toList))).map Namespaces.toList =
      some ["a", "b"] := by
  have hlist : Lists Fits "'a', \"b\",\n 'a'".toList [['a'], ['b'], ['a']] :=
    @Lists.cons Fits [] ['a'] _ '\'' _ (by decide) rfl (by decide)
      (@Lists.cons Fits [',', ' '] ['b'] _ '"' _ (by decide) rfl (by decide)
        (@Lists.cons Fits [',', '\n', ' '] ['a'] _ '\'' _ (by decide) rfl (by decide)
          (@Lists.nil Fits [] (by decide))))
  have hkept : distinct? [['a'], ['b'], ['a']] = some ["a", "b"] := by decide
  rw [← hkept]
  have hread := listed_names_read_iff hlist (by decide)
  exact ⟨hread.1.mpr (by decide), (hread.2 (by decide)).mpr (by decide)⟩

/-- An empty name in front of another one: the text between the two quotes that face each other is
read as a name, and the name behind it is lost. -/
theorem listed_names_behind_empty_name :
    Lists Fits "'', 'common'".toList ["".toList, "common".toList] ∧
    distinct? ["".toList, "common".toList] = some ["common"] ∧
    (ambient? "const \x7b t \x7d = useTranslation(['', 'common'])").map Namespaces.toList =
      some [", "] := by
  refine ⟨?_, by decide +kernel, by decide +kernel⟩
  exact @Lists.cons Fits [] [] _ '\'' _ (by decide) rfl (by decide)
    (@Lists.cons Fits [',', ' '] "common".toList _ '\'' _ (by decide) rfl (by decide +kernel)
      (@Lists.nil Fits [] (by decide)))

end KeyLens.Declaration
