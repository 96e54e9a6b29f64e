import KeyLens.Proofs.Present.FirstLanguage

/-!
# Namespaces that a hover document shows

A hover document shows the candidates that hold the key in the first language, or all of them if
none does, and beside each value the namespace in which it was found. In the first language that
namespace is always among those that are shown. In another language it is so exactly if it holds the
key in the first language too, or if no candidate does.
-/

namespace KeyLens

namespace Provider

variable {provider : Provider} {localesDir : Option Path} {key : Key} {language name : String}
  {names : List String}

/-- The first meaning, unless it is missing, is what one of the namespaces holds. -/
theorem exists_of_value_firstMeaning {value : String}
    (h : (provider.firstMeaning localesDir key language names).value = some value) :
    ∃ name ∈ names,
      (provider.firstMeaning localesDir key language names).matchedNamespace = some name ∧
      provider.meaning? localesDir key language name = some value := by
  induction names with
  | nil => cases h
  | cons first rest ih =>
    rw [firstMeaning] at h ⊢
    cases hmeaning : provider.meaning? localesDir key language first with
    | some found =>
      rw [hmeaning] at h
      exact ⟨first, List.mem_cons_self, rfl, hmeaning.trans h⟩
    | none =>
      rw [hmeaning] at h
      obtain ⟨name, hname, hmatched, hvalue⟩ := ih h
      exact ⟨name, List.mem_cons_of_mem first hname, hmatched, hvalue⟩

/-- The namespaces that hold a key are those among the names in which it means something. -/
theorem mem_holding_iff :
    name ∈ provider.holding localesDir key language names ↔
      name ∈ names ∧ (provider.meaning? localesDir key language name).isSome = true :=
  List.mem_filter

/-- A hover document shows a candidate exactly if it holds the key in the first language, or if
none of the candidates does. -/
theorem mem_namespaces_hoverOf {info : CallInfo} {languages : List String} {first : String}
    (hfirst : ((Store.ofDirectory localesDir).languages provider).head? = some first)
    (hname : name ∈ info.namespaces.toList) :
    name ∈ (provider.hoverOf localesDir languages info).namespaces ↔
      (provider.meaning? localesDir info.key first name).isSome = true ∨
        ∀ other ∈ info.namespaces.toList, provider.meaning? localesDir info.key first other = none := by
  simp only [namespaces_hoverOf provider localesDir info languages hfirst, callMeaning,
    firstMeaning_eq_missing_iff]
  split
  · next hnone => exact iff_of_true hname (Or.inr (holding_eq_nil_iff.mp hnone))
  · next hsome =>
    rw [mem_holding_iff, ← holding_eq_nil_iff]
    exact ⟨fun hheld => Or.inl hheld.2,
      fun hheld => ⟨hname, hheld.resolve_right hsome⟩⟩

end Provider

namespace Store

/-- However a store was used before, a hover document has an entry for each language and shows the
candidates that hold the key in the first one, or all candidates if none does. An entry with a value
found it in one of the candidates, which is among those that are shown if and only if it holds the
key in the first language too, or if no candidate does. -/
theorem shown_iff_held_in_first_language {store : Store} {localesDir : Option Path}
    {moments : List Provider} {provider : Provider} (hstore : store.Serves localesDir moments)
    (hfaithful : StampFaithful moments) (hmoment : provider ∈ moments) (config : Config)
    (host : Host) (offset : Nat) {doc : HoverDoc}
    (hdoc : (store.hover provider config host offset).value = some doc) :
    doc.entries.map HoverEntry.language = store.languages provider ∧
      ∃ first, (store.languages provider).head? = some first ∧
        (let held := doc.candidates.toList.filter fun name =>
          (provider.meaning? localesDir doc.key first name).isSome
        doc.namespaces = if held = [] then doc.candidates.toList else held) ∧
        ∀ entry ∈ doc.entries, ∀ value, entry.resolved.value = some value →
          ∃ name ∈ doc.candidates.toList, entry.resolved.matchedNamespace = some name ∧
            provider.meaning? localesDir doc.key entry.language name = some value ∧
            (name ∈ doc.namespaces ↔
              (provider.meaning? localesDir doc.key first name).isSome = true ∨
                ∀ other ∈ doc.candidates.toList,
                  provider.meaning? localesDir doc.key first other = none) := by
  rw [(hstore.hover hfaithful hmoment config host offset).value_eq] at hdoc
  obtain ⟨info, -, hdoc⟩ := Option.bind_eq_some_iff.mp hdoc
  rw [hstore.languages_eq]
  cases hlanguages : (ofDirectory localesDir).languages provider with
  | nil => simp [hlanguages] at hdoc
  | cons first others =>
    rw [hlanguages, if_neg (List.cons_ne_nil _ _), Option.some_inj] at hdoc
    subst hdoc
    have hfirst : ((ofDirectory localesDir).languages provider).head? = some first := by
      rw [hlanguages, List.head?_cons]
    refine ⟨?_, first, rfl, ?_, ?_⟩
    · simp [Provider.hoverOf, Function.comp_def]
    · rw [provider.namespaces_hoverOf localesDir info (first :: others) hfirst,
        Provider.callMeaning]
      simp only [Provider.firstMeaning_eq_missing_iff]
      rfl
    · intro entry hentry value hvalue
      obtain ⟨language, -, rfl⟩ := List.mem_map.mp hentry
      obtain ⟨name, hname, hmatched, hmeaning⟩ := Provider.exists_of_value_firstMeaning hvalue
      exact ⟨name, hname, hmatched, hmeaning, Provider.mem_namespaces_hoverOf hfirst hname⟩

/-! ### A key in different namespaces -/

/-- Files of two languages that hold one key, each in a namespace of its own. -/
def twoNamespaces : FileTree where
  entries := [(["locales"], .directory), (["locales", "de"], .directory),
    (["locales", "en"], .directory),
    (["locales", "de", "common.json"], .file (.text "\x7b\"a\":\"A\"\x7d") 1),
    (["locales", "en", "more.json"], .file (.text "\x7b\"a\":\"B\"\x7d") 1)]
  directory := []

/-- A call that asks for the key in both namespaces. -/
def hostOfTwoNamespaces : Host :=
  ⟨⟨"const \x7b t \x7d = useTranslation(['more', 'common']); t($ => $.a)"⟩,
    [.call "t" ["$ => $.a"] ⟨50, 61⟩]⟩

namespace twoNamespaces

/-- What the key means in each namespace of each language. -/
theorem meaning?_eq :
    let meaning? := twoNamespaces.provider.meaning? (some ⟨"/locales"⟩) ⟨"a"⟩
    meaning? "de" "common" = some "A" ∧ meaning? "de" "more" = none ∧
      meaning? "en" "more" = some "B" := by
  refine ⟨?_, ?_, ?_⟩
  · rw [FileTree.meaning?_of_resolve (show _ = some ⟨"/locales/de/common.json"⟩ by decide)
      (FileTree.resolve_of_descend? (show FileTree.pathOf ["locales", "de", "common.json"] = _ by
        decide) (by decide) (by decide) rfl)]
    decide +kernel
  · have hpath : (ofDirectory (some ⟨"/locales"⟩)).path? "de" "more" =
        some ⟨"/locales/de/more.json"⟩ := by decide
    have hresolve : twoNamespaces.resolve ⟨"/locales/de/more.json"⟩ = .error .notFound :=
      FileTree.resolve_of_descend? (show FileTree.pathOf ["locales", "de", "more.json"] = _ by
        decide) (by decide) (by decide) rfl
    rw [Provider.meaning?, hpath, Option.bind_some, FileTree.document?_provider]
    simp only [FileTree.readDocument, FileTree.readText, hresolve]
    rfl
  · rw [FileTree.meaning?_of_resolve (show _ = some ⟨"/locales/en/more.json"⟩ by decide)
      (FileTree.resolve_of_descend? (show FileTree.pathOf ["locales", "en", "more.json"] = _ by
        decide) (by decide) (by decide) rfl)]
    decide +kernel

/-- The languages of the files. -/
theorem languages_eq :
    (ofDirectory (some ⟨"/locales"⟩)).languages twoNamespaces.provider = ["de", "en"] := by
  have hresolve : twoNamespaces.resolve ⟨"/locales"⟩ = .ok (["locales"], .directory) :=
    FileTree.resolve_of_descend? (show FileTree.pathOf ["locales"] = _ by decide) (by decide)
      (by decide) rfl
  have hsorted : ["de", "en"].mergeSort (· ≤ ·) = ["de", "en"] :=
    List.mergeSort_of_pairwise (by decide)
  have hchildren : twoNamespaces.children ["locales"] = ["de", "en"] := by
    simpa [FileTree.children, twoNamespaces] using hsorted
  exact languages_of_resolve hresolve (by rw [hchildren]; decide) (by decide)

/-- The hover document of the call shows the namespace of the first language alone. -/
theorem exists_hover :
    ∃ doc, ((ofDirectory (some ⟨"/locales"⟩)).hover twoNamespaces.provider Config.default
        hostOfTwoNamespaces 60).value = some doc ∧
      doc.key = ⟨"a"⟩ ∧ doc.candidates.toList = ["more", "common"] ∧
      doc.namespaces = ["common"] ∧
      doc.entries = [⟨"de", .found "common" "A"⟩, ⟨"en", .found "more" "B"⟩] := by
  have hserves := serves_ofDirectory (some ⟨"/locales"⟩) [twoNamespaces.provider]
  have hcall : (hostOfTwoNamespaces.infoAt? 60 "common" .lenient).map
      (fun info => (info.key, info.namespaces.toList)) = some (⟨"a"⟩, ["more", "common"]) := by
    decide +kernel
  obtain ⟨info, hinfo, hpair⟩ := Option.map_eq_some_iff.mp hcall
  obtain ⟨hkey, hnames⟩ := Prod.mk.inj hpair
  obtain ⟨hcommon, hmore, hmore'⟩ := meaning?_eq
  refine ⟨twoNamespaces.provider.hoverOf (some ⟨"/locales"⟩) ["de", "en"] info, ?_, hkey, hnames,
    ?_, ?_⟩
  · rw [(hserves.hover (FileTree.stampFaithful_provider twoNamespaces)
      (List.mem_singleton_self _) Config.default hostOfTwoNamespaces 60).value_eq,
      show hostOfTwoNamespaces.infoAt? 60 Config.default.defaultNamespace .lenient = some info from
        hinfo, Option.bind_some, languages_eq, if_neg (List.cons_ne_nil _ _)]
  · simp [Provider.hoverOf, Provider.callHolding, languages_eq, Provider.holding, hkey, hnames,
      hcommon, hmore]
  · simp [Provider.hoverOf, Provider.callMeaning, Provider.firstMeaning, hkey, hnames, hcommon,
      hmore, hmore']

end twoNamespaces

/-- In the first language the namespace of the value is shown, as it holds the key there; in the
second one it is not, as it does not hold the key in the first language, where another one does. -/
theorem shown_of_two_namespaces :
    let store := ofDirectory (some ⟨"/locales"⟩)
    let provider := twoNamespaces.provider
    store.Serves (some ⟨"/locales"⟩) [provider] ∧ StampFaithful [provider] ∧
      ∃ doc, (store.hover provider Config.default hostOfTwoNamespaces 60).value = some doc ∧
        doc.entries.map HoverEntry.language = ["de", "en"] ∧
        ∃ first, (store.languages provider).head? = some first ∧
          ∀ entry ∈ doc.entries, ∀ value, entry.resolved.value = some value →
            ∃ name ∈ doc.candidates.toList, entry.resolved.matchedNamespace = some name ∧
              (name ∈ doc.namespaces ↔
                (provider.meaning? (some ⟨"/locales"⟩) doc.key first name).isSome = true ∨
                  ∀ other ∈ doc.candidates.toList,
                    provider.meaning? (some ⟨"/locales"⟩) doc.key first other = none) := by
  intro store provider
  have hserves := serves_ofDirectory (some ⟨"/locales"⟩) [provider]
  have hfaithful := FileTree.stampFaithful_provider twoNamespaces
  obtain ⟨doc, hdoc, -⟩ := twoNamespaces.exists_hover
  obtain ⟨hlanguages, first, hfirst, -, hentries⟩ := shown_iff_held_in_first_language hserves
    hfaithful (List.mem_singleton_self _) Config.default hostOfTwoNamespaces 60 hdoc
  refine ⟨hserves, hfaithful, doc, hdoc, hlanguages.trans twoNamespaces.languages_eq, first, hfirst,
    fun entry hentry value hvalue => ?_⟩
  obtain ⟨name, hname, hmatched, -, hshown⟩ := hentries entry hentry value hvalue
  exact ⟨name, hname, hmatched, hshown⟩

/-- The value of the second language was found in a namespace that is not shown. -/
theorem not_shown_in_second_language :
    ∃ doc, ((ofDirectory (some ⟨"/locales"⟩)).hover twoNamespaces.provider Config.default
        hostOfTwoNamespaces 60).value = some doc ∧
      ∃ entry ∈ doc.entries, entry.resolved = .found "more" "B" ∧ "more" ∉ doc.namespaces := by
  obtain ⟨doc, hdoc, -, -, hnamespaces, hentries⟩ := twoNamespaces.exists_hover
  refine ⟨doc, hdoc, ⟨"en", .found "more" "B"⟩, ?_, rfl, ?_⟩
  · rw [hentries]
    exact List.mem_cons_of_mem _ (List.mem_singleton_self _)
  · rw [hnamespaces]
    decide

end Store

end KeyLens
