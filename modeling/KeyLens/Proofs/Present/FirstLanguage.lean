import KeyLens.Proofs.Files.Canonical
import KeyLens.Proofs.Files.Stamps
import KeyLens.Proofs.Present.Meanings
import KeyLens.Proofs.Store.Transparency

/-!
# Candidates in the first language

The candidates that hold a key are listed by looking into all of them, and a key is found by looking
into one after the other up to the first that holds it. On the files of one tree the two agree in
the first language, whatever each of them finds kept. A hover document does both, one on what the
other left: its first entry and the namespaces that it shows fit together.
-/

namespace KeyLens

namespace Provider

variable {provider : Provider} {localesDir : Option Path} {key : Key} {language : String}

/-- The first meaning is that in the first of the namespaces that hold the key. -/
theorem matchedNamespace_firstMeaning (provider : Provider) (localesDir : Option Path) (key : Key)
    (language : String) (names : List String) :
    (provider.firstMeaning localesDir key language names).matchedNamespace =
      (provider.holding localesDir key language names).head? := by
  induction names with
  | nil => rfl
  | cons name rest ih =>
    rw [firstMeaning, holding, List.filter_cons]
    cases provider.meaning? localesDir key language name with
    | some value => rfl
    | none => exact ih

/-- The first meaning is missing if and only if no namespace holds the key. -/
theorem firstMeaning_eq_missing_iff {names : List String} :
    provider.firstMeaning localesDir key language names = .missing ↔
      provider.holding localesDir key language names = [] := by
  induction names with
  | nil => simp [firstMeaning, holding]
  | cons name rest ih =>
    rw [firstMeaning, holding, List.filter_cons]
    cases provider.meaning? localesDir key language name with
    | some value => simp [Resolved.found, Resolved.missing]
    | none => exact ih

/-- A first meaning that is not missing is one in the first of the namespaces that hold the key. -/
theorem exists_of_firstMeaning_ne_missing {names : List String}
    (h : provider.firstMeaning localesDir key language names ≠ .missing) :
    ∃ name, (provider.firstMeaning localesDir key language names).matchedNamespace = some name ∧
      (provider.holding localesDir key language names).head? = some name := by
  have hhead := List.head?_eq_some_head (mt firstMeaning_eq_missing_iff.mpr h)
  exact ⟨_, (matchedNamespace_firstMeaning _ _ _ _ _).trans hhead, hhead⟩

/-- No namespace holds a key if and only if the key means nothing in each of them. -/
theorem holding_eq_nil_iff {names : List String} :
    provider.holding localesDir key language names = [] ↔
      ∀ name ∈ names, provider.meaning? localesDir key language name = none := by
  simp only [holding, List.filter_eq_nil_iff, Bool.not_eq_true, Option.isSome_eq_false_iff,
    Option.isNone_iff_eq_none]

/-- The namespaces that a hover document shows are those that hold the key in the first language,
or all candidates if its meaning there is missing. -/
theorem namespaces_hoverOf (provider : Provider) (localesDir : Option Path) (info : CallInfo)
    (languages : List String)
    (hlanguage : ((Store.ofDirectory localesDir).languages provider).head? = some language) :
    (provider.hoverOf localesDir languages info).namespaces =
      if provider.callMeaning localesDir info language = .missing then info.namespaces.toList
      else provider.holding localesDir info.key language info.namespaces.toList := by
  simp only [hoverOf, callHolding, hlanguage, Option.map_some, Option.getD_some, callMeaning,
    firstMeaning_eq_missing_iff]

end Provider

/-- What a key means in a namespace follows from the text of its file. -/
theorem FileTree.meaning?_of_resolve {tree : FileTree} {localesDir : Option Path} {key : Key}
    {language name text : String} {path : Path} {names : List String} {modified : Nat}
    (hpath : (Store.ofDirectory localesDir).path? language name = some path)
    (hresolve : tree.resolve path = .ok (names, .file (.text text) modified)) :
    tree.provider.meaning? localesDir key language name =
      match Json.read text with
      | .ok (.object members) => (Json.lookup? members key).map Json.display
      | _ => none := by
  rw [Provider.meaning?, hpath, Option.bind_some, document?_provider]
  simp only [readDocument, readText, hresolve]
  cases Json.read text with
  | error failure => rfl
  | ok value => cases value <;> rfl

namespace Store

/-- On the files of one tree, operations leave a store that serves its directory. -/
theorem serves_after_tree (tree : FileTree) (localesDir : Option Path)
    (operations : List Operation) :
    ((ofDirectory localesDir).after tree.provider operations).Serves localesDir [tree.provider] :=
  (serves_ofDirectory localesDir _).after (FileTree.stampFaithful_provider tree)
    (List.mem_singleton_self _) operations

/-- The languages of a store on the files of a tree are the directories in its own, in order. -/
theorem languages_of_resolve {tree : FileTree} {dir : Path} {names languages : List String}
    (hresolve : tree.resolve dir = .ok (names, .directory))
    (hdirectories : (tree.children names).filter
      (fun name => tree.get? (names ++ [name]) = some .directory) = languages)
    (hsorted : languages.Pairwise (· ≤ ·)) :
    (ofDirectory (some dir)).languages tree.provider = languages := by
  have hfound : tree.provider.directories? dir = some languages := by
    simp only [FileTree.provider, FileTree.directories?, hresolve, hdirectories]
  rw [Store.languages, ofDirectory, Option.bind_some, hfound]
  exact List.mergeSort_of_pairwise (by simpa using hsorted)

/-- Whatever was kept before, listing the candidates that hold a key and resolving it among them
agree in the first language: listed are, in their order, the candidates in which the key resolves,
and the key is found in the first of these. A hover document, which lists before it resolves, misses
its key in the first language if and only if it resolves in no candidate, and then shows all of
them; otherwise the first namespace that it shows is the one in which its first entry found the
key. -/
theorem holders_agree_with_resolve (tree : FileTree) (localesDir : Option Path)
    (earlier later : List Operation) :
    let store := (ofDirectory localesDir).after tree.provider earlier
    let other := (ofDirectory localesDir).after tree.provider later
    (∀ namespaces key language, (store.languages tree.provider).head? = some language →
      (store.holders tree.provider namespaces key).value =
          namespaces.toList.filter (fun name =>
            (other.resolve tree.provider name key language).value.isSome) ∧
        (other.resolveFirst tree.provider namespaces key language).value.matchedNamespace =
          (store.holders tree.provider namespaces key).value.head?) ∧
      ∀ config host offset doc, (store.hover tree.provider config host offset).value = some doc →
        ∃ language entry, (store.languages tree.provider).head? = some language ∧
          doc.entries.head? = some entry ∧ entry.language = language ∧
          (entry.resolved = .missing ↔ ∀ name ∈ doc.candidates.toList,
            (other.resolve tree.provider name doc.key language).value = none) ∧
          (entry.resolved = .missing → doc.namespaces = doc.candidates.toList) ∧
          (entry.resolved ≠ .missing → ∃ name, entry.resolved.matchedNamespace = some name ∧
            doc.namespaces.head? = some name) := by
  intro store other
  have hfaithful := FileTree.stampFaithful_provider tree
  have hmoment : tree.provider ∈ [tree.provider] := List.mem_singleton_self _
  have hstore : store.Serves localesDir [tree.provider] :=
    serves_after_tree tree localesDir earlier
  have hother : other.Serves localesDir [tree.provider] :=
    serves_after_tree tree localesDir later
  have hresolve : ∀ name key language, (other.resolve tree.provider name key language).value =
      tree.provider.meaning? localesDir key language name :=
    fun name key language => (hother.resolve hfaithful hmoment name key language).value_eq
  simp only [hstore.languages_eq, hresolve]
  refine ⟨?_, ?_⟩
  · intro namespaces key language hlanguage
    have hlisted : (store.holders tree.provider namespaces key).value =
        tree.provider.holding localesDir key language namespaces.toList := by
      rw [(hstore.holders hfaithful hmoment namespaces key).value_eq, hlanguage]
      rfl
    rw [hlisted, (hother.resolveFirst hfaithful hmoment namespaces key language).value_eq]
    exact ⟨rfl, Provider.matchedNamespace_firstMeaning _ _ _ _ _⟩
  · intro config host offset doc hdoc
    rw [(hstore.hover hfaithful hmoment config host offset).value_eq] at hdoc
    obtain ⟨info, -, hdoc⟩ := Option.bind_eq_some_iff.mp hdoc
    cases hlanguages : (ofDirectory localesDir).languages tree.provider with
    | nil => simp [hlanguages] at hdoc
    | cons language others =>
      rw [hlanguages, if_neg (List.cons_ne_nil _ _), Option.some_inj] at hdoc
      subst hdoc
      have hshown := tree.provider.namespaces_hoverOf localesDir info (language :: others)
        (by rw [hlanguages, List.head?_cons])
      refine ⟨language, ⟨language, tree.provider.callMeaning localesDir info language⟩, rfl, rfl,
        rfl, ?_, ?_, ?_⟩
      · exact Provider.firstMeaning_eq_missing_iff.trans Provider.holding_eq_nil_iff
      · intro hmissing
        rw [hshown, if_pos hmissing]
        rfl
      · intro hfound
        rw [hshown, if_neg hfound]
        exact Provider.exists_of_firstMeaning_ne_missing hfound

/-- A key that the second candidate holds in the first language, where the document of the first
candidate is malformed. -/
theorem hover_of_key_in_second_candidate :
    let host : Host :=
      ⟨⟨"const \x7b t \x7d = useTranslation(['more', 'common']); t($ => $.a)"⟩,
        [.call "t" ["$ => $.a"] ⟨50, 61⟩]⟩
    let tree : FileTree :=
      ⟨[(["locales"], .directory), (["locales", "de"], .directory), (["locales", "en"], .directory),
        (["locales", "de", "common.json"], .file (.text "\x7b\"a\":\"A\"\x7d") 1),
        (["locales", "de", "more.json"], .file (.text "\x7b\"a\":") 1),
        (["locales", "en", "more.json"], .file (.text "\x7b\"a\":\"A\"\x7d") 1)], []⟩
    let namespaces : Namespaces := ⟨["more", "common"], by decide⟩
    let store := (ofDirectory (some ⟨"/locales"⟩)).after tree.provider
      [.resolve "more" ⟨"a"⟩ "en", .resolve "more" ⟨"a"⟩ "de"]
    let other := (ofDirectory (some ⟨"/locales"⟩)).after tree.provider [.holders namespaces ⟨"a"⟩]
    (store.languages tree.provider).head? = some "de" ∧
      (store.holders tree.provider namespaces ⟨"a"⟩).value = ["common"] ∧
      (other.resolveFirst tree.provider namespaces ⟨"a"⟩ "de").value.matchedNamespace =
        some "common" ∧
      ∃ doc entry, (store.hover tree.provider Config.default host 60).value = some doc ∧
        doc.entries.head? = some entry ∧ entry.language = "de" ∧ doc.candidates = namespaces ∧
        ∃ name, entry.resolved.matchedNamespace = some name ∧ doc.namespaces.head? = some name := by
  intro host tree namespaces store other
  have hfaithful := FileTree.stampFaithful_provider tree
  have hmoment : tree.provider ∈ [tree.provider] := List.mem_singleton_self _
  have hstore : store.Serves (some ⟨"/locales"⟩) [tree.provider] :=
    serves_after_tree tree _ _
  have hother : other.Serves (some ⟨"/locales"⟩) [tree.provider] :=
    serves_after_tree tree _ _
  have hlanguages : store.languages tree.provider = ["de", "en"] := by
    have hresolve : tree.resolve ⟨"/locales"⟩ = .ok (["locales"], .directory) :=
      FileTree.resolve_of_descend? (show FileTree.pathOf ["locales"] = _ by decide) (by decide)
        (by decide) rfl
    have hsorted : ["de", "en"].mergeSort (· ≤ ·) = ["de", "en"] :=
      List.mergeSort_of_pairwise (by decide)
    have hchildren : tree.children ["locales"] = ["de", "en"] := by
      simpa [FileTree.children, tree] using hsorted
    rw [hstore.languages_eq]
    exact languages_of_resolve hresolve (by rw [hchildren]; decide) (by decide)
  have hcommon : tree.provider.meaning? (some ⟨"/locales"⟩) ⟨"a"⟩ "de" "common" = some "A" := by
    rw [FileTree.meaning?_of_resolve (show _ = some ⟨"/locales/de/common.json"⟩ by decide)
      (FileTree.resolve_of_descend? (show FileTree.pathOf ["locales", "de", "common.json"] = _ by
        decide) (by decide) (by decide) rfl)]
    decide +kernel
  have hmore : tree.provider.meaning? (some ⟨"/locales"⟩) ⟨"a"⟩ "de" "more" = none := by
    rw [FileTree.meaning?_of_resolve (show _ = some ⟨"/locales/de/more.json"⟩ by decide)
      (FileTree.resolve_of_descend? (show FileTree.pathOf ["locales", "de", "more.json"] = _ by
        decide) (by decide) (by decide) rfl)]
    decide +kernel
  have hresolve : ∀ name, (other.resolve tree.provider name ⟨"a"⟩ "de").value =
      tree.provider.meaning? (some ⟨"/locales"⟩) ⟨"a"⟩ "de" name :=
    fun name => (hother.resolve hfaithful hmoment name ⟨"a"⟩ "de").value_eq
  have hcall : (host.infoAt? 60 "common" .lenient).map (fun info => (info.key, info.namespaces)) =
      some (⟨"a"⟩, namespaces) := by
    decide +kernel
  obtain ⟨info, hinfo, hpair⟩ := Option.map_eq_some_iff.mp hcall
  obtain ⟨hkey, hnames⟩ := Prod.mk.inj hpair
  obtain ⟨hlisting, hhover⟩ := holders_agree_with_resolve tree (some ⟨"/locales"⟩)
    [.resolve "more" ⟨"a"⟩ "en", .resolve "more" ⟨"a"⟩ "de"] [.holders namespaces ⟨"a"⟩]
  have hfirst : (store.languages tree.provider).head? = some "de" := by
    rw [hlanguages, List.head?_cons]
  obtain ⟨hlisted, hmatched⟩ := hlisting namespaces ⟨"a"⟩ "de" hfirst
  have hholders : (store.holders tree.provider namespaces ⟨"a"⟩).value = ["common"] := by
    refine hlisted.trans ?_
    change ["more", "common"].filter (fun name =>
      (other.resolve tree.provider name ⟨"a"⟩ "de").value.isSome) = ["common"]
    simp only [hresolve, List.filter_cons, List.filter_nil, hmore, hcommon, Option.isSome_none,
      Option.isSome_some, Bool.false_eq_true, if_false, if_true]
  refine ⟨hfirst, hholders, hmatched.trans (congrArg List.head? hholders), ?_⟩
  obtain ⟨doc, hdoc, hdocKey, hcandidates⟩ :
      ∃ doc, (store.hover tree.provider Config.default host 60).value = some doc ∧
        doc.key = ⟨"a"⟩ ∧ doc.candidates = namespaces := by
    refine ⟨tree.provider.hoverOf (some ⟨"/locales"⟩) ["de", "en"] info, ?_, hkey, hnames⟩
    rw [hstore.languages_eq] at hlanguages
    rw [(hstore.hover hfaithful hmoment Config.default host 60).value_eq,
      show host.infoAt? 60 Config.default.defaultNamespace .lenient = some info from hinfo,
      Option.bind_some, hlanguages, if_neg (List.cons_ne_nil _ _)]
  obtain ⟨language, entry, hlanguage, hentry, hentryLanguage, hmissing, -, hfound⟩ :=
    hhover Config.default host 60 doc hdoc
  obtain rfl : "de" = language := Option.some_inj.mp (hfirst.symm.trans hlanguage)
  refine ⟨doc, entry, hdoc, hentry, hentryLanguage, hcandidates, hfound fun hresolved => ?_⟩
  have hnone := hmissing.mp hresolved "common" (by rw [hcandidates]; decide)
  rw [hdocKey, hresolve, hcommon] at hnone
  cases hnone

end Store

end KeyLens
