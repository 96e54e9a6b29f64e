import KeyLens.Proofs.Store.Lookups
import Mathlib.Data.List.Induction

/-!
# The first namespace that holds a key

A key is looked for in one namespace after the other up to the first one that holds it. The answer
is that of the first non-empty name among the names from which the candidates were made, although
repetitions are left out of these; and nothing is asked about the candidates behind the match. What
is asked about those before it depends on what is kept by then, which changes during the search:
different names may lead to one file.
-/

namespace KeyLens

variable {names : List String}

/-- The distinct names hold the first result of the non-empty names. -/
theorem findSome?_distinctNames {β : Type} (form : String → Option β) (names : List String) :
    (distinctNames names).findSome? form = (names.filter (· ≠ "")).findSome? form := by
  induction names using List.reverseRecOn with
  | nil => rfl
  | append_singleton names name ih =>
    rw [distinctNames_concat, List.filter_append, List.findSome?_append, ← ih]
    by_cases hempty : name = ""
    · simp [hempty]
    · rw [List.filter_cons_of_pos (by simpa using hempty), List.filter_nil]
      by_cases hmem : name ∈ names
      · -- A repetition has no result where the name has had none before.
        rw [if_pos (Or.inr hmem)]
        cases hfirst : (distinctNames names).findSome? form with
        | some result => rfl
        | none =>
          have hnone := List.findSome?_eq_none_iff.mp hfirst name
            (mem_distinctNames.mpr ⟨hmem, hempty⟩)
          rw [List.findSome?_singleton, hnone, Option.or_none]
      · rw [if_neg (not_or.mpr ⟨hempty, hmem⟩), List.findSome?_append]

namespace Provider

variable {provider : Provider} {localesDir : Option Path} {key : Key} {language : String}

/-- The first meaning is that of the first name that has one. -/
theorem firstMeaning_eq_findSome? (provider : Provider) (localesDir : Option Path) (key : Key)
    (language : String) (names : List String) :
    provider.firstMeaning localesDir key language names =
      (names.findSome? fun name =>
        (provider.meaning? localesDir key language name).map (Resolved.found name)).getD
          .missing := by
  induction names with
  | nil => rfl
  | cons name rest ih =>
    rw [firstMeaning, List.findSome?_cons]
    cases provider.meaning? localesDir key language name with
    | some value => rfl
    | none => exact ih

/-- The names up to the first one that holds a key, or all of them if none does. -/
def upToMatch (provider : Provider) (localesDir : Option Path) (key : Key) (language : String)
    (names : List String) : List String :=
  names.take (names.findIdx (fun name =>
    (provider.meaning? localesDir key language name).isSome) + 1)

/-- If the first name holds a key, no other one is needed. -/
theorem upToMatch_cons_of_some {name value : String} (rest : List String)
    (h : provider.meaning? localesDir key language name = some value) :
    provider.upToMatch localesDir key language (name :: rest) = [name] := by
  simp [upToMatch, List.findIdx_cons, h]

/-- If the first name does not hold a key, the others have to. -/
theorem upToMatch_cons_of_none {name : String} (rest : List String)
    (h : provider.meaning? localesDir key language name = none) :
    provider.upToMatch localesDir key language (name :: rest) =
      name :: provider.upToMatch localesDir key language rest := by
  simp [upToMatch, List.findIdx_cons, h]

end Provider

namespace Task

variable {provider : Provider} {store : Store} {localesDir : Option Path} {moments : List Provider}

/-- A key is looked up in one namespace by a look-up of its document, if there is a directory. -/
theorem map_path_lookups_resolve (provider : Provider) (store : Store) (localesDir : Option Path)
    (name : String) (key : Key) (language : String) :
    ((resolve localesDir name key language).lookups provider store).map Lookup.path =
      ((Store.ofDirectory localesDir).path? language name).toList := by
  rw [resolve]
  cases (Store.ofDirectory localesDir).path? language name <;> rfl

/-- A key is looked up in the names up to the first one that holds it. -/
theorem map_path_lookups_resolveIn (h : store.Serves localesDir moments)
    (hfaithful : StampFaithful moments) (hmoment : provider ∈ moments) (key : Key)
    (language : String) (names : List String) :
    ((resolveIn localesDir key language names).lookups provider store).map Lookup.path =
      (provider.upToMatch localesDir key language names).filterMap
        ((Store.ofDirectory localesDir).path? language) := by
  induction names generalizing store with
  | nil => rfl
  | cons name rest ih =>
    have hfirst := h.resolve hfaithful hmoment name key language
    rw [← perform_resolve provider h.localesDir_eq] at hfirst
    rw [resolveIn, lookups_bind, List.map_append, map_path_lookups_resolve, hfirst.value_eq]
    cases hmeaning : provider.meaning? localesDir key language name with
    | some value =>
      rw [Provider.upToMatch_cons_of_some rest hmeaning, List.filterMap_cons, List.filterMap_nil]
      cases (Store.ofDirectory localesDir).path? language name <;> rfl
    | none =>
      rw [Provider.upToMatch_cons_of_none rest hmeaning, ih hfirst.serves, List.filterMap_cons]
      cases (Store.ofDirectory localesDir).path? language name <;> rfl

end Task

namespace Store

/-- However a store was used before on the same files, a key is found in the first non-empty of the
names from which its candidates were made that holds it, with what it holds there. One after the
other, the stamp of each candidate up to the match is taken, and its file is read exactly if it has
a stamp under which nothing is kept by then; nothing else is asked. -/
theorem resolveFirst_asks_up_to_match {provider : Provider} (hfaithful : StampFaithful [provider])
    {names : List String} {namespaces : Namespaces}
    (hnames : Namespaces.ofList? names = some namespaces) (localesDir : Option Path)
    (operations : List Operation) (key : Key) (language : String) :
    let store := (ofDirectory localesDir).after provider operations
    let outcome := store.resolveFirst provider namespaces key language
    outcome.value = ((names.filter (· ≠ "")).findSome? fun name =>
        (provider.meaning? localesDir key language name).map (Resolved.found name)).getD .missing ∧
      ∃ lookups : List Lookup,
        lookups.map Lookup.path =
          (provider.upToMatch localesDir key language namespaces.toList).filterMap
            (store.path? language) ∧
        (∀ lookup ∈ lookups, lookup.files = provider) ∧
        Lookup.Chained store.cache lookups outcome.store.cache ∧
        outcome.accesses = lookups.flatMap fun lookup =>
          .stamp lookup.path :: if lookup.misses then [.read lookup.path] else [] := by
  intro store outcome
  have hmoment : provider ∈ [provider] := List.mem_singleton_self provider
  have hserves : store.Serves localesDir [provider] :=
    (serves_ofDirectory localesDir [provider]).after hfaithful hmoment operations
  have hvalue := (hserves.resolveFirst hfaithful hmoment namespaces key language).value_eq
  have htask := Task.perform_resolveFirst provider hserves.localesDir_eq namespaces key language
  have hpaths := Task.map_path_lookups_resolveIn hserves hfaithful hmoment key language
    namespaces.toList
  refine ⟨?_, (Task.resolveFirst localesDir namespaces key language).lookups provider store,
    ?_, fun lookup => Task.files_of_mem_lookups, ?_, ?_⟩
  · rw [hvalue, Provider.firstMeaning_eq_findSome?, Namespaces.toList_of_ofList? hnames,
      findSome?_distinctNames]
  · have hpath : store.path? language = (ofDirectory localesDir).path? language :=
      funext fun name => hserves.path?_eq language name
    rw [Task.resolveFirst, hpaths, hpath]
  · have hchained := Task.chained_lookups provider
      (Task.resolveFirst localesDir namespaces key language) store
    rwa [htask] at hchained
  · simp only [← Lookup.accesses_eq]
    rw [← Task.accesses_perform, htask]

/-- A key that no candidate holds is looked for in one file by two names, and the file is read once;
a key that the first of these names holds is not looked for in the names behind it. -/
theorem accesses_of_two_names_for_one_file :
    let path : String → Path := fun file => ⟨"/locales/en/" ++ file⟩
    let files := filesWith (path "common.json") (some (⟨1, 9⟩, [("a", .string "A")]))
    let names := ["", "x", "./common", "x", "common", "y"]
    let namespaces : Namespaces := ⟨["x", "./common", "common", "y"], by decide⟩
    let store := (ofDirectory (some ⟨"/locales"⟩)).after files
      [.resolve "common" ⟨"a"⟩ "en", .clear, .resolve "x" ⟨"a"⟩ "en"]
    let missed := store.resolveFirst files namespaces ⟨"b"⟩ "en"
    let found := store.resolveFirst files namespaces ⟨"a"⟩ "en"
    StampFaithful [files] ∧ Namespaces.ofList? names = some namespaces ∧
      missed.value = .missing ∧
      missed.accesses =
        [.stamp (path "x.json"), .stamp (path "./common.json"), .read (path "./common.json"),
          .stamp (path "common.json"), .stamp (path "y.json")] ∧
      found.value = .found "./common" "A" ∧
      ∃ lookups : List Lookup,
        lookups.map Lookup.path = [path "x.json", path "./common.json"] ∧
        Lookup.Chained store.cache lookups found.store.cache ∧
        found.accesses = lookups.flatMap fun lookup =>
          .stamp lookup.path :: if lookup.misses then [.read lookup.path] else [] := by
  intro path files names namespaces store missed found
  have hfaithful : StampFaithful [files] :=
    @stampFaithful_filesWith (path "common.json") [some (⟨1, 9⟩, [("a", .string "A")])] (by simp)
  have hnames : Namespaces.ofList? names = some namespaces := rfl
  obtain ⟨hvalue, lookups, hpaths, -, hchained, haccesses⟩ :=
    resolveFirst_asks_up_to_match hfaithful hnames (some ⟨"/locales"⟩)
      [.resolve "common" ⟨"a"⟩ "en", .clear, .resolve "x" ⟨"a"⟩ "en"] ⟨"a"⟩ "en"
  refine ⟨hfaithful, hnames, by decide +kernel, by decide +kernel, ?_,
    lookups, ?_, hchained, haccesses⟩
  · exact hvalue.trans (by decide +kernel)
  · exact hpaths.trans (by decide +kernel)

end Store

end KeyLens
