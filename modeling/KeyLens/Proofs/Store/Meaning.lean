import KeyLens.Proofs.Store.Freshness
import KeyLens.Store.Basic

/-!
# The meaning of keys

What a key means at one moment depends on the files alone. This file states that meaning without a
cache and shows that every operation of a store gives it, provided that the kept documents were
read while stamps were faithful, and that the store after the operation is again such a store.
-/

namespace KeyLens

namespace Provider

/-- What a key means in one namespace and language. -/
def meaning? (provider : Provider) (localesDir : Option Path) (key : Key) (language name : String) :
    Option String :=
  ((Store.ofDirectory localesDir).path? language name).bind fun path =>
    ((provider.document? path).bind (Json.lookup? · key)).map Json.display

/-- What a key means in the first of some namespaces that holds it. -/
def firstMeaning (provider : Provider) (localesDir : Option Path) (key : Key) (language : String) :
    List String → Resolved
  | [] => .missing
  | name :: rest =>
    match provider.meaning? localesDir key language name with
    | some value => .found name value
    | none => provider.firstMeaning localesDir key language rest

/-- Providers that find the same meanings in each namespace find the same first ones. -/
theorem firstMeaning_congr {first second : Provider} {localesDir : Option Path}
    (h : first.meaning? localesDir = second.meaning? localesDir) (key : Key) (language : String)
    (names : List String) :
    first.firstMeaning localesDir key language names =
      second.firstMeaning localesDir key language names := by
  induction names with
  | nil => rfl
  | cons name rest ih => rw [firstMeaning, firstMeaning, h, ih]

/-- The namespaces among some that hold a key in a language. -/
def holding (provider : Provider) (localesDir : Option Path) (key : Key) (language : String)
    (names : List String) : List String :=
  names.filter fun name => (provider.meaning? localesDir key language name).isSome

end Provider

/-- A store of the given directory whose documents were read at the given moments. -/
structure Store.Serves (store : Store) (localesDir : Option Path) (moments : List Provider) :
    Prop where
  /-- It looks into the directory. -/
  localesDir_eq : store.localesDir = localesDir
  /-- Its documents were read at the moments. -/
  readDuring : store.cache.ReadDuring moments

/-- An outcome with the given answer that leaves a store of the same directory whose documents
were read at the given moments. -/
structure Outcome.Gives {α : Type} (outcome : Outcome α) (value : α) (localesDir : Option Path)
    (moments : List Provider) : Prop where
  /-- The answer. -/
  value_eq : outcome.value = value
  /-- The store after the operation. -/
  serves : outcome.store.Serves localesDir moments

namespace Store

variable {store : Store} {localesDir : Option Path} {moments : List Provider} {provider : Provider}

/-- A store that has read nothing serves its directory at all moments. -/
theorem serves_ofDirectory (localesDir : Option Path) (moments : List Provider) :
    (ofDirectory localesDir).Serves localesDir moments :=
  ⟨rfl, Cache.ReadDuring.empty moments⟩

/-- Forgetting all documents leaves a store that serves its directory. -/
theorem Serves.clear (h : store.Serves localesDir moments) :
    store.clear.Serves localesDir moments :=
  ⟨h.localesDir_eq, Cache.ReadDuring.empty moments⟩

/-- A store that serves a directory finds a namespace where a new store of the directory does. -/
theorem Serves.path?_eq (h : store.Serves localesDir moments) (language name : String) :
    store.path? language name = (ofDirectory localesDir).path? language name := by
  simp only [path?, ofDirectory, h.localesDir_eq]

/-- The languages of a store are those of its directory. -/
theorem Serves.languages_eq (h : store.Serves localesDir moments) (provider : Provider) :
    store.languages provider = (ofDirectory localesDir).languages provider := by
  simp only [languages, ofDirectory, h.localesDir_eq]

/-- A key is looked up in one namespace with the meaning that it has there. -/
theorem Serves.resolve (h : store.Serves localesDir moments) (hfaithful : StampFaithful moments)
    (hmoment : provider ∈ moments) (name : String) (key : Key) (language : String) :
    (store.resolve provider name key language).Gives
      (provider.meaning? localesDir key language name) localesDir moments := by
  simp only [Store.resolve, Provider.meaning?, h.path?_eq]
  cases (ofDirectory localesDir).path? language name with
  | none => exact ⟨rfl, h⟩
  | some path =>
    obtain ⟨hdocument, hread⟩ := Cache.load_spec h.readDuring hfaithful hmoment path
    exact ⟨by simp only [Option.bind_some, hdocument], h.localesDir_eq, hread⟩

/-- Looking a key up in one namespace after the other finds its first meaning. -/
theorem Serves.resolveIn (h : store.Serves localesDir moments) (hfaithful : StampFaithful moments)
    (hmoment : provider ∈ moments) (key : Key) (language : String) (names : List String) :
    (store.resolveIn provider key language names).Gives
      (provider.firstMeaning localesDir key language names) localesDir moments := by
  induction names generalizing store with
  | nil => exact ⟨rfl, h⟩
  | cons name rest ih =>
    have hfirst := h.resolve hfaithful hmoment name key language
    simp only [Store.resolveIn, Provider.firstMeaning, hfirst.value_eq]
    cases provider.meaning? localesDir key language name with
    | some value => exact ⟨rfl, hfirst.serves⟩
    | none =>
      have hrest := ih hfirst.serves
      exact ⟨hrest.value_eq, hrest.serves⟩

/-- A key is looked up in its candidates with its first meaning among them. -/
theorem Serves.resolveFirst (h : store.Serves localesDir moments)
    (hfaithful : StampFaithful moments) (hmoment : provider ∈ moments) (namespaces : Namespaces)
    (key : Key) (language : String) :
    (store.resolveFirst provider namespaces key language).Gives
      (provider.firstMeaning localesDir key language namespaces.toList) localesDir moments :=
  h.resolveIn hfaithful hmoment key language namespaces.toList

/-- A key is looked up in several languages with its first meaning in each of them. -/
theorem Serves.resolveEach (h : store.Serves localesDir moments)
    (hfaithful : StampFaithful moments) (hmoment : provider ∈ moments) (namespaces : Namespaces)
    (key : Key) (languages : List String) :
    (store.resolveEach provider namespaces key languages).Gives
      (languages.map fun language =>
        (language, provider.firstMeaning localesDir key language namespaces.toList))
      localesDir moments := by
  induction languages generalizing store with
  | nil => exact ⟨rfl, h⟩
  | cons language rest ih =>
    have hfirst := h.resolveFirst hfaithful hmoment namespaces key language
    have hrest := ih hfirst.serves
    refine ⟨?_, hrest.serves⟩
    simp only [Store.resolveEach, List.map_cons, hfirst.value_eq, hrest.value_eq]

/-- The namespaces that hold a key in a language are found in their order. -/
theorem Serves.holdersIn (h : store.Serves localesDir moments) (hfaithful : StampFaithful moments)
    (hmoment : provider ∈ moments) (key : Key) (language : String) (names : List String) :
    (store.holdersIn provider key language names).Gives
      (provider.holding localesDir key language names) localesDir moments := by
  induction names generalizing store with
  | nil => exact ⟨rfl, h⟩
  | cons name rest ih =>
    have hfirst := h.resolve hfaithful hmoment name key language
    have hrest := ih hfirst.serves
    refine ⟨?_, hrest.serves⟩
    simp only [Store.holdersIn, Provider.holding, hfirst.value_eq, hrest.value_eq,
      List.filter_cons]

/-- The candidates that hold a key are those that hold it in the first language. -/
theorem Serves.holders (h : store.Serves localesDir moments) (hfaithful : StampFaithful moments)
    (hmoment : provider ∈ moments) (namespaces : Namespaces) (key : Key) :
    (store.holders provider namespaces key).Gives
      ((((ofDirectory localesDir).languages provider).head?.map fun language =>
        provider.holding localesDir key language namespaces.toList).getD [])
      localesDir moments := by
  simp only [Store.holders, h.languages_eq]
  cases (ofDirectory localesDir).languages provider with
  | nil => exact ⟨rfl, h⟩
  | cons language rest => exact h.holdersIn hfaithful hmoment key language namespaces.toList

end Store

end KeyLens
