import KeyLens.Json.Lookup
import KeyLens.Namespaces
import KeyLens.Store.Cache

/-!
# The translation store

Translations stand in `<locales>/<language>/<namespace>.json`. A key is looked for in one namespace
after the other, and the first document that holds it counts; a document that is missing or
malformed holds nothing.
-/

namespace KeyLens

/-- The translations below a directory, with the documents that have been read. -/
structure Store where
  /-- The directory of the translations; none if the project has none. -/
  localesDir : Option Path
  /-- The documents that are kept. -/
  cache : Cache

/-- What a store operation gives, leaves and asks. -/
structure Outcome (α : Type) where
  /-- The answer. -/
  value : α
  /-- The store after the operation. -/
  store : Store
  /-- What was asked of the provider, in order. -/
  accesses : List Access

/-- A translation that was found, or nothing. -/
structure Resolved where
  /-- The namespace that holds the key. -/
  matchedNamespace : Option String
  /-- What it holds there. -/
  value : Option String
  deriving Repr, DecidableEq

namespace Resolved

/-- The value that a namespace holds. -/
def found (matched value : String) : Resolved := ⟨some matched, some value⟩

/-- No translation. -/
def missing : Resolved := ⟨none, none⟩

/-- Whether there is a translation. -/
def isFound (resolved : Resolved) : Bool := resolved.value.isSome

end Resolved

namespace Store

/-- The store of a directory before anything has been read. -/
def ofDirectory (localesDir : Option Path) : Store := ⟨localesDir, Cache.empty⟩

/-- The file of a namespace in a language. -/
def path? (store : Store) (language name : String) : Option Path :=
  store.localesDir.map fun dir => (dir.join language).join (name ++ ".json")

/-- Looks a key up in one namespace. -/
def resolve (provider : Provider) (store : Store) (name : String) (key : Key) (language : String) :
    Outcome (Option String) :=
  match store.path? language name with
  | none => ⟨none, store, []⟩
  | some path =>
    let loaded := store.cache.load provider path
    ⟨(loaded.document?.bind (Json.lookup? · key)).map Json.display,
      { store with cache := loaded.cache }, loaded.accesses⟩

/-- Looks a key up in one namespace after the other until one holds it. -/
def resolveIn (provider : Provider) (store : Store) (key : Key) (language : String) :
    List String → Outcome Resolved
  | [] => ⟨.missing, store, []⟩
  | name :: rest =>
    let first := store.resolve provider name key language
    match first.value with
    | some value => ⟨.found name value, first.store, first.accesses⟩
    | none =>
      let others := resolveIn provider first.store key language rest
      { others with accesses := first.accesses ++ others.accesses }

/-- Looks a key up in its candidate namespaces. -/
def resolveFirst (provider : Provider) (store : Store) (namespaces : Namespaces) (key : Key)
    (language : String) : Outcome Resolved :=
  store.resolveIn provider key language namespaces.toList

/-- Looks a key up in its candidate namespaces, in one language after the other. -/
def resolveEach (provider : Provider) (store : Store) (namespaces : Namespaces) (key : Key) :
    List String → Outcome (List (String × Resolved))
  | [] => ⟨[], store, []⟩
  | language :: rest =>
    let first := store.resolveFirst provider namespaces key language
    let others := resolveEach provider first.store namespaces key rest
    ⟨(language, first.value) :: others.value, others.store, first.accesses ++ others.accesses⟩

/-- The languages that have a directory, in order. -/
def languages (provider : Provider) (store : Store) : List String :=
  ((store.localesDir.bind provider.directories?).getD []).mergeSort (· ≤ ·)

/-- Those of the namespaces that hold a key in one language. -/
def holdersIn (provider : Provider) (store : Store) (key : Key) (language : String) :
    List String → Outcome (List String)
  | [] => ⟨[], store, []⟩
  | name :: rest =>
    let first := store.resolve provider name key language
    let others := holdersIn provider first.store key language rest
    { others with
      value := if first.value.isSome then name :: others.value else others.value
      accesses := first.accesses ++ others.accesses }

/-- Those of the candidates that hold a key in the first language. -/
def holders (provider : Provider) (store : Store) (namespaces : Namespaces) (key : Key) :
    Outcome (List String) :=
  match store.languages provider with
  | [] => ⟨[], store, []⟩
  | language :: _ => store.holdersIn provider key language namespaces.toList

/-- The store that keeps no document. -/
def clear (store : Store) : Store := { store with cache := Cache.empty }

end Store

end KeyLens
