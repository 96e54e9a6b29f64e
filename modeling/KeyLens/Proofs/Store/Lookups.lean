import KeyLens.Proofs.Store.Tasks

/-!
# Look-ups one after the other

What an operation does to the cache of its store is a row of look-ups, each of them on what the one
before keeps. This file tells what a look-up asks of the files and what it keeps, and which look-ups
a task makes.
-/

namespace KeyLens

/-- A look-up of a document. -/
structure Lookup where
  /-- The files at that moment. -/
  files : Provider
  /-- What is kept before it. -/
  cache : Cache
  /-- The path whose document is looked up. -/
  path : Path

namespace Lookup

/-- What a look-up gives, keeps and asks. -/
def loaded (lookup : Lookup) : Cache.Loaded :=
  lookup.cache.load lookup.files lookup.path

/-- The stamp that is reported to a look-up. -/
def stamp? (lookup : Lookup) : Option Stamp :=
  lookup.files.stamp? lookup.path

/-- The document that a look-up gives. -/
def document? (lookup : Lookup) : Option Document :=
  lookup.loaded.document?

/-- What stays kept for the path of a look-up: the document that it gives, under the stamp that is
reported to it. -/
def kept? (lookup : Lookup) : Option CachedDocument :=
  lookup.stamp?.bind fun stamp => lookup.document?.map fun document => ⟨stamp, document⟩

/-- Whether a stamp is reported to a look-up under which nothing is kept. -/
def misses (lookup : Lookup) : Bool :=
  lookup.stamp?.any fun stamp =>
    (lookup.cache.find? lookup.path).all fun cached => cached.stamp != stamp

/-- The ways in which a look-up ends. -/
inductive Exits (lookup : Lookup) : Cache.Loaded → Prop where
  /-- The path leads to no file. -/
  | absent (hstamp : lookup.stamp? = none) :
      Exits lookup ⟨none, lookup.cache.erase lookup.path, [.stamp lookup.path]⟩
  /-- A document is kept under the stamp of the file. -/
  | kept {cached : CachedDocument} (hstamp : lookup.stamp? = some cached.stamp)
      (hkept : lookup.cache.find? lookup.path = some cached) :
      Exits lookup ⟨some cached.document, lookup.cache, [.stamp lookup.path]⟩
  /-- The file is read. -/
  | read {stamp : Stamp} {document : Document} (hstamp : lookup.stamp? = some stamp)
      (hmisses : lookup.misses = true) (hread : lookup.files.read lookup.path = .ok document) :
      Exits lookup ⟨some document, lookup.cache.insert lookup.path ⟨stamp, document⟩,
        [.stamp lookup.path, .read lookup.path]⟩
  /-- The file cannot be read. -/
  | unreadable {failure : DocumentError} (hmisses : lookup.misses = true)
      (hread : lookup.files.read lookup.path = .error failure) :
      Exits lookup ⟨none, lookup.cache.erase lookup.path,
        [.stamp lookup.path, .read lookup.path]⟩

variable {lookup : Lookup}

/-- A look-up misses if a stamp is reported to it and whatever is kept has another one. -/
theorem misses_eq_true_iff :
    lookup.misses = true ↔ ∃ stamp, lookup.stamp? = some stamp ∧
      ∀ cached, lookup.cache.find? lookup.path = some cached → cached.stamp ≠ stamp := by
  simp only [misses, Option.any_eq_true, Option.all_eq_true, bne_iff_ne]

/-- A look-up ends in one of these ways. -/
theorem exits (lookup : Lookup) : lookup.Exits lookup.loaded := by
  unfold loaded Cache.load
  cases hstamp : lookup.files.stamp? lookup.path with
  | none => exact .absent hstamp
  | some stamp =>
    simp only [Cache.loadStamped]
    cases hhit : (lookup.cache.find? lookup.path).filter fun cached => cached.stamp == stamp with
    | some cached =>
      obtain ⟨hkept, hsame⟩ := Option.filter_eq_some_iff.mp hhit
      exact .kept (by rw [stamp?, hstamp, eq_of_beq hsame]) hkept
    | none =>
      have hmisses : lookup.misses = true := by
        refine misses_eq_true_iff.mpr ⟨stamp, hstamp, fun cached hkept hsame => ?_⟩
        simp [hkept, hsame] at hhit
      cases hread : lookup.files.read lookup.path with
      | ok document => exact .read hstamp hmisses hread
      | error failure => exact .unreadable hmisses hread

/-- A document is given together with a stamp. -/
theorem kept?_eq_some_iff {cached : CachedDocument} :
    lookup.kept? = some cached ↔
      lookup.stamp? = some cached.stamp ∧ lookup.document? = some cached.document := by
  simp only [kept?, Option.bind_eq_some_iff, Option.map_eq_some_iff]
  constructor
  · rintro ⟨stamp, hstamp, document, hdocument, rfl⟩
    exact ⟨hstamp, hdocument⟩
  · rintro ⟨hstamp, hdocument⟩
    exact ⟨cached.stamp, hstamp, cached.document, hdocument, rfl⟩

/-- A look-up takes the stamp of its file and reads the file exactly if it misses. -/
theorem accesses_eq (lookup : Lookup) :
    lookup.loaded.accesses =
      .stamp lookup.path :: if lookup.misses then [.read lookup.path] else [] := by
  have hexits := lookup.exits
  generalize lookup.loaded = loaded at hexits
  cases hexits with
  | absent hstamp => simp [misses, hstamp]
  | kept hstamp hkept => simp [misses, hstamp, hkept]
  | read hstamp hmisses hread => rw [hmisses, if_pos rfl]
  | unreadable hmisses hread => rw [hmisses, if_pos rfl]

/-- A look-up keeps its document for its path, and leaves what is kept for other paths. -/
theorem find?_loaded (lookup : Lookup) (other : Path) :
    lookup.loaded.cache.find? other =
      if other.components = lookup.path.components then lookup.kept?
      else lookup.cache.find? other := by
  have hexits := lookup.exits
  simp only [kept?, document?]
  generalize lookup.loaded = loaded at hexits
  cases hexits with
  | absent hstamp => simp [Cache.find?_erase, hstamp]
  | @kept cached hstamp hkept =>
    have hsame : other.components = lookup.path.components →
        lookup.cache.find? other = some cached := by
      intro hsteps
      rw [← hkept, Cache.find?, Cache.find?, hsteps]
    simp +contextual [hstamp, hsame]
  | read hstamp hmisses hread => simp [Cache.find?_insert, hstamp]
  | unreadable hmisses hread => simp [Cache.find?_erase]

/-- A look-up gives a document only if a stamp is reported to it. -/
theorem exists_stamp?_of_document? {document : Document} (h : lookup.document? = some document) :
    ∃ stamp, lookup.stamp? = some stamp := by
  have hexits := lookup.exits
  simp only [document?] at h
  generalize lookup.loaded = loaded at hexits h
  cases hexits with
  | absent _ | unreadable _ _ => cases h
  | kept hstamp _ => exact ⟨_, hstamp⟩
  | read hstamp _ _ => exact ⟨_, hstamp⟩

/-- A look-up of a readable file gives a document if a stamp is reported to it. -/
theorem isSome_document?_of_readable {stamp : Stamp} (hstamp : lookup.stamp? = some stamp)
    (hreadable : (lookup.files.read lookup.path).isOk = true) : lookup.document?.isSome = true := by
  have hexits := lookup.exits
  simp only [document?]
  generalize lookup.loaded = loaded at hexits
  cases hexits with
  | absent hstamp' => rw [hstamp] at hstamp'; cases hstamp'
  | kept _ _ | read _ _ _ => rfl
  | unreadable _ hread => rw [hread] at hreadable; cases hreadable

/-- A look-up that has to read a file that cannot be read gives no document. -/
theorem document?_eq_none_of_unreadable (hmisses : lookup.misses = true)
    (hunreadable : (lookup.files.read lookup.path).isOk = false) : lookup.document? = none := by
  have hexits := lookup.exits
  simp only [document?]
  generalize lookup.loaded = loaded at hexits
  cases hexits with
  | absent _ | unreadable _ _ => rfl
  | kept hstamp hkept => simp [misses, hstamp, hkept] at hmisses
  | read _ _ hread => rw [hread] at hunreadable; cases hunreadable

/-! ### Rows of look-ups -/

/-- Each look-up of a row is made on what the one before keeps, from a first cache to a last one. -/
inductive Chained : Cache → List Lookup → Cache → Prop where
  /-- No look-up leaves a cache as it is. -/
  | nil (cache : Cache) : Chained cache [] cache
  /-- A look-up, and those on what it keeps. -/
  | cons {lookup : Lookup} {rest : List Lookup} {last : Cache}
      (hrest : Chained lookup.loaded.cache rest last) : Chained lookup.cache (lookup :: rest) last

variable {lookups others : List Lookup} {first middle last : Cache}

/-- Two rows follow one another. -/
theorem Chained.append (h : Chained first lookups middle) (hothers : Chained middle others last) :
    Chained first (lookups ++ others) last := by
  induction h with
  | nil cache => exact hothers
  | cons _ ih => exact .cons (ih hothers)

/-- A row that ends with another one is made of both. -/
theorem Chained.of_append (h : Chained first (lookups ++ others) last) :
    ∃ middle, Chained first lookups middle ∧ Chained middle others last := by
  induction lookups generalizing first with
  | nil => exact ⟨first, .nil first, h⟩
  | cons lookup rest ih =>
    cases h with
    | cons hrest =>
      obtain ⟨middle, hlookups, hothers⟩ := ih hrest
      exact ⟨middle, .cons hlookups, hothers⟩

end Lookup

/-! ### Look-ups of tasks -/

namespace Task

variable {α β : Type} {provider : Provider} {store : Store}

/-- The look-ups of a task that is performed on a store without interruption. -/
def lookups (provider : Provider) : Task α → Store → List Lookup
  | .done _, _ => []
  | .load path next, store =>
    let lookup : Lookup := ⟨provider, store.cache, path⟩
    lookup :: (next lookup.document?).lookups provider { store with cache := lookup.loaded.cache }

/-- The look-ups of a task lead from the cache of the store to what it keeps after the task. -/
theorem chained_lookups (provider : Provider) (task : Task α) (store : Store) :
    Lookup.Chained store.cache (task.lookups provider store)
      (task.perform provider store).store.cache := by
  induction task generalizing store with
  | done result => exact .nil store.cache
  | load path next ih =>
    let lookup : Lookup := ⟨provider, store.cache, path⟩
    exact @Lookup.Chained.cons lookup _ _
      (ih lookup.document? { store with cache := lookup.loaded.cache })

/-- A task asks what its look-ups ask. -/
theorem accesses_perform (provider : Provider) (task : Task α) (store : Store) :
    (task.perform provider store).accesses =
      (task.lookups provider store).flatMap fun lookup => lookup.loaded.accesses := by
  induction task generalizing store with
  | done result => rfl
  | load path next ih =>
    rw [lookups, List.flatMap_cons, ← ih]
    rfl

/-- The look-ups of a task are made on the files for which it is performed. -/
theorem files_of_mem_lookups {task : Task α} {lookup : Lookup}
    (h : lookup ∈ task.lookups provider store) : lookup.files = provider := by
  induction task generalizing store with
  | done result => cases h
  | load path next ih =>
    rcases List.mem_cons.mp h with rfl | hrest
    · rfl
    · exact ih _ hrest

/-- The look-ups of a task and then another one are those of both. -/
theorem lookups_bind (provider : Provider) (task : Task α) (next : α → Task β) (store : Store) :
    (task.bind next).lookups provider store =
      task.lookups provider store ++
        (next (task.perform provider store).value).lookups provider
          (task.perform provider store).store := by
  induction task generalizing store with
  | done result => rfl
  | load path rest ih =>
    simp only [bind, lookups, ih, List.cons_append]
    rfl

end Task

/-! ### Look-ups of operations -/

namespace Store

/-- An operation as a task; to forget all documents needs no look-up. -/
def Operation.task (localesDir : Option Path) (provider : Provider) : Operation → Task Answer
  | .resolve name key language => (Task.resolve localesDir name key language).map .value
  | .resolveFirst namespaces key language =>
    (Task.resolveFirst localesDir namespaces key language).map .resolved
  | .languages => .done (.names ((ofDirectory localesDir).languages provider))
  | .holders namespaces key =>
    match (ofDirectory localesDir).languages provider with
    | [] => .done (.names [])
    | language :: _ => (Task.holdersIn localesDir key language namespaces.toList).map .names
  | .clear => .done .done

/-- The look-ups of an operation on a store. -/
def Operation.lookups (provider : Provider) (store : Store) (operation : Operation) : List Lookup :=
  (operation.task store.localesDir provider).lookups provider store

/-- An operation other than to forget all documents is performed by its task. -/
theorem perform_task (provider : Provider) (store : Store) {operation : Operation}
    (h : operation ≠ .clear) :
    (operation.task store.localesDir provider).perform provider store =
      store.perform provider operation := by
  cases operation with
  | resolve name key language =>
    rw [Operation.task, Task.perform_map, Task.perform_resolve provider rfl, perform]
  | resolveFirst namespaces key language =>
    rw [Operation.task, Task.perform_map, Task.perform_resolveFirst provider rfl, perform]
  | languages => rfl
  | holders namespaces key =>
    have hlanguages : (ofDirectory store.localesDir).languages provider =
        store.languages provider := rfl
    simp only [Operation.task, perform, holders, hlanguages]
    cases store.languages provider with
    | nil => rfl
    | cons language rest => rw [Task.perform_map, Task.perform_holdersIn provider rfl]
  | clear => exact absurd rfl h

end Store

end KeyLens
