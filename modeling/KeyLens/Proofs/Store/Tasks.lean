import KeyLens.Proofs.Store.Transparency

/-!
# Tasks

What a store does for one key is a program that looks documents up, one after the other: which one
comes next depends on what the ones before gave. As a task such a program stands apart from the
store on which it is performed, so that it can be interrupted between its look-ups. Performed on a
store without interruption, each task is the operation of the store.
-/

namespace KeyLens

/-- A program that looks documents up. -/
inductive Task (α : Type) where
  /-- It has ended with a result. -/
  | done (result : α)
  /-- It looks the document of a path up and goes on with what it finds. -/
  | load (path : Path) (next : Option Document → Task α)

namespace Task

variable {α β : Type} {provider : Provider} {store : Store}

/-- A task and then another one that depends on its result. -/
def bind : Task α → (α → Task β) → Task β
  | .done result, next => next result
  | .load path rest, next => .load path fun found => (rest found).bind next

/-- A task with another form of its result. -/
def map (form : α → β) (task : Task α) : Task β :=
  task.bind fun result => .done (form result)

/-- Performs a task on a store without interruption. -/
def perform (provider : Provider) : Task α → Store → Outcome α
  | .done result, store => ⟨result, store, []⟩
  | .load path next, store =>
    let loaded := store.cache.load provider path
    let rest := (next loaded.document?).perform provider { store with cache := loaded.cache }
    { rest with accesses := loaded.accesses ++ rest.accesses }

/-- What a task ends with if all its look-ups find what the files hold. -/
def value (provider : Provider) : Task α → α
  | .done result => result
  | .load path next => (next (provider.document? path)).value provider

/-- The number of look-ups of a task that finds what the files hold. -/
def loads (provider : Provider) : Task α → Nat
  | .done _ => 0
  | .load path next => (next (provider.document? path)).loads provider + 1

/-- A store looks into the same directory after a task. -/
@[simp]
theorem localesDir_perform (provider : Provider) (task : Task α) (store : Store) :
    (task.perform provider store).store.localesDir = store.localesDir := by
  induction task generalizing store with
  | done result => rfl
  | load path next ih => exact ih _ _

/-- An outcome of a task leaves the directory of the store as it is. -/
theorem localesDir_of_perform {task : Task α} {outcome : Outcome α} {localesDir : Option Path}
    (h : task.perform provider store = outcome) (hdir : store.localesDir = localesDir) :
    outcome.store.localesDir = localesDir := by
  rw [← h, localesDir_perform, hdir]

/-- A task and then another one are performed on one store after the other. -/
theorem perform_bind (provider : Provider) (task : Task α) (next : α → Task β) (store : Store) :
    (task.bind next).perform provider store =
      let first := task.perform provider store
      let rest := (next first.value).perform provider first.store
      { rest with accesses := first.accesses ++ rest.accesses } := by
  induction task generalizing store with
  | done result => rfl
  | load path rest ih =>
    simp only [bind, perform, ih, List.append_assoc]

/-- The form of a result leaves the store and what is asked as they are. -/
theorem perform_map (provider : Provider) (form : α → β) (task : Task α) (store : Store) :
    (task.map form).perform provider store = (task.perform provider store).map form := by
  rw [map, perform_bind]
  simp only [perform, List.append_nil]
  rfl

/-- On a store whose documents were read from the same files, a task ends with what the files
hold, and leaves such a store. -/
theorem gives_perform {localesDir : Option Path} {moments : List Provider}
    (hfaithful : StampFaithful moments) (hmoment : provider ∈ moments) (task : Task α)
    (hserves : store.Serves localesDir moments) :
    (task.perform provider store).Gives (task.value provider) localesDir moments := by
  induction task generalizing store with
  | done result => exact ⟨rfl, hserves⟩
  | load path next ih =>
    obtain ⟨hdocument, hread⟩ := Cache.load_spec hserves.readDuring hfaithful hmoment path
    have hafter : Store.Serves { store with cache := (store.cache.load provider path).cache }
        localesDir moments := ⟨hserves.localesDir_eq, hread⟩
    have hrest := ih (store.cache.load provider path).document? hafter
    rw [value, ← hdocument]
    exact ⟨hrest.value_eq, hrest.serves⟩

end Task

/-! ### Operations of a store -/

namespace Task

variable {store : Store} {localesDir : Option Path}

/-- Looks a key up in one namespace. -/
def resolve (localesDir : Option Path) (name : String) (key : Key) (language : String) :
    Task (Option String) :=
  match (Store.ofDirectory localesDir).path? language name with
  | none => .done none
  | some path => .load path fun found => .done ((found.bind (Json.lookup? · key)).map Json.display)

/-- Looks a key up in one namespace after the other until one holds it. -/
def resolveIn (localesDir : Option Path) (key : Key) (language : String) :
    List String → Task Resolved
  | [] => .done .missing
  | name :: rest => (resolve localesDir name key language).bind fun
    | some value => .done (.found name value)
    | none => resolveIn localesDir key language rest

/-- Looks a key up in its candidate namespaces. -/
def resolveFirst (localesDir : Option Path) (namespaces : Namespaces) (key : Key)
    (language : String) : Task Resolved :=
  resolveIn localesDir key language namespaces.toList

/-- Looks a key up in its candidate namespaces, in one language after the other. -/
def resolveEach (localesDir : Option Path) (namespaces : Namespaces) (key : Key) :
    List String → Task (List (String × Resolved))
  | [] => .done []
  | language :: rest =>
    (resolveFirst localesDir namespaces key language).bind fun resolved =>
      (resolveEach localesDir namespaces key rest).map ((language, resolved) :: ·)

/-- Looks up which of some namespaces hold a key. -/
def holdersIn (localesDir : Option Path) (key : Key) (language : String) :
    List String → Task (List String)
  | [] => .done []
  | name :: rest => (resolve localesDir name key language).bind fun value =>
      (holdersIn localesDir key language rest).map fun others =>
        if value.isSome then name :: others else others

/-- A key is looked up in one namespace by its task. -/
theorem perform_resolve (provider : Provider) (hdir : store.localesDir = localesDir)
    (name : String) (key : Key) (language : String) :
    (resolve localesDir name key language).perform provider store =
      store.resolve provider name key language := by
  obtain ⟨dir?, cache⟩ := store
  obtain rfl : dir? = localesDir := hdir
  cases dir? with
  | none => rfl
  | some dir =>
    simp only [resolve, Store.resolve, Store.path?, Store.ofDirectory, Option.map_some, perform,
      List.append_nil]

/-- A key is looked up in one namespace after the other by its task. -/
theorem perform_resolveIn (provider : Provider) (hdir : store.localesDir = localesDir) (key : Key)
    (language : String) (names : List String) :
    (resolveIn localesDir key language names).perform provider store =
      store.resolveIn provider key language names := by
  induction names generalizing store with
  | nil => rfl
  | cons name rest ih =>
    have hfirst := perform_resolve provider hdir name key language
    have hafter := localesDir_of_perform hfirst hdir
    rw [resolveIn, perform_bind, hfirst, Store.resolveIn]
    simp only
    cases (store.resolve provider name key language).value with
    | some value => simp only [perform, List.append_nil]
    | none => simp only [ih hafter]

/-- A key is looked up in its candidates by its task. -/
theorem perform_resolveFirst (provider : Provider) (hdir : store.localesDir = localesDir)
    (namespaces : Namespaces) (key : Key) (language : String) :
    (resolveFirst localesDir namespaces key language).perform provider store =
      store.resolveFirst provider namespaces key language :=
  perform_resolveIn provider hdir key language namespaces.toList

/-- A key is looked up in one language after the other by its task. -/
theorem perform_resolveEach (provider : Provider) (hdir : store.localesDir = localesDir)
    (namespaces : Namespaces) (key : Key) (languages : List String) :
    (resolveEach localesDir namespaces key languages).perform provider store =
      store.resolveEach provider namespaces key languages := by
  induction languages generalizing store with
  | nil => rfl
  | cons language rest ih =>
    have hfirst := perform_resolveFirst provider hdir namespaces key language
    have hafter := localesDir_of_perform hfirst hdir
    rw [resolveEach, perform_bind, hfirst, Store.resolveEach]
    simp only [perform_map, ih hafter, Outcome.map]

/-- The holders of a key are looked up by their task. -/
theorem perform_holdersIn (provider : Provider) (hdir : store.localesDir = localesDir) (key : Key)
    (language : String) (names : List String) :
    (holdersIn localesDir key language names).perform provider store =
      store.holdersIn provider key language names := by
  induction names generalizing store with
  | nil => rfl
  | cons name rest ih =>
    have hfirst := perform_resolve provider hdir name key language
    have hafter := localesDir_of_perform hfirst hdir
    rw [holdersIn, perform_bind, hfirst, Store.holdersIn]
    simp only [perform_map, ih hafter, Outcome.map]

end Task

end KeyLens
