import KeyLens.Proofs.Store.Meaning

/-!
# The cache does not show

Files change between the operations of a store, in any order and in any way. As long as stamps are
faithful over the whole run, each operation answers as a store that has read nothing would answer
at that moment.
-/

namespace KeyLens

/-- An outcome with another form of its answer. -/
def Outcome.map {α β : Type} (form : α → β) (outcome : Outcome α) : Outcome β :=
  ⟨form outcome.value, outcome.store, outcome.accesses⟩

/-- The form of an answer leaves the store as it is. -/
theorem Outcome.Gives.map {α β : Type} {outcome : Outcome α} {value : α}
    {localesDir : Option Path} {moments : List Provider}
    (h : outcome.Gives value localesDir moments) (form : α → β) :
    (outcome.map form).Gives (form value) localesDir moments :=
  ⟨congrArg form h.value_eq, h.serves⟩

namespace Store

/-- What can be asked of a store. -/
inductive Operation where
  /-- A key in one namespace and language. -/
  | resolve (name : String) (key : Key) (language : String)
  /-- A key in its candidate namespaces. -/
  | resolveFirst (namespaces : Namespaces) (key : Key) (language : String)
  /-- The languages. -/
  | languages
  /-- The candidates that hold a key. -/
  | holders (namespaces : Namespaces) (key : Key)
  /-- To forget all documents. -/
  | clear

/-- What a store answers. -/
inductive Answer where
  /-- The value in one namespace. -/
  | value (found : Option String)
  /-- The value in the first namespace that holds the key. -/
  | resolved (found : Resolved)
  /-- Names of languages or of namespaces. -/
  | names (found : List String)
  /-- Nothing. -/
  | done
  deriving Repr, DecidableEq

/-- Performs an operation. -/
def perform (provider : Provider) (store : Store) : Operation → Outcome Answer
  | .resolve name key language =>
    (store.resolve provider name key language).map .value
  | .resolveFirst namespaces key language =>
    (store.resolveFirst provider namespaces key language).map .resolved
  | .languages => ⟨.names (store.languages provider), store, []⟩
  | .holders namespaces key => (store.holders provider namespaces key).map .names
  | .clear => ⟨.done, store.clear, []⟩

/-- What happens in a run. -/
inductive Event where
  /-- Files are written, replaced or deleted, and answer as `next` from then on. -/
  | change (next : Provider)
  /-- The store performs an operation. -/
  | operation (operation : Operation)

/-- The files after a change. -/
def Event.next? : Event → Option Provider
  | .change next => some next
  | .operation _ => none

/-- The answers of a store in a run that starts with the files of `provider`. -/
def answers (provider : Provider) (store : Store) : List Event → List Answer
  | [] => []
  | .change next :: rest => answers next store rest
  | .operation operation :: rest =>
    let outcome := store.perform provider operation
    outcome.value :: answers provider outcome.store rest

/-- The answers in a run if a new store performs each of the operations. -/
def answersAnew (localesDir : Option Path) (provider : Provider) : List Event → List Answer
  | [] => []
  | .change next :: rest => answersAnew localesDir next rest
  | .operation operation :: rest =>
    ((ofDirectory localesDir).perform provider operation).value ::
      answersAnew localesDir provider rest

/-- The answer that follows from the files of a directory. -/
def answerOf (localesDir : Option Path) (provider : Provider) :
    Operation → Answer
  | .resolve name key language => .value (provider.meaning? localesDir key language name)
  | .resolveFirst namespaces key language =>
    .resolved (provider.firstMeaning localesDir key language namespaces.toList)
  | .languages => .names ((ofDirectory localesDir).languages provider)
  | .holders namespaces key =>
    .names ((((ofDirectory localesDir).languages provider).head?.map fun language =>
      provider.holding localesDir key language namespaces.toList).getD [])
  | .clear => .done

variable {store : Store} {localesDir : Option Path} {moments : List Provider} {provider : Provider}

/-- An operation gives the answer that follows from the files, and keeps the origin of all
documents. -/
theorem Serves.perform (h : store.Serves localesDir moments) (hfaithful : StampFaithful moments)
    (hmoment : provider ∈ moments) (operation : Operation) :
    (store.perform provider operation).Gives (answerOf localesDir provider operation) localesDir
      moments := by
  cases operation with
  | resolve name key language =>
    exact (h.resolve hfaithful hmoment name key language).map Answer.value
  | resolveFirst namespaces key language =>
    exact (h.resolveFirst hfaithful hmoment namespaces key language).map Answer.resolved
  | languages => exact ⟨congrArg Answer.names (h.languages_eq provider), h⟩
  | holders namespaces key =>
    exact (h.holders hfaithful hmoment namespaces key).map Answer.names
  | clear => exact ⟨rfl, h.clear⟩

/-- The store after operations while the files stay as they are. -/
def after (provider : Provider) (store : Store) (operations : List Operation) : Store :=
  operations.foldl (fun store operation => (store.perform provider operation).store) store

/-- Operations keep the directory and the origin of all documents. -/
theorem Serves.after (h : store.Serves localesDir moments) (hfaithful : StampFaithful moments)
    (hmoment : provider ∈ moments) (operations : List Operation) :
    (store.after provider operations).Serves localesDir moments := by
  induction operations generalizing store with
  | nil => exact h
  | cons operation rest ih => exact ih (h.perform hfaithful hmoment operation).serves

/-- A store whose documents were read at moments of the run answers like new stores. -/
theorem Serves.answers_eq {events : List Event} (h : store.Serves localesDir moments)
    (hfaithful : StampFaithful moments) (hmoment : provider ∈ moments)
    (hevents : ∀ next ∈ events.filterMap Event.next?, next ∈ moments) :
    store.answers provider events = answersAnew localesDir provider events := by
  induction events generalizing store provider with
  | nil => rfl
  | cons event rest ih =>
    cases event with
    | change next =>
      simp only [List.filterMap_cons, Event.next?, List.forall_mem_cons] at hevents
      exact ih h hevents.1 hevents.2
    | operation operation =>
      have hkept := h.perform hfaithful hmoment operation
      have hnew := (serves_ofDirectory localesDir moments).perform hfaithful hmoment operation
      simp only [Store.answers, answersAnew, hkept.value_eq, hnew.value_eq]
      rw [ih hkept.serves hmoment hevents]

/-- If stamps are faithful over all moments of a run, a store answers in it as if each operation
were performed by a store that has read nothing. -/
theorem answers_eq_answersAnew (localesDir : Option Path) (provider : Provider)
    (events : List Event)
    (hfaithful : StampFaithful (provider :: events.filterMap Event.next?)) :
    (ofDirectory localesDir).answers provider events = answersAnew localesDir provider events := by
  apply (serves_ofDirectory localesDir _).answers_eq hfaithful List.mem_cons_self
  exact fun next hnext => List.mem_cons_of_mem _ hnext

/-- Files of which one path leads to a document, with its stamp, or to none. -/
def filesWith (path : Path) (file : Option (Stamp × Document)) : Provider where
  stamp? := fun other => if other.components = path.components then file.map Prod.fst else none
  read := fun other =>
    match file with
    | some (_, document) => .ok document
    | none => .error (.noObject other)
  directories? := fun _ => some ["en"]

/-- Stamps are faithful while the one document changes only together with its stamp. -/
theorem stampFaithful_filesWith {path : Path} {files : List (Option (Stamp × Document))}
    (hfiles : ∀ earlier ∈ files, ∀ later ∈ files,
      earlier.map Prod.fst = later.map Prod.fst → earlier = later) :
    StampFaithful (files.map (filesWith path)) := by
  simp only [StampFaithful, List.forall_mem_map]
  intro earlier hearlier later hlater first second _ stamp hfirst hsecond
  simp only [filesWith] at hfirst hsecond
  split at hfirst
  · split at hsecond
    · have hsame := hfiles earlier hearlier later hlater (by rw [hfirst, hsecond])
      subst hsame
      cases earlier with
      | none => cases hfirst
      | some file => rfl
    · cases hsecond
  · cases hfirst

/-- A run in which a document is read, replaced under a new stamp, read again, kept, forgotten and
deleted. -/
theorem answers_of_replaced_document :
    let path : Path := ⟨"/locales/en/common.json"⟩
    let old := filesWith path (some (⟨1, 11⟩, [("a", .string "old")]))
    let new := filesWith path (some (⟨2, 11⟩, [("a", .string "new")]))
    let gone := filesWith path none
    let look := Event.operation (.resolve "common" ⟨"a"⟩ "en")
    let events := [look, .change new, look, look, .operation .clear, look, .change gone, look]
    StampFaithful (old :: events.filterMap Event.next?) ∧
      (ofDirectory (some ⟨"/locales"⟩)).answers old events =
        answersAnew (some ⟨"/locales"⟩) old events ∧
      answersAnew (some ⟨"/locales"⟩) old events =
        [.value (some "old"), .value (some "new"), .value (some "new"), .done,
          .value (some "new"), .value none] := by
  intro path old new gone look events
  have hfaithful : StampFaithful (old :: events.filterMap Event.next?) :=
    @stampFaithful_filesWith path
      [some (⟨1, 11⟩, [("a", .string "old")]), some (⟨2, 11⟩, [("a", .string "new")]), none]
      (by simp)
  exact ⟨hfaithful, answers_eq_answersAnew _ _ _ hfaithful, by decide +kernel⟩

end Store

end KeyLens
