import KeyLens.Proofs.Store.Freshness

/-!
# The steps of look-ups

A look-up takes several steps: it takes the stamp of its file, compares it with what is kept, reads
the file, and puts the document or erases what is kept. In a run the steps of many look-ups on one
cache alternate with each other and with changes of the files.
-/

namespace KeyLens.Interleaving

/-- Where a look-up stands between two of its steps. -/
inductive Stage where
  /-- Nothing has been done. -/
  | asked
  /-- The file had a stamp. -/
  | stamped (stamp : Stamp)
  /-- Nothing was kept under the stamp that the file had. -/
  | missed (stamp : Stamp)
  /-- The document was read after the file had a stamp. -/
  | loaded (stamp : Stamp) (document : Document)
  /-- There was no file, or it could not be read. -/
  | absent
  /-- The look-up has found a document, or none. -/
  | done (found : Option Document)

/-- The next step of a look-up, and the cache after it. -/
def Stage.next (provider : Provider) (path : Path) (cache : Cache) : Stage → Stage × Cache
  | .asked =>
    match provider.stamp? path with
    | none => (.absent, cache)
    | some stamp => (.stamped stamp, cache)
  | .stamped stamp =>
    match (cache.find? path).filter fun cached => cached.stamp == stamp with
    | some cached => (.done (some cached.document), cache)
    | none => (.missed stamp, cache)
  | .missed stamp =>
    match provider.read path with
    | .ok document => (.loaded stamp document, cache)
    | .error _ => (.absent, cache)
  | .loaded stamp document => (.done (some document), cache.insert path ⟨stamp, document⟩)
  | .absent => (.done none, cache.erase path)
  | .done found => (.done found, cache)

/-- The steps of a look-up that nothing interrupts. -/
def Stage.alone (provider : Provider) (path : Path) : Nat → Stage × Cache → Stage × Cache
  | 0, state => state
  | count + 1, (stage, cache) => alone provider path count (stage.next provider path cache)

/-- A look-up that nothing interrupts loads its document in at most four steps. -/
theorem Stage.alone_eq_load (provider : Provider) (path : Path) (cache : Cache) :
    Stage.alone provider path 4 (.asked, cache) =
      (.done (cache.load provider path).document?, (cache.load provider path).cache) := by
  simp only [alone, next, Cache.load]
  cases provider.stamp? path with
  | none => rfl
  | some stamp =>
    simp only [Cache.loadStamped]
    cases (cache.find? path).filter fun cached => cached.stamp == stamp with
    | some cached => rfl
    | none => cases provider.read path <;> rfl

/-- The files, the cache and the look-ups at one moment. -/
structure State (ι : Type) where
  /-- The files. -/
  tree : FileTree
  /-- The cache that all look-ups share. -/
  cache : Cache
  /-- Where each look-up stands. -/
  stage : ι → Stage

/-- What happens at one moment. -/
inductive Event (ι : Type) where
  /-- The files change, in whatever way. -/
  | change (next : FileTree)
  /-- A look-up takes its next step. -/
  | step (lookup : ι)

/-- A run of look-ups that share a cache, each with a path of its own. -/
structure Run (ι : Type) where
  /-- The files at the start. -/
  start : FileTree
  /-- The path whose document each look-up asks for. -/
  path : ι → Path
  /-- What happens at each moment. -/
  event : Nat → Event ι

variable {ι : Type} [DecidableEq ι]

/-- The state after an event, if the look-ups ask for the documents of `path`. -/
def State.after (path : ι → Path) (state : State ι) : Event ι → State ι
  | .change next => { state with tree := next }
  | .step lookup =>
    let result := (state.stage lookup).next state.tree.provider (path lookup) state.cache
    { state with
      cache := result.2
      stage := fun other => if other = lookup then result.1 else state.stage other }

namespace Run

/-- The state of a run at a moment. Nothing is kept and nothing has been done at the start. -/
def state (run : Run ι) : Nat → State ι
  | 0 => ⟨run.start, Cache.empty, fun _ => .asked⟩
  | time + 1 => (run.state time).after run.path (run.event time)

/-- The files at a moment of a run. -/
def tree (run : Run ι) (time : Nat) : FileTree :=
  (run.state time).tree

/-- Where a look-up stands at a moment of a run. -/
def stage (run : Run ι) (lookup : ι) (time : Nat) : Stage :=
  (run.state time).stage lookup

/-- The document that a look-up would find if all its steps were taken at one moment of a run. -/
def truth (run : Run ι) (lookup : ι) (time : Nat) : Option Document :=
  (run.tree time).provider.document? (run.path lookup)

/-- A look-up takes its first step at a moment. -/
def Starts (run : Run ι) (lookup : ι) (time : Nat) : Prop :=
  run.event time = .step lookup ∧ run.stage lookup time = .asked

/-- A look-up takes its last step at a moment, and has found what it finds. -/
def Ends (run : Run ι) (lookup : ι) (time : Nat) (found : Option Document) : Prop :=
  run.event time = .step lookup ∧ (∀ early, run.stage lookup time ≠ .done early) ∧
    run.stage lookup (time + 1) = .done found

end Run

end KeyLens.Interleaving
