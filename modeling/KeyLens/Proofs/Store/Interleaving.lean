import KeyLens.Proofs.Files.Canonical
import KeyLens.Proofs.Files.Stamps
import KeyLens.Proofs.Store.Steps

/-!
# Look-ups at the same time

When the steps of look-ups alternate, a document may be put under a stamp that its file no longer
has, and a slow look-up may erase what a faster one has put. If every change gives a file a stamp
that it never had before, each look-up still finds what was true at some instant between its first
and its last step.
-/

namespace KeyLens.Interleaving

variable {ι : Type} [DecidableEq ι]

/-- From each moment to the next a file either stays as it is or has, if any, a stamp that it
never had before. -/
def FreshStamps (trees : Nat → FileTree) : Prop :=
  ∀ time path,
    ((trees (time + 1)).stamp? path = (trees time).stamp? path ∧
      ((trees (time + 1)).readDocument path).toOption =
        ((trees time).readDocument path).toOption) ∨
    ∀ stamp, (trees (time + 1)).stamp? path = some stamp →
      ∀ earlier ≤ time, (trees earlier).stamp? path ≠ some stamp

/-- A file that has one stamp at two moments is the same file at all moments between them. -/
theorem FreshStamps.same_between {trees : Nat → FileTree} (h : FreshStamps trees) {path : Path}
    {stamp : Stamp} {first time last : Nat} (hfirst : first ≤ time) (hlast : time ≤ last)
    (hbegin : (trees first).stamp? path = some stamp)
    (hend : (trees last).stamp? path = some stamp) :
    (trees time).stamp? path = some stamp ∧
      ((trees time).readDocument path).toOption = ((trees last).readDocument path).toOption := by
  obtain ⟨count, rfl⟩ := Nat.exists_eq_add_of_le hlast
  induction count with
  | zero => exact ⟨hend, rfl⟩
  | succ count ih =>
    rcases h (time + count) path with ⟨hstamp, hdocument⟩ | hfresh
    · obtain ⟨hsame, hread⟩ := ih (Nat.le_add_right time count) (by rw [← hstamp]; exact hend)
      exact ⟨hsame, hread.trans hdocument.symm⟩
    · exact absurd hbegin (hfresh stamp hend first (by omega))

namespace Run

/-- Before `now` a path had a stamp, and then or later it had a document. -/
def ReadUnder (run : Run ι) (path : Path) (stamp : Stamp) (document : Document) (now : Nat) :
    Prop :=
  ∃ stamped read, stamped ≤ read ∧ read < now ∧ (run.tree stamped).stamp? path = some stamp ∧
    (run.tree read).readDocument path = .ok document

/-- How a look-up came to stand where it stands before the moment `now`. -/
def Traced (run : Run ι) (lookup : ι) (now : Nat) : Stage → Prop
  | .asked => True
  | .stamped stamp | .missed stamp =>
    ∃ first < now, run.Starts lookup first ∧
      (run.tree first).stamp? (run.path lookup) = some stamp
  | .loaded stamp document =>
    ∃ first read, first ≤ read ∧ read < now ∧ run.Starts lookup first ∧
      (run.tree first).stamp? (run.path lookup) = some stamp ∧
      (run.tree read).readDocument (run.path lookup) = .ok document
  | .absent =>
    ∃ first time, first ≤ time ∧ time < now ∧ run.Starts lookup first ∧
      run.truth lookup time = none
  | .done found =>
    ∃ first time last, first ≤ time ∧ time ≤ last ∧ last < now ∧ run.Starts lookup first ∧
      run.Ends lookup last found ∧ run.truth lookup time = found

/-- Every look-up is traced back to its first step, and every kept document to the moments at which
its stamp was taken and at which it was read. -/
structure Sound (run : Run ι) (now : Nat) : Prop where
  /-- All look-ups are traced. -/
  traced : ∀ lookup, run.Traced lookup now (run.stage lookup now)
  /-- Every kept document was read under its stamp, or later. -/
  kept : ∀ path cached, (run.state now).cache.find? path = some cached →
    ∃ source : Path, source.components = path.components ∧
      run.ReadUnder source cached.stamp cached.document now

/-- What was read before a moment was read before all later ones. -/
theorem ReadUnder.later {run : Run ι} {path : Path} {stamp : Stamp} {document : Document}
    {now later : Nat} (h : run.ReadUnder path stamp document now) (hlater : now ≤ later) :
    run.ReadUnder path stamp document later := by
  obtain ⟨stamped, read, horder, hread, htrue⟩ := h
  exact ⟨stamped, read, horder, by omega, htrue⟩

/-- What is traced stays traced. -/
theorem Traced.later {run : Run ι} {lookup : ι} {now later : Nat} {stage : Stage}
    (h : run.Traced lookup now stage) (hlater : now ≤ later) : run.Traced lookup later stage := by
  cases stage with
  | asked => trivial
  | stamped stamp | missed stamp =>
    obtain ⟨first, hfirst, hrest⟩ := h
    exact ⟨first, by omega, hrest⟩
  | loaded stamp document =>
    obtain ⟨first, read, horder, hread, hrest⟩ := h
    exact ⟨first, read, horder, by omega, hrest⟩
  | absent =>
    obtain ⟨first, time, horder, htime, hrest⟩ := h
    exact ⟨first, time, horder, by omega, hrest⟩
  | done found =>
    obtain ⟨first, time, last, hfirst, htime, hlast, hrest⟩ := h
    exact ⟨first, time, last, hfirst, htime, by omega, hrest⟩

/-- A look-up that stays where it stands stays traced. -/
theorem Sound.traced_of_same {run : Run ι} {lookup : ι} {now : Nat} (h : run.Sound now)
    (hsame : run.stage lookup (now + 1) = run.stage lookup now) :
    run.Traced lookup (now + 1) (run.stage lookup (now + 1)) := by
  rw [hsame]
  exact (h.traced lookup).later (Nat.le_succ now)

/-- What is kept already was read under its stamp, or later. -/
theorem Sound.kept_later {run : Run ι} {now : Nat} (h : run.Sound now) {path : Path}
    {cached : CachedDocument} (hfind : (run.state now).cache.find? path = some cached) :
    ∃ source : Path, source.components = path.components ∧
      run.ReadUnder source cached.stamp cached.document (now + 1) := by
  obtain ⟨source, hsteps, hread⟩ := h.kept path cached hfind
  exact ⟨source, hsteps, hread.later (Nat.le_succ now)⟩

/-- A document that is kept under the stamp that a look-up has taken was true at some instant since
the look-up took it. -/
theorem ReadUnder.exists_truth {run : Run ι} {lookup : ι} {source : Path} {stamp : Stamp}
    {document : Document} {first now : Nat} (h : run.ReadUnder source stamp document now)
    (hfresh : FreshStamps run.tree) (hsteps : source.components = (run.path lookup).components)
    (hfirst : first ≤ now)
    (hstamp : (run.tree first).stamp? (run.path lookup) = some stamp) :
    ∃ time, first ≤ time ∧ time ≤ now ∧ run.truth lookup time = some document := by
  obtain ⟨stamped, read, horder, hread, hsource, hdocument⟩ := h
  have hspelled := FileTree.wellSpelled_of_stamp? hsource
  have hspelled' := FileTree.wellSpelled_of_stamp? hstamp
  have htruth : ∀ time, ((run.tree time).readDocument source).toOption = some document →
      run.truth lookup time = some document := by
    intro time hsame
    rw [truth, FileTree.document?_provider, ← hsame]
    exact (FileTree.readDocument_eq_of_wellSpelled _ hsteps hspelled hspelled').symm
  by_cases hsince : first ≤ read
  · exact ⟨read, hsince, by omega, htruth read (by rw [hdocument]; rfl)⟩
  · -- The stamp was taken twice, so the file did not change from the one time to the other.
    have hagain : (run.tree first).stamp? source = some stamp := by
      rw [FileTree.stamp?_eq_of_wellSpelled _ hsteps hspelled hspelled']
      exact hstamp
    obtain ⟨-, hsame⟩ := hfresh.same_between horder (by omega) hsource hagain
    exact ⟨first, Nat.le_refl first, hfirst, htruth first (by rw [← hsame, hdocument]; rfl)⟩

/-- The step of a look-up leads it to its next stage. -/
theorem stage_succ {run : Run ι} {lookup : ι} {now : Nat} (hevent : run.event now = .step lookup) :
    run.stage lookup (now + 1) =
      ((run.stage lookup now).next (run.tree now).provider (run.path lookup)
        (run.state now).cache).1 := by
  simp only [stage, state, hevent, State.after, if_pos, tree]

/-- A look-up that ends with its next step is traced if it finds what was true since its first. -/
theorem traced_done {run : Run ι} {lookup : ι} {first time now : Nat} {found : Option Document}
    (hevent : run.event now = .step lookup)
    (hbefore : ∀ early, run.stage lookup now ≠ .done early)
    (hafter : run.stage lookup (now + 1) = .done found) (hstart : run.Starts lookup first)
    (hfirst : first ≤ time) (htime : time ≤ now) (htruth : run.truth lookup time = found) :
    run.Traced lookup (now + 1) (.done found) :=
  ⟨first, time, now, hfirst, htime, Nat.lt_succ_self now, hstart, ⟨hevent, hbefore, hafter⟩, htruth⟩

/-- The step of a look-up leaves it traced. -/
theorem Sound.traced_succ {run : Run ι} {lookup : ι} {now : Nat} (h : run.Sound now)
    (hfresh : FreshStamps run.tree) (hevent : run.event now = .step lookup) :
    run.Traced lookup (now + 1) (run.stage lookup (now + 1)) := by
  have htraced := h.traced lookup
  have hnext := stage_succ hevent
  cases hstage : run.stage lookup now with
  | asked =>
    have hstart : run.Starts lookup now := ⟨hevent, hstage⟩
    rw [hnext, hstage, Stage.next]
    cases hstamp : (run.tree now).provider.stamp? (run.path lookup) with
    | none =>
      refine ⟨now, now, Nat.le_refl now, Nat.lt_succ_self now, hstart, ?_⟩
      rw [truth, Provider.document?, hstamp, Option.bind_none]
    | some stamp => exact ⟨now, Nat.lt_succ_self now, hstart, hstamp⟩
  | stamped stamp =>
    rw [hstage] at htraced
    obtain ⟨first, hfirst, hstart, hstamp⟩ := htraced
    have hbefore : ∀ early, run.stage lookup now ≠ .done early := by simp [hstage]
    rw [hstage, Stage.next] at hnext
    cases hhit : ((run.state now).cache.find? (run.path lookup)).filter
        fun cached => cached.stamp == stamp with
    | none =>
      rw [hnext, hhit]
      exact ⟨first, by omega, hstart, hstamp⟩
    | some cached =>
      obtain ⟨hfind, hsame⟩ := Option.filter_eq_some_iff.mp hhit
      obtain ⟨source, hsteps, hread⟩ := h.kept (run.path lookup) cached hfind
      have hstamp' : (run.tree first).stamp? (run.path lookup) = some cached.stamp := by
        rw [hstamp, beq_iff_eq.mp hsame]
      obtain ⟨time, hsince, htime, htruth⟩ :=
        hread.exists_truth hfresh hsteps (Nat.le_of_lt hfirst) hstamp'
      rw [hhit] at hnext
      rw [hnext]
      exact traced_done hevent hbefore hnext hstart hsince htime htruth
  | missed stamp =>
    rw [hstage] at htraced
    obtain ⟨first, hfirst, hstart, hstamp⟩ := htraced
    rw [hnext, hstage, Stage.next]
    cases hread : (run.tree now).provider.read (run.path lookup) with
    | ok document =>
      exact ⟨first, now, Nat.le_of_lt hfirst, Nat.lt_succ_self now, hstart, hstamp, hread⟩
    | error failure =>
      refine ⟨first, now, Nat.le_of_lt hfirst, Nat.lt_succ_self now, hstart, ?_⟩
      rw [truth, Provider.document?, hread]
      cases (run.tree now).provider.stamp? (run.path lookup) <;> rfl
  | loaded stamp document =>
    rw [hstage] at htraced
    obtain ⟨first, read, horder, hread, hstart, -, hdocument⟩ := htraced
    have hbefore : ∀ early, run.stage lookup now ≠ .done early := by simp [hstage]
    rw [hstage, Stage.next] at hnext
    rw [hnext]
    refine traced_done hevent hbefore hnext hstart horder (Nat.le_of_lt hread) ?_
    rw [truth, FileTree.document?_provider, hdocument]
    rfl
  | absent =>
    rw [hstage] at htraced
    obtain ⟨first, time, horder, htime, hstart, htruth⟩ := htraced
    have hbefore : ∀ early, run.stage lookup now ≠ .done early := by simp [hstage]
    rw [hstage, Stage.next] at hnext
    rw [hnext]
    exact traced_done hevent hbefore hnext hstart horder (Nat.le_of_lt htime) htruth
  | done found =>
    rw [hstage] at htraced
    rw [hnext, hstage, Stage.next]
    exact htraced.later (Nat.le_succ now)

/-- The step of a look-up keeps only documents that were read under their stamp, or later. -/
theorem Sound.kept_succ {run : Run ι} {lookup : ι} {now : Nat} (h : run.Sound now)
    {path : Path} {cached : CachedDocument}
    (hfind : ((run.stage lookup now).next (run.tree now).provider (run.path lookup)
      (run.state now).cache).2.find? path = some cached) :
    ∃ source : Path, source.components = path.components ∧
      run.ReadUnder source cached.stamp cached.document (now + 1) := by
  have htraced := h.traced lookup
  cases hstage : run.stage lookup now with
  | asked =>
    rw [hstage, Stage.next] at hfind
    apply h.kept_later
    split at hfind <;> exact hfind
  | stamped stamp =>
    rw [hstage, Stage.next] at hfind
    apply h.kept_later
    split at hfind <;> exact hfind
  | missed stamp =>
    rw [hstage, Stage.next] at hfind
    apply h.kept_later
    split at hfind <;> exact hfind
  | loaded stamp document =>
    rw [hstage] at htraced
    obtain ⟨first, read, horder, hread, -, hstamp, hdocument⟩ := htraced
    rw [hstage, Stage.next, Cache.find?_insert] at hfind
    split at hfind
    · next hsteps =>
      cases hfind
      exact ⟨run.path lookup, hsteps.symm, first, read, horder, by omega, hstamp, hdocument⟩
    · exact h.kept_later hfind
  | absent =>
    rw [hstage, Stage.next, Cache.find?_erase] at hfind
    split at hfind
    · cases hfind
    · exact h.kept_later hfind
  | done found =>
    rw [hstage] at hfind
    exact h.kept_later hfind

/-- Every event of a run leaves its look-ups and its cache traced. -/
theorem Sound.succ {run : Run ι} {now : Nat} (h : run.Sound now)
    (hfresh : FreshStamps run.tree) : run.Sound (now + 1) := by
  cases hevent : run.event now with
  | change next =>
    refine ⟨fun lookup => ?_, fun path cached hfind => ?_⟩
    · apply h.traced_of_same
      simp only [stage, state, hevent, State.after]
    · simp only [state, hevent, State.after] at hfind
      exact h.kept_later hfind
  | step active =>
    refine ⟨fun lookup => ?_, fun path cached hfind => ?_⟩
    · by_cases hactive : lookup = active
      · subst hactive
        exact h.traced_succ hfresh hevent
      · apply h.traced_of_same
        simp only [stage, state, hevent, State.after, if_neg hactive]
    · simp only [state, hevent, State.after] at hfind
      exact h.kept_succ hfind

/-- At every moment of a run with fresh stamps its look-ups and its cache are traced. -/
theorem sound_of_freshStamps (run : Run ι) (hfresh : FreshStamps run.tree) (now : Nat) :
    run.Sound now := by
  induction now with
  | zero =>
    refine ⟨fun lookup => trivial, fun path cached hfind => ?_⟩
    simp [state, Cache.find?, Cache.empty] at hfind
  | succ now ih => exact ih.succ hfresh

/-- If every change of a file gives it a stamp that it never had before, what a look-up finds was
true at an instant between its first and its last step. If its file has not changed since its
first step, it finds what is true now. -/
theorem found_true_between_steps (run : Run ι) (hfresh : FreshStamps run.tree) {lookup : ι}
    {now : Nat} {found : Option Document} (hdone : run.stage lookup now = .done found) :
    ∃ first last, first ≤ last ∧ last < now ∧ run.Starts lookup first ∧
      run.Ends lookup last found ∧
      (∃ time, first ≤ time ∧ time ≤ last ∧ run.truth lookup time = found) ∧
      ((∀ time, first ≤ time → time ≤ now → run.truth lookup time = run.truth lookup now) →
        found = run.truth lookup now) := by
  have htraced := (run.sound_of_freshStamps hfresh now).traced lookup
  rw [hdone] at htraced
  obtain ⟨first, time, last, hfirst, htime, hlast, hstart, hend, htruth⟩ := htraced
  refine ⟨first, last, by omega, hlast, hstart, hend, ⟨time, hfirst, htime, htruth⟩, ?_⟩
  intro hsame
  rw [← htruth]
  exact hsame time hfirst (by omega)

end Run

/-- The tree whose one file is `/a.json`. -/
def oneFile (text : String) (modified : Nat) : FileTree :=
  ⟨[(["a.json"], .file (.text text) modified)], []⟩

/-- The path `/a.json` leads to the one file. -/
theorem resolve_oneFile (text : String) (modified : Nat) :
    (oneFile text modified).resolve ⟨"/a.json"⟩ =
      .ok (["a.json"], .file (.text text) modified) :=
  FileTree.resolve_of_descend? (show FileTree.pathOf ["a.json"] = _ by decide) (by decide)
    (by decide) rfl

/-- All stamps in the tree bear the time of the one file. -/
theorem modified_of_stamp?_oneFile {text : String} {modified : Nat} {path : Path} {stamp : Stamp}
    (h : (oneFile text modified).stamp? path = some stamp) : stamp.modified = modified := by
  obtain ⟨names, content, time, hentry, rfl⟩ := FileTree.exists_entry_of_stamp? h
  simp only [FileTree.get?, oneFile, List.lookup_cons] at hentry
  split at hentry
  · cases hentry
  · split at hentry
    · cases hentry
      rfl
    · cases hentry

/-- A run in which a look-up takes the stamp of a file, the file changes, and what is read then is
kept under the stamp that was taken before. The next look-up does not take it. -/
theorem found_after_late_read :
    let new := oneFile "\x7b\"k\":null\x7d" 2
    let run : Run Bool :=
      { start := oneFile "\x7b\x7d" 1
        path := fun _ => ⟨"/a.json"⟩
        event := fun time => if time = 1 then .change new else .step (decide (4 < time)) }
    FreshStamps run.tree ∧ ∃ document, new.readDocument ⟨"/a.json"⟩ = .ok document ∧
      (run.state 5).cache.find? ⟨"/a.json"⟩ = some ⟨⟨1, 2⟩, document⟩ ∧
      ∃ first last, first ≤ last ∧ last < 9 ∧ run.Starts true first ∧
        run.Ends true last (some document) ∧
        (∃ time, first ≤ time ∧ time ≤ last ∧ run.truth true time = some document) ∧
        ((∀ time, first ≤ time → time ≤ 9 → run.truth true time = run.truth true 9) →
          some document = run.truth true 9) := by
  intro new run
  have hlate : ∀ time, run.tree (time + 2) = new := by
    intro time
    induction time with
    | zero => rfl
    | succ time ih =>
      have hevent : run.event (time + 2) = .step (decide (4 < time + 2)) := by simp [run]
      rw [Run.tree, Run.state, hevent]
      exact ih
  have hfresh : FreshStamps run.tree := by
    intro time path
    match time with
    | 0 => exact Or.inl ⟨rfl, rfl⟩
    | 1 =>
      refine Or.inr fun stamp hstamp earlier hearlier hsame => ?_
      have hnew := modified_of_stamp?_oneFile hstamp
      have hold : stamp.modified = 1 := by
        match earlier with
        | 0 | 1 => exact modified_of_stamp?_oneFile hsame
      omega
    | time + 2 => exact Or.inl (by rw [hlate (time + 1), hlate time]; exact ⟨rfl, rfl⟩)
  have hold : run.start.provider.stamp? ⟨"/a.json"⟩ = some ⟨1, 2⟩ := by
    simp only [run, FileTree.provider, FileTree.stamp?, resolve_oneFile]
    decide +kernel
  have hnew : new.provider.stamp? ⟨"/a.json"⟩ = some ⟨2, 10⟩ := by
    simp only [new, FileTree.provider, FileTree.stamp?, resolve_oneFile]
    decide +kernel
  have hok : (new.readDocument ⟨"/a.json"⟩).isOk = true := by
    simp only [new, FileTree.readDocument, FileTree.readText, resolve_oneFile]
    decide +kernel
  obtain ⟨document, hread⟩ : ∃ document, new.provider.read ⟨"/a.json"⟩ = .ok document := by
    cases hdocument : new.readDocument ⟨"/a.json"⟩ with
    | ok document => exact ⟨document, hdocument⟩
    | error failure => rw [hdocument] at hok; cases hok
  have hkept : (run.state 5).cache =
      Cache.empty.insert ⟨"/a.json"⟩ ⟨⟨1, 2⟩, document⟩ := by
    simp [Run.state, State.after, run, Stage.next, hold, hread, Cache.find?, Cache.empty]
  have hasked : (run.state 5).stage true = .asked := by
    simp [Run.state, State.after, run]
  have htree : (run.state 5).tree = new := hlate 3
  have hdone : run.stage true 9 = .done (some document) := by
    rw [Run.stage, Run.state, Run.state, Run.state, Run.state]
    simp [State.after, run, hkept, hasked, htree, Stage.next, hnew, hread, Cache.find?_insert_self,
      Option.filter_some]
  refine ⟨hfresh, document, hread, ?_, run.found_true_between_steps hfresh hdone⟩
  rw [hkept, Cache.find?_insert_self]

end KeyLens.Interleaving
