import KeyLens.Proofs.Config.Loading
import KeyLens.Proofs.Session.Transparency
import Mathlib.Data.List.Nodup
import Mathlib.Tactic.IntervalCases

/-!
# Calls at the same time

A call that asks for a project takes several steps: it spells its directory without links and dots,
looks whether a project is kept for it, makes one if none is, and keeps it unless another call was
faster. In a run the steps of many calls on one session alternate with each other and with changes
of the files. Whatever their order, a directory has one project throughout, and a call that fails
leaves nothing behind.
-/

namespace KeyLens

namespace Session

/-- The projects that are kept, whatever documents have been read for them. -/
def projects (session : Session) : List (Path × Project) :=
  session.kept.map fun (root, kept) => (root, kept.project)

variable {session : Session} {root : Path} {kept earlier : KeptProject}

/-- A project that is found is kept. -/
theorem mem_projects_of_find? (h : session.find? root = some kept) :
    (root, kept.project) ∈ session.projects := by
  obtain ⟨front, back, hkept, -⟩ := List.lookup_eq_some_iff.mp h
  rw [projects, hkept]
  exact List.mem_map_of_mem (List.mem_append_right front List.mem_cons_self)

/-- Where none is found none is kept. -/
theorem root_not_mem_of_find? (h : session.find? root = none) :
    root ∉ session.projects.map Prod.fst := by
  intro hmem
  simp only [projects, List.map_map, List.mem_map] at hmem
  obtain ⟨⟨other, kept⟩, hentry, rfl⟩ := hmem
  have hne := List.lookup_eq_none_iff.mp h _ hentry
  simp at hne

/-- Other documents leave the projects as they are. -/
theorem projects_withStore (session : Session) (root : Path) (store : Store) :
    (session.withStore root store).projects = session.projects := by
  simp only [projects, withStore, List.map_map]
  refine List.map_congr_left fun entry _ => ?_
  simp only [Function.comp_apply]
  split <;> rfl

/-- A directory for which a project is kept stays with it. -/
theorem keep_of_find? (h : session.find? root = some earlier) (kept : KeptProject) :
    session.keep root kept = (session, earlier) := by
  rw [keep, h]

/-- A project is kept for a directory that has none. -/
theorem keep_of_missing (h : session.find? root = none) (kept : KeptProject) :
    session.keep root kept = (⟨session.kept ++ [(root, kept)]⟩, kept) := by
  rw [keep, h]

/-- The project that is given is kept then. -/
theorem find?_fst_keep (session : Session) (root : Path) (kept : KeptProject) :
    (session.keep root kept).1.find? root = some (session.keep root kept).2 := by
  cases hfind : session.find? root with
  | some earlier => rw [keep_of_find? hfind, hfind]
  | none => rw [find?_keep hfind, if_pos rfl, keep_of_missing hfind]

/-- A project that has just been made has read nothing. -/
theorem eq_of_build {tree : FileTree} (h : build tree root = .ok kept) :
    kept = ⟨kept.project, kept.project.store⟩ := by
  unfold build at h
  cases hproject : tree.project root Overrides.none with
  | error error =>
    rw [hproject] at h
    cases h
  | ok project =>
    rw [hproject] at h
    cases h
    rfl

end Session

namespace Racing

/-- Where a call stands between two of its steps. -/
inductive Stage where
  /-- Nothing has been done. -/
  | asked
  /-- The directory has been spelled without links and dots. -/
  | located (root : Path)
  /-- No project was kept for the directory. -/
  | missed (root : Path)
  /-- A project was made, as none was kept. -/
  | built (root : Path) (kept : KeptProject)
  /-- The call has its project. -/
  | done (root : Path) (kept : KeptProject)
  /-- The call has failed. -/
  | failed (error : SessionError)

namespace Stage

/-- The next step of a call about the directory `text`, and the session after it. -/
def next (tree : FileTree) (text : String) (session : Session) : Stage → Stage × Session
  | asked =>
    match tree.canonical ⟨text⟩ with
    | .ok root => (located root, session)
    | .error error => (failed (.noRoot text error), session)
  | located root =>
    match session.find? root with
    | some kept => (done root kept, session)
    | none => (missed root, session)
  | missed root =>
    match Session.build tree root with
    | .ok kept => (built root kept, session)
    | .error error => (failed error, session)
  | built root kept =>
    let (session, first) := session.keep root kept
    (done root first, session)
  | done root kept => (done root kept, session)
  | failed error => (failed error, session)

/-- The steps of a call that nothing interrupts. -/
def alone (tree : FileTree) (text : String) : Nat → Stage × Session → Stage × Session
  | 0, state => state
  | count + 1, (stage, session) => alone tree text count (stage.next tree text session)

/-- Where a call stands that has its result. -/
def ofResult : Except SessionError (Path × KeptProject) → Stage
  | .ok (root, kept) => done root kept
  | .error error => failed error

/-- A call that nothing interrupts has the project of its session in at most four steps. -/
theorem alone_eq_context (tree : FileTree) (text : String) (session : Session) :
    alone tree text 4 (asked, session) =
      (ofResult (session.context tree text).2, (session.context tree text).1) := by
  simp only [alone, next, Session.context]
  cases tree.canonical ⟨text⟩ with
  | error error => rfl
  | ok root =>
    simp only
    cases hfind : session.find? root with
    | some kept => rfl
    | none =>
      simp only
      cases Session.build tree root with
      | error error => rfl
      | ok kept => rfl

/-- A step changes the session only if it keeps a project that was made. -/
theorem session_next_of_not_built {tree : FileTree} {text : String} {session : Session}
    {stage : Stage} (h : ∀ root kept, stage ≠ built root kept) :
    (stage.next tree text session).2 = session := by
  cases stage with
  | built root kept => exact absurd rfl (h root kept)
  | asked | located root | missed root => simp only [next]; split <;> rfl
  | done root kept | failed error => rfl

end Stage

/-- The session, the files and the calls at one moment. -/
structure State (ι : Type) where
  /-- The files. -/
  tree : FileTree
  /-- The session of all calls. -/
  session : Session
  /-- Where each call stands. -/
  stage : ι → Stage

/-- What happens at one moment. -/
inductive Event (ι : Type) where
  /-- The files change, in whatever way. -/
  | change (next : FileTree)
  /-- A call takes its next step. -/
  | step (call : ι)
  /-- A call that has its project leaves other documents with it. -/
  | use (root : Path) (store : Store)

/-- A run of calls on a new session, each with a directory of its own. -/
structure Run (ι : Type) where
  /-- The files at the start. -/
  start : FileTree
  /-- The directory that each call is about, as it is written. -/
  text : ι → String
  /-- What happens at each moment. -/
  event : Nat → Event ι

variable {ι : Type} [DecidableEq ι]

/-- The state after an event, if the calls are about the directories `text`. -/
def State.after (text : ι → String) (state : State ι) : Event ι → State ι
  | .change next => { state with tree := next }
  | .step call =>
    let result := (state.stage call).next state.tree (text call) state.session
    { state with
      session := result.2
      stage := fun other => if other = call then result.1 else state.stage other }
  | .use root store => { state with session := state.session.withStore root store }

namespace Run

/-- The state of a run at a moment. Nothing is kept and nothing has been done at the start. -/
def state (run : Run ι) : Nat → State ι
  | 0 => ⟨run.start, Session.start, fun _ => .asked⟩
  | time + 1 => (run.state time).after run.text (run.event time)

/-- The files at a moment of a run. -/
def tree (run : Run ι) (time : Nat) : FileTree :=
  (run.state time).tree

/-- The session at a moment of a run. -/
def session (run : Run ι) (time : Nat) : Session :=
  (run.state time).session

/-- Where a call stands at a moment of a run. -/
def stage (run : Run ι) (call : ι) (time : Nat) : Stage :=
  (run.state time).stage call

/-- The number of steps that a call has taken before a moment of a run. -/
def steps (run : Run ι) (call : ι) : Nat → Nat
  | 0 => 0
  | time + 1 =>
    match run.event time with
    | .step other => if other = call then run.steps call time + 1 else run.steps call time
    | _ => run.steps call time

/-- A call takes its first step at a moment, at which its directory is `root` without links and
dots. -/
structure Locates (run : Run ι) (call : ι) (time : Nat) (root : Path) : Prop where
  /-- It is the turn of the call. -/
  event_eq : run.event time = .step call
  /-- It has done nothing before. -/
  stage_eq : run.stage call time = .asked
  /-- The directory leads to `root`. -/
  canonical_eq : (run.tree time).canonical ⟨run.text call⟩ = .ok root

/-! ### Steps -/

variable {run : Run ι} {call : ι} {now late : Nat} {root : Path}

/-- The step of a call leads it to its next stage. -/
theorem stage_succ (hevent : run.event now = .step call) :
    run.stage call (now + 1) =
      ((run.stage call now).next (run.tree now) (run.text call) (run.session now)).1 := by
  simp only [stage, state, hevent, State.after, if_pos, tree, session]

/-- What is no step of a call leaves it where it stands. -/
theorem stage_succ_of_ne (hevent : run.event now ≠ .step call) :
    run.stage call (now + 1) = run.stage call now := by
  simp only [stage, state]
  cases hcase : run.event now with
  | change next | use root store => rfl
  | step other =>
    have hne : call ≠ other := by
      rintro rfl
      exact hevent hcase
    simp only [State.after, if_neg hne]

/-- The step of a call leaves the session that its stage tells. -/
theorem session_succ (hevent : run.event now = .step call) :
    run.session (now + 1) =
      ((run.stage call now).next (run.tree now) (run.text call) (run.session now)).2 := by
  simp only [stage, state, hevent, State.after, tree, session]

/-- From one moment to the next the projects stay, or a project that was made for a directory
without one is kept behind them. -/
theorem projects_succ (run : Run ι) (now : Nat) :
    (run.session (now + 1)).projects = (run.session now).projects ∨
      ∃ call root kept, run.event now = .step call ∧ run.stage call now = .built root kept ∧
        (run.session now).find? root = none ∧
        (run.session (now + 1)).projects =
          (run.session now).projects ++ [(root, kept.project)] := by
  cases hevent : run.event now with
  | change next =>
    left
    simp only [session, state, hevent, State.after]
  | use root store =>
    left
    simp only [session, state, hevent, State.after, Session.projects_withStore]
  | step call =>
    rw [session_succ hevent]
    by_cases hbuilt : ∃ root kept, run.stage call now = .built root kept
    · obtain ⟨root, kept, hstage⟩ := hbuilt
      rw [hstage, Stage.next]
      cases hfind : (run.session now).find? root with
      | some earlier =>
        rw [Session.keep_of_find? hfind]
        exact Or.inl rfl
      | none =>
        rw [Session.keep_of_missing hfind]
        refine Or.inr ⟨call, root, kept, rfl, hstage, hfind, ?_⟩
        simp only [Session.projects, List.map_append, List.map_cons, List.map_nil]
    · left
      rw [Stage.session_next_of_not_built fun root kept hstage => hbuilt ⟨root, kept, hstage⟩]

/-- The projects that are kept stay in front of those that are kept later. -/
theorem projects_prefix (run : Run ι) (h : now ≤ late) :
    (run.session now).projects <+: (run.session late).projects := by
  induction late, h using Nat.le_induction with
  | base => exact List.prefix_rfl
  | succ late _ ih =>
    rcases run.projects_succ late with hsame | ⟨_, root, kept, -, -, -, hmore⟩
    · rw [hsame]
      exact ih
    · rw [hmore]
      exact ih.trans (List.prefix_append _ _)

/-- No directory has two projects. -/
theorem nodup_roots (run : Run ι) (now : Nat) :
    ((run.session now).projects.map Prod.fst).Nodup := by
  induction now with
  | zero => exact List.nodup_nil
  | succ now ih =>
    rcases run.projects_succ now with hsame | ⟨_, root, kept, -, -, hfind, hmore⟩
    · rw [hsame]
      exact ih
    · have hnew := Session.root_not_mem_of_find? hfind
      rw [hmore, List.map_append, List.nodup_append]
      refine ⟨ih, List.nodup_singleton _, ?_⟩
      rintro other hother _ hroot rfl
      rw [List.mem_singleton.mp hroot] at hother
      exact hnew hother

/-- Projects of one directory that are kept at any two moments are the same. -/
theorem project_eq_of_mem {project found : Project}
    (hproject : (root, project) ∈ (run.session now).projects)
    (hfound : (root, found) ∈ (run.session late).projects) : found = project := by
  have hearly := (run.projects_prefix (Nat.le_max_left now late)).subset hproject
  have hlast := (run.projects_prefix (Nat.le_max_right now late)).subset hfound
  have hsame := List.inj_on_of_nodup_map (run.nodup_roots (max now late)) hlast hearly rfl
  exact congrArg Prod.snd hsame

/-! ### Where projects come from -/

/-- How a call came to stand where it stands before the moment `now`. -/
def Traced (run : Run ι) (call : ι) (now : Nat) : Stage → Prop
  | .asked | .failed _ => True
  | .located root | .missed root => ∃ first < now, run.Locates call first root
  | .built root kept =>
    (∃ first < now, run.Locates call first root) ∧
      ∃ time < now, Session.build (run.tree time) root = .ok kept
  | .done root kept =>
    (∃ first < now, run.Locates call first root) ∧
      ∃ last < now, run.event last = .step call ∧ (run.session (last + 1)).find? root = some kept

/-- What is traced stays traced. -/
theorem Traced.later {stage : Stage} (h : run.Traced call now stage) (hlate : now ≤ late) :
    run.Traced call late stage := by
  cases stage with
  | asked | failed error => trivial
  | located root | missed root =>
    obtain ⟨first, hfirst, hlocates⟩ := h
    exact ⟨first, by omega, hlocates⟩
  | built root kept =>
    obtain ⟨⟨first, hfirst, hlocates⟩, time, htime, hbuild⟩ := h
    exact ⟨⟨first, by omega, hlocates⟩, time, by omega, hbuild⟩
  | done root kept =>
    obtain ⟨⟨first, hfirst, hlocates⟩, last, hlast, hkept⟩ := h
    exact ⟨⟨first, by omega, hlocates⟩, last, by omega, hkept⟩

/-- The step of a call leaves it traced. -/
theorem Traced.succ (h : run.Traced call now (run.stage call now))
    (hevent : run.event now = .step call) :
    run.Traced call (now + 1) (run.stage call (now + 1)) := by
  have hsession := session_succ hevent
  have hlater := h.later (Nat.le_succ now)
  rw [stage_succ hevent]
  cases hstage : run.stage call now with
  | asked =>
    rw [Stage.next]
    cases hroot : (run.tree now).canonical ⟨run.text call⟩ with
    | error error => trivial
    | ok root => exact ⟨now, Nat.lt_succ_self now, hevent, hstage, hroot⟩
  | located root =>
    rw [hstage] at hlater hsession
    rw [Stage.next] at hsession ⊢
    cases hfind : (run.session now).find? root with
    | none => exact hlater
    | some kept =>
      rw [hfind] at hsession
      exact ⟨hlater, now, Nat.lt_succ_self now, hevent, by rw [hsession, hfind]⟩
  | missed root =>
    rw [hstage] at hlater
    rw [Stage.next]
    cases hbuild : Session.build (run.tree now) root with
    | error error => trivial
    | ok kept => exact ⟨hlater, now, Nat.lt_succ_self now, hbuild⟩
  | built root kept =>
    rw [hstage] at hlater hsession
    rw [Stage.next] at hsession ⊢
    refine ⟨hlater.1, now, Nat.lt_succ_self now, hevent, ?_⟩
    rw [hsession]
    exact Session.find?_fst_keep _ root kept
  | done root kept =>
    rw [hstage] at hlater
    exact hlater
  | failed error => trivial

/-- Every call of a run is traced. -/
theorem traced (run : Run ι) (call : ι) (now : Nat) :
    run.Traced call now (run.stage call now) := by
  induction now with
  | zero => trivial
  | succ now ih =>
    by_cases hevent : run.event now = .step call
    · exact ih.succ hevent
    · rw [stage_succ_of_ne hevent]
      exact ih.later (Nat.le_succ now)

/-- Every project that is kept was made for its directory. -/
theorem exists_build_of_mem {project : Project}
    (h : (root, project) ∈ (run.session now).projects) :
    ∃ time < now, Session.build (run.tree time) root = .ok ⟨project, project.store⟩ := by
  induction now with
  | zero => cases h
  | succ now ih =>
    rcases run.projects_succ now with hsame | ⟨call, other, kept, -, hstage, -, hmore⟩
    · obtain ⟨time, htime, hbuild⟩ := ih (hsame ▸ h)
      exact ⟨time, by omega, hbuild⟩
    · rw [hmore, List.mem_append, List.mem_singleton] at h
      rcases h with hearlier | hnew
      · obtain ⟨time, htime, hbuild⟩ := ih hearlier
        exact ⟨time, by omega, hbuild⟩
      · cases hnew
        have htraced := run.traced call now
        rw [hstage] at htraced
        obtain ⟨-, time, htime, hbuild⟩ := htraced
        refine ⟨time, by omega, ?_⟩
        rw [hbuild, Session.eq_of_build hbuild]

/-! ### Calls that fail -/

/-- A call that has failed stays so. -/
theorem stage_of_failed {error : SessionError} (h : run.stage call now = .failed error)
    (hlate : now ≤ late) : run.stage call late = .failed error := by
  induction late, hlate using Nat.le_induction with
  | base => exact h
  | succ late _ ih =>
    by_cases hevent : run.event late = .step call
    · rw [stage_succ hevent, ih, Stage.next]
    · rw [stage_succ_of_ne hevent, ih]

/-- A call that has its project keeps it. -/
theorem stage_of_done {kept : KeptProject} (h : run.stage call now = .done root kept)
    (hlate : now ≤ late) : run.stage call late = .done root kept := by
  induction late, hlate using Nat.le_induction with
  | base => exact h
  | succ late _ ih =>
    by_cases hevent : run.event late = .step call
    · rw [stage_succ hevent, ih, Stage.next]
    · rw [stage_succ_of_ne hevent, ih]

/-- No step of a call that fails changes the session. -/
theorem session_succ_of_failed {error : SessionError} {moment : Nat}
    (h : run.stage call now = .failed error) (hevent : run.event moment = .step call) :
    run.session (moment + 1) = run.session moment := by
  rw [session_succ hevent]
  refine Stage.session_next_of_not_built fun root kept hstage => ?_
  rcases Nat.lt_or_ge moment now with hbefore | hafter
  · -- The step behind a project that was made gives it to the call.
    have hdone : ∃ kept, run.stage call (moment + 1) = .done root kept := by
      rw [stage_succ hevent, hstage]
      exact ⟨_, rfl⟩
    obtain ⟨kept, hdone⟩ := hdone
    have hlast := stage_of_done hdone hbefore
    rw [h] at hlast
    cases hlast
  · have hlast := stage_of_failed h hafter
    rw [hstage] at hlast
    cases hlast

/-! ### Calls that succeed -/

end Run

/-- The files let a project be made for a directory: it leads to `root`, which leads to itself and
has a configuration that can be used. -/
structure Usable (tree : FileTree) (text : String) (root : Path) : Prop where
  /-- The directory leads to `root`. -/
  canonical_eq : tree.canonical ⟨text⟩ = .ok root
  /-- This is its own spelling. -/
  canonical_root : tree.canonical root = .ok root
  /-- There is no configuration file, or it can be read and used. -/
  loads : ∃ loaded, Config.load tree root = .ok loaded

/-- Where a call about `root` stands that has taken some steps and has not failed. -/
def Stage.Reached (root : Path) (count : Nat) : Stage → Prop
  | .asked => count = 0
  | .located path => path = root ∧ count = 1
  | .missed path => path = root ∧ count = 2
  | .built path _ => path = root ∧ count = 3
  | .done path _ => path = root
  | .failed _ => False

/-- Where a project can be made a call does not fail with its next step. -/
theorem Stage.Reached.next {tree : FileTree} {text : String} {root : Path} {count : Nat}
    {stage : Stage} (h : stage.Reached root count) (husable : Usable tree text root)
    (session : Session) : (stage.next tree text session).1.Reached root (count + 1) := by
  cases stage with
  | asked =>
    obtain rfl : count = 0 := h
    rw [Stage.next, husable.canonical_eq]
    exact ⟨rfl, rfl⟩
  | located path =>
    obtain ⟨rfl, rfl⟩ := h
    rw [Stage.next]
    cases session.find? path with
    | some kept => rfl
    | none => exact ⟨rfl, rfl⟩
  | missed path =>
    obtain ⟨rfl, rfl⟩ := h
    obtain ⟨loaded, hload⟩ := husable.loads
    rw [Stage.next, Session.build, Config.project_none_of_load husable.canonical_root hload]
    exact ⟨rfl, rfl⟩
  | built path kept =>
    obtain ⟨rfl, rfl⟩ := h
    rfl
  | done path kept => exact h
  | failed error => cases h

namespace Run

variable {run : Run ι} {call : ι} {now late : Nat} {root : Path}

/-- A call whose steps are all taken where a project can be made does not fail. -/
theorem reached_of_usable (hasked : run.stage call now = .asked) (hlate : now ≤ late)
    (husable : ∀ moment, now ≤ moment → moment < late → run.event moment = .step call →
      Usable (run.tree moment) (run.text call) root) :
    ∃ count, run.steps call late = run.steps call now + count ∧
      (run.stage call late).Reached root count := by
  induction late, hlate using Nat.le_induction with
  | base => exact ⟨0, rfl, by rw [hasked]; rfl⟩
  | succ late hle ih =>
    obtain ⟨count, hcount, hreached⟩ := ih fun moment hnow hmoment =>
      husable moment hnow (by omega)
    by_cases hevent : run.event late = .step call
    · refine ⟨count + 1, ?_, ?_⟩
      · rw [steps, hevent]
        simp only [if_pos, hcount]
        omega
      · rw [stage_succ hevent]
        exact hreached.next (husable late hle (Nat.lt_succ_self late) hevent) _
    · refine ⟨count, ?_, ?_⟩
      · rw [steps, ← hcount]
        split
        · next other hother =>
          rw [if_neg]
          rintro rfl
          exact hevent hother
        · rfl
      · rwa [stage_succ_of_ne hevent]

/-- A call that has its project was given the one that is kept for its directory. -/
theorem mem_projects_of_done {kept : KeptProject} (h : run.stage call now = .done root kept) :
    (root, kept.project) ∈ (run.session now).projects := by
  have htraced := run.traced call now
  rw [h] at htraced
  obtain ⟨-, last, hlast, -, hfind⟩ := htraced
  exact (run.projects_prefix hlast).subset (Session.mem_projects_of_find? hfind)

/-- Whatever the order of the steps and however the files change in between, a call that succeeds
is given the project that is kept for its directory without links and dots, and all calls about one
directory are given the same. What is kept only grows, holds no directory twice, and holds a
directory only with a project that was made for it. No step of a call that fails changes what is
kept, and a call whose steps are all taken where a project can be made succeeds. -/
theorem one_project_per_root (run : Run ι) :
    (∀ call time root kept, run.stage call time = .done root kept →
      (∃ first < time, run.Locates call first root) ∧
        (∃ last < time, run.event last = .step call ∧
          (run.session (last + 1)).find? root = some kept) ∧
        ∀ other moment found, run.stage other moment = .done root found →
          found.project = kept.project) ∧
    (∀ time, ((run.session time).projects.map Prod.fst).Nodup ∧
      (∀ later, time ≤ later → (run.session time).projects <+: (run.session later).projects) ∧
        ∀ root project, (root, project) ∈ (run.session time).projects →
          ∃ built < time, Session.build (run.tree built) root = .ok ⟨project, project.store⟩) ∧
    (∀ call time error, run.stage call time = .failed error →
      ∀ moment, run.event moment = .step call → run.session (moment + 1) = run.session moment) ∧
    ∀ call root first last, run.stage call first = .asked → first ≤ last →
      (∀ moment, first ≤ moment → moment < last → run.event moment = .step call →
        Usable (run.tree moment) (run.text call) root) →
      run.steps call first + 4 ≤ run.steps call last →
        ∃ kept, run.stage call last = .done root kept := by
  refine ⟨fun call time root kept hdone => ?_, fun time => ?_, fun call time error hfailed moment =>
    session_succ_of_failed hfailed, fun call root first last hasked horder husable hsteps => ?_⟩
  · have htraced := run.traced call time
    rw [hdone] at htraced
    refine ⟨htraced.1, htraced.2, fun other moment found hfound => ?_⟩
    exact project_eq_of_mem (mem_projects_of_done hdone) (mem_projects_of_done hfound)
  · exact ⟨run.nodup_roots time, fun later => run.projects_prefix,
      fun root project => exists_build_of_mem⟩
  · obtain ⟨count, hcount, hreached⟩ := reached_of_usable hasked horder husable
    cases hstage : run.stage call last with
    | done path kept =>
      rw [hstage] at hreached
      obtain rfl : path = root := hreached
      exact ⟨kept, rfl⟩
    | asked =>
      rw [hstage] at hreached
      have hzero : count = 0 := hreached
      omega
    | located path | missed path | built path kept =>
      rw [hstage] at hreached
      obtain ⟨-, hfew⟩ := hreached
      omega
    | failed error =>
      rw [hstage] at hreached
      cases hreached

end Run

/-! ### Two calls and a broken configuration -/

/-- The root with a dot behind it leads to the root. -/
theorem canonical_dot (text : String) : (configured text).canonical ⟨"/."⟩ = .ok ⟨"/"⟩ := by
  have hpieces : List.splitOn '/' ['/', '.'] = [[], ['.']] := by decide
  have hlength : ¬byteLength ['/', '.'] > FileTree.greatestPath := by decide
  simp [FileTree.canonical, FileTree.resolve, FileTree.reach, Path.isAbsolute, FileTree.walk,
    hpieces, hlength, Except.map]
  decide

/-- A configuration of the file that can be used lets a project be made. -/
theorem exists_build {text : String} {config : Config}
    (hread : (Config.read text).toOption = some config) (hcheck : config.check.isOk = true) :
    (∃ loaded, Config.load (configured text) ⟨"/"⟩ = .ok loaded) ∧
      ∃ kept, Session.build (configured text) ⟨"/"⟩ = .ok kept ∧ kept.project.config = config := by
  have hread' := Config.read_eq_ok hread
  have hcheck' := Config.check_eq_ok hcheck
  have hload := configured.load_eq hread'
  rw [hcheck'] at hload
  obtain ⟨project, hproject, hconfig⟩ :=
    @configured.exists_project _ _ Overrides.none hread' hcheck' hcheck'
  refine ⟨⟨_, hload⟩, ⟨project, project.store⟩, ?_, hconfig⟩
  rw [Session.build, hproject]
  rfl

/-- A run in which a call fails, the configuration is repaired, and two calls make a project,
between which the configuration is edited. -/
def racingCalls : Run Nat where
  start := configured (inLanguage " ")
  text := fun call => if call = 1 then "/." else "/"
  event := fun time =>
    let events : List (Event Nat) :=
      [.step 0, .step 0, .step 0, .change (configured (inLanguage "de")), .step 1, .step 1,
        .step 2, .step 2, .step 1, .change (configured (inLanguage "fr")), .step 2, .step 2,
        .step 1]
    events[time]?.getD (.step 0)

/-- The slower call is given the project of the faster one, although it has made another one, and
the call that came before the repair has left nothing behind. -/
theorem one_project_of_racing_calls :
    let run := racingCalls
    ∃ error made kept found, run.stage 0 3 = .failed error ∧ run.session 3 = run.session 2 ∧
      run.stage 1 12 = .built ⟨"/"⟩ made ∧ made.project.config.inlineLanguage = "de" ∧
      run.stage 2 12 = .done ⟨"/"⟩ kept ∧ run.stage 1 13 = .done ⟨"/"⟩ found ∧
      kept.project.config.inlineLanguage = "fr" ∧ found.project = kept.project ∧
      (run.session 12).projects <+: (run.session 13).projects := by
  intro run
  obtain ⟨hdone, hkept, hfailed, husable⟩ := run.one_project_per_root
  have hbroken : Session.build (configured (inLanguage " ")) ⟨"/"⟩ =
      .error (.noProject (.noConfig (.invalid (.blank .inlineLanguage)))) := by
    have hread : Config.read (inLanguage " ") =
        .ok { Config.default with inlineLanguage := " " } := Config.read_eq_ok (by decide +kernel)
    have hcheck : ({ Config.default with inlineLanguage := " " } : Config).check =
        .error (.blank .inlineLanguage) := rfl
    have hload := configured.load_eq hread
    rw [hcheck] at hload
    simp only [Session.build, FileTree.project, configured.canonical_root, Except.mapError, bind,
      Except.bind, hload, Except.map]
  obtain ⟨⟨old, hold⟩, made, hmade, hmade'⟩ := @exists_build (inLanguage "de")
    { Config.default with inlineLanguage := "de" } (by decide +kernel) (by decide +kernel)
  obtain ⟨⟨new, hnew⟩, kept, hbuilt, hbuilt'⟩ := @exists_build (inLanguage "fr")
    { Config.default with inlineLanguage := "fr" } (by decide +kernel) (by decide +kernel)
  have hfirst : run.stage 0 3 =
      .failed (.noProject (.noConfig (.invalid (.blank .inlineLanguage)))) := by
    simp [Run.stage, Run.state, State.after, run, racingCalls, Stage.next,
      configured.canonical_root, Session.find?, Session.start, hbroken]
  have hslow : run.stage 1 12 = .built ⟨"/"⟩ made := by
    simp [Run.stage, Run.state, State.after, run, racingCalls, Stage.next,
      configured.canonical_root, canonical_dot, Session.find?, Session.start, hbroken, hmade]
  have hfast : run.stage 2 12 = .done ⟨"/"⟩ kept := by
    simp [Run.stage, Run.state, State.after, run, racingCalls, Stage.next,
      configured.canonical_root, canonical_dot, Session.find?, Session.start, hbroken, hmade,
      hbuilt, Session.keep]
  have hlast : ∃ found, run.stage 1 13 = .done ⟨"/"⟩ found := by
    refine husable 1 ⟨"/"⟩ 4 13 ?_ (by omega) ?_ ?_
    · simp [Run.stage, Run.state, State.after, run, racingCalls]
    · intro moment hafter hbefore hevent
      have hfiles : run.tree moment = configured (inLanguage "de") ∨
          run.tree moment = configured (inLanguage "fr") := by
        interval_cases moment <;> simp [Run.tree, Run.state, State.after, run, racingCalls]
      rcases hfiles with hfiles | hfiles
      · exact hfiles ▸ ⟨canonical_dot _, configured.canonical_root _, old, hold⟩
      · exact hfiles ▸ ⟨canonical_dot _, configured.canonical_root _, new, hnew⟩
    · decide
  obtain ⟨found, hfound⟩ := hlast
  refine ⟨_, made, kept, found, hfirst, hfailed 0 3 _ hfirst 2 rfl, hslow, by rw [hmade'], hfast,
    hfound, by rw [hbuilt'], (hdone 2 12 _ kept hfast).2.2 1 13 found hfound,
    (hkept 12).2.1 13 (by omega)⟩

end Racing

end KeyLens
