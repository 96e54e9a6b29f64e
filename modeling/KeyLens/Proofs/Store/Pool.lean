import KeyLens.Proofs.Store.Steps
import KeyLens.Proofs.Store.Tasks

/-!
# Tasks on one cache

Workers carry out tasks on a cache that they share, and the steps of their look-ups alternate in any
order. As long as the files stay as they are, each worker ends with what its task finds in the
files, whatever the others do, and every step of its own brings it closer to its end.
-/

namespace KeyLens

open Interleaving (Stage)

variable {provider : Provider} {path : Path} {cache : Cache}

namespace Interleaving.Stage

/-- What a look-up knows of the files at a stage is true. -/
def IsTrue (provider : Provider) (path : Path) : Stage → Prop
  | .asked => True
  | .stamped stamp | .missed stamp => provider.stamp? path = some stamp
  | .loaded stamp document =>
    provider.stamp? path = some stamp ∧ provider.read path = .ok document
  | .absent => provider.document? path = none
  | .done found => provider.document? path = found

/-- The greatest number of steps that a look-up takes from a stage. -/
def left : Stage → Nat
  | .asked => 4
  | .stamped _ => 3
  | .missed _ => 2
  | .loaded _ _ | .absent | .done _ => 1

/-- A look-up takes at least one more step from each stage. -/
theorem left_pos (stage : Stage) : 0 < stage.left := by
  cases stage <;> simp [left]

/-- A step of a look-up keeps what it knows true, and puts only what was read from the files. -/
theorem isTrue_next {stage : Stage} (h : stage.IsTrue provider path)
    (hread : cache.ReadDuring [provider]) (hfaithful : StampFaithful [provider]) :
    (stage.next provider path cache).1.IsTrue provider path ∧
      (stage.next provider path cache).2.ReadDuring [provider] := by
  have hmoment : provider ∈ [provider] := List.mem_singleton_self provider
  cases stage with
  | asked =>
    rw [next]
    cases hstamp : provider.stamp? path with
    | none => exact ⟨by simp [IsTrue, Provider.document?, hstamp], hread⟩
    | some stamp => exact ⟨hstamp, hread⟩
  | stamped stamp =>
    rw [next]
    cases hhit : (cache.find? path).filter fun cached => cached.stamp == stamp with
    | none => exact ⟨h, hread⟩
    | some cached =>
      obtain ⟨hfind, hcached⟩ := Option.filter_eq_some_iff.mp hhit
      have hsame : cached.stamp = stamp := by simpa using hcached
      have hstamp : provider.stamp? path = some cached.stamp := by rw [hsame]; exact h
      exact ⟨hread.document_eq hfaithful hmoment hfind hstamp, hread⟩
  | missed stamp =>
    have hstamp : provider.stamp? path = some stamp := h
    rw [next]
    cases hdocument : provider.read path with
    | ok document => exact ⟨⟨hstamp, hdocument⟩, hread⟩
    | error failure =>
      refine ⟨?_, hread⟩
      simp [IsTrue, Provider.document?, hstamp, hdocument, Except.toOption]
  | loaded stamp document =>
    obtain ⟨hstamp, hdocument⟩ := h
    refine ⟨?_, hread.insert hmoment hstamp hdocument⟩
    simp [next, IsTrue, Provider.document?, hstamp, hdocument, Except.toOption]
  | absent => exact ⟨h, hread.erase path⟩
  | done found => exact ⟨h, hread⟩

/-- A step of a look-up ends it or leaves fewer steps. -/
theorem left_next (stage : Stage) (provider : Provider) (path : Path) (cache : Cache) :
    (∃ found, (stage.next provider path cache).1 = .done found) ∨
      (stage.next provider path cache).1.left < stage.left := by
  cases stage with
  | asked =>
    rw [next]
    cases provider.stamp? path <;> exact Or.inr (by simp [left])
  | stamped stamp =>
    rw [next]
    cases (cache.find? path).filter fun cached => cached.stamp == stamp with
    | none => exact Or.inr (by simp [left])
    | some cached => exact Or.inl ⟨_, rfl⟩
  | missed stamp =>
    rw [next]
    cases provider.read path <;> exact Or.inr (by simp [left])
  | loaded stamp document => exact Or.inl ⟨_, rfl⟩
  | absent => exact Or.inl ⟨_, rfl⟩
  | done found => exact Or.inl ⟨found, rfl⟩

end Interleaving.Stage

/-! ### Workers -/

/-- One who carries out a task, and the stage of the look-up with which the task goes on. -/
structure Worker (α : Type) where
  /-- What is left of the task. -/
  task : Task α
  /-- Where the first look-up of the task stands. -/
  stage : Stage

namespace Worker

variable {α : Type} {worker : Worker α} {result : α}

/-- One who starts with a task. -/
def start (task : Task α) : Worker α := ⟨task, .asked⟩

/-- The result of a task that has ended. -/
def result? (worker : Worker α) : Option α :=
  match worker.task with
  | .done result => some result
  | .load _ _ => none

/-- Carries out one step of a look-up; with the last one the task goes on. -/
def next (provider : Provider) (cache : Cache) (worker : Worker α) : Worker α × Cache :=
  match worker.task with
  | .done _ => (worker, cache)
  | .load path rest =>
    let after := worker.stage.next provider path cache
    match after.1 with
    | .done found => (start (rest found), after.2)
    | stage => (⟨.load path rest, stage⟩, after.2)

/-- What a worker knows of the files is true, and the task leads to a result. -/
def LeadsTo (provider : Provider) (result : α) (worker : Worker α) : Prop :=
  worker.task.value provider = result ∧
    match worker.task with
    | .done _ => True
    | .load path _ => worker.stage.IsTrue provider path

/-- The greatest number of steps that a worker takes. -/
def left (provider : Provider) (worker : Worker α) : Nat :=
  match worker.task with
  | .done _ => 0
  | .load path rest => worker.stage.left + 4 * (rest (provider.document? path)).loads provider

/-- One who starts with a task is led to what the files hold. -/
theorem leadsTo_start (provider : Provider) (task : Task α) :
    (start task).LeadsTo provider (task.value provider) := by
  cases task with
  | done result => exact ⟨rfl, trivial⟩
  | load path rest => exact ⟨rfl, trivial⟩

/-- One who starts with a task takes at most four steps for each look-up. -/
theorem left_start (provider : Provider) (task : Task α) :
    (start task).left provider = 4 * task.loads provider := by
  cases task with
  | done result => rfl
  | load path rest =>
    simp only [start, left, Stage.left, Task.loads]
    omega

/-- A step of a worker leads to the same result, and takes one of the steps that are left. -/
theorem LeadsTo.next (h : worker.LeadsTo provider result) (hread : cache.ReadDuring [provider])
    (hfaithful : StampFaithful [provider]) :
    (worker.next provider cache).1.LeadsTo provider result ∧
      (worker.next provider cache).2.ReadDuring [provider] ∧
      (worker.next provider cache).1.left provider ≤ worker.left provider - 1 := by
  obtain ⟨task, stage⟩ := worker
  cases task with
  | done final => exact ⟨h, hread, Nat.le_refl 0⟩
  | load path rest =>
    obtain ⟨hvalue, htrue⟩ := h
    obtain ⟨hafter, hcache⟩ := Stage.isTrue_next htrue hread hfaithful
    have hleft := stage.left_next provider path cache
    simp only [Worker.next]
    generalize stage.next provider path cache = after at hafter hcache hleft ⊢
    obtain ⟨reached, kept⟩ := after
    cases reached with
    | done found =>
      have hfound : provider.document? path = found := hafter
      have hpos := stage.left_pos
      refine ⟨?_, hcache, ?_⟩
      · rw [← hvalue, Task.value, hfound]
        exact leadsTo_start provider (rest found)
      · have hstart := left_start provider (rest found)
        simp only [left] at hstart ⊢
        rw [hstart, hfound]
        omega
    | asked | stamped | missed | loaded | absent =>
      have hless := hleft.resolve_left (by simp)
      refine ⟨⟨hvalue, hafter⟩, hcache, ?_⟩
      simp only [left] at hless ⊢
      omega

/-- A worker with no steps left has ended with the result. -/
theorem LeadsTo.result?_eq (h : worker.LeadsTo provider result) (hleft : worker.left provider = 0) :
    worker.result? = some result := by
  obtain ⟨task, stage⟩ := worker
  cases task with
  | done final => exact congrArg some h.1
  | load path rest =>
    have hpos := stage.left_pos
    simp only [left] at hleft
    omega

/-- A worker whose task has ended has ended with the result. -/
theorem LeadsTo.eq_of_result? (h : worker.LeadsTo provider result) {final : α}
    (hfinal : worker.result? = some final) : final = result := by
  obtain ⟨task, stage⟩ := worker
  cases task with
  | done other =>
    cases hfinal
    exact h.1
  | load path rest => cases hfinal

end Worker

/-! ### Pools -/

/-- Workers on one cache. -/
structure Pool (ι α : Type) where
  /-- The cache that all workers share. -/
  cache : Cache
  /-- The workers. -/
  worker : ι → Worker α

namespace Pool

variable {ι α : Type} {task : ι → Task α} {pool : Pool ι α}

/-- A pool in which all workers start. -/
def start (cache : Cache) (task : ι → Task α) : Pool ι α :=
  ⟨cache, fun own => Worker.start (task own)⟩

/-- All workers are led to what the files hold, on a cache that was read from the files. -/
structure Sound (provider : Provider) (task : ι → Task α) (pool : Pool ι α) : Prop where
  /-- All workers are led to what the files hold. -/
  leadsTo : ∀ own, (pool.worker own).LeadsTo provider ((task own).value provider)
  /-- All documents of the cache were read from the files. -/
  readDuring : pool.cache.ReadDuring [provider]

/-- A pool on a cache that was read from the files starts soundly. -/
theorem sound_start (hread : cache.ReadDuring [provider]) (task : ι → Task α) :
    (start cache task).Sound provider task where
  leadsTo := fun own => Worker.leadsTo_start provider (task own)
  readDuring := hread

/-- The results of some of the tasks; none as long as one of them has not ended. -/
def results? (pool : Pool ι α) : List ι → Option (List α)
  | [] => some []
  | own :: rest =>
    (pool.worker own).result?.bind fun result => (pool.results? rest).map (result :: ·)

variable [DecidableEq ι]

/-- One of the workers carries out a step. -/
def step (provider : Provider) (pool : Pool ι α) (own : ι) : Pool ι α :=
  let after := (pool.worker own).next provider pool.cache
  ⟨after.2, fun other => if other = own then after.1 else pool.worker other⟩

/-- The workers carry out steps in the order of a schedule. -/
def run (provider : Provider) (pool : Pool ι α) (schedule : List ι) : Pool ι α :=
  schedule.foldl (step provider) pool

/-- A step keeps a pool sound; the worker who takes it has fewer steps left, and all others have as
many as before. -/
theorem Sound.step (h : pool.Sound provider task) (hfaithful : StampFaithful [provider])
    (own : ι) :
    (pool.step provider own).Sound provider task ∧
      ∀ other, ((pool.step provider own).worker other).left provider ≤
        (pool.worker other).left provider - if other = own then 1 else 0 := by
  obtain ⟨hleads, hread, hleft⟩ := (h.leadsTo own).next h.readDuring hfaithful
  refine ⟨⟨fun other => ?_, hread⟩, fun other => ?_⟩
  · by_cases hown : other = own
    · subst hown
      simpa only [Pool.step, if_true] using hleads
    · simpa only [Pool.step, if_neg hown] using h.leadsTo other
  · by_cases hown : other = own
    · subst hown
      simpa only [Pool.step, if_true] using hleft
    · simp only [Pool.step, if_neg hown, Nat.sub_zero, Nat.le_refl]

/-- A schedule keeps a pool sound, and each worker takes as many steps as the schedule gives it. -/
theorem Sound.run (h : pool.Sound provider task) (hfaithful : StampFaithful [provider])
    (schedule : List ι) :
    (pool.run provider schedule).Sound provider task ∧
      ∀ own, ((pool.run provider schedule).worker own).left provider ≤
        (pool.worker own).left provider - schedule.count own := by
  induction schedule generalizing pool with
  | nil => exact ⟨h, fun own => Nat.le_refl _⟩
  | cons first rest ih =>
    obtain ⟨hstep, hleft⟩ := h.step hfaithful first
    obtain ⟨hrun, hrest⟩ := ih hstep
    refine ⟨hrun, fun own => ?_⟩
    have hown := hrest own
    have hfirst := hleft own
    rw [Pool.run, List.foldl_cons, ← Pool.run, List.count_cons]
    by_cases hsame : own = first
    · subst hsame
      simp only [if_true, beq_self_eq_true] at hfirst ⊢
      omega
    · have hother : (first == own) = false := by simpa using Ne.symm hsame
      simp only [if_neg hsame, hother, Bool.false_eq_true, if_false] at hfirst ⊢
      omega

/-- Whatever the schedule, a task that has ended has ended with what the files hold. -/
theorem result?_run_eq (hfaithful : StampFaithful [provider]) (hread : cache.ReadDuring [provider])
    (task : ι → Task α) (schedule : List ι) {own : ι} {result : α}
    (h : (((start cache task).run provider schedule).worker own).result? = some result) :
    result = (task own).value provider := by
  have hleads := ((sound_start hread task).run hfaithful schedule).1.leadsTo own
  exact hleads.eq_of_result? h

/-- A task has ended as soon as the schedule has given it four steps for each of its look-ups. -/
theorem result?_run_of_le_count (hfaithful : StampFaithful [provider])
    (hread : cache.ReadDuring [provider]) (task : ι → Task α) {schedule : List ι} {own : ι}
    (h : 4 * (task own).loads provider ≤ schedule.count own) :
    (((start cache task).run provider schedule).worker own).result? =
      some ((task own).value provider) := by
  obtain ⟨hsound, hleft⟩ := (sound_start hread task).run hfaithful schedule
  refine (hsound.leadsTo own).result?_eq ?_
  have hown := hleft own
  have hstart : ((start cache task).worker own).left provider = 4 * (task own).loads provider :=
    Worker.left_start provider (task own)
  omega

/-- Whatever the schedule, the results of tasks are what the files hold. -/
theorem results?_run_eq (hfaithful : StampFaithful [provider]) (hread : cache.ReadDuring [provider])
    (task : ι → Task α) (schedule : List ι) {own : List ι} {results : List α}
    (h : ((start cache task).run provider schedule).results? own = some results) :
    results = own.map fun one => (task one).value provider := by
  induction own generalizing results with
  | nil =>
    cases h
    rfl
  | cons first rest ih =>
    obtain ⟨result, hfirst, hrest⟩ := Option.bind_eq_some_iff.mp h
    obtain ⟨others, hothers, rfl⟩ := Option.map_eq_some_iff.mp hrest
    rw [List.map_cons, ← ih hothers, result?_run_eq hfaithful hread task schedule hfirst]

/-- There are results as soon as the schedule has given each of the tasks four steps for each of its
look-ups. -/
theorem results?_run_of_le_count (hfaithful : StampFaithful [provider])
    (hread : cache.ReadDuring [provider]) (task : ι → Task α) {schedule own : List ι}
    (h : ∀ one ∈ own, 4 * (task one).loads provider ≤ schedule.count one) :
    ((start cache task).run provider schedule).results? own =
      some (own.map fun one => (task one).value provider) := by
  induction own with
  | nil => rfl
  | cons first rest ih =>
    obtain ⟨hfirst, hrest⟩ := List.forall_mem_cons.mp h
    rw [results?, result?_run_of_le_count hfaithful hread task hfirst, Option.bind_some, ih hrest]
    rfl

end Pool

end KeyLens
