import KeyLens.Proofs.Store.Lookups
import Mathlib.Data.List.Dedup
import Mathlib.Data.List.Induction
import Mathlib.Data.List.Perm.Basic

/-!
# What is kept

Files change between the operations of a store, in any order and in any way, and stamps need not be
faithful. What is kept for a path is nevertheless told by the look-ups since all documents were last
forgotten: it is what the last look-up of that path gave, under the stamp that was reported to it.
A file is therefore read anew only under a stamp with which the last look-up gave no document.
-/

namespace KeyLens

namespace Cache

variable {cache : Cache} {path : Path}

/-- The steps of the paths for which a document is kept. -/
def steps (cache : Cache) : List (List Component) :=
  cache.entries.map Prod.fst

/-- Something is kept for a path exactly if it is kept for its steps. -/
theorem mem_steps_iff : path.components ∈ cache.steps ↔ (cache.find? path).isSome = true := by
  rw [Option.isSome_iff_ne_none, find?, Ne, List.lookup_eq_none_iff, steps, List.mem_map]
  simp only [bne_iff_ne, ne_eq, not_forall, Decidable.not_not]
  constructor
  · rintro ⟨entry, hentry, hsteps⟩
    exact ⟨entry, hentry, hsteps.symm⟩
  · rintro ⟨entry, hentry, hsteps⟩
    exact ⟨entry, hentry, hsteps.symm⟩

/-- Erasing a path erases its steps. -/
theorem steps_erase (cache : Cache) (path : Path) :
    (cache.erase path).steps = cache.steps.filter (· != path.components) := by
  rw [steps, steps, erase, List.filter_map]
  rfl

/-- Putting a document for a path puts its steps. -/
theorem steps_insert (cache : Cache) (path : Path) (cached : CachedDocument) :
    (cache.insert path cached).steps =
      path.components :: cache.steps.filter (· != path.components) := by
  rw [← steps_erase]
  rfl

/-- As many documents are kept as there are paths for which one is kept. -/
theorem size_eq (cache : Cache) : cache.size = cache.steps.length :=
  (List.length_map _).symm

end Cache

namespace Lookup

variable {lookup : Lookup} {lookups before stretch after : List Lookup} {first last : Cache}
  {path : Path}

/-- Whether the file of a look-up can be read. -/
def isReadable (lookup : Lookup) : Bool :=
  (lookup.files.read lookup.path).isOk

/-- Whether a look-up reads its file. -/
def reads (lookup : Lookup) : Bool :=
  lookup.loaded.accesses.contains (.read lookup.path)

/-- A look-up reads its file exactly if it misses. -/
theorem reads_eq_misses (lookup : Lookup) : lookup.reads = lookup.misses := by
  rw [reads, accesses_eq]
  cases lookup.misses <;> simp

/-- Whether a look-up is one of a path, however the path is spelled. -/
def isOf (path : Path) (lookup : Lookup) : Bool :=
  lookup.path.components == path.components

/-- The last look-up of a path in a row. -/
def lastOf? (path : Path) (lookups : List Lookup) : Option Lookup :=
  (lookups.filter (isOf path)).getLast?

/-- The steps of the paths whose last look-up in a row gave a document. -/
def givenSteps (lookups : List Lookup) : List (List Component) :=
  ((lookups.filter fun lookup => (lastOf? lookup.path lookups).any fun last =>
    last.document?.isSome).map fun lookup => lookup.path.components).dedup

/-- The last look-up of a path in two rows is that in the later row, if there is one. -/
theorem lastOf?_append (path : Path) (before after : List Lookup) :
    lastOf? path (before ++ after) = (lastOf? path after).or (lastOf? path before) := by
  rw [lastOf?, List.filter_append, List.getLast?_append]
  rfl

/-- The last look-up of a path is one of the path. -/
theorem of_lastOf? (h : lastOf? path lookups = some lookup) :
    lookup ∈ lookups ∧ isOf path lookup = true :=
  List.mem_filter.mp (List.mem_of_getLast? h)

/-- Paths with the same steps have the same look-ups. -/
theorem lastOf?_congr {other : Path} (h : other.components = path.components)
    (lookups : List Lookup) : lastOf? other lookups = lastOf? path lookups := by
  unfold lastOf? isOf
  rw [h]

/-- What a row of look-ups keeps for a path is what the last one of the path keeps, if there is
one. -/
theorem Chained.find?_eq (h : Chained first lookups last) (path : Path) :
    last.find? path = ((lastOf? path lookups).map kept?).getD (first.find? path) := by
  induction h with
  | nil cache => rfl
  | @cons lookup rest last _ ih =>
    rw [← List.singleton_append, lastOf?_append, ih, find?_loaded]
    cases lastOf? path rest with
    | some later => rfl
    | none =>
      rw [Option.none_or, Option.map_none, Option.getD_none]
      by_cases hsteps : lookup.path.components = path.components
      · simp [lastOf?, isOf, hsteps]
      · simp [lastOf?, isOf, hsteps, Ne.symm hsteps]

/-- After a row of look-ups that starts with nothing kept, a document is kept for a path exactly if
the last look-up of the path gave it under its stamp. -/
theorem Chained.find?_eq_some_iff (h : Chained Cache.empty lookups last) {path : Path}
    {cached : CachedDocument} :
    last.find? path = some cached ↔ ∃ lookup, lastOf? path lookups = some lookup ∧
      lookup.stamp? = some cached.stamp ∧ lookup.document? = some cached.document := by
  simp only [h.find?_eq, ← kept?_eq_some_iff]
  cases lastOf? path lookups with
  | none => simp [Cache.find?, Cache.empty]
  | some lookup => simp

/-- After such a row something is kept for a path exactly if the last look-up of the path gave a
document. -/
theorem Chained.isSome_find?_iff (h : Chained Cache.empty lookups last) {path : Path} :
    (last.find? path).isSome = true ↔ ∃ lookup, lastOf? path lookups = some lookup ∧
      lookup.document?.isSome = true := by
  constructor
  · intro hkept
    obtain ⟨cached, hcached⟩ := Option.isSome_iff_exists.mp hkept
    obtain ⟨lookup, hlast, -, hdocument⟩ := h.find?_eq_some_iff.mp hcached
    exact ⟨lookup, hlast, by rw [hdocument, Option.isSome_some]⟩
  · rintro ⟨lookup, hlast, hgiven⟩
    obtain ⟨document, hdocument⟩ := Option.isSome_iff_exists.mp hgiven
    obtain ⟨stamp, hstamp⟩ := exists_stamp?_of_document? hdocument
    have hkept : last.find? path = some ⟨stamp, document⟩ :=
      h.find?_eq_some_iff.mpr ⟨lookup, hlast, hstamp, hdocument⟩
    rw [hkept, Option.isSome_some]

/-! ### The number of documents -/

/-- A look-up puts or erases at most the steps of its path, and puts none twice. -/
theorem nodup_steps_loaded (h : lookup.cache.steps.Nodup) : lookup.loaded.cache.steps.Nodup ∧
    ∀ steps ∈ lookup.loaded.cache.steps,
      steps = lookup.path.components ∨ steps ∈ lookup.cache.steps := by
  have hexits := lookup.exits
  generalize lookup.loaded = loaded at hexits
  cases hexits with
  | absent _ | unreadable _ _ =>
    rw [Cache.steps_erase]
    exact ⟨h.filter _, fun steps hsteps => Or.inr (List.mem_filter.mp hsteps).1⟩
  | kept _ _ => exact ⟨h, fun steps hsteps => Or.inr hsteps⟩
  | read _ _ _ =>
    rw [Cache.steps_insert]
    refine ⟨List.nodup_cons.mpr ⟨by simp, h.filter _⟩, fun steps hsteps => ?_⟩
    exact (List.mem_cons.mp hsteps).imp_right fun hrest => (List.mem_filter.mp hrest).1

/-- A row of look-ups keeps no steps twice, and puts only those of its paths. -/
theorem Chained.nodup_steps (h : Chained first lookups last) (hfirst : first.steps.Nodup) :
    last.steps.Nodup ∧ ∀ steps ∈ last.steps,
      (∃ lookup ∈ lookups, lookup.path.components = steps) ∨ steps ∈ first.steps := by
  induction h with
  | nil cache => exact ⟨hfirst, fun steps hsteps => Or.inr hsteps⟩
  | @cons lookup rest last _ ih =>
    obtain ⟨hloaded, hput⟩ := nodup_steps_loaded hfirst
    obtain ⟨hlast, hrest⟩ := ih hloaded
    refine ⟨hlast, fun steps hsteps => ?_⟩
    rcases hrest steps hsteps with ⟨other, hother, hsame⟩ | hbefore
    · exact Or.inl ⟨other, List.mem_cons_of_mem _ hother, hsame⟩
    · exact (hput steps hbefore).imp_left fun hsame => ⟨lookup, List.mem_cons_self, hsame.symm⟩

/-- After a row of look-ups that starts with nothing kept, as many documents are kept as there are
paths whose last look-up gave one. -/
theorem Chained.size_eq (h : Chained Cache.empty lookups last) :
    last.size = (givenSteps lookups).length := by
  obtain ⟨hnodup, hput⟩ := h.nodup_steps (by simp [Cache.steps, Cache.empty])
  rw [Cache.size_eq]
  refine List.Perm.length_eq ((List.perm_ext_iff_of_nodup hnodup (List.nodup_dedup _)).mpr ?_)
  have hgiven : ∀ path : Path, path.components ∈ last.steps ↔
      ((lastOf? path lookups).any fun last => last.document?.isSome) = true := by
    intro path
    rw [Cache.mem_steps_iff, h.isSome_find?_iff, Option.any_eq_true]
  intro steps
  rw [List.mem_dedup, List.mem_map]
  constructor
  · intro hsteps
    rcases hput steps hsteps with ⟨lookup, hlookup, rfl⟩ | hempty
    · exact ⟨lookup, List.mem_filter.mpr ⟨hlookup, (hgiven lookup.path).mp hsteps⟩, rfl⟩
    · cases hempty
  · rintro ⟨lookup, hlookup, rfl⟩
    exact (hgiven lookup.path).mpr (List.mem_filter.mp hlookup).2

/-! ### The number of reads -/

/-- In a row that starts with nothing kept, a look-up reads its file exactly if the last look-up of
the path before it gave no document under its stamp. -/
theorem Chained.reads_iff (h : Chained Cache.empty (before ++ lookup :: after) last) :
    lookup.reads = true ↔ ∃ stamp, lookup.stamp? = some stamp ∧
      ∀ earlier, lastOf? lookup.path before = some earlier → earlier.document?.isSome = true →
        earlier.stamp? ≠ some stamp := by
  obtain ⟨middle, hbefore, hrest⟩ := h.of_append
  cases hrest
  rw [reads_eq_misses, misses_eq_true_iff]
  refine exists_congr fun stamp => and_congr_right fun _ => ⟨fun hother earlier hlast hgiven => ?_,
    fun hother cached hkept hsame => ?_⟩
  · intro hstamp
    obtain ⟨document, hdocument⟩ := Option.isSome_iff_exists.mp hgiven
    have hkept : lookup.cache.find? lookup.path = some ⟨stamp, document⟩ :=
      hbefore.find?_eq_some_iff.mpr ⟨earlier, hlast, hstamp, hdocument⟩
    exact hother _ hkept rfl
  · obtain ⟨earlier, hlast, hstamp, hdocument⟩ := hbefore.find?_eq_some_iff.mp hkept
    exact hother earlier hlast (by rw [hdocument, Option.isSome_some]) (by rw [hstamp, hsame])

/-- A look-up does not read its file if the last one of the path before it gave a document under its
stamp. -/
theorem Chained.reads_eq_false (h : Chained Cache.empty (before ++ lookup :: after) last)
    {stamp : Stamp} {earlier : Lookup} (hstamp : lookup.stamp? = some stamp)
    (hlast : lastOf? lookup.path before = some earlier) (hearlier : earlier.stamp? = some stamp)
    (hgiven : earlier.document?.isSome = true) : lookup.reads = false := by
  rw [Bool.eq_false_iff]
  intro hreads
  obtain ⟨reported, hreported, hother⟩ := h.reads_iff.mp hreads
  rw [hstamp, Option.some_inj] at hreported
  exact hother earlier hlast hgiven (hreported ▸ hearlier)

/-- In a stretch in which the stamp of a path stays the same and its file can be read, the file is
read at most once. -/
theorem Chained.length_reads_le_one {stamp : Stamp}
    (h : Chained Cache.empty (before ++ (stretch ++ after)) last)
    (hsteady : ∀ lookup ∈ stretch, isOf path lookup = true →
      lookup.stamp? = some stamp ∧ lookup.isReadable = true) :
    (stretch.filter fun lookup => isOf path lookup && lookup.reads).length ≤ 1 := by
  induction stretch using List.reverseRecOn generalizing after with
  | nil => exact Nat.zero_le 1
  | append_singleton rest lookup ih =>
    rw [List.append_assoc] at h
    have hrest := ih h fun other hother => hsteady other (List.mem_append_left _ hother)
    rw [List.filter_append, List.length_append]
    by_cases hof : isOf path lookup = true
    · cases hlast : lastOf? path rest with
      | none =>
        -- It is the first one of the path in the stretch.
        have hnone : ∀ other ∈ rest, ¬(isOf path other && other.reads) = true := by
          intro other hother hreads
          have hother' :=
            List.filter_eq_nil_iff.mp (List.getLast?_eq_none_iff.mp hlast) other hother
          exact hother' (Bool.and_eq_true_iff.mp hreads).1
        rw [List.filter_eq_nil_iff.mpr hnone, List.length_nil, Nat.zero_add]
        exact List.length_filter_le _ [lookup]
      | some earlier =>
        -- The one before it gave a document under the same stamp.
        obtain ⟨hearlier, hof'⟩ := of_lastOf? hlast
        obtain ⟨hstamp, hreadable⟩ := hsteady earlier (List.mem_append_left _ hearlier) hof'
        obtain ⟨hstamp', -⟩ := hsteady lookup (List.mem_append_right _ List.mem_cons_self) hof
        have hlast' : lastOf? lookup.path (before ++ rest) = some earlier := by
          rw [lastOf?_congr (eq_of_beq hof), lastOf?_append, hlast, Option.some_or]
        rw [← List.append_assoc] at h
        have hreads := h.reads_eq_false hstamp' hlast' hstamp
          (isSome_document?_of_readable hstamp hreadable)
        simpa [hreads] using hrest
    · simpa [hof] using hrest

/-- In a row that starts with nothing kept, every look-up under a stamp reads the file if no look-up
of the path under that stamp finds it readable. -/
theorem Chained.reads_of_never_readable {stamp : Stamp} (h : Chained Cache.empty lookups last)
    (hnever : ∀ lookup ∈ lookups, isOf path lookup = true → lookup.stamp? = some stamp →
      lookup.isReadable = false) :
    ∀ lookup ∈ lookups, isOf path lookup = true → lookup.stamp? = some stamp →
      lookup.reads = true ∧ lookup.document? = none := by
  induction lookups using List.reverseRecOn generalizing last with
  | nil => exact fun lookup hlookup => absurd hlookup List.not_mem_nil
  | append_singleton rest lookup ih =>
    obtain ⟨middle, hrest, -⟩ := h.of_append
    have hbefore := ih hrest fun other hother => hnever other (List.mem_append_left _ hother)
    intro other hother hof hstamp
    rcases List.mem_append.mp hother with hother | hother
    · exact hbefore other hother hof hstamp
    · obtain rfl := List.mem_singleton.mp hother
      have hreads : other.reads = true := by
        refine h.reads_iff.mpr ⟨stamp, hstamp, fun earlier hlast hgiven hsame => ?_⟩
        rw [lastOf?_congr (eq_of_beq hof)] at hlast
        obtain ⟨hearlier, hof'⟩ := of_lastOf? hlast
        rw [(hbefore earlier hearlier hof' hsame).2] at hgiven
        cases hgiven
      refine ⟨hreads, document?_eq_none_of_unreadable ?_ ?_⟩
      · rw [← reads_eq_misses, hreads]
      · exact hnever other (List.mem_append_right _ List.mem_cons_self) hof hstamp

end Lookup

/-! ### Runs of a store -/

namespace Store

/-- Where a run of a store stands, with what was done since all documents were last forgotten. -/
structure Trace where
  /-- The files. -/
  files : Provider
  /-- The store. -/
  store : Store
  /-- The look-ups since then, in order. -/
  lookups : List Lookup
  /-- What was asked of the files since then, in order. -/
  accesses : List Access

namespace Trace

/-- A run that starts with nothing kept. -/
def start (localesDir : Option Path) (files : Provider) : Trace :=
  ⟨files, ofDirectory localesDir, [], []⟩

/-- A run after one more event. -/
def next (trace : Trace) : Event → Trace
  | .change files => { trace with files := files }
  | .operation .clear => ⟨trace.files, (trace.store.perform trace.files .clear).store, [], []⟩
  | .operation operation =>
    let outcome := trace.store.perform trace.files operation
    { trace with
      store := outcome.store
      lookups := trace.lookups ++ operation.lookups trace.files trace.store
      accesses := trace.accesses ++ outcome.accesses }

/-- A run after more events. -/
def after (trace : Trace) (events : List Event) : Trace :=
  events.foldl next trace

/-- The look-ups of a run lead from nothing to what its store keeps, and are all that was asked. -/
structure Sound (trace : Trace) : Prop where
  /-- Each look-up is made on what the one before keeps. -/
  chained : Lookup.Chained Cache.empty trace.lookups trace.store.cache
  /-- Nothing is asked but by look-ups. -/
  accesses_eq : trace.accesses = trace.lookups.flatMap fun lookup => lookup.loaded.accesses

/-- An operation other than to forget all documents adds its look-ups. -/
theorem Sound.operation {trace : Trace} (h : trace.Sound) {operation : Operation}
    (hoperation : operation ≠ .clear) :
    Sound ⟨trace.files, (trace.store.perform trace.files operation).store,
      trace.lookups ++ operation.lookups trace.files trace.store,
      trace.accesses ++ (trace.store.perform trace.files operation).accesses⟩ := by
  rw [← perform_task trace.files trace.store hoperation]
  refine ⟨h.chained.append (Task.chained_lookups _ _ _), ?_⟩
  rw [List.flatMap_append, h.accesses_eq, Task.accesses_perform]
  rfl

/-- Every event leaves a run sound. -/
theorem Sound.next {trace : Trace} (h : trace.Sound) (event : Event) :
    (trace.next event).Sound := by
  cases event with
  | change files => exact ⟨h.chained, h.accesses_eq⟩
  | operation operation =>
    cases operation with
    | clear => exact ⟨.nil Cache.empty, rfl⟩
    | resolve _ _ _ | resolveFirst _ _ _ | languages | holders _ _ => exact h.operation (by simp)

/-- Every run is sound. -/
theorem sound_after (localesDir : Option Path) (files : Provider) (events : List Event) :
    ((start localesDir files).after events).Sound := by
  induction events using List.reverseRecOn with
  | nil => exact ⟨.nil Cache.empty, rfl⟩
  | append_singleton events event ih =>
    rw [after, List.foldl_append]
    exact ih.next event

end Trace

/-- Whatever happened in a run: since all documents were last forgotten, all that was asked was
asked by the look-ups. A document is kept for a path exactly if the last look-up of the path gave
one, and it is that document, under the stamp that was reported to that look-up; the number of
documents is that of such paths. While the stamp of a path stays the same and its file can be read,
the file is read at most once. A look-up that is given a stamp reads the file, whether or not that
can be read, unless the last look-up of the path gave a document under the same stamp; so if the
file was never readable under a stamp, every look-up under it reads the file. -/
theorem kept_of_last_lookup (localesDir : Option Path) (files : Provider) (events : List Event) :
    let trace := (Trace.start localesDir files).after events
    trace.accesses = trace.lookups.flatMap (fun lookup => lookup.loaded.accesses) ∧
      (∀ path, (trace.store.cache.find? path).isSome = true ↔
        ∃ lookup, Lookup.lastOf? path trace.lookups = some lookup ∧
          lookup.document?.isSome = true) ∧
      (∀ path cached, trace.store.cache.find? path = some cached →
        ∃ lookup, Lookup.lastOf? path trace.lookups = some lookup ∧
          lookup.stamp? = some cached.stamp ∧ lookup.document? = some cached.document) ∧
      trace.store.cache.size = (Lookup.givenSteps trace.lookups).length ∧
      (∀ path stamp before stretch after, trace.lookups = before ++ (stretch ++ after) →
        (∀ lookup ∈ stretch, Lookup.isOf path lookup = true →
          lookup.stamp? = some stamp ∧ lookup.isReadable = true) →
        (stretch.filter fun lookup => Lookup.isOf path lookup && lookup.reads).length ≤ 1) ∧
      (∀ before lookup after, trace.lookups = before ++ lookup :: after →
        (lookup.reads = true ↔ ∃ stamp, lookup.stamp? = some stamp ∧
          ∀ earlier, Lookup.lastOf? lookup.path before = some earlier →
            earlier.document?.isSome = true → earlier.stamp? ≠ some stamp)) ∧
      ∀ path stamp, (∀ lookup ∈ trace.lookups, Lookup.isOf path lookup = true →
          lookup.stamp? = some stamp → lookup.isReadable = false) →
        ∀ lookup ∈ trace.lookups, Lookup.isOf path lookup = true →
          lookup.stamp? = some stamp → lookup.reads = true := by
  intro trace
  obtain ⟨hchained, haccesses⟩ := Trace.sound_after localesDir files events
  refine ⟨haccesses, fun path => hchained.isSome_find?_iff,
    fun path cached => hchained.find?_eq_some_iff.mp, hchained.size_eq, ?_, ?_, ?_⟩
  · intro path stamp before stretch after hsplit hsteady
    rw [show ((Trace.start localesDir files).after events).lookups = _ from hsplit] at hchained
    exact hchained.length_reads_le_one hsteady
  · intro before lookup after hsplit
    rw [show ((Trace.start localesDir files).after events).lookups = _ from hsplit] at hchained
    exact hchained.reads_iff
  · intro path stamp hnever lookup hlookup hof hstamp
    exact (hchained.reads_of_never_readable hnever lookup hlookup hof hstamp).1

/-- A document is looked up twice, under two spellings of its path, and read once; after it has been
replaced by a file that gives none, it is read by every look-up. -/
theorem reads_of_broken_document :
    let path : Path := ⟨"/locales/en/common.json"⟩
    let files := filesWith path (some (⟨1, 9⟩, [("a", .string "A")]))
    let broken := { filesWith path (some (⟨2, 9⟩, [])) with
      read := fun other => .error (.noObject other) }
    let look : String → Event := fun name => .operation (.resolve name ⟨"a"⟩ "en")
    let trace := (Trace.start (some ⟨"/locales"⟩) files).after
      [look "x", .operation .clear, look "common", look "./common", .change broken, look "common",
        look "common"]
    (∀ lookup ∈ trace.lookups.take 2, Lookup.isOf path lookup = true →
        lookup.stamp? = some ⟨1, 9⟩ ∧ lookup.isReadable = true) ∧
      ((trace.lookups.take 2).filter fun lookup =>
        Lookup.isOf path lookup && lookup.reads).length ≤ 1 ∧
      (∀ lookup ∈ trace.lookups, Lookup.isOf path lookup = true →
        lookup.stamp? = some ⟨2, 9⟩ → lookup.isReadable = false) ∧
      (∀ lookup ∈ trace.lookups, Lookup.isOf path lookup = true →
        lookup.stamp? = some ⟨2, 9⟩ → lookup.reads = true) ∧
      trace.lookups.map Lookup.reads = [true, false, true, true] ∧
      trace.store.cache.size = 0 := by
  intro path files broken look trace
  obtain ⟨-, -, -, -, hsteady, -, hnever⟩ := kept_of_last_lookup (some ⟨"/locales"⟩) files
    [look "x", .operation .clear, look "common", look "./common", .change broken, look "common",
      look "common"]
  have hreadable : ∀ lookup ∈ trace.lookups.take 2, Lookup.isOf path lookup = true →
      lookup.stamp? = some ⟨1, 9⟩ ∧ lookup.isReadable = true := by
    decide +kernel
  have hunreadable : ∀ lookup ∈ trace.lookups, Lookup.isOf path lookup = true →
      lookup.stamp? = some ⟨2, 9⟩ → lookup.isReadable = false := by
    decide +kernel
  refine ⟨hreadable, hsteady path ⟨1, 9⟩ [] (trace.lookups.take 2) (trace.lookups.drop 2) ?_
    hreadable, hunreadable, hnever path ⟨2, 9⟩ hunreadable, by decide +kernel, by decide +kernel⟩
  rw [List.nil_append, List.take_append_drop]

/-- A file that is replaced by one that gives no document is not read if its stamp stays the same:
what was kept under that stamp is still given. -/
theorem not_reads_under_same_stamp :
    let path : Path := ⟨"/locales/en/common.json"⟩
    let files := filesWith path (some (⟨1, 9⟩, [("a", .string "A")]))
    let broken := { files with read := fun other => .error (.noObject other) }
    let look : Event := .operation (.resolve "common" ⟨"a"⟩ "en")
    let trace := (Trace.start (some ⟨"/locales"⟩) files).after [look, .change broken, look]
    ∃ lookup ∈ trace.lookups, lookup.stamp? = some ⟨1, 9⟩ ∧ lookup.isReadable = false ∧
      lookup.reads = false := by
  decide +kernel

end Store

end KeyLens
