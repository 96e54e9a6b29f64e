import KeyLens.Store.Cache

/-!
# Kept documents are fresh

A kept document is given out only under the stamp that its file had when it was read. This file
traces every kept document back to the moment at which it was read. If stamps are faithful, a
look-up therefore finds what a look-up without a cache finds, whatever is kept.
-/

namespace KeyLens

/-- The document that a look-up without a cache finds: that of a file with a stamp, if it can be
read. -/
def Provider.document? (provider : Provider) (path : Path) : Option Document :=
  (provider.stamp? path).bind fun _ => (provider.read path).toOption

/-- At two of the moments at which a path has one stamp, it has one document, or none at either.
Paths count as one if they have the same steps, however they are spelled. -/
def StampFaithful (moments : List Provider) : Prop :=
  ∀ earlier ∈ moments, ∀ later ∈ moments, ∀ first second : Path,
    first.components = second.components → ∀ stamp,
      earlier.stamp? first = some stamp → later.stamp? second = some stamp →
        (earlier.read first).toOption = (later.read second).toOption

namespace Cache

/-- Every kept document was read at one of the moments, from a path that then had the stamp that
is kept with it. -/
def ReadDuring (cache : Cache) (moments : List Provider) : Prop :=
  ∀ path cached, cache.find? path = some cached →
    ∃ provider ∈ moments, ∃ source : Path, source.components = path.components ∧
      provider.stamp? source = some cached.stamp ∧ provider.read source = .ok cached.document

/-- Erasing a path leaves what is kept for all other paths. -/
theorem find?_erase (cache : Cache) (path other : Path) :
    (cache.erase path).find? other =
      if other.components = path.components then none else cache.find? other := by
  by_cases hsteps : other.components = path.components
  · rw [if_pos hsteps, ← find?_erase_self cache path]
    simp only [find?, hsteps]
  · rw [if_neg hsteps]
    simp only [find?, erase]
    induction cache.entries with
    | nil => rfl
    | cons entry entries ih =>
      obtain ⟨steps, cached⟩ := entry
      by_cases hentry : steps = path.components
      · have hne : (other.components == steps) = false := by
          rw [beq_eq_false_iff_ne, hentry]
          exact hsteps
        simp only [hentry, bne_self_eq_false, List.filter_cons, Bool.false_eq_true, if_false, ih]
        rw [List.lookup_cons, ← hentry, hne]
      · have hkeep : (steps != path.components) = true := by simpa using hentry
        simp only [List.filter_cons, hkeep, if_true, List.lookup_cons, ih]

/-- Putting a document for a path leaves what is kept for all other paths. -/
theorem find?_insert (cache : Cache) (path other : Path) (cached : CachedDocument) :
    (cache.insert path cached).find? other =
      if other.components = path.components then some cached else cache.find? other := by
  by_cases hsteps : other.components = path.components
  · rw [if_pos hsteps, ← find?_insert_self cache path cached]
    simp only [find?, hsteps]
  · have hne : (other.components == path.components) = false := by simpa using hsteps
    have herase := find?_erase cache path other
    rw [if_neg hsteps] at herase ⊢
    rw [← herase]
    simp only [find?, insert, List.lookup_cons, hne]

/-- The empty cache keeps nothing that would have to be read. -/
theorem ReadDuring.empty (moments : List Provider) : Cache.empty.ReadDuring moments := by
  intro path cached hfind
  simp [find?, Cache.empty] at hfind

/-- Erasing a path keeps the origin of all other documents. -/
theorem ReadDuring.erase {cache : Cache} {moments : List Provider} (h : cache.ReadDuring moments)
    (path : Path) : (cache.erase path).ReadDuring moments := by
  intro other cached hfind
  rw [find?_erase] at hfind
  split at hfind
  · cases hfind
  · exact h other cached hfind

/-- A document that has just been read under the stamp of its file may be put. -/
theorem ReadDuring.insert {cache : Cache} {moments : List Provider} {provider : Provider}
    {path : Path} {stamp : Stamp} {document : Document} (h : cache.ReadDuring moments)
    (hmoment : provider ∈ moments) (hstamp : provider.stamp? path = some stamp)
    (hread : provider.read path = .ok document) :
    (cache.insert path ⟨stamp, document⟩).ReadDuring moments := by
  intro other cached hfind
  rw [find?_insert] at hfind
  split at hfind
  · next hsteps =>
    cases hfind
    exact ⟨provider, hmoment, path, hsteps.symm, hstamp, hread⟩
  · exact h other cached hfind

/-- A document that is kept under the present stamp of its file is the present document. -/
theorem ReadDuring.document_eq {cache : Cache} {moments : List Provider} {provider : Provider}
    {path : Path} {cached : CachedDocument} (h : cache.ReadDuring moments)
    (hfaithful : StampFaithful moments) (hmoment : provider ∈ moments)
    (hfind : cache.find? path = some cached)
    (hstamp : provider.stamp? path = some cached.stamp) :
    provider.document? path = some cached.document := by
  obtain ⟨origin, horigin, source, hsteps, hsource, hread⟩ := h path cached hfind
  have hsame := hfaithful origin horigin provider hmoment source path hsteps cached.stamp
    hsource hstamp
  rw [hread] at hsame
  simpa [Provider.document?, hstamp, Except.toOption] using hsame.symm

/-- A look-up finds what a look-up without a cache finds, and keeps the origin of all documents. -/
theorem load_spec {cache : Cache} {moments : List Provider} {provider : Provider}
    (h : cache.ReadDuring moments) (hfaithful : StampFaithful moments)
    (hmoment : provider ∈ moments) (path : Path) :
    (cache.load provider path).document? = provider.document? path ∧
      (cache.load provider path).cache.ReadDuring moments := by
  unfold load
  cases hstamp : provider.stamp? path with
  | none => exact ⟨by simp [Provider.document?, hstamp], h.erase path⟩
  | some stamp =>
    simp only [loadStamped]
    cases hhit : (cache.find? path).filter fun cached => cached.stamp == stamp with
    | some cached =>
      obtain ⟨hfind, hcached⟩ := Option.filter_eq_some_iff.mp hhit
      have hsame : cached.stamp = stamp := by simpa using hcached
      exact ⟨(h.document_eq hfaithful hmoment hfind (by rw [hstamp, hsame])).symm, h⟩
    | none =>
      cases hread : provider.read path with
      | ok document =>
        refine ⟨?_, h.insert hmoment hstamp hread⟩
        simp [Provider.document?, hstamp, hread, Except.toOption]
      | error failure =>
        refine ⟨?_, h.erase path⟩
        simp [Provider.document?, hstamp, hread, Except.toOption]

end Cache

end KeyLens
