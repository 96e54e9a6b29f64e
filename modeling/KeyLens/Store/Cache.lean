import KeyLens.Store.Provider

/-!
# The document cache

A document that was read is kept with the stamp that its file had. It is given out again as long
as the file reports that stamp; otherwise the file is read anew, and a file that gives no document
leaves nothing behind.
-/

namespace KeyLens

/-- A document that was read. -/
structure CachedDocument where
  /-- The stamp that was reported before the document was read. -/
  stamp : Stamp
  /-- What was read. -/
  document : Document
  deriving Repr

/-- What was asked of a provider. -/
inductive Access where
  /-- The stamp of a file. -/
  | stamp (path : Path)
  /-- The document of a file. -/
  | read (path : Path)
  deriving Repr, DecidableEq

/-- The documents that are kept, at most one for the steps of a path. -/
structure Cache where
  /-- The documents with the steps that lead to them. -/
  entries : List (List Component × CachedDocument)
  deriving Repr

namespace Cache

/-- The cache that keeps nothing. -/
def empty : Cache := ⟨[]⟩

/-- The document that is kept for a path. -/
def find? (cache : Cache) (path : Path) : Option CachedDocument :=
  cache.entries.lookup path.components

/-- The cache that keeps nothing for a path. -/
def erase (cache : Cache) (path : Path) : Cache :=
  ⟨cache.entries.filter fun (steps, _) => steps != path.components⟩

/-- The cache that keeps a document for a path. -/
def insert (cache : Cache) (path : Path) (document : CachedDocument) : Cache :=
  ⟨(path.components, document) :: (cache.erase path).entries⟩

/-- The number of documents that are kept. -/
def size (cache : Cache) : Nat :=
  cache.entries.length

/-- What a look-up gives, keeps and asks. -/
structure Loaded where
  /-- The document, if there is one. -/
  document? : Option Document
  /-- The cache after the look-up. -/
  cache : Cache
  /-- What was asked of the provider, in order. -/
  accesses : List Access

/-- Looks a document up after its file reported `stamp`. -/
def loadStamped (provider : Provider) (cache : Cache) (path : Path) (stamp : Stamp) : Loaded :=
  match (cache.find? path).filter fun cached => cached.stamp == stamp with
  | some cached => ⟨some cached.document, cache, [.stamp path]⟩
  | none =>
    match provider.read path with
    | .ok document =>
      ⟨some document, cache.insert path ⟨stamp, document⟩, [.stamp path, .read path]⟩
    | .error _ => ⟨none, cache.erase path, [.stamp path, .read path]⟩

/-- Looks the document of a path up. -/
def load (provider : Provider) (cache : Cache) (path : Path) : Loaded :=
  match provider.stamp? path with
  | none => ⟨none, cache.erase path, [.stamp path]⟩
  | some stamp => cache.loadStamped provider path stamp

/-- Nothing is kept for a path that was erased. -/
theorem find?_erase_self (cache : Cache) (path : Path) : (cache.erase path).find? path = none := by
  simp only [find?, erase]
  rw [List.lookup_eq_none_iff]
  intro p hp
  have := (List.mem_filter.1 hp).2
  simpa [bne, BEq.comm] using this

/-- What was put for a path is found there. -/
theorem find?_insert_self (cache : Cache) (path : Path) (document : CachedDocument) :
    (cache.insert path document).find? path = some document := by
  simp [find?, insert]

end Cache

end KeyLens
