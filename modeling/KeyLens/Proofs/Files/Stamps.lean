import KeyLens.Proofs.Files.Spelling
import KeyLens.Proofs.Store.Freshness

/-!
# Stamps of files

The stamp and the document of a file do not depend on how a path to it is spelled. Stamps are
therefore faithful over file trees as soon as they are so for each spelling alone, and in one tree
they always are.
-/

namespace KeyLens.FileTree

variable {tree : FileTree} {path first second : Path}

/-- A path with a stamp leads to a file that has it. -/
theorem resolve_of_stamp? {stamp : Stamp} (h : tree.stamp? path = some stamp) :
    ∃ names content modified, tree.resolve path = .ok (names, .file content modified) ∧
      stamp = ⟨modified, content.length⟩ := by
  unfold stamp? at h
  split at h
  · next names content modified hresolve =>
    exact ⟨names, content, modified, hresolve, (Option.some.inj h).symm⟩
  · cases h

/-- A stamp is that of an entry. -/
theorem exists_entry_of_stamp? {stamp : Stamp} (h : tree.stamp? path = some stamp) :
    ∃ names content modified, tree.get? names = some (.file content modified) ∧
      stamp = ⟨modified, content.length⟩ := by
  obtain ⟨names, content, modified, hresolve, hstamp⟩ := resolve_of_stamp? h
  exact ⟨names, content, modified, get?_of_resolve hresolve, hstamp⟩

/-- A path with a document leads to a file that spells it. -/
theorem resolve_of_readDocument {document : Document} (h : tree.readDocument path = .ok document) :
    ∃ names content modified, tree.resolve path = .ok (names, .file content modified) := by
  unfold readDocument readText at h
  cases hresolve : tree.resolve path with
  | error failure => simp [hresolve] at h
  | ok place =>
    obtain ⟨names, entry⟩ := place
    cases entry with
    | file content modified => exact ⟨names, content, modified, rfl⟩
    | directory => simp [hresolve] at h
    | link target => simp [hresolve] at h

/-- A path with a stamp is well spelled. -/
theorem wellSpelled_of_stamp? {stamp : Stamp} (h : tree.stamp? path = some stamp) :
    WellSpelled path := by
  obtain ⟨names, content, modified, hresolve, -⟩ := resolve_of_stamp? h
  exact wellSpelled_of_resolve hresolve

/-- A file with a document has a stamp. -/
theorem exists_stamp?_of_readDocument {document : Document}
    (h : tree.readDocument path = .ok document) : ∃ stamp, tree.stamp? path = some stamp := by
  obtain ⟨names, content, modified, hresolve⟩ := resolve_of_readDocument h
  exact ⟨⟨modified, content.length⟩, by simp [stamp?, hresolve]⟩

/-- What a look-up without a cache finds in a tree is what can be read there. -/
theorem document?_provider (tree : FileTree) (path : Path) :
    tree.provider.document? path = (tree.readDocument path).toOption := by
  simp only [Provider.document?, provider]
  cases hread : tree.readDocument path with
  | ok document =>
    obtain ⟨stamp, hstamp⟩ := exists_stamp?_of_readDocument hread
    rw [hstamp, Option.bind_some]
  | error failure => cases tree.stamp? path <;> rfl

/-- Well-spelled paths with the same steps have one stamp. -/
theorem stamp?_eq_of_wellSpelled (tree : FileTree) (hsteps : first.components = second.components)
    (hfirst : WellSpelled first) (hsecond : WellSpelled second) :
    tree.stamp? first = tree.stamp? second := by
  simp only [stamp?, resolve_eq_of_wellSpelled tree hsteps hfirst hsecond]

/-- Well-spelled paths with the same steps have one document, or none. -/
theorem readDocument_eq_of_wellSpelled (tree : FileTree)
    (hsteps : first.components = second.components) (hfirst : WellSpelled first)
    (hsecond : WellSpelled second) :
    (tree.readDocument first).toOption = (tree.readDocument second).toOption := by
  -- Only the words for an error name the path.
  simp only [readDocument, readText, resolve_eq_of_wellSpelled tree hsteps hfirst hsecond]
  split
  · rfl
  · split <;> rfl

/-- Stamps that are faithful for each spelling of a path are faithful for all of them. -/
theorem stampFaithful_of_spelling {trees : List FileTree}
    (h : ∀ earlier ∈ trees, ∀ later ∈ trees, ∀ path stamp, earlier.stamp? path = some stamp →
      later.stamp? path = some stamp →
        (earlier.readDocument path).toOption = (later.readDocument path).toOption) :
    StampFaithful (trees.map provider) := by
  simp only [StampFaithful, List.forall_mem_map]
  intro earlier hearlier later hlater first second hsteps stamp hfirst hsecond
  have hspelled := wellSpelled_of_stamp? hfirst
  have hspelled' := wellSpelled_of_stamp? hsecond
  have hlaterStamp : later.stamp? first = some stamp := by
    rw [stamp?_eq_of_wellSpelled later hsteps hspelled hspelled']
    exact hsecond
  calc (earlier.readDocument first).toOption
      = (later.readDocument first).toOption :=
        h earlier hearlier later hlater first stamp hfirst hlaterStamp
    _ = (later.readDocument second).toOption :=
        readDocument_eq_of_wellSpelled later hsteps hspelled hspelled'

/-- In one file tree stamps are faithful. -/
theorem stampFaithful_provider (tree : FileTree) : StampFaithful [tree.provider] := by
  refine @stampFaithful_of_spelling [tree] ?_
  intro earlier hearlier later hlater path stamp _ _
  rw [List.mem_singleton.mp hearlier, List.mem_singleton.mp hlater]

end KeyLens.FileTree
