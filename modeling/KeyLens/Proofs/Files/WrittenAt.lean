import KeyLens.Proofs.Files.Above
import KeyLens.Proofs.Files.Placement
import KeyLens.Proofs.Files.Written

/-!
# Texts that are written

A text that is written to a file of a directory is read from there, whether the file was there
before or not.
-/

namespace KeyLens.FileTree

variable {earlier later tree : FileTree} {place : List String} {name text : String} {path : Path}
  {follow : Bool}

/-- Two trees of which the later one has a text in the file to which a path leads, where there was a
file or nothing before, and is otherwise the same. -/
def WrittenAt (earlier later : FileTree) (path : Path) (text : String) : Prop :=
  ∃ names modified, later.resolve path = .ok (names, .file (.text text) modified) ∧
    Written earlier later names

/-- A path whose text is read leads to the file that holds it. -/
theorem resolve_of_readText (h : tree.readText path = .ok text) :
    ∃ names modified, tree.resolve path = .ok (names, .file (.text text) modified) := by
  unfold readText at h
  split at h
  · cases h
  · next names found modified hresolve =>
    rw [Except.ok.injEq] at h
    exact ⟨names, modified, h ▸ hresolve⟩
  · cases h
  · cases h

/-- The text that was written is read. -/
theorem WrittenAt.readText_eq (h : WrittenAt earlier later path text) :
    later.readText path = .ok text := by
  obtain ⟨names, modified, hresolve, -⟩ := h
  rw [readText, hresolve]

/-- The path to which a text was written leads somewhere. -/
theorem WrittenAt.exists?_eq (h : WrittenAt earlier later path text) :
    later.exists? path = true := by
  obtain ⟨names, modified, hresolve, -⟩ := h
  rw [exists?, hresolve]
  rfl

/-- A directory is still there after a file was written. -/
theorem Written.stands {names : List String} (h : Written earlier later names)
    (hplace : earlier.Stands place .directory) : later.Stands place .directory where
  get?_eq := h.get?_of_no_file hplace.get?_eq (by simp)
  isName := hplace.isName
  above := fun front hfront hne => h.get?_of_no_file (hplace.above front hfront hne) (by simp)

/-- The path of a file is reached through its directory. -/
theorem reach_pathOf_concat (hplace : tree.Stands place .directory) (hname : IsName name)
    (hspelling : IsSpelling (pathOf (place ++ [name]))) :
    tree.reach follow (pathOf (place ++ [name])) =
      tree.walk follow greatestLinks place [name.toList] := by
  have hnames : ∀ other ∈ place ++ [name], IsName other := by
    simpa [or_imp, forall_and] using ⟨hplace.isName, hname⟩
  have hway : tree.Stands ([] ++ place) .directory := hplace
  rw [reach_pathOf tree follow hspelling hnames, List.map_append]
  exact walk_of_stands hway

/-- A file is reached in its directory. -/
theorem reach_of_file (hplace : tree.Stands place .directory) (hname : IsName name)
    (hspelling : IsSpelling (pathOf (place ++ [name]))) {content : Content} {modified : Nat}
    (hfile : tree.get? (place ++ [name]) = some (.file content modified)) :
    tree.reach follow (pathOf (place ++ [name])) =
      .ok (place ++ [name], .file content modified) := by
  rw [reach_pathOf_concat hplace hname hspelling, walk, if_neg hname.not_skipped,
    if_neg hname.not_parent, if_neg (Nat.not_lt.mpr hname.length_le)]
  simp only [String.ofList_toList, hfile, if_true]

/-- A file that is not there is not found in its directory. -/
theorem reach_of_missing (hplace : tree.Stands place .directory) (hname : IsName name)
    (hspelling : IsSpelling (pathOf (place ++ [name])))
    (hmissing : tree.get? (place ++ [name]) = none) :
    tree.reach follow (pathOf (place ++ [name])) = .error .notFound := by
  rw [reach_pathOf_concat hplace hname hspelling, walk, if_neg hname.not_skipped,
    if_neg hname.not_parent, if_neg (Nat.not_lt.mpr hname.length_le)]
  simp only [String.ofList_toList, hmissing]

/-- A file of a directory is written where its path leads, whether it is there or not. -/
theorem destination_pathOf_concat (hplace : tree.Stands place .directory) (hname : IsName name)
    (hspelling : IsSpelling (pathOf (place ++ [name])))
    (hentry : tree.get? (place ++ [name]) = none ∨
      ∃ content modified, tree.get? (place ++ [name]) = some (.file content modified)) :
    tree.destination (pathOf (place ++ [name])) = .ok (place ++ [name]) := by
  have hnames : ∀ other ∈ place ++ [name], IsName other := by
    simpa [or_imp, forall_and] using ⟨hplace.isName, hname⟩
  rcases hentry with hmissing | ⟨content, modified, hfile⟩
  · have hreach : ∀ follow, tree.reach follow (pathOf (place ++ [name])) = .error .notFound :=
      fun _ => reach_of_missing hplace hname hspelling hmissing
    have hparent := parent?_pathOf_concat hplace.isName hname
    have hlast : (pathOf (place ++ [name])).fileName? = some name := by
      rw [Path.fileName?, components_pathOf hnames, List.map_append, ← List.cons_append,
        List.map_singleton, List.getLast?_concat]
    have hnonempty : (pathOf place).text ≠ "" := by
      intro hempty
      have htext := toList_pathOf place
      rw [hempty] at htext
      cases htext
    have habove : tree.resolve (pathOf place) = .ok (place, .directory) :=
      resolve_of_descend? rfl (isSpelling_of_append hspelling) hplace.isName
        (descend?_of_stands rfl hplace (by simp))
    simp only [destination, greatestLinks, destinationIn, resolve, hreach, hparent, hlast,
      if_neg hnonempty]
    rw [← resolve, habove]
    rfl
  · have hresolve : tree.resolve (pathOf (place ++ [name])) =
        .ok (place ++ [name], .file content modified) := reach_of_file hplace hname hspelling hfile
    simp only [destination, greatestLinks, destinationIn, hresolve]

/-- A text is written to a file of a directory, whether the file is there or not. -/
theorem exists_writtenAt (hplace : tree.Stands place .directory)
    (hname : IsName name) (hspelling : IsSpelling (pathOf (place ++ [name])))
    (hentry : tree.get? (place ++ [name]) = none ∨
      ∃ content modified, tree.get? (place ++ [name]) = some (.file content modified))
    (text : String) (time : Nat) :
    ∃ later, tree.write (pathOf (place ++ [name])) text time = .ok later ∧
      tree.WrittenAt later (pathOf (place ++ [name])) text := by
  have hwritten : Written tree (tree.put (place ++ [name]) (.file (.text text) time))
      (place ++ [name]) := written_put hentry
  refine ⟨tree.put (place ++ [name]) (.file (.text text) time), ?_, place ++ [name], time, ?_,
    hwritten⟩
  · rw [write, destination_pathOf_concat hplace hname hspelling hentry]
    rcases hentry with hmissing | ⟨content, modified, hfile⟩
    · simp only [Except.bind, hmissing]
    · simp only [Except.bind, hfile]
  · exact reach_of_file (hwritten.stands hplace) hname hspelling
      (get?_put_self tree _ (List.append_ne_nil_of_right_ne_nil _ (List.cons_ne_nil _ _)))

end KeyLens.FileTree
