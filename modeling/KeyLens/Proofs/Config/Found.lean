import KeyLens.Config.Search
import KeyLens.Proofs.Files.Above
import KeyLens.Proofs.Files.Written

/-!
# Configuration files that are found

The configuration file that counts for a directory stands there or in a directory above it, and the
one in the directory itself counts first. Which one counts does not depend on what the files hold.
-/

namespace KeyLens.Config

open FileTree (IsName pathOf Written)

variable {tree earlier later : FileTree} {start path : Path} {names place : List String}

/-- What is found is a configuration file in one of the directories. -/
theorem exists_of_findIn {dirs : List Path} (h : findIn tree dirs = some path) :
    ∃ dir ∈ dirs, path = dir.join fileName ∧ tree.exists? path = true := by
  induction dirs with
  | nil => cases h
  | cons dir rest ih =>
    rw [findIn] at h
    split at h
    · next hfile =>
      cases h
      exact ⟨dir, List.mem_cons_self, rfl, hfile⟩
    · split at h
      · cases h
      · obtain ⟨other, hother, hpath⟩ := ih h
        exact ⟨other, List.mem_cons_of_mem dir hother, hpath⟩

/-- A configuration file in a directory counts for it. -/
theorem find?_of_exists (h : tree.exists? (start.join fileName) = true) :
    find? tree start = some (start.join fileName) := by
  obtain ⟨rest, hupwards⟩ : ∃ rest, start.upwards = start :: rest := by
    rw [Path.upwards]
    cases start.components.length with
    | zero => exact ⟨[], rfl⟩
    | succ count => exact ⟨_, rfl⟩
  rw [find?, hupwards, findIn, if_pos h]

/-- The same configuration file counts for a directory after a file was written where there was one
before. -/
theorem find?_of_written (h : Written earlier later names)
    (hfile : ∃ content modified, earlier.get? names = some (.file content modified))
    (start : Path) : find? later start = find? earlier start := by
  rw [find?, find?]
  induction start.upwards with
  | nil => rfl
  | cons above rest ih =>
    rw [findIn, findIn, ih, h.exists?_eq hfile, h.exists?_eq hfile]

/-- The name of a configuration file leads from a directory to it. -/
theorem isName_fileName : IsName fileName := by
  decide

/-- The directory of a configuration file is the one above it. -/
theorem parent?_join_fileName (h : ∀ name ∈ place, IsName name) :
    ((pathOf place).join fileName).parent? = some (pathOf place) := by
  rw [FileTree.join_pathOf h isName_fileName, FileTree.parent?_pathOf_concat h isName_fileName]

/-- The configuration file that counts for a directory stands in it or above it. -/
theorem exists_place_of_find? (h : ∀ name ∈ names, IsName name)
    (hfind : find? tree (pathOf names) = some path) :
    ∃ place, place <+: names ∧ path = (pathOf place).join fileName := by
  obtain ⟨dir, hdir, hpath, -⟩ := exists_of_findIn hfind
  obtain ⟨place, hplace, rfl⟩ := FileTree.exists_of_mem_upwards h hdir
  exact ⟨place, hplace, hpath⟩

end KeyLens.Config
