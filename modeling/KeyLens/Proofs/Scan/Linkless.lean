import KeyLens.Proofs.Files.Steps
import KeyLens.Proofs.Scan.Ignores

/-!
# Scans without links

In a tree without links a canonical path leads to its entry along its own names, and every file that
is found below a directory is spelled by its names as well. No file has two spellings there, so that
files in order are a function of which files there are.
-/

namespace KeyLens

namespace FileTree

variable {tree : FileTree} {follow : Bool} {links : Nat} {place names : List String} {entry : Entry}
  {pieces : List (List Char)} {name : String}

/-! ### Trees without links -/

/-- A tree of files and directories alone: each entry stands at the end of its names, below
directories only, and so does the directory from which relative paths start. -/
structure Linkless (tree : FileTree) : Prop where
  /-- Each entry stands at the end of its names. -/
  stands : ∀ names entry, (names, entry) ∈ tree.entries → tree.Stands names entry
  /-- No entry is a link. -/
  no_link : ∀ names target, (names, .link target) ∉ tree.entries
  /-- Relative paths start at a directory. -/
  start : tree.Stands tree.directory .directory

/-- Whether an entry is a link. -/
def isLink : Entry → Bool
  | .link _ => true
  | .file _ _ | .directory => false

instance (tree : FileTree) (names : List String) (entry : Entry) :
    Decidable (tree.Stands names entry) :=
  decidable_of_iff (tree.get? names = some entry ∧ (∀ name ∈ names, IsName name) ∧
      ∀ count < names.length, tree.get? (names.take count) = some .directory) <| by
    constructor
    · rintro ⟨hget, hnames, habove⟩
      refine ⟨hget, hnames, fun front hfront hne => ?_⟩
      have hlength : front.length < names.length :=
        Nat.lt_of_le_of_ne hfront.length_le fun heq => hne (hfront.eq_of_length heq)
      rw [List.prefix_iff_eq_take.mp hfront]
      exact habove _ hlength
    · rintro ⟨hget, hnames, habove⟩
      refine ⟨hget, hnames, fun count hcount => habove _ (List.take_prefix count names) ?_⟩
      intro heq
      have hlength := congrArg List.length heq
      rw [List.length_take] at hlength
      omega

instance (tree : FileTree) : Decidable tree.Linkless :=
  decidable_of_iff ((∀ item ∈ tree.entries, tree.Stands item.1 item.2 ∧ isLink item.2 = false) ∧
      tree.Stands tree.directory .directory) <| by
    constructor
    · rintro ⟨hentries, hstart⟩
      refine ⟨fun names entry hmem => (hentries _ hmem).1, fun names target hmem => ?_, hstart⟩
      cases (hentries _ hmem).2
    · rintro ⟨hstands, hlink, hstart⟩
      refine ⟨fun ⟨names, entry⟩ hmem => ⟨hstands names entry hmem, ?_⟩, hstart⟩
      cases entry with
      | link target => exact absurd hmem (hlink names target)
      | file content modified => rfl
      | directory => rfl

/-- A canonical path of a directory leads there along the names of the directory, whether links are
followed or not. -/
theorem Linkless.reach_of_isDirectory (h : tree.Linkless) {given path : Path}
    (hcanonical : tree.canonical given = .ok path) (hdirectory : tree.isDirectory path = true) :
    ∃ names, pathOf names = path ∧ (∀ name ∈ names, IsName name) ∧
      ∀ follow, tree.reach follow path = .ok (names, .directory) := by
  obtain ⟨names, entry, hresolve, hpath⟩ := resolve_of_canonical hcanonical
  obtain ⟨hstands, hlink⟩ := stands_of_resolve h.start hresolve
  have hspelling : IsSpelling path := by
    unfold isDirectory at hdirectory
    split at hdirectory
    · next hfound => exact isSpelling_of_resolve hfound
    · cases hdirectory
  have hreach : ∀ follow, tree.reach follow path = .ok (names, entry) := fun follow =>
    reach_of_descend? hpath hspelling hstands.isName (descend?_of_stands rfl hstands hlink)
  refine ⟨names, hpath, hstands.isName, fun follow => ?_⟩
  unfold isDirectory at hdirectory
  rw [resolve, hreach true] at hdirectory
  cases entry with
  | directory => exact hreach follow
  | file content modified => cases hdirectory
  | link target => cases hdirectory

/-! ### Ways without links -/

/-- In a tree without links no names lead to a link. -/
theorem Linkless.get?_ne_link (h : tree.Linkless) (names : List String) (target : String) :
    tree.get? names ≠ some (.link target) := by
  intro hlink
  by_cases hnames : names = []
  · rw [get?, if_pos hnames] at hlink
    cases hlink
  · exact h.no_link names target (mem_entries_of_get? hnames hlink)

/-- In a tree without links it makes no difference whether links are followed. -/
theorem Linkless.walk_follow (h : tree.Linkless) (follow : Bool) :
    tree.walk follow links place pieces = tree.walk true links place pieces := by
  induction pieces generalizing place with
  | nil => rw [walk, walk]
  | cons piece rest ih =>
    rw [walk, walk]
    simp only [ih]
    cases hentry : tree.get? (place ++ [String.ofList piece]) with
    | none => rfl
    | some found =>
      cases found with
      | file content modified => rfl
      | directory => rfl
      | link target => exact absurd hentry (h.get?_ne_link _ target)

/-- In a tree without links it makes no difference whether a path is followed to its end. -/
theorem Linkless.reach_follow (h : tree.Linkless) (path : Path) :
    tree.reach follow path = tree.resolve path := by
  simp only [resolve, reach, h.walk_follow follow]

/-- In a tree without links pieces that do not lead upwards lead along the names that they spell. -/
theorem Linkless.names_of_walk (h : tree.Linkless) (hpieces : ['.', '.'] ∉ pieces)
    (hwalk : tree.walk follow links place pieces = .ok (names, entry)) :
    names = place ++ (pieces.filter isStep).map String.ofList := by
  induction pieces generalizing place with
  | nil =>
    rw [walk] at hwalk
    cases hwalk
    exact (List.append_nil _).symm
  | cons piece rest ih =>
    obtain ⟨hparent, hrest⟩ := not_or.mp (mt List.mem_cons.mpr hpieces)
    by_cases hskip : piece = [] ∨ piece = ['.']
    · rw [walk, if_pos hskip] at hwalk
      rw [List.filter_cons_of_neg (by rw [isStep_eq_false_iff.mpr hskip]; exact Bool.false_ne_true)]
      exact ih hrest hwalk
    · rw [List.filter_cons_of_pos (isStep_of_not hskip), List.map_cons, List.append_cons]
      rw [walk, if_neg hskip, if_neg (Ne.symm hparent)] at hwalk
      split at hwalk
      · cases hwalk
      · simp only at hwalk
        split at hwalk
        · cases hwalk
        · exact ih hrest hwalk
        · split at hwalk
          · next hnil =>
            cases hwalk
            rw [hnil]
            exact (List.append_nil _).symm
          · cases hwalk
        · next target htarget => exact absurd htarget (h.get?_ne_link _ target)

/-- The entries of a directory are known by their names. -/
theorem Linkless.isName_of_mem_children (h : tree.Linkless) (hname : name ∈ tree.children place) :
    IsName name := by
  obtain ⟨⟨path, entry⟩, hmem, hlast⟩ := List.mem_filterMap.mp (List.mem_mergeSort.mp hname)
  obtain ⟨-, hlast⟩ := Option.ite_none_right_eq_some.mp hlast
  exact (h.stands path entry hmem).isName name (List.mem_of_getLast? hlast)

/-- In a tree without links a path without dots leads along its own names from where it starts. -/
theorem Linkless.exists_names_of_resolve (h : tree.Linkless) {path : Path} (hpath : path.Dotless)
    (hresolve : tree.resolve path = .ok (place, entry)) :
    ∃ names : List String, place = (if path.isAbsolute then [] else tree.directory) ++ names ∧
      path.components = (if path.isAbsolute then [.root] else []) ++ names.map .name := by
  obtain ⟨names, hsteps, hcomponents⟩ := hpath.exists_names
  obtain ⟨-, -, -, hwalk⟩ := walk_of_resolve hresolve
  refine ⟨names, ?_, hcomponents⟩
  rw [h.names_of_walk hpath.parent_not_mem_split hwalk, Path.filter_isStep_eq_map]
  rw [Path.stepsOf] at hsteps
  have hspelled : String.ofList ∘ Component.spelling ∘ Component.name = id :=
    funext fun name => String.ofList_toList
  rw [hsteps, List.map_map, List.map_map, Function.comp_assoc, hspelled, List.map_id]

end FileTree

namespace Scan

open FileTree (pathOf IsName Linkless)

variable {tree : FileTree} {path : Path} {names : List String} {ignores : List String}

/-- The files below a place are spelled by their names. -/
theorem exists_names_of_mem_filesBelow (h : tree.Linkless) (hnames : ∀ name ∈ names, IsName name)
    (hpath : path ∈ filesBelow tree (pathOf names) names) :
    ∃ found, (∀ name ∈ found, IsName name) ∧ pathOf found = path := by
  obtain ⟨⟨found, entry⟩, hmem, hentry⟩ := List.mem_filterMap.mp hpath
  cases entry with
  | file content modified =>
    have hfound := (h.stands found _ hmem).isName
    simp only [Option.ite_none_right_eq_some] at hentry
    obtain ⟨⟨-, hbelow⟩, hjoined⟩ := hentry
    obtain ⟨rest, rfl⟩ := List.isPrefixOf_iff_prefix.mp hbelow
    have hrest : ∀ name ∈ rest, IsName name :=
      fun name hname => hfound name (List.mem_append_right names hname)
    refine ⟨names ++ rest, hfound, ?_⟩
    rw [List.drop_left, FileTree.foldl_join_pathOf hnames hrest] at hjoined
    exact Option.some.inj hjoined
  | directory => cases hentry
  | link target => cases hentry

/-- A scan of a directory reaches everything, and finds files that are spelled by their names. -/
theorem scan_of_linkless (h : tree.Linkless) {given dir : Path}
    (hcanonical : tree.canonical given = .ok dir) (hdirectory : tree.isDirectory dir = true)
    (ignores : List String) :
    (tree.scan dir [] ignores).skipped = 0 ∧
      ∀ path ∈ (tree.scan dir [] ignores).files,
        ∃ found, (∀ name ∈ found, IsName name) ∧ pathOf found = path := by
  obtain ⟨names, rfl, hnames, hreach⟩ := h.reach_of_isDirectory hcanonical hdirectory
  have hfound : filesAt tree (pathOf names) = .ok (filesBelow tree (pathOf names) names) := by
    rw [filesAt, hreach false]
  refine ⟨?_, fun path hpath => ?_⟩
  · simp [FileTree.scan, kept, warned, Except.toOption, hfound]
  · rw [files_scan_nil hfound] at hpath
    exact exists_names_of_mem_filesBelow h hnames (List.mem_filter.mp (mem_of_mem_inOrder hpath)).1

end Scan

end KeyLens
