import KeyLens.Proofs.Scan.Linkless

/-!
# Collected files

Hints are asked for paths, of which some may be directories and some may spell the same place. The
files that are looked at do not tell how they were asked for: in a tree without links they depend on
the places to which the paths lead and on nothing else, and stand in order, each once.
-/

namespace KeyLens.CommandLine

open FileTree (pathOf IsName)

variable {tree : FileTree} {ignores : List String} {paths others files : List Path} {path : Path}

/-- The files for which a canonical path stands: all that a scan of a directory finds, and any other
path alone. -/
def filesOf (tree : FileTree) (ignores : List String) (path : Path) : List Path :=
  if tree.isDirectory path then (tree.scan path [] ignores).files else [path]

/-- The files of paths in order; none if one of the paths leads to nothing. -/
def collect? (tree : FileTree) (ignores : List String) (paths : List Path) : Option (List Path) :=
  match Collected.ofPaths tree ignores paths with
  | (_, some _) => none
  | (collected, none) => some (Scan.inOrder collected.files)

/-- The files are those for which the paths stand, in order and each once. -/
structure Gathers (tree : FileTree) (ignores : List String) (paths files : List Path) : Prop where
  /-- They are ordered strictly. -/
  strict : files.Pairwise fun left right => left.compare right = .lt
  /-- None of them is there twice. -/
  nodup : files.Nodup
  /-- They are the files of the places to which the paths lead. -/
  mem_iff : ∀ path, path ∈ files ↔
    ∃ given ∈ paths, ∃ place, tree.canonical given = .ok place ∧ path ∈ filesOf tree ignores place

/-- Two lists of paths lead to the same places: each path of one of them leads where some path of
the other one leads. -/
def SamePlaces (tree : FileTree) (paths others : List Path) : Prop :=
  ∀ result, (∃ given ∈ paths, tree.canonical given = result) ↔
    ∃ given ∈ others, tree.canonical given = result

/-- What holds of the place of some path holds of that of another path if the places are the same. -/
theorem SamePlaces.exists_iff (h : SamePlaces tree paths others)
    (holds : Except FileError Path → Prop) :
    (∃ given ∈ paths, holds (tree.canonical given)) ↔
      ∃ given ∈ others, holds (tree.canonical given) := by
  constructor
  · rintro ⟨given, hgiven, hholds⟩
    obtain ⟨other, hother, hsame⟩ := (h _).mp ⟨given, hgiven, rfl⟩
    exact ⟨other, hother, by rwa [hsame]⟩
  · rintro ⟨given, hgiven, hholds⟩
    obtain ⟨other, hother, hsame⟩ := (h _).mpr ⟨given, hgiven, rfl⟩
    exact ⟨other, hother, by rwa [hsame]⟩

/-! ### Files of one path -/

/-- A path leads to nothing if it has no canonical spelling. -/
theorem exists?_eq_false_iff :
    tree.exists? path = false ↔ ∃ error, tree.canonical path = .error error := by
  rw [FileTree.exists?, FileTree.canonical]
  cases tree.resolve path with
  | error failure => exact ⟨fun _ => ⟨failure, rfl⟩, fun _ => rfl⟩
  | ok place =>
    constructor
    · intro hexists
      cases hexists
    · rintro ⟨error, hcanonical⟩
      cases hcanonical

/-- A path that leads to a place stands for the files of the place. -/
theorem ofPath_of_canonical (ignores : List String) {given place : Path}
    (h : tree.canonical given = .ok place) :
    ∃ collected, Collected.ofPath tree ignores given = .ok collected ∧
      collected.files = filesOf tree ignores place ∧
      (tree.Linkless → collected.skipped = 0) := by
  by_cases hdirectory : tree.isDirectory place = true
  · refine ⟨Collected.ofScan (tree.scan place [] ignores), ?_, ?_, fun hlinkless => ?_⟩
    · simp only [Collected.ofPath, h, hdirectory, if_true]
    · simp only [filesOf, hdirectory, if_true, Collected.ofScan]
    · exact (Scan.scan_of_linkless hlinkless h hdirectory ignores).1
  · refine ⟨⟨[place], 0, []⟩, ?_, ?_, fun _ => rfl⟩
    · simp only [Collected.ofPath, h, if_neg hdirectory]
    · rw [filesOf, if_neg hdirectory]

/-- In a tree without links the files of a place are spelled by their names. -/
theorem exists_names_of_mem_filesOf (hlinkless : tree.Linkless) {given place : Path}
    (h : tree.canonical given = .ok place) (hpath : path ∈ filesOf tree ignores place) :
    ∃ names, (∀ name ∈ names, IsName name) ∧ pathOf names = path := by
  by_cases hdirectory : tree.isDirectory place = true
  · rw [filesOf, if_pos hdirectory] at hpath
    exact (Scan.scan_of_linkless hlinkless h hdirectory ignores).2 path hpath
  · rw [filesOf, if_neg hdirectory, List.mem_singleton] at hpath
    obtain ⟨names, entry, hresolve, hspelled⟩ := FileTree.resolve_of_canonical h
    exact ⟨names, (FileTree.stands_of_resolve hlinkless.start hresolve).1.isName,
      hspelled.trans hpath.symm⟩

/-! ### Files of all paths -/

/-- What is collected for paths that all lead to places. -/
theorem ofPaths_spec (ignores : List String) (h : ∀ given ∈ paths, tree.exists? given = true) :
    ∃ collected, Collected.ofPaths tree ignores paths = (collected, none) ∧
      (∀ path, path ∈ collected.files ↔ ∃ given ∈ paths, ∃ place,
        tree.canonical given = .ok place ∧ path ∈ filesOf tree ignores place) ∧
      (tree.Linkless → collected.skipped = 0) := by
  induction paths with
  | nil => exact ⟨⟨[], 0, []⟩, rfl, by simp, fun _ => rfl⟩
  | cons given rest ih =>
    obtain ⟨hgiven, hrest⟩ := List.forall_mem_cons.mp h
    obtain ⟨others, hothers, hmem, hskipped⟩ := ih hrest
    cases hplace : tree.canonical given with
    | error failure =>
      rw [exists?_eq_false_iff.mpr ⟨failure, hplace⟩] at hgiven
      cases hgiven
    | ok place =>
      obtain ⟨collected, hcollected, hfiles, hreached⟩ := ofPath_of_canonical ignores hplace
      refine ⟨collected.append others, ?_, fun path => ?_, fun hlinkless => ?_⟩
      · simp only [Collected.ofPaths, hcollected, hothers]
      · rw [Collected.append, List.mem_append, hfiles, hmem]
        simp only [List.mem_cons, or_and_right, exists_or, exists_eq_left, hplace, Except.ok.injEq,
          exists_eq_left']
      · simp only [Collected.append, hreached hlinkless, hskipped hlinkless]

/-- Nothing is collected if a path leads to nothing. -/
theorem ofPaths_of_missing (ignores : List String) (h : ∃ given ∈ paths, tree.exists? given = false) :
    ∃ error, (Collected.ofPaths tree ignores paths).2 = some error := by
  induction paths with
  | nil => simp at h
  | cons given rest ih =>
    cases hplace : tree.canonical given with
    | error failure =>
      exact ⟨.noPath given failure, by simp only [Collected.ofPaths, Collected.ofPath, hplace]⟩
    | ok place =>
      obtain ⟨collected, hcollected, -⟩ := ofPath_of_canonical ignores hplace
      have hexists : tree.exists? given ≠ false := by
        rw [Ne, exists?_eq_false_iff, hplace]
        rintro ⟨_, ⟨⟩⟩
      have hothers : ∃ other ∈ rest, tree.exists? other = false := by
        obtain ⟨other, hother, hmissing⟩ := h
        rcases List.mem_cons.mp hother with rfl | hother
        · exact absurd hmissing hexists
        · exact ⟨other, hother, hmissing⟩
      obtain ⟨error, herror⟩ := ih hothers
      exact ⟨error, by simp only [Collected.ofPaths, hcollected, herror]⟩

/-- Nothing is collected exactly if some path leads to nothing. -/
theorem collect?_eq_none_iff :
    collect? tree ignores paths = none ↔ ∃ path ∈ paths, tree.exists? path = false := by
  constructor
  · intro h
    by_contra hnone
    have hall : ∀ given ∈ paths, tree.exists? given = true := by
      intro given hgiven
      rw [← Bool.not_eq_false]
      exact fun hmissing => hnone ⟨given, hgiven, hmissing⟩
    obtain ⟨collected, hcollected, -⟩ := ofPaths_spec ignores hall
    rw [collect?, hcollected] at h
    cases h
  · intro h
    obtain ⟨error, herror⟩ := ofPaths_of_missing ignores h
    unfold collect?
    split
    · rfl
    · next hcollected =>
      rw [hcollected] at herror
      cases herror

/-- What is collected are the files of the places to which the paths lead. Everything is reached. -/
theorem gathers_of_collect? (hlinkless : tree.Linkless) (h : collect? tree ignores paths = some files) :
    Gathers tree ignores paths files ∧
      ∃ collected, Collected.ofPaths tree ignores paths = (collected, none) ∧
        Scan.inOrder collected.files = files ∧ collected.skipped = 0 := by
  have hall : ∀ given ∈ paths, tree.exists? given = true := by
    intro given hgiven
    rw [← Bool.not_eq_false]
    intro hmissing
    rw [collect?_eq_none_iff.mpr ⟨given, hgiven, hmissing⟩] at h
    cases h
  obtain ⟨collected, hcollected, hmem, hskipped⟩ := ofPaths_spec ignores hall
  rw [collect?, hcollected] at h
  obtain rfl := Option.some.inj h
  -- A file has one spelling, so that no other one stands in its place.
  have hone : ∀ left ∈ collected.files, ∀ right ∈ collected.files,
      left.components = right.components → left = right := by
    have hspelled : ∀ path ∈ collected.files,
        ∃ names, (∀ name ∈ names, IsName name) ∧ pathOf names = path := by
      intro path hpath
      obtain ⟨given, -, place, hplace, hfile⟩ := (hmem path).mp hpath
      exact exists_names_of_mem_filesOf hlinkless hplace hfile
    intro left hleft right hright hsame
    obtain ⟨names, hnames, rfl⟩ := hspelled left hleft
    obtain ⟨others, hothers, rfl⟩ := hspelled right hright
    exact FileTree.pathOf_eq_of_components hnames hothers hsame
  have hstrict := Scan.pairwise_inOrder collected.files
  refine ⟨⟨hstrict, Scan.nodup_of_pairwise hstrict, fun path => ?_⟩, collected, hcollected, rfl,
    hskipped hlinkless⟩
  rw [Scan.mem_inOrder_iff hone, hmem]

/-- There is one row of files for paths that stand for the same files. -/
theorem Gathers.eq {files' : List Path} (h : Gathers tree ignores paths files)
    (h' : Gathers tree ignores others files') (hmem : ∀ path, path ∈ files ↔ path ∈ files') :
    files = files' :=
  Scan.eq_of_mem_iff h.strict h'.strict hmem

/-- The same is collected for all lists of paths that lead to the same places. -/
theorem collect?_eq_of_samePlaces (hlinkless : tree.Linkless) (h : SamePlaces tree paths others) :
    collect? tree ignores paths = collect? tree ignores others := by
  have hnone : collect? tree ignores paths = none ↔ collect? tree ignores others = none := by
    simp only [collect?_eq_none_iff, exists?_eq_false_iff]
    exact h.exists_iff fun result => ∃ error, result = .error error
  cases hpaths : collect? tree ignores paths with
  | none => rw [hnone.mp hpaths]
  | some files =>
    cases hothers : collect? tree ignores others with
    | none =>
      rw [hnone.mpr hothers] at hpaths
      cases hpaths
    | some files' =>
      obtain ⟨hfiles, -⟩ := gathers_of_collect? hlinkless hpaths
      obtain ⟨hfiles', -⟩ := gathers_of_collect? hlinkless hothers
      refine congrArg some (hfiles.eq hfiles' fun path => ?_)
      rw [hfiles.mem_iff, hfiles'.mem_iff]
      exact h.exists_iff fun result => ∃ place, result = .ok place ∧ path ∈ filesOf tree ignores place

/-- A path may be given as well if its files are found without it: a file that a scan of one of the
other paths finds, say, or such a directory. -/
theorem collect?_cons_of_subset (hlinkless : tree.Linkless)
    (h : collect? tree ignores paths = some files) {given place : Path}
    (hplace : tree.canonical given = .ok place)
    (hfound : ∀ path ∈ filesOf tree ignores place, path ∈ files) :
    collect? tree ignores (given :: paths) = some files := by
  obtain ⟨hfiles, -⟩ := gathers_of_collect? hlinkless h
  cases hmore : collect? tree ignores (given :: paths) with
  | none =>
    obtain ⟨missing, hmem, hmissing⟩ := collect?_eq_none_iff.mp hmore
    rcases List.mem_cons.mp hmem with rfl | hmem
    · obtain ⟨error, herror⟩ := exists?_eq_false_iff.mp hmissing
      rw [hplace] at herror
      cases herror
    · rw [collect?_eq_none_iff.mpr ⟨missing, hmem, hmissing⟩] at h
      cases h
  | some files' =>
    obtain ⟨hfiles', -⟩ := gathers_of_collect? hlinkless hmore
    refine congrArg some (hfiles'.eq hfiles fun path => ?_)
    rw [hfiles'.mem_iff]
    simp only [List.mem_cons, or_and_right, exists_or, exists_eq_left, hplace, Except.ok.injEq,
      exists_eq_left', ← hfiles.mem_iff]
    exact ⟨fun hpath => hpath.elim (hfound path) id, Or.inr⟩

end KeyLens.CommandLine
