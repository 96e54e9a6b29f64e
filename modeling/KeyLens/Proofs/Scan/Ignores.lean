import KeyLens.CommandLine.Commands
import KeyLens.Proofs.Config.Loading
import KeyLens.Proofs.Files.Joining
import KeyLens.Proofs.Scan.Order

/-!
# Things to ignore below a directory

The entries of a project that name paths to ignore are read from the root of the project when the
whole project is scanned, and from the directory itself when hints are asked for below a directory.
An entry excludes the same files below the directory exactly if it is read alike from both: a
pattern is, and so is a path that is absolute, that has no steps or that does not meet the
directory. As long as all entries are read alike, no file is looked at below a directory that the
project excludes.
-/

namespace KeyLens

namespace Scan

/-- A file is excluded by entries that are read from a directory. -/
def Excludes (base : Path) (ignores : List String) (path : Path) : Prop :=
  ∃ entry ∈ ignores, ∃ ignore, Ignore.ofText base entry = .ok ignore ∧ ignore.covers path = true

/-- Neither of two paths lies below the other. -/
def Apart (first second : Path) : Prop :=
  first.startsWith second = false ∧ second.startsWith first = false

/-- An entry of the list of things to ignore that is read alike from the root of a project and from
a directory in it. -/
inductive ReadsAlike (root dir : Path) (entry : String) : Prop where
  /-- Patterns describe whole paths. -/
  | pattern (h : Glob.Pattern.isWild entry = true)
  /-- Absolute paths stand for themselves. -/
  | absolute (h : entry.toList.head? = some '/')
  /-- A path without steps is the directory from which it is read. -/
  | here (h : Path.stepsOf entry.toList = [])
  /-- The directory is the root. -/
  | root (h : dir.components = root.components)
  /-- Read from the root, the path has nothing to do with the directory. -/
  | apart (h : Apart (root.join entry) dir)

variable {root dir path : Path} {entry : String}

/-- What an entry that is read alike covers below a directory when it is read from the root, it
covers when it is read from the directory. -/
theorem ReadsAlike.covers {ignore : Ignore} (h : ReadsAlike root dir entry)
    (hroot : root.isAbsolute = true) (hdir : dir.startsWith root = true)
    (hpath : path.startsWith dir = true) (hignore : Ignore.ofText root entry = .ok ignore)
    (hcovers : ignore.covers path = true) :
    ∃ other, Ignore.ofText dir entry = .ok other ∧ other.covers path = true := by
  have habsolute := Path.isAbsolute_of_startsWith hroot hdir
  by_cases hwild : Glob.Pattern.isWild entry = true
  · exact ⟨ignore, by rw [← hignore, Ignore.ofText, Ignore.ofText, if_pos hwild, if_pos hwild],
      hcovers⟩
  rw [Ignore.ofText, if_neg hwild, Except.ok.injEq] at hignore
  subst hignore
  refine ⟨.path (dir.join entry), by rw [Ignore.ofText, if_neg hwild], ?_⟩
  change path.startsWith (root.join entry) = true at hcovers
  change path.startsWith (dir.join entry) = true
  by_cases hslash : entry.toList.head? = some '/'
  · rwa [Path.join_of_absolute hslash] at hcovers ⊢
  cases h with
  | pattern h => exact absurd h hwild
  | absolute h => exact absurd h hslash
  | here h =>
    rwa [Path.startsWith_iff, Path.components_join habsolute hslash, h, List.append_nil,
      ← Path.startsWith_iff]
  | root h =>
    rw [Path.startsWith_iff, Path.components_join hroot hslash] at hcovers
    rwa [Path.startsWith_iff, Path.components_join habsolute hslash, h]
  | apart h =>
    rw [Path.startsWith_iff] at hcovers hpath
    rcases List.prefix_or_prefix_of_prefix hcovers hpath with hbelow | hbelow
    · exact absurd (Path.startsWith_iff.mpr hbelow) (Bool.eq_false_iff.mp h.2)
    · exact absurd (Path.startsWith_iff.mpr hbelow) (Bool.eq_false_iff.mp h.1)

/-- The names among some steps are shorter than some length. -/
theorem exists_length_lt (steps : List Component) :
    ∃ count, ∀ name : String, .name name ∈ steps → name.toList.length < count := by
  induction steps with
  | nil => exact ⟨0, nofun⟩
  | cons step rest ih =>
    obtain ⟨count, hcount⟩ := ih
    refine ⟨max count (step.spelling.length + 1), fun name hname => ?_⟩
    rcases List.mem_cons.mp hname with rfl | hrest
    · exact Nat.lt_of_lt_of_le (Nat.lt_succ_self _) (Nat.le_max_right count _)
    · exact Nat.lt_of_lt_of_le (hcount name hrest) (Nat.le_max_left count _)

/-- There is a name that is not among some steps. -/
theorem exists_name_not_mem (steps : List Component) :
    ∃ name : String, name.toList.head? ≠ some '/' ∧ Path.stepsOf name.toList = [.name name] ∧
      .name name ∉ steps := by
  obtain ⟨count, hcount⟩ := exists_length_lt steps
  have hslash : '/' ∉ List.replicate (count + 1) 'a' := by simp
  refine ⟨String.ofList (List.replicate (count + 1) 'a'), ?_, ?_, fun hmem => ?_⟩
  · rw [String.toList_ofList]
    exact fun hhead => hslash (List.mem_of_head? hhead)
  · rw [Path.stepsOf, String.toList_ofList, List.splitOn_eq_singleton hslash]
    simp [Component.ofPiece?, List.replicate_succ]
  · have hlength := hcount _ hmem
    rw [String.toList_ofList, List.length_replicate] at hlength
    omega

/-- If some steps still lead on to others behind one more step, that step is among the others. -/
theorem eq_nil_or_mem_of_prefix {down steps : List Component} {step : Component}
    (hsteps : steps ≠ []) (h : down ++ steps <+: steps ++ [step]) : down = [] ∨ step ∈ steps := by
  cases down with
  | nil => exact Or.inl rfl
  | cons first more =>
    have hsame := h.eq_of_length (Nat.le_antisymm h.length_le (by simp))
    have hlast := congrArg List.getLast? hsame
    rw [← List.dropLast_concat_getLast hsteps, ← List.append_assoc, List.getLast?_concat,
      List.getLast?_concat, Option.some_inj] at hlast
    exact Or.inr (hlast ▸ List.getLast_mem hsteps)

/-- A path covers below a directory what it covers when it is read from the root of a project
exactly if it is read alike from both. -/
theorem readsAlike_iff (hroot : root.isAbsolute = true) (hdir : dir.startsWith root = true)
    (hplain : Glob.Pattern.isWild entry = false) :
    ReadsAlike root dir entry ↔
      ∀ path : Path, path.startsWith dir = true → path.startsWith (root.join entry) = true →
        path.startsWith (dir.join entry) = true := by
  have hplain' : ¬ Glob.Pattern.isWild entry = true := by simp [hplain]
  constructor
  · intro h path hpath hcovers
    have hignore : Ignore.ofText root entry = .ok (.path (root.join entry)) := by
      rw [Ignore.ofText, if_neg hplain']
    obtain ⟨other, hother, hcovers'⟩ := h.covers hroot hdir hpath hignore hcovers
    rw [Ignore.ofText, if_neg hplain', Except.ok.injEq] at hother
    subst hother
    exact hcovers'
  · intro h
    by_contra halike
    have hslash : entry.toList.head? ≠ some '/' := fun hslash => halike (.absolute hslash)
    have hnil : Path.stepsOf entry.toList ≠ [] := fun hnil => halike (.here hnil)
    have habsolute := Path.isAbsolute_of_startsWith hroot hdir
    have hread := Path.components_join habsolute hslash
    obtain ⟨name, hname, hnew, hfresh⟩ := exists_name_not_mem (Path.stepsOf entry.toList)
    -- Behind the deeper one of the two, a new name tells the two readings apart.
    by_cases hbelow : dir.startsWith (root.join entry) = true
    · have hstarts := Path.startsWith_join habsolute hname
      have hfound := h _ hstarts (Path.startsWith_trans hstarts hbelow)
      rw [Path.startsWith_iff, hread, Path.components_join habsolute hname, hnew,
        List.prefix_append_right_inj] at hfound
      obtain ⟨step, rest, hentry⟩ := List.exists_cons_of_ne_nil hnil
      rw [hentry, List.cons_prefix_cons] at hfound
      rw [hentry, hfound.1] at hfresh
      exact hfresh List.mem_cons_self
    · have habove : (root.join entry).startsWith dir = true := by
        by_contra habove
        exact halike (.apart ⟨Bool.eq_false_iff.mpr habove, Bool.eq_false_iff.mpr hbelow⟩)
      have hjoined := Path.isAbsolute_join hroot entry
      have hcovers := Path.startsWith_join hjoined hname
      have hfound := h _ (Path.startsWith_trans hcovers habove) hcovers
      obtain ⟨down, hdown⟩ := Path.startsWith_iff.mp hdir
      rw [Path.startsWith_iff, hread, Path.components_join hjoined hname, hnew,
        Path.components_join hroot hslash, ← hdown, List.append_assoc, List.append_assoc,
        List.prefix_append_right_inj] at hfound
      rcases eq_nil_or_mem_of_prefix hnil hfound with rfl | hmem
      · exact halike (.root (by rw [← hdown, List.append_nil]))
      · exact hfresh hmem

/-! ### Scans -/

variable {tree : FileTree} {base : Path} {includes ignores : List String}

/-- Entries exclude what one of those that can be used covers. -/
theorem any_kept_iff :
    (kept (ignores.map (Ignore.ofText base))).any (·.covers path) = true ↔
      Excludes base ignores path := by
  simp only [List.any_eq_true, kept, List.mem_filterMap, List.mem_map, Excludes]
  constructor
  · rintro ⟨ignore, ⟨result, ⟨entry, hentry, rfl⟩, hresult⟩, hcovers⟩
    refine ⟨entry, hentry, ignore, ?_, hcovers⟩
    cases hread : Ignore.ofText base entry with
    | error warning => simp [hread, Except.toOption] at hresult
    | ok found =>
      rw [hread] at hresult
      exact congrArg Except.ok (Option.some.inj hresult)
  · rintro ⟨entry, hentry, ignore, hread, hcovers⟩
    exact ⟨ignore, ⟨.ok ignore, ⟨entry, hentry, hread⟩, rfl⟩, hcovers⟩

/-- A scan of a whole directory gives the source files below it that no entry covers. -/
theorem files_scan_nil {paths : List Path} (h : filesAt tree base = .ok paths) :
    (tree.scan base [] ignores).files = inOrder (paths.filter fun path =>
      isSourceFile path && !(kept (ignores.map (Ignore.ofText base))).any (·.covers path)) := by
  simp only [FileTree.scan, if_true, kept, List.filterMap_cons, List.filterMap_nil,
    Except.toOption, List.flatten_cons, List.flatten_nil, List.append_nil, List.map_cons,
    List.map_nil, h]

/-- No file of a scan is excluded. -/
theorem not_excludes_of_mem_scan (h : path ∈ (tree.scan base includes ignores).files) :
    ¬ Excludes base ignores path := by
  rw [← any_kept_iff]
  have hfilter := (List.mem_filter.mp (mem_of_mem_inOrder h)).2
  simp only [Bool.and_eq_true, Bool.not_eq_true'] at hfilter
  exact Bool.eq_false_iff.mp hfilter.2

/-- A file of a scan without entries that is not excluded is found with the entries too. -/
theorem exists_mem_scan_of_not_excludes (h : path ∈ (tree.scan base includes []).files)
    (hfree : ¬ Excludes base ignores path) :
    ∃ other ∈ (tree.scan base includes ignores).files, other.components = path.components := by
  obtain ⟨hfound, hfilter⟩ := List.mem_filter.mp (mem_of_mem_inOrder h)
  rw [← any_kept_iff, Bool.not_eq_true] at hfree
  refine exists_mem_inOrder (List.mem_filter.mpr ⟨hfound, ?_⟩)
  rw [hfree, Bool.not_false, Bool.and_true]
  exact (Bool.and_eq_true_iff.mp hfilter).1

end Scan

namespace CommandLine

open Scan (Excludes ReadsAlike)

/-- The files of one directory are those that a scan of the directory finds. -/
theorem Collected.ofPaths_directory {tree : FileTree} {given dir : Path}
    (hdir : tree.canonical given = .ok dir) (hdirectory : tree.isDirectory dir = true)
    (ignores : List String) :
    Collected.ofPaths tree ignores [given] =
      ((Collected.ofScan (tree.scan dir [] ignores)).append ⟨[], 0, []⟩, none) := by
  simp only [Collected.ofPaths, Collected.ofPath, hdir, hdirectory, if_true]

/-- Hints that are asked for below a directory of a project are those of the files that a scan of
the directory finds. As long as all entries of the project are read alike from the root and from the
directory, none of these files is excluded by the entries as they are read from the root: the scan
of the project leaves none of them out because of an entry. -/
theorem not_excludes_of_hints_below {tree : FileTree} {common : Common} {project : Project}
    {given : String} {dir : Path} (hproject : common.project tree = .ok project)
    (hdir : tree.canonical ⟨given⟩ = .ok dir) (hdirectory : tree.isDirectory dir = true)
    (hinside : dir.startsWith project.root = true)
    (halike : ∀ entry ∈ project.config.ignores, ReadsAlike project.root dir entry) :
    ∃ collected, Collected.ofPaths tree project.config.ignores [⟨given⟩] = (collected, none) ∧
      hints tree [given] common = reportOn tree project common.verbose
        { collected with files := Scan.inOrder collected.files } ∧
      ∀ path ∈ Scan.inOrder collected.files, path.startsWith dir = true →
        ¬ Excludes project.root project.config.ignores path ∧
        (path ∈ (tree.scan project.root project.config.includes []).files →
          ∃ other ∈ (project.scan tree).files, other.components = path.components) := by
  have hroot : project.root.isAbsolute = true := by
    cases hmade : tree.project ⟨common.root.getD "."⟩ common.overrides with
    | error failure => simp [Common.project, hmade, Except.mapError] at hproject
    | ok made =>
      simp only [Common.project, hmade, Except.mapError, Except.ok.injEq] at hproject
      exact hproject ▸ FileTree.isAbsolute_of_project hmade
  have hcollected := Collected.ofPaths_directory hdir hdirectory project.config.ignores
  refine ⟨_, hcollected, ?_, fun path hpath hbelow => ?_⟩
  · simp only [hints, hproject, reduceCtorEq, if_false, List.map_cons, List.map_nil, hcollected]
  · have hmem : path ∈ (tree.scan dir [] project.config.ignores).files := by
      have hmem := Scan.mem_of_mem_inOrder hpath
      simpa only [Collected.append, Collected.ofScan, List.append_nil] using hmem
    have hfree : ¬ Excludes project.root project.config.ignores path := by
      rintro ⟨entry, hentry, ignore, hignore, hcovers⟩
      refine Scan.not_excludes_of_mem_scan hmem ⟨entry, hentry, ?_⟩
      exact (halike entry hentry).covers hroot hinside hbelow hignore hcovers
    exact ⟨hfree, fun hfound => Scan.exists_mem_scan_of_not_excludes hfound hfree⟩

/-! ### A generated file -/

/-- A configuration file that ignores one entry. -/
def ignoring (entry : String) : String :=
  "\x7b\"ignores\":[\"" ++ entry ++ "\"]\x7d"

/-- The files of a project in the root that ignores one entry and has one source file. -/
def generatedFiles (entry : String) : FileTree where
  entries := [([Config.fileName], .file (.text (ignoring entry)) 1),
    (["src"], .directory), (["src", "generated"], .directory),
    (["src", "generated", "a.ts"], .file (.text "t($ => $.a);") 1)]
  directory := []

/-- The values that every command takes, for a project in the root. -/
def commonInRoot : Common := ⟨some "/", Overrides.none, false⟩

namespace generatedFiles

variable {entry : String} {config : Config} {ignores : List String}

/-- The root leads to itself, whether links are followed or not. -/
theorem reach_root (entry : String) (follow : Bool) :
    (generatedFiles entry).reach follow ⟨"/"⟩ = .ok ([], .directory) :=
  FileTree.reach_of_descend? (show FileTree.pathOf [] = _ by decide) (by decide) (by simp) rfl

/-- The directory of the sources leads to itself, whether links are followed or not. -/
theorem reach_src (entry : String) (follow : Bool) :
    (generatedFiles entry).reach follow ⟨"/src"⟩ = .ok (["src"], .directory) :=
  FileTree.reach_of_descend? (show FileTree.pathOf ["src"] = _ by decide) (by decide) (by decide)
    rfl

/-- The configuration file leads to itself. -/
theorem resolve_config (entry : String) :
    (generatedFiles entry).resolve ⟨"/.i18nlensrc.json"⟩ =
      .ok ([Config.fileName], .file (.text (ignoring entry)) 1) :=
  FileTree.resolve_of_descend? (show FileTree.pathOf [Config.fileName] = _ by decide) (by decide)
    (by decide) rfl

/-- The source file leads to itself. -/
theorem resolve_source (entry : String) :
    (generatedFiles entry).resolve ⟨"/src/generated/a.ts"⟩ =
      .ok (["src", "generated", "a.ts"], .file (.text "t($ => $.a);") 1) :=
  FileTree.resolve_of_descend? (show FileTree.pathOf ["src", "generated", "a.ts"] = _ by decide)
    (by decide) (by decide) rfl

/-- The configuration stands in the root. -/
theorem load_eq (hread : (Config.read (ignoring entry)).toOption = some config)
    (hcheck : config.check.isOk = true) :
    Config.load (generatedFiles entry) ⟨"/"⟩ = .ok ⟨config, true, ⟨"/"⟩⟩ := by
  rw [Config.load_root (resolve_config entry) (Config.read_eq_ok hread),
    Config.check_eq_ok hcheck]
  rfl

/-- The project has its root at the top and the configuration of its file. -/
theorem project_eq (hread : (Config.read (ignoring entry)).toOption = some config)
    (hcheck : config.check.isOk = true) :
    commonInRoot.project (generatedFiles entry) = .ok ⟨config, ⟨"/"⟩, true,
      if (generatedFiles entry).isDirectory (config.localesDir ⟨"/"⟩) then
        some (config.localesDir ⟨"/"⟩) else none⟩ := by
  have hcanonical : (generatedFiles entry).canonical ⟨"/"⟩ = .ok ⟨"/"⟩ := by
    rw [FileTree.canonical, FileTree.resolve, reach_root]
    rfl
  have hchecked : (config.withOverrides Overrides.none).check = .ok () :=
    Config.check_eq_ok hcheck
  simp only [Common.project, commonInRoot, Option.getD_some, FileTree.project, hcanonical,
    Except.mapError, bind, Except.bind, load_eq hread hcheck, hchecked]
  rfl

/-- There is a project. -/
theorem exists_project (hread : (Config.read (ignoring entry)).toOption = some config)
    (hcheck : config.check.isOk = true) :
    ∃ project, commonInRoot.project (generatedFiles entry) = .ok project ∧
      project.config = config ∧ project.root = ⟨"/"⟩ :=
  ⟨_, project_eq hread hcheck, rfl, rfl⟩

/-- The one file below the directory of the sources. -/
theorem filesAt_src (entry : String) :
    Scan.filesAt (generatedFiles entry) ⟨"/src"⟩ = .ok [⟨"/src/generated/a.ts"⟩] := by
  rw [Scan.filesAt, reach_src]
  rfl

/-- The files below the root. -/
theorem filesAt_root (entry : String) :
    Scan.filesAt (generatedFiles entry) ⟨"/"⟩ =
      .ok [⟨"/.i18nlensrc.json"⟩, ⟨"/src/generated/a.ts"⟩] := by
  rw [Scan.filesAt, reach_root]
  rfl

/-- The directory of the sources is its own canonical spelling. -/
theorem canonical_src (entry : String) :
    (generatedFiles entry).canonical ⟨"/src"⟩ = .ok ⟨"/src"⟩ := by
  rw [FileTree.canonical, FileTree.resolve, reach_src]
  rfl

/-- The directory of the sources is one. -/
theorem isDirectory_src (entry : String) :
    (generatedFiles entry).isDirectory ⟨"/src"⟩ = true := by
  rw [FileTree.isDirectory, FileTree.resolve, reach_src]

/-- A scan of the sources finds the file that stands there, if no entry, read from their directory,
covers it. -/
theorem files_scan_src (hcovers : (Scan.kept (ignores.map (Scan.Ignore.ofText ⟨"/src"⟩))).any
      (·.covers ⟨"/src/generated/a.ts"⟩) = false) :
    ((generatedFiles entry).scan ⟨"/src"⟩ [] ignores).files = [⟨"/src/generated/a.ts"⟩] := by
  have hsource : isSourceFile ⟨"/src/generated/a.ts"⟩ = true := by decide
  rw [Scan.files_scan_nil (filesAt_src entry)]
  simp [hsource, hcovers, Scan.inOrder]

/-- A scan of the root finds the same file, if no entry, read from the root, covers it. -/
theorem files_scan_root (ignores : List String) :
    ((generatedFiles entry).scan ⟨"/"⟩ [] ignores).files =
      if (Scan.kept (ignores.map (Scan.Ignore.ofText ⟨"/"⟩))).any
        (·.covers ⟨"/src/generated/a.ts"⟩) then [] else [⟨"/src/generated/a.ts"⟩] := by
  have hsource : isSourceFile ⟨"/src/generated/a.ts"⟩ = true := by decide
  have hconfig : isSourceFile ⟨"/.i18nlensrc.json"⟩ = false := by decide
  rw [Scan.files_scan_nil (filesAt_root entry)]
  split
  · next hcovers => simp [hsource, hconfig, hcovers, Scan.inOrder]
  · next hcovers => simp [hsource, hconfig, hcovers, Scan.inOrder]

/-- Hints below the directory of the sources are asked for the file of that scan. -/
theorem exists_collected_src (hcovers : (Scan.kept (ignores.map
      (Scan.Ignore.ofText ⟨"/src"⟩))).any (·.covers ⟨"/src/generated/a.ts"⟩) = false) :
    ∃ collected, Collected.ofPaths (generatedFiles entry) ignores [⟨"/src"⟩] = (collected, none) ∧
      Scan.inOrder collected.files = [⟨"/src/generated/a.ts"⟩] := by
  refine ⟨_, Collected.ofPaths_directory (canonical_src entry) (isDirectory_src entry) ignores, ?_⟩
  simp [Collected.append, Collected.ofScan, files_scan_src hcovers, Scan.inOrder]

end generatedFiles

/-- As long as the ignored path has nothing to do with the directory of the sources, the file there
is looked at, and no entry of the project excludes it. -/
theorem not_excludes_of_hints_below_src :
    let tree := generatedFiles "docs"
    let file : Path := ⟨"/src/generated/a.ts"⟩
    ∃ project, commonInRoot.project tree = .ok project ∧
      tree.canonical ⟨"/src"⟩ = .ok ⟨"/src"⟩ ∧ tree.isDirectory ⟨"/src"⟩ = true ∧
      Path.startsWith ⟨"/src"⟩ project.root = true ∧
      (∀ entry ∈ project.config.ignores, ReadsAlike project.root ⟨"/src"⟩ entry) ∧
      ∃ collected, Collected.ofPaths tree project.config.ignores [⟨"/src"⟩] = (collected, none) ∧
        file ∈ Scan.inOrder collected.files ∧ file.startsWith ⟨"/src"⟩ = true ∧
        ¬ Excludes project.root project.config.ignores file ∧
        ∃ other ∈ (project.scan tree).files, other.components = file.components := by
  intro tree file
  obtain ⟨project, hproject, hconfig, hroot⟩ := @generatedFiles.exists_project "docs"
    { Config.default with ignores := ["docs"] } (by decide +kernel) (by decide +kernel)
  have hdir := generatedFiles.canonical_src "docs"
  have hdirectory := generatedFiles.isDirectory_src "docs"
  have hinside : Path.startsWith ⟨"/src"⟩ project.root = true := by
    rw [hroot]
    decide
  have halike : ∀ entry ∈ project.config.ignores, ReadsAlike project.root ⟨"/src"⟩ entry := by
    rw [hconfig, hroot]
    simp only [List.forall_mem_singleton]
    exact .apart (by unfold Scan.Apart; decide)
  have hbelow : file.startsWith ⟨"/src"⟩ = true := by decide
  obtain ⟨collected, hcollected, -, hfiles⟩ :=
    not_excludes_of_hints_below hproject hdir hdirectory hinside halike
  have hmem : file ∈ Scan.inOrder collected.files := by
    obtain ⟨scanned, hscanned, hfile⟩ := @generatedFiles.exists_collected_src "docs"
      project.config.ignores (by rw [hconfig]; decide)
    rw [hcollected, Prod.mk.injEq] at hscanned
    rw [hscanned.1, hfile]
    exact List.mem_singleton_self file
  obtain ⟨hfree, hfound⟩ := hfiles file hmem hbelow
  refine ⟨project, hproject, hdir, hdirectory, hinside, halike, collected, hcollected, hmem, hbelow,
    hfree, hfound ?_⟩
  have hnone : ¬ (Scan.kept (([] : List String).map (Scan.Ignore.ofText ⟨"/"⟩))).any
      (·.covers ⟨"/src/generated/a.ts"⟩) = true := by decide
  rw [hconfig, hroot, Config.default, generatedFiles.files_scan_root, if_neg hnone]
  exact List.mem_singleton_self file

/-- An ignored path below the directory of the sources is not found again when it is read from that
directory: hints below the directory look at a file that the project excludes. -/
theorem excludes_of_hints_below_src :
    let tree := generatedFiles "src/generated"
    let file : Path := ⟨"/src/generated/a.ts"⟩
    ∃ project, commonInRoot.project tree = .ok project ∧
      tree.canonical ⟨"/src"⟩ = .ok ⟨"/src"⟩ ∧ tree.isDirectory ⟨"/src"⟩ = true ∧
      Path.startsWith ⟨"/src"⟩ project.root = true ∧
      ∃ collected, Collected.ofPaths tree project.config.ignores [⟨"/src"⟩] = (collected, none) ∧
        file ∈ Scan.inOrder collected.files ∧ file.startsWith ⟨"/src"⟩ = true ∧
        Excludes project.root project.config.ignores file ∧
        file ∈ (tree.scan project.root project.config.includes []).files ∧
        (project.scan tree).files = [] := by
  intro tree file
  obtain ⟨project, hproject, hconfig, hroot⟩ := @generatedFiles.exists_project "src/generated"
    { Config.default with ignores := ["src/generated"] } (by decide +kernel) (by decide +kernel)
  have hinside : Path.startsWith ⟨"/src"⟩ project.root = true := by
    rw [hroot]
    decide
  have hcovers : (Scan.kept (["src/generated"].map (Scan.Ignore.ofText ⟨"/"⟩))).any
      (·.covers file) = true := by decide
  have hnone : ¬ (Scan.kept (([] : List String).map (Scan.Ignore.ofText ⟨"/"⟩))).any
      (·.covers file) = true := by decide
  obtain ⟨collected, hcollected, hfile⟩ := @generatedFiles.exists_collected_src "src/generated"
    project.config.ignores (by rw [hconfig]; decide)
  refine ⟨project, hproject, generatedFiles.canonical_src _, generatedFiles.isDirectory_src _,
    hinside, collected, hcollected, ?_, by decide, ?_, ?_, ?_⟩
  · rw [hfile]
    exact List.mem_singleton_self file
  · rw [hconfig, hroot]
    exact Scan.any_kept_iff.mp hcovers
  · rw [hconfig, hroot, Config.default, generatedFiles.files_scan_root, if_neg hnone]
    exact List.mem_singleton_self file
  · rw [Project.scan, hconfig, hroot, Config.default, generatedFiles.files_scan_root,
      if_pos hcovers]

end CommandLine

end KeyLens
