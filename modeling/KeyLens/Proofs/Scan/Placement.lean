import KeyLens.Proofs.Config.Checks
import KeyLens.Proofs.Glob.Placement
import KeyLens.Proofs.Scan.Exactness

/-!
# Scans of a tree at two places

A tree may stand below any directory. What a scan of it finds depends on where it stands only
through the patterns to ignore, because they describe whole paths: a file that no such pattern
describes at either place is found at both or at none, at the same path from there.
-/

namespace KeyLens

namespace FileTree

variable {below : FileTree} {here : List String} {links : Nat} {place : List String}
  {pieces : List (List Char)} {text : String}

/-! ### Trees without links at a place -/

/-- In a tree without links, what does not lead upwards stays inside. -/
theorem Linkless.inside (h : below.Linkless) (hpieces : ['.', '.'] ∉ pieces) :
    below.Inside links place pieces := by
  induction pieces generalizing place with
  | nil => exact .done
  | cons piece rest ih =>
    obtain ⟨hparent, hrest⟩ := not_or.mp (mt List.mem_cons.mpr hpieces)
    by_cases hskip : piece = [] ∨ piece = ['.']
    · exact .skip hskip (ih hrest)
    · exact .name hskip (Ne.symm hparent) (fun _ => ih hrest)
        (fun target hlink => absurd hlink (h.get?_ne_link _ target))
        fun target _ hlink => absurd hlink (h.get?_ne_link _ target)

/-- No link leads out of a tree without links. -/
theorem Linkless.portable (h : below.Linkless) : below.Portable :=
  ⟨h.stands, fun _ => h.inside⟩

/-- In a tree without links there is room for a text in the paths if there is in those of the
entries. -/
theorem Linkless.roomy (h : below.Linkless)
    (hroot : byteLength (stem here).toList + byteLength text.toList + 1 ≤ greatestPath)
    (hentries : ∀ item ∈ below.entries, byteLength (stem here).toList +
      cost (item.1.map String.toList) + byteLength text.toList + 1 ≤ greatestPath) :
    below.Roomy here text := by
  intro path hpath hleads
  cases hwalk : below.walk true greatestLinks [] (List.splitOn '/' path.text.toList) with
  | error failure =>
    rw [hwalk] at hleads
    cases hleads
  | ok found =>
    obtain ⟨names, entry⟩ := found
    have hstands := stands_of_walk (Stands.root below) (fun _ => Text.not_mem_of_mem_splitOn) hwalk
    have hnames := h.names_of_walk hpath hwalk
    have hsteps : (List.splitOn '/' path.text.toList).filter isStep = names.map String.toList := by
      rw [hnames, List.nil_append, List.map_map, show String.toList ∘ String.ofList = id from
        funext fun _ => String.toList_ofList, List.map_id]
    rw [hsteps]
    by_cases hnil : names = []
    · rw [hnil]
      exact hroot
    · exact hentries _ (mem_entries_of_get? hnil hstands.get?_eq)

end FileTree

namespace Scan

open FileTree (IsName IsSpelling Twins Placement Portable Roomy pathOf under)

variable {below tree other : FileTree} {here there : List String} {path start : Path}
  {includes ignores : List String} {budget : Nat} {text : String}

/-! ### Starts at two places -/

/-- An entry to include that is relative and leads to what lies below. -/
structure Inward (text : String) : Prop where
  /-- It is relative. -/
  relative : text.toList.head? ≠ some '/'
  /-- None of its pieces is two dots. -/
  descends : ['.', '.'] ∉ List.splitOn '/' text.toList
  /-- None of its pieces describes two dots. -/
  not_parent : Glob.Pattern.isWild text = true → ∀ piece ∈ List.splitOn '/' text.toList,
    ∀ pattern, Glob.Pattern.parse (String.ofList piece) = .ok pattern →
      ".." ∉ Glob.specials pattern

/-- The steps of an entry to include do not lead upwards. -/
theorem Inward.descends_steps (h : Inward text) (hwild : Glob.Pattern.isWild text = true)
    {row : List Glob.Step} (hrow : Glob.steps text.toList = .ok row) :
    ∀ step ∈ row, step.Descends := by
  intro step hstep
  obtain ⟨piece, hpiece, pattern, hpattern, rfl⟩ := Glob.exists_piece_of_mem_steps hrow hstep
  refine Glob.Step.descends_ofPattern hpattern (Text.not_mem_of_mem_splitOn hpiece) ?_
    (Or.inr (h.not_parent hwild piece hpiece pattern hpattern))
  rintro rfl
  exact h.descends hpiece

/-- What is included leads to the same below two places at which a tree stands: it leads to what
lies below them, there is room for it in the paths, and nothing but its own wildcards stands for
anything else. -/
structure Shared (below tree other : FileTree) (here there includes : List String) : Prop extends
    below.StandsTwice tree other here there where
  /-- It is relative and does not lead upwards. -/
  inward : ∀ text ∈ includes, Inward text
  /-- There is room for it. -/
  room : ∀ text ∈ includes, below.Roomy here text ∧ below.Roomy there text
  /-- If it has wildcards, the places have none. -/
  plain : ∀ text ∈ includes, Glob.Pattern.isWild text = true →
    ∀ name ∈ here ++ there, ∀ c ∈ name.toList, Glob.IsPlain c
  /-- If it has wildcards, it is a pattern. -/
  pattern : ∀ text ∈ includes, Glob.Pattern.isWild text = true →
    ∃ pattern, Glob.Pattern.parse text = .ok pattern

/-- Two places may be swapped. -/
theorem Shared.symm (h : Shared below tree other here there includes) :
    Shared below other tree there here includes where
  toStandsTwice := h.toStandsTwice.symm
  inward := h.inward
  room := fun text htext => (h.room text htext).symm
  plain := fun text htext hwild name hname =>
    h.plain text htext hwild name (List.mem_append.mpr (List.mem_append.mp hname).symm)
  pattern := h.pattern

/-- What a pattern to include describes below one place, it describes below another one. -/
theorem exists_described (hboth : Shared below tree other here there includes) {paths : List Path}
    (included : text ∈ includes) (wild : Glob.Pattern.isWild text = true)
    (described : Glob.paths tree ((pathOf here).join text).text = .ok paths)
    (among : start ∈ paths) :
    ∃ moved, Twins here there (byteLength text.toList + 1) start moved ∧
      ∃ paths', Glob.paths other ((pathOf there).join text).text = .ok paths' ∧ moved ∈ paths' := by
  have hinward := hboth.inward text included
  have hne := Glob.ne_nil_of_isWild wild
  obtain ⟨hplain, hplain'⟩ := List.forall_mem_append.mp (hboth.plain text included wild)
  obtain ⟨pattern, hpattern⟩ := hboth.pattern text included wild
  obtain ⟨all, htokens, -⟩ := Glob.exists_of_map_eq_ok hpattern
  rw [FileTree.join_pathOf_eq_under hboth.first.start.isName hinward.relative] at described
  obtain ⟨row, hrow, hway⟩ := (Glob.exists_paths_under_iff hboth.first.start hboth.first.spelling
    hplain hne hinward.relative htokens).mp ⟨paths, described, among⟩
  have hcost := Glob.idleCost_steps_le hrow hinward.relative
  obtain ⟨moved, htwins, hway'⟩ := hway.move hboth.toStandsTwice (hboth.room text included).2
    (show Twins here there 0 _ _ from .base) (hinward.descends_steps wild hrow) (by omega)
  rw [FileTree.join_pathOf_eq_under hboth.second.start.isName hinward.relative]
  exact ⟨moved, htwins, (Glob.exists_paths_under_iff hboth.second.start hboth.second.spelling
    hplain' hne hinward.relative htokens).mpr ⟨row, hrow, hway'⟩⟩

/-- A scan starts alike at two places at which a tree stands. -/
theorem StartsAt.move (h : StartsAt tree (pathOf here) includes start)
    (hboth : Shared below tree other here there includes) :
    ∃ budget moved, Twins here there budget start moved ∧ IsSpelling start ∧ IsSpelling moved ∧
      StartsAt other (pathOf there) includes moved := by
  cases h with
  | base all =>
    exact ⟨0, pathOf there, .base, hboth.first.spelling, hboth.second.spelling, .base all⟩
  | @path text included plain leads =>
    have hinward := hboth.inward text included
    have hroom := (hboth.room text included).2
    have htwins : Twins here there (byteLength text.toList + 1) ((pathOf here).join text)
        ((pathOf there).join text) := by
      rw [FileTree.join_pathOf_eq_under hboth.first.start.isName hinward.relative,
        FileTree.join_pathOf_eq_under hboth.second.start.isName hinward.relative]
      refine .under ⟨text⟩ hinward.descends ?_
      rw [← FileTree.cost_split]
      exact FileTree.idleCost_le _
    obtain ⟨hspelling, hspelling'⟩ :=
      htwins.isSpelling hboth.toStandsTwice hroom (Nat.le_refl _) leads
    exact ⟨_, _, htwins, hspelling, hspelling', .path included plain
      (Glob.exists?_of_twins htwins hboth.toStandsTwice hroom (Nat.le_refl _) leads)⟩
  | @pattern text paths start included wild described among directory =>
    have hroom := (hboth.room text included).2
    obtain ⟨moved, htwins, paths', described', among'⟩ :=
      exists_described hboth included wild described among
    have hleads : tree.exists? start = true := by
      obtain ⟨place, hplace⟩ := Glob.isDirectory_iff.mp directory
      rw [FileTree.exists?, hplace]
      rfl
    obtain ⟨hspelling, hspelling'⟩ :=
      htwins.isSpelling hboth.toStandsTwice hroom (Nat.le_refl _) hleads
    exact ⟨_, moved, htwins, hspelling, hspelling', .pattern included wild described' among'
      (Glob.isDirectory_of_twins htwins hboth.toStandsTwice hroom (Nat.le_refl _) directory)⟩

/-! ### Files at two places -/

/-- The files below a directory at one place are those below it at another one. -/
theorem exists_mem_filesBelow {moved : Path} {names : List String}
    (h : Twins here there budget start moved) (hboth : below.StandsTwice tree other here there)
    (hpath : path ∈ filesBelow tree start (here ++ names)) :
    ∃ own : Path, path = under here own ∧ Path.stepsOf own.text.toList ≠ [] ∧
      under there own ∈ filesBelow other moved (there ++ names) := by
  obtain ⟨rest, content, modified, hne, hmem, rfl⟩ := mem_filesBelow_iff.mp hpath
  have hstands := hboth.first.stands _ _ hmem
  have hrest : ∀ name ∈ rest, IsName name :=
    fun name hname => hstands.isName name (List.mem_append_right _ hname)
  have hentry : (there ++ names ++ rest, .file content modified) ∈ other.entries := by
    refine FileTree.mem_entries_of_get? (by simp [hne]) ?_
    rw [List.append_assoc, hboth.second.get?_append, ← hboth.first.get?_append, ← List.append_assoc]
    exact hstands.get?_eq
  -- Behind a place or a path below it, the names are a path below the place.
  obtain ⟨own, hown, hown'⟩ : ∃ own : Path, rest.foldl Path.join start = under here own ∧
      rest.foldl Path.join moved = under there own := by
    cases h with
    | base =>
      obtain ⟨name, others, rfl⟩ := List.exists_cons_of_ne_nil hne
      obtain ⟨hname, hothers⟩ := List.forall_mem_cons.mp hrest
      have hhead : name.toList.head? ≠ some '/' :=
        fun hhead => hname.no_slash (List.mem_of_head? hhead)
      refine ⟨others.foldl Path.join ⟨name⟩, ?_, ?_⟩
      · rw [List.foldl_cons, FileTree.join_pathOf_eq_under hboth.first.start.isName hhead,
          FileTree.foldl_join_under hothers]
      · rw [List.foldl_cons, FileTree.join_pathOf_eq_under hboth.second.start.isName hhead,
          FileTree.foldl_join_under hothers]
    | under path =>
      exact ⟨rest.foldl Path.join path, FileTree.foldl_join_under hrest here path,
        FileTree.foldl_join_under hrest there path⟩
  refine ⟨own, hown, ?_, mem_filesBelow_iff.mpr ⟨rest, content, modified, hne, hentry, hown'.symm⟩⟩
  obtain ⟨steps, hsteps⟩ := h.exists_steps hboth.first.start.isName
  have hwhole := Path.components_foldl_join hrest start
  rw [hown, FileTree.components_under hboth.first.start.isName, hsteps, List.append_assoc] at hwhole
  rw [List.append_cancel_left hwhole]
  simp [hne]

/-- A path of one place that leads to a file without links being followed is a path below the place
that has steps. -/
theorem exists_under_of_file {moved : Path} {names : List String} {content : Content}
    {modified : Nat} (h : Twins here there budget start moved)
    (hboth : below.StandsTwice tree other here there) (hspelling : IsSpelling start)
    (hfile : tree.reach false start = .ok (names, .file content modified)) :
    ∃ own : Path, start = under here own ∧ moved = under there own ∧
      Path.stepsOf own.text.toList ≠ [] := by
  cases h with
  | base =>
    rw [hboth.first.toStandsIn.reach_pathOf hspelling] at hfile
    cases hfile
  | under own descends cheap =>
    refine ⟨own, rfl, rfl, ?_⟩
    rw [hboth.first.toStandsIn.reach_under hboth.portable hspelling descends] at hfile
    cases hwalk : below.walk false FileTree.greatestLinks [] (List.splitOn '/' own.text.toList) with
    | error failure =>
      rw [hwalk] at hfile
      cases hfile
    | ok found =>
      obtain ⟨place, entry⟩ := found
      rw [hwalk] at hfile
      obtain ⟨-, rfl⟩ := Prod.mk.inj (Except.ok.inj hfile)
      obtain ⟨last, hlast, hstep⟩ := FileTree.endsInStep_of_walk hwalk
      obtain ⟨step, hstep⟩ := Option.isSome_iff_exists.mp hstep
      exact List.ne_nil_of_mem
        (List.mem_filterMap.mpr ⟨last, List.mem_of_getLast? hlast, hstep⟩)

/-- The files at a start of one place are those at its twin. -/
theorem exists_mem_filesAt {moved : Path} {paths : List Path}
    (h : Twins here there budget start moved)
    (hboth : below.StandsTwice tree other here there)
    (hspelling : IsSpelling start) (hspelling' : IsSpelling moved)
    (hpaths : filesAt tree start = .ok paths) (hpath : path ∈ paths) :
    ∃ own : Path, path = under here own ∧ Path.stepsOf own.text.toList ≠ [] ∧
      ∃ paths', filesAt other moved = .ok paths' ∧ under there own ∈ paths' := by
  obtain ⟨found, hfound, hfound'⟩ := h.reach hboth hspelling hspelling' false
  unfold filesAt at hpaths ⊢
  rw [hfound] at hpaths
  rw [hfound']
  cases found with
  | error failure => cases hpaths
  | ok found =>
    obtain ⟨names, entry⟩ := found
    cases entry with
    | directory =>
      cases hpaths
      obtain ⟨own, hown, hsteps, hmem⟩ := exists_mem_filesBelow h hboth hpath
      exact ⟨own, hown, hsteps, _, rfl, hmem⟩
    | file content modified =>
      cases hpaths
      obtain ⟨own, rfl, rfl, hsteps⟩ := exists_under_of_file h hboth hspelling hfound
      exact ⟨own, List.mem_singleton.mp hpath, hsteps, _, rfl, List.mem_singleton_self _⟩
    | link target =>
      obtain ⟨behind, hbehind, hbehind'⟩ := h.reach hboth hspelling hspelling' true
      have hresolve : tree.resolve start = FileTree.placed here behind := hbehind
      have hresolve' : other.resolve moved = FileTree.placed there behind := hbehind'
      simp only [FileTree.placed, Except.map, hresolve] at hpaths
      simp only [FileTree.placed, Except.map, hresolve']
      cases behind with
      | error failure => cases hpaths
      | ok behind =>
        obtain ⟨names, entry⟩ := behind
        cases entry with
        | directory =>
          cases hpaths
          obtain ⟨own, hown, hsteps, hmem⟩ := exists_mem_filesBelow h hboth hpath
          exact ⟨own, hown, hsteps, _, rfl, hmem⟩
        | file content modified =>
          cases hpaths
          cases hpath
        | link target =>
          cases hpaths
          cases hpath

/-- What is reached from one place is reached from another one. -/
theorem Reaches.move (h : Reaches tree (pathOf here) includes path)
    (hboth : Shared below tree other here there includes) :
    ∃ own : Path, path = under here own ∧ Path.stepsOf own.text.toList ≠ [] ∧
      Reaches other (pathOf there) includes (under there own) := by
  obtain ⟨start, hstart, paths, hpaths, hpath⟩ := h
  obtain ⟨budget, moved, htwins, hspelling, hspelling', hmoved⟩ :=
    hstart.move hboth
  obtain ⟨own, hown, hsteps, paths', hpaths', hpath'⟩ :=
    exists_mem_filesAt htwins hboth.toStandsTwice hspelling hspelling' hpaths hpath
  exact ⟨own, hown, hsteps, moved, hmoved, paths', hpaths', hpath'⟩

/-- The name of a file below a place does not depend on the place. -/
theorem isSourceFile_under {own : Path} (hhere : ∀ name ∈ here, IsName name)
    (hthere : ∀ name ∈ there, IsName name) (hsteps : Path.stepsOf own.text.toList ≠ []) :
    isSourceFile (under here own) = isSourceFile (under there own) := by
  have hlast : ∀ {place : List String}, (∀ name ∈ place, IsName name) →
      (under place own).components.getLast? = (Path.stepsOf own.text.toList).getLast? := by
    intro place hplace
    obtain ⟨last, hlast⟩ := Option.ne_none_iff_exists'.mp (mt List.getLast?_eq_none_iff.mp hsteps)
    rw [FileTree.components_under hplace, List.getLast?_append, hlast, Option.some_or]
  simp only [isSourceFile, Path.extension?, Path.fileName?, hlast hhere, hlast hthere]

/-- Relative paths to ignore exclude the same paths below every place. -/
theorem pathExcludes_under_iff {own : Path} (hhere : ∀ name ∈ here, IsName name)
    (hrelative : ∀ entry ∈ ignores, Glob.Pattern.isWild entry = false →
      entry.toList.head? ≠ some '/') :
    PathExcludes (pathOf here) ignores (under here own) ↔
      ∃ entry ∈ ignores, Glob.Pattern.isWild entry = false ∧
        Path.stepsOf entry.toList <+: Path.stepsOf own.text.toList := by
  refine exists_congr fun entry => and_congr_right fun hentry => and_congr_right fun hplain => ?_
  rw [FileTree.join_pathOf_eq_under hhere (hrelative entry hentry hplain), Path.startsWith_iff,
    FileTree.components_under hhere, FileTree.components_under hhere,
    List.prefix_append_right_inj]

/-- A file that a scan finds at one place is found at another one, unless a pattern to ignore
describes it there. -/
theorem exists_mem_scan_under (hboth : Shared below tree other here there includes)
    (hrelative : ∀ entry ∈ ignores, Glob.Pattern.isWild entry = false →
      entry.toList.head? ≠ some '/')
    (hpath : path ∈ (tree.scan (pathOf here) includes ignores).files) :
    ∃ own, path = under here own ∧ (¬PatternExcludes ignores (under there own) →
      ∃ found ∈ (other.scan (pathOf there) includes ignores).files,
        found.components = (under there own).components) := by
  obtain ⟨hreach, hsource, hfree⟩ := of_mem_scan hpath
  obtain ⟨own, rfl, hsteps, hreach'⟩ := hreach.move hboth
  refine ⟨own, rfl, fun hpattern => exists_mem_scan hreach' ?_ ?_⟩
  · rwa [← isSourceFile_under hboth.first.start.isName hboth.second.start.isName hsteps]
  · rw [excludes_iff, not_or] at hfree ⊢
    refine ⟨?_, hpattern⟩
    rw [pathExcludes_under_iff hboth.second.start.isName hrelative,
      ← pathExcludes_under_iff hboth.first.start.isName hrelative]
    exact hfree.1

/-! ### Warnings -/

/-- Whether a warning is about a pattern. -/
def Warning.isPattern : Warning → Bool
  | invalidIgnore _ _ | invalidInclude _ _ => true
  | missingInclude _ | inaccessible _ _ => false

/-- There is no warning about a pattern if all patterns are patterns piece by piece. -/
theorem not_isPattern_of_mem_warnings (hboth : Shared below tree other here there includes)
    (hsteps : ∀ text ∈ includes, Glob.Pattern.isWild text = true →
      ∃ row, Glob.steps text.toList = .ok row)
    (hignores : ∀ entry ∈ ignores, ∃ pattern, Glob.Pattern.parse entry = .ok pattern) :
    ∀ warning ∈ (tree.scan (pathOf here) includes ignores).warnings, warning.isPattern = false := by
  have hcovers : ∀ warning, .error warning ∉ ignores.map (Ignore.ofText (pathOf here)) := by
    intro warning hmem
    obtain ⟨entry, hentry, hread⟩ := List.mem_map.mp hmem
    obtain ⟨pattern, hpattern⟩ := hignores entry hentry
    unfold Ignore.ofText at hread
    rw [hpattern] at hread
    split at hread <;> cases hread
  have hstarts : ∀ warning, .error warning ∈ starts tree (pathOf here) includes →
      warning.isPattern = false := by
    intro warning hmem
    unfold starts at hmem
    split at hmem
    · cases List.mem_singleton.mp hmem
    · obtain ⟨text, htext, hread⟩ := List.mem_map.mp hmem
      unfold startsOf at hread
      split at hread
      · next hwild =>
        have hrelative := (hboth.inward text htext).relative
        have hne := Glob.ne_nil_of_isWild hwild
        obtain ⟨pattern, hpattern⟩ := hboth.pattern text htext hwild
        obtain ⟨all, htokens, -⟩ := Glob.exists_of_map_eq_ok hpattern
        obtain ⟨row, hrow⟩ := hsteps text htext hwild
        have hnames := hboth.first.start.isName
        have hplain := (List.forall_mem_append.mp (hboth.plain text htext hwild)).1
        rw [FileTree.join_pathOf_eq_under hnames hrelative,
          Glob.paths_under tree hnames hplain hne hrelative htokens, hrow] at hread
        cases hread
      · simp only at hread
        split at hread <;> cases hread
        rfl
  have hfound : ∀ start warning, filesAt tree start = .error warning →
      warning.isPattern = false := by
    intro start warning hread
    unfold filesAt at hread
    split at hread
    · cases hread; rfl
    · cases hread
    · cases hread
    · split at hread <;> cases hread
      rfl
  intro warning hmem
  rcases List.mem_append.mp hmem with hmem | hmem
  · rcases List.mem_append.mp hmem with hmem | hmem
    · exact absurd (mem_warned_iff.mp hmem) (hcovers warning)
    · exact hstarts warning (mem_warned_iff.mp hmem)
  · obtain ⟨start, -, hread⟩ := List.mem_map.mp (mem_warned_iff.mp hmem)
    exact hfound start warning hread

/-! ### Scans at two places -/

/-- The steps of a path behind those of a base. -/
def stepsBelow (base path : Path) : List Component :=
  path.components.drop base.components.length

/-- The steps of a path below a place are its own. -/
theorem stepsBelow_under (hhere : ∀ name ∈ here, IsName name) (own : Path) :
    stepsBelow (pathOf here) (under here own) = Path.stepsOf own.text.toList := by
  rw [stepsBelow, FileTree.components_under hhere, FileTree.components_pathOf hhere,
    List.drop_left]

/-- Paths below a place that are ordered strictly are ordered by their own steps. -/
theorem pairwise_stepsBelow {paths : List Path} (hhere : ∀ name ∈ here, IsName name)
    (h : paths.Pairwise fun left right => left.compare right = .lt)
    (hunder : ∀ path ∈ paths, ∃ own, path = under here own) :
    (paths.map (stepsBelow (pathOf here))).Pairwise
      fun left right => Path.compareComponents left right = .lt := by
  refine List.pairwise_map.mpr (h.imp_of_mem fun hleft hright hlt => ?_)
  obtain ⟨left, rfl⟩ := hunder _ hleft
  obtain ⟨right, rfl⟩ := hunder _ hright
  rw [Path.compare, FileTree.components_under hhere, FileTree.components_under hhere,
    Path.compareComponents_append] at hlt
  rwa [stepsBelow_under hhere, stepsBelow_under hhere]

/-- Files of one list whose paths at another place stand in another list have their own steps there
too. -/
theorem mem_map_stepsBelow {paths others : List Path} {row : List Component}
    (hhere : ∀ name ∈ here, IsName name) (hthere : ∀ name ∈ there, IsName name)
    (hmove : ∀ path ∈ paths, ∃ own, path = under here own ∧
      ∃ found ∈ others, found.components = (under there own).components)
    (hrow : row ∈ paths.map (stepsBelow (pathOf here))) :
    row ∈ others.map (stepsBelow (pathOf there)) := by
  obtain ⟨path, hpath, rfl⟩ := List.mem_map.mp hrow
  obtain ⟨own, rfl, found, hfound, hsame⟩ := hmove path hpath
  refine List.mem_map.mpr ⟨found, hfound, ?_⟩
  rw [stepsBelow_under hhere, ← stepsBelow_under hthere, stepsBelow, hsame]
  rfl

/-- A scan of a tree finds the same files at two places, unless a pattern to ignore describes a
file at one of them only; and no pattern of a configuration that can be used is warned about at
either place if each pattern to include is one piece by piece. No link leads out of the tree, the
paths of the places leave room for what is included, what is included is relative and does not lead
upwards, paths to ignore are relative, and the names of the places have no wildcards if anything is
included by a pattern. -/
theorem scan_at_two_places {config : Config} (hbelow : below.Portable)
    (hhere : below.Placement tree here) (hthere : below.Placement other there)
    (hplain : ∀ text ∈ config.includes, Glob.Pattern.isWild text = true →
      ∀ name ∈ here ++ there, ∀ c ∈ name.toList, Glob.IsPlain c)
    (hroom : ∀ text ∈ config.includes, below.Roomy here text ∧ below.Roomy there text)
    (hcheck : config.check = .ok ()) (hinward : ∀ text ∈ config.includes, Inward text)
    (hrelative : ∀ entry ∈ config.ignores, Glob.Pattern.isWild entry = false →
      entry.toList.head? ≠ some '/') :
    (∀ path ∈ (tree.scan (pathOf here) config.includes config.ignores).files,
      ∃ own, path = under here own ∧ (¬PatternExcludes config.ignores (under there own) →
        ∃ found ∈ (other.scan (pathOf there) config.includes config.ignores).files,
          found.components = (under there own).components)) ∧
    (∀ path ∈ (other.scan (pathOf there) config.includes config.ignores).files,
      ∃ own, path = under there own ∧ (¬PatternExcludes config.ignores (under here own) →
        ∃ found ∈ (tree.scan (pathOf here) config.includes config.ignores).files,
          found.components = (under here own).components)) ∧
    ((∀ own, under here own ∈ (tree.scan (pathOf here) config.includes config.ignores).files →
        ¬PatternExcludes config.ignores (under there own)) →
      (∀ own, under there own ∈ (other.scan (pathOf there) config.includes config.ignores).files →
        ¬PatternExcludes config.ignores (under here own)) →
      (tree.scan (pathOf here) config.includes config.ignores).files.map
          (stepsBelow (pathOf here)) =
        (other.scan (pathOf there) config.includes config.ignores).files.map
          (stepsBelow (pathOf there))) ∧
    ((∀ text ∈ config.includes, Glob.Pattern.isWild text = true →
        ∃ row, Glob.steps text.toList = .ok row) →
      (∀ warning ∈ (tree.scan (pathOf here) config.includes config.ignores).warnings,
        warning.isPattern = false) ∧
      ∀ warning ∈ (other.scan (pathOf there) config.includes config.ignores).warnings,
        warning.isPattern = false) := by
  obtain ⟨hignores, hincludes⟩ := Config.exists_pattern_of_check hcheck
  have hboth : Shared below tree other here there config.includes :=
    ⟨⟨hbelow, hhere, hthere⟩, hinward, hroom, hplain, hincludes⟩
  have hnames := hhere.start.isName
  have hnames' := hthere.start.isName
  have hmove := fun path
      (hpath : path ∈ (tree.scan (pathOf here) config.includes config.ignores).files) =>
    exists_mem_scan_under hboth hrelative hpath
  have hmove' := fun path
      (hpath : path ∈ (other.scan (pathOf there) config.includes config.ignores).files) =>
    exists_mem_scan_under hboth.symm hrelative hpath
  refine ⟨hmove, hmove', fun hfree hfree' => ?_, fun hsteps => ⟨?_, ?_⟩⟩
  · have hunder := fun path hpath => (hmove path hpath).imp fun _ => And.left
    have hunder' := fun path hpath => (hmove' path hpath).imp fun _ => And.left
    refine eq_of_mem_iff (pairwise_stepsBelow hnames (pairwise_scan _ _ _ _) hunder)
      (pairwise_stepsBelow hnames' (pairwise_scan _ _ _ _) hunder') fun row => ⟨?_, ?_⟩
    · refine mem_map_stepsBelow hnames hnames' fun path hpath => ?_
      obtain ⟨own, rfl, hfound⟩ := hmove path hpath
      exact ⟨own, rfl, hfound (hfree own hpath)⟩
    · refine mem_map_stepsBelow hnames' hnames fun path hpath => ?_
      obtain ⟨own, rfl, hfound⟩ := hmove' path hpath
      exact ⟨own, rfl, hfound (hfree' own hpath)⟩
  · exact not_isPattern_of_mem_warnings hboth hsteps hignores
  · exact not_isPattern_of_mem_warnings hboth.symm hsteps hignores

/-- A project with sources, generated ones and those of others. -/
def projectWithGenerated : FileTree where
  entries := [(["src"], .directory), (["src", "a.ts"], .file (.text "") 1),
    (["src", "gen"], .directory), (["src", "gen", "b.ts"], .file (.text "") 2),
    (["node_modules"], .directory), (["node_modules", "c.ts"], .file (.text "") 3)]
  directory := []

/-- A configuration that includes by a pattern what starts with a letter. -/
def sourcesOnly : Config :=
  { Config.default with includes := ["s*"], ignores := ["src/gen"] }

/-- The steps of a pattern of a letter and a star. -/
theorem steps_star : Glob.steps "s*".toList = .ok [.wild ⟨[.char 's', .sequence]⟩] := by
  have hpieces : Glob.pieces (if "s*".toList.head? = some '/' then "s*".toList.tail
      else "s*".toList) = ["s*".toList] := by decide
  simp only [Glob.steps, hpieces, List.mapM_cons, List.mapM_nil, String.ofList_toList, parse_star]
  rfl

/-- The sources of a project start a scan that includes them by a pattern. -/
theorem startsAt_src : StartsAt (projectWithGenerated.placedAt ["home", "p"])
    (pathOf ["home", "p"]) sourcesOnly.includes (under ["home", "p"] ⟨"src"⟩) := by
  have hlinkless : projectWithGenerated.Linkless := by decide
  have hhere : projectWithGenerated.Placement _ ["home", "p"] :=
    FileTree.placement_placedAt hlinkless.stands (by decide) (by decide)
  have hway : Glob.Way (projectWithGenerated.placedAt ["home", "p"]) FileTree.greatestPath
      (pathOf ["home", "p"]) [.wild ⟨[.char 's', .sequence]⟩]
        (Glob.follow (pathOf ["home", "p"]) "src") :=
    .wild (hhere.toStandsIn.reach_pathOf hhere.spelling)
      ((FileTree.mem_children_iff hhere.stands).mpr ⟨.directory, rfl⟩) (by decide) .done
  have htokens : Glob.tokens 0 none "s*".toList = .ok [.char 's', .sequence] := by
    simp [Glob.tokens, Except.map]
  obtain ⟨paths, hpaths, hpath⟩ := (Glob.exists_paths_under_iff hhere.start hhere.spelling
    (by decide) (by decide) (by decide) htokens).mpr ⟨_, steps_star, hway⟩
  rw [← FileTree.join_pathOf_eq_under hhere.start.isName (by decide)] at hpaths
  refine .pattern (List.mem_singleton_self _) (by decide) hpaths hpath ?_
  exact Glob.isDirectory_iff.mpr ⟨_, FileTree.resolve_of_descend?
    (show pathOf ["home", "p", "src"] = _ by decide) (by decide) (by decide) rfl⟩

/-- A scan of the sources of a project reaches the file among them. -/
theorem reaches_source : Reaches (projectWithGenerated.placedAt ["home", "p"])
    (pathOf ["home", "p"]) sourcesOnly.includes (under ["home", "p"] ⟨"src/a.ts"⟩) := by
  have hreach : (projectWithGenerated.placedAt ["home", "p"]).reach false
      (under ["home", "p"] ⟨"src"⟩) = .ok (["home", "p", "src"], .directory) :=
    FileTree.reach_of_descend? (show pathOf ["home", "p", "src"] = _ by decide) (by decide)
      (by decide) rfl
  refine ⟨_, startsAt_src, filesBelow (projectWithGenerated.placedAt ["home", "p"])
    (under ["home", "p"] ⟨"src"⟩) ["home", "p", "src"], by rw [filesAt, hreach], ?_⟩
  exact mem_filesBelow_iff.mpr ⟨["a.ts"], .text "", 1, by decide, by decide, by decide⟩

/-- The sources of a project that are not ignored are found at two places, by a pattern that is no
mistake. -/
theorem scan_at_two_places_of_project :
    (∃ path ∈ ((projectWithGenerated.placedAt ["home", "p"]).scan (pathOf ["home", "p"])
        sourcesOnly.includes sourcesOnly.ignores).files,
      stepsBelow (pathOf ["home", "p"]) path = [.name "src", .name "a.ts"]) ∧
    ((projectWithGenerated.placedAt ["home", "p"]).scan (pathOf ["home", "p"])
        sourcesOnly.includes sourcesOnly.ignores).files.map (stepsBelow (pathOf ["home", "p"])) =
      ((projectWithGenerated.placedAt ["srv"]).scan (pathOf ["srv"])
        sourcesOnly.includes sourcesOnly.ignores).files.map (stepsBelow (pathOf ["srv"])) ∧
    ∀ warning ∈ ((projectWithGenerated.placedAt ["srv"]).scan (pathOf ["srv"])
      sourcesOnly.includes sourcesOnly.ignores).warnings, warning.isPattern = false := by
  have hlinkless : projectWithGenerated.Linkless := by decide
  have hplacement : ∀ place ∈ [["home", "p"], ["srv"]],
      projectWithGenerated.Placement (projectWithGenerated.placedAt place) place := by
    intro place hplace
    exact FileTree.placement_placedAt hlinkless.stands (by revert place; decide)
      (by revert place; decide)
  have hroom : ∀ text ∈ sourcesOnly.includes, projectWithGenerated.Roomy ["home", "p"] text ∧
      projectWithGenerated.Roomy ["srv"] text :=
    List.forall_mem_singleton.mpr ⟨hlinkless.roomy (by decide) (by decide),
      hlinkless.roomy (by decide) (by decide)⟩
  have hinward : ∀ text ∈ sourcesOnly.includes, Inward text :=
    List.forall_mem_singleton.mpr ⟨by decide, by decide, ahead_star.not_parent⟩
  have hpatterns : ∀ path, ¬PatternExcludes sourcesOnly.ignores path := by
    rintro path ⟨entry, hentry, hwild, -⟩
    rw [List.mem_singleton.mp hentry] at hwild
    revert hwild
    decide
  obtain ⟨-, -, hsame, hwarnings⟩ := scan_at_two_places hlinkless.portable
    (hplacement ["home", "p"] (by decide)) (hplacement ["srv"] (by decide)) (by decide) hroom
    (Config.check_eq_ok (by decide +kernel)) hinward (by decide)
  refine ⟨?_, hsame (fun _ _ => hpatterns _) fun _ _ => hpatterns _,
    (hwarnings (List.forall_mem_singleton.mpr fun _ => ⟨_, steps_star⟩)).2⟩
  have hfree : ¬Excludes (pathOf ["home", "p"]) sourcesOnly.ignores
      (under ["home", "p"] ⟨"src/a.ts"⟩) := by
    rw [excludes_iff, not_or]
    refine ⟨?_, hpatterns _⟩
    rintro ⟨entry, hentry, -, hprefix⟩
    rw [List.mem_singleton.mp hentry] at hprefix
    revert hprefix
    decide
  obtain ⟨path, hpath, hsteps⟩ := exists_mem_scan reaches_source (by decide) hfree
  exact ⟨path, hpath, by rw [stepsBelow, hsteps]; decide⟩

/-- The pattern of the default configuration describes what lies below the modules of others. -/
theorem parse_node_modules : ∃ pattern, Glob.Pattern.parse "**/node_modules/**" = .ok pattern ∧
    pattern.matches? "/node_modules/p/a.ts" = true ∧ pattern.matches? "/p/a.ts" = false := by
  refine ⟨⟨.directories :: "node_modules/".toList.map .char ++ [.directories]⟩, ?_, by decide,
    by decide⟩
  simp [Glob.Pattern.parse, Glob.tokens, Except.map]

/-- The only file of a project that is scanned at a place. -/
theorem eq_of_reaches {here : List String} {path : Path}
    (hhere : sourceInRoot.Placement (sourceInRoot.placedAt here) here) :
    Reaches (sourceInRoot.placedAt here) (pathOf here) [] path ↔
      path = (pathOf here).join "a.ts" := by
  have hfiles : filesAt (sourceInRoot.placedAt here) (pathOf here) =
      .ok (filesBelow (sourceInRoot.placedAt here) (pathOf here) here) := by
    rw [filesAt, hhere.toStandsIn.reach_pathOf hhere.spelling]
  have hbelow : path ∈ filesBelow (sourceInRoot.placedAt here) (pathOf here) here ↔
      path = (pathOf here).join "a.ts" := by
    rw [mem_filesBelow_iff]
    constructor
    · rintro ⟨rest, content, modified, hne, hmem, rfl⟩
      have hget := (hhere.stands _ _ hmem).get?_eq
      rw [FileTree.get?_placedAt_append] at hget
      have hsource := FileTree.mem_entries_of_get? hne hget
      rw [(Prod.mk.inj (List.mem_singleton.mp hsource)).1]
      rfl
    · rintro rfl
      exact ⟨["a.ts"], _, _, by decide, FileTree.mem_entries_of_get? (by simp)
        (by rw [FileTree.get?_placedAt_append]; rfl), rfl⟩
  rw [← hbelow]
  constructor
  · rintro ⟨start, hstart, paths, hpaths, hpath⟩
    cases hstart with
    | base all =>
      rw [hfiles] at hpaths
      cases hpaths
      exact hpath
    | path included => cases included
    | pattern included => cases included
  · exact fun hpath => ⟨_, .base rfl, _, hfiles, hpath⟩

/-- The default configuration finds no file of a project that lies below the modules of others, and
finds them elsewhere. -/
theorem scan_differs_below_node_modules : sourceInRoot.Portable ∧
    sourceInRoot.Placement (sourceInRoot.placedAt ["node_modules", "p"]) ["node_modules", "p"] ∧
    sourceInRoot.Placement (sourceInRoot.placedAt ["p"]) ["p"] ∧ Config.default.check = .ok () ∧
    ((sourceInRoot.placedAt ["node_modules", "p"]).scan (pathOf ["node_modules", "p"])
        Config.default.includes Config.default.ignores).files.map
          (stepsBelow (pathOf ["node_modules", "p"])) ≠
      ((sourceInRoot.placedAt ["p"]).scan (pathOf ["p"])
        Config.default.includes Config.default.ignores).files.map (stepsBelow (pathOf ["p"])) := by
  have hlinkless : sourceInRoot.Linkless := by decide
  have hhere := FileTree.placement_placedAt hlinkless.stands
    (show ∀ name ∈ ["node_modules", "p"], IsName name by decide) (by decide)
  have hthere := FileTree.placement_placedAt hlinkless.stands
    (show ∀ name ∈ ["p"], IsName name by decide) (by decide)
  obtain ⟨pattern, hpattern, hmatches, hdiffers⟩ := parse_node_modules
  refine ⟨hlinkless.portable, hhere, hthere, Config.check_default, fun hsame => ?_⟩
  have hfree : ¬Excludes (pathOf ["p"]) Config.default.ignores ((pathOf ["p"]).join "a.ts") := by
    rw [excludes_iff, not_or]
    constructor
    · rintro ⟨entry, hentry, hplain, -⟩
      rw [List.mem_singleton.mp hentry] at hplain
      revert hplain
      decide
    · rintro ⟨entry, hentry, -, other, hother, hcovers⟩
      rw [List.mem_singleton.mp hentry, hpattern] at hother
      cases hother
      exact Bool.false_ne_true (hdiffers.symm.trans hcovers)
  obtain ⟨path, hpath, -⟩ :=
    exists_mem_scan ((eq_of_reaches hthere).mpr rfl) (by decide) hfree
  obtain ⟨other, hother, -⟩ := List.mem_map.mp
    (hsame ▸ List.mem_map_of_mem hpath : stepsBelow (pathOf ["p"]) path ∈ _)
  obtain ⟨hreach, -, hfree⟩ := of_mem_scan hother
  rw [(eq_of_reaches hhere).mp hreach] at hfree
  exact hfree (excludes_iff.mpr
    (Or.inr ⟨_, List.mem_singleton_self _, by decide, pattern, hpattern, hmatches⟩))

end Scan

end KeyLens
