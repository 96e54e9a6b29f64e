import KeyLens.Proofs.Glob.Descent
import KeyLens.Proofs.Scan.Linkless
import KeyLens.Proofs.Scan.Starts

/-!
# What a scan finds

In a tree without links a scan gives exactly the source files at its starts and below them that no
entry excludes. Paths without dots lead along their own names there, so that a file is given once
however many entries lead to it, as long as no entry leads upwards. A pattern of a dot and a star
does lead upwards: it describes the special names of a directory too.
-/

namespace KeyLens

namespace Scan

open FileTree (IsName Linkless)

variable {tree : FileTree} {base start path : Path} {includes ignores names : List String}

/-! ### Starts without dots -/

/-- A text that starts with a single dot as a piece is a path with a leading dot. -/
theorem current_mem_of_head? {text : String}
    (h : (List.splitOn '/' text.toList).head? = some ['.']) :
    .current ∈ (Path.mk text).components := by
  obtain ⟨rest, hsplit⟩ := List.head?_eq_some_iff.mp h
  have htext := @List.intercalate_splitOn _ text.toList _ _ '/'
  rw [hsplit] at htext
  have hhead : Path.headComponent? (Path.splitHead text.toList).1 = some .current := by
    cases rest with
    | nil =>
      rw [← htext]
      rfl
    | cons next others =>
      rw [← htext]
      rfl
  rw [Path.components_eq, hhead]
  exact List.mem_cons_self

/-- A pattern that is followed from a path is not empty. -/
theorem join_ne_nil_of_isWild (base : Path) {text : String}
    (h : Glob.Pattern.isWild text = true) : (base.join text).text.toList ≠ [] := by
  have htext := Glob.ne_nil_of_isWild h
  unfold Path.join
  simp only
  split
  · exact htext
  · split <;> simp [String.toList_append, htext]

/-- An entry to include whose path has no dots, and that does not describe two of them. -/
structure Ahead (text : String) : Prop where
  /-- Its path has no dots. -/
  dotless : Path.Dotless ⟨text⟩
  /-- None of its pieces describes two dots. -/
  not_parent : Glob.Pattern.isWild text = true → ∀ piece ∈ List.splitOn '/' text.toList,
    ∀ pattern, Glob.Pattern.parse (String.ofList piece) = .ok pattern →
      ".." ∉ Glob.specials pattern

/-- What is followed from an absolute path or is relative itself starts where the path does. -/
theorem isAbsolute_join_eq {text : String}
    (h : base.isAbsolute = true ∨ text.toList.head? ≠ some '/') :
    (base.join text).isAbsolute = base.isAbsolute := by
  by_cases hslash : text.toList.head? = some '/'
  · have hbase := h.resolve_right (not_not_intro hslash)
    rw [hbase, Path.isAbsolute_join hbase]
  · exact base.isAbsolute_join_of_relative hslash

/-- Entries to include that have no dots and describe none lead from a base without dots to starts
without dots. -/
theorem StartsAt.dotless (h : StartsAt tree base includes start) (htree : tree.Linkless)
    (hbase : base.Dotless) (hplain : ∀ c ∈ base.text.toList, Glob.IsPlain c)
    (hincludes : ∀ text ∈ includes, Ahead text)
    (habsolute : base.isAbsolute = true ∨ ∀ text ∈ includes, text.toList.head? ≠ some '/') :
    start.Dotless ∧ start.isAbsolute = base.isAbsolute := by
  cases h with
  | base all => exact ⟨hbase, rfl⟩
  | path included plain leads =>
    exact ⟨hbase.join (hincludes _ included).dotless,
      isAbsolute_join_eq (habsolute.imp_right fun h => h _ included)⟩
  | pattern included wild described among directory =>
    rename_i text paths
    have hahead := hincludes text included
    have hjoined : (base.join text).Dotless := hbase.join hahead.dotless
    rw [← isAbsolute_join_eq (habsolute.imp_right fun h => h text included)]
    obtain ⟨row, hsteps, hrow, hway⟩ := Glob.exists_way_of_mem_paths described among
    have hnames : ∀ place, ∀ name ∈ tree.children place, IsName name :=
      fun place name hname => htree.isName_of_mem_children hname
    have hdescends : ∀ step ∈ row, step.Descends := by
      intro step hstep
      obtain ⟨piece, hpiece, pattern, hpattern, rfl⟩ := Glob.exists_piece_of_mem_steps hsteps hstep
      refine Glob.Step.descends_ofPattern hpattern (Text.not_mem_of_mem_splitOn hpiece) ?_ ?_
      · rintro rfl
        exact hjoined.parent_not_mem_split hpiece
      · refine (Path.mem_split_join hpiece).imp (fun hfront c hc => ?_) fun hback => ?_
        · exact hplain c (Text.mem_of_mem_splitOn hfront hc)
        · exact hahead.not_parent wild piece hback pattern hpattern
    by_cases hhead : (base.join text).text.toList.head? = some '/'
    · rw [Glob.startOf, if_pos hhead] at hway
      rw [show (base.join text).isAbsolute = true from beq_iff_eq.mpr hhead]
      exact hway.dotless hnames hdescends (by decide) (by decide)
    · rw [Glob.startOf, if_neg hhead] at hway
      rw [show (base.join text).isAbsolute = false from beq_eq_false_iff_ne.mpr hhead]
      refine hway.dotless_of_current hnames hdescends hrow fun name hname hskip => ?_
      obtain ⟨piece, hpiece, pattern, hpattern, hstep⟩ :=
        Glob.exists_head?_of_steps hsteps hhead hname
      have hname : name.toList = piece := by
        rw [Glob.Pattern.eq_of_plain? hpattern (Glob.Step.plain?_of_ofPattern hstep),
          String.toList_ofList]
      rw [hname] at hskip
      rcases hskip with rfl | rfl
      · rcases Text.eq_nil_or_of_head?_splitOn hpiece with hnil | hslash
        · exact join_ne_nil_of_isWild base wild hnil
        · exact hhead hslash
      · exact hjoined.no_current (current_mem_of_head? hpiece)

/-! ### Files below a start -/

/-- A path to the file at the end of some names, from a start that leads to the file or to a
directory above it. -/
def LiesAt (tree : FileTree) (start : Path) (names : List String) (path : Path) : Prop :=
  ∃ place entry rest content modified, tree.resolve start = .ok (place, entry) ∧
    names = place ++ rest ∧ tree.get? names = some (.file content modified) ∧
    path = rest.foldl Path.join start

/-- A path to the file at the end of some names, from one of the starts of a scan. -/
def LiesIn (tree : FileTree) (base : Path) (includes names : List String) (path : Path) : Prop :=
  ∃ start, StartsAt tree base includes start ∧ LiesAt tree start names path

/-- In a tree without links the files at a start and below it are those to which it leads on. -/
theorem mem_filesAt_iff (h : tree.Linkless) :
    (∃ paths, filesAt tree start = .ok paths ∧ path ∈ paths) ↔
      ∃ names, LiesAt tree start names path := by
  unfold filesAt
  rw [h.reach_follow]
  cases hresolve : tree.resolve start with
  | error failure => simp [LiesAt, hresolve]
  | ok found =>
    obtain ⟨place, entry⟩ := found
    obtain ⟨hstands, hlink⟩ := FileTree.stands_of_resolve h.start hresolve
    have hlies : (∃ names, LiesAt tree start names path) ↔ ∃ rest content modified,
        tree.get? (place ++ rest) = some (.file content modified) ∧
          path = rest.foldl Path.join start := by
      constructor
      · rintro ⟨_, _, _, rest, content, modified, hfound, rfl, hget, hpath⟩
        cases hresolve.symm.trans hfound
        exact ⟨rest, content, modified, hget, hpath⟩
      · rintro ⟨rest, content, modified, hget, hpath⟩
        exact ⟨_, place, entry, rest, content, modified, hresolve, rfl, hget, hpath⟩
    rw [hlies]
    cases entry with
    | link target => exact absurd rfl (hlink target)
    | file content modified =>
      constructor
      · rintro ⟨paths, hpaths, hpath⟩
        cases hpaths
        refine ⟨[], content, modified, ?_, List.mem_singleton.mp hpath⟩
        rw [List.append_nil]
        exact hstands.get?_eq
      · rintro ⟨rest, other, time, hget, rfl⟩
        -- Nothing stands below a file.
        by_cases hrest : rest = []
        · rw [hrest]
          exact ⟨_, rfl, List.mem_singleton_self _⟩
        · have hbelow := h.stands _ _ (FileTree.mem_entries_of_get? (by simp [hrest]) hget)
          have habove := hbelow.above place (List.prefix_append place rest) (by simpa using hrest)
          cases hstands.get?_eq.symm.trans habove
    | directory =>
      constructor
      · rintro ⟨paths, hpaths, hpath⟩
        cases hpaths
        obtain ⟨rest, content, modified, -, hmem, hpath⟩ := mem_filesBelow_iff.mp hpath
        exact ⟨rest, content, modified, (h.stands _ _ hmem).get?_eq, hpath⟩
      · rintro ⟨rest, content, modified, hget, hpath⟩
        have hrest : rest ≠ [] := by
          rintro rfl
          rw [List.append_nil] at hget
          cases hstands.get?_eq.symm.trans hget
        exact ⟨_, rfl, mem_filesBelow_iff.mpr ⟨rest, content, modified, hrest,
          FileTree.mem_entries_of_get? (by simp [hrest]) hget, hpath⟩⟩

/-- In a tree without links a scan reaches the paths of the files at its starts and below them. -/
theorem reaches_iff (h : tree.Linkless) :
    Reaches tree base includes path ↔ ∃ names, LiesIn tree base includes names path := by
  unfold Reaches LiesIn
  simp only [mem_filesAt_iff h]
  constructor
  · rintro ⟨start, hstart, names, hlies⟩
    exact ⟨names, start, hstart, hlies⟩
  · rintro ⟨names, start, hstart, hlies⟩
    exact ⟨start, hstart, names, hlies⟩

/-- Paths to one file that hold no dots and start alike have the same steps. -/
theorem components_eq_of_liesAt (h : tree.Linkless) {other first second : Path}
    (hfirst : LiesAt tree start names first) (hsecond : LiesAt tree other names second)
    (hstart : start.Dotless) (hother : other.Dotless)
    (habsolute : start.isAbsolute = other.isAbsolute) : first.components = second.components := by
  -- Both lead from the same place along the same names.
  have hspelled : ∀ {start path : Path}, start.Dotless → LiesAt tree start names path →
      ∃ steps : List String, names = (if start.isAbsolute then [] else tree.directory) ++ steps ∧
        path.components = (if start.isAbsolute then [.root] else []) ++ steps.map .name := by
    rintro start path hdotless
      ⟨place, entry, rest, content, modified, hresolve, rfl, hget, rfl⟩
    obtain ⟨steps, hplace, hcomponents⟩ := h.exists_names_of_resolve hdotless hresolve
    have hrest : ∀ name ∈ rest, IsName name := by
      intro name hname
      have hne : place ++ rest ≠ [] := by
        simp [List.ne_nil_of_mem hname]
      exact (h.stands _ _ (FileTree.mem_entries_of_get? hne hget)).isName name
        (List.mem_append_right place hname)
    refine ⟨steps ++ rest, by rw [hplace, List.append_assoc], ?_⟩
    rw [Path.components_foldl_join hrest, hcomponents, List.append_assoc, List.map_append]
  obtain ⟨steps, hnames, hcomponents⟩ := hspelled hstart hfirst
  obtain ⟨steps', hnames', hcomponents'⟩ := hspelled hother hsecond
  rw [← habsolute] at hnames' hcomponents'
  rw [hcomponents, hcomponents', List.append_cancel_left (hnames.symm.trans hnames')]

/-! ### Exactness -/

/-- The starts of a scan depend on what is to be included, and on no order. -/
theorem StartsAt.of_mem_iff {others : List String} (h : StartsAt tree base includes start)
    (hmem : ∀ text, text ∈ others ↔ text ∈ includes) : StartsAt tree base others start := by
  cases h with
  | base all => exact .base (List.eq_nil_iff_forall_not_mem.mpr fun text htext => by
      simpa [all] using (hmem text).mp htext)
  | path included plain leads => exact .path ((hmem _).mpr included) plain leads
  | pattern included wild described among directory =>
    exact .pattern ((hmem _).mpr included) wild described among directory

/-- What is excluded depends on what is to be ignored, and on no order. -/
theorem Excludes.of_mem_iff {others : List String} (h : Excludes base ignores path)
    (hmem : ∀ text, text ∈ others ↔ text ∈ ignores) : Excludes base others path := by
  obtain ⟨entry, hentry, hcovers⟩ := h
  exact ⟨entry, (hmem entry).mpr hentry, hcovers⟩

/-- The steps of the files of a scan depend on what is to be included and to be ignored, and on no
order. -/
theorem map_components_scan {others omits : List String}
    (hothers : ∀ text, text ∈ others ↔ text ∈ includes)
    (homits : ∀ text, text ∈ omits ↔ text ∈ ignores) :
    (tree.scan base others omits).files.map Path.components =
      (tree.scan base includes ignores).files.map Path.components := by
  have hsorted : ∀ includes ignores : List String,
      ((tree.scan base includes ignores).files.map Path.components).Pairwise
        fun left right => Path.compareComponents left right = .lt :=
    fun includes ignores => List.pairwise_map.mpr (pairwise_scan tree base includes ignores)
  have hsubset : ∀ {includes ignores others omits : List String},
      (∀ text, text ∈ others ↔ text ∈ includes) → (∀ text, text ∈ omits ↔ text ∈ ignores) →
      ∀ steps ∈ (tree.scan base includes ignores).files.map Path.components,
        steps ∈ (tree.scan base others omits).files.map Path.components := by
    intro includes ignores others omits hothers homits steps hsteps
    obtain ⟨path, hpath, rfl⟩ := List.mem_map.mp hsteps
    obtain ⟨⟨start, hstart, hfound⟩, hsource, hfree⟩ := of_mem_scan hpath
    have hfree' : ¬Excludes base omits path :=
      fun hcovers => hfree (hcovers.of_mem_iff fun text => (homits text).symm)
    obtain ⟨other, hother, hsame⟩ :=
      exists_mem_scan ⟨start, hstart.of_mem_iff hothers, hfound⟩ hsource hfree'
    exact List.mem_map.mpr ⟨other, hother, hsame⟩
  refine eq_of_mem_iff (hsorted others omits) (hsorted includes ignores) fun steps => ?_
  exact ⟨hsubset (fun text => (hothers text).symm) (fun text => (homits text).symm) steps,
    hsubset hothers homits steps⟩

/-- In a tree without links the files at a path that leads somewhere can all be reached. -/
theorem filesAt_ne_error (h : tree.Linkless) (hleads : tree.exists? start = true)
    (warning : Warning) : filesAt tree start ≠ .error warning := by
  unfold filesAt
  rw [h.reach_follow]
  unfold FileTree.exists? at hleads
  cases hresolve : tree.resolve start with
  | error failure =>
    rw [hresolve] at hleads
    cases hleads
  | ok found =>
    obtain ⟨place, entry⟩ := found
    cases entry with
    | link target => exact absurd rfl ((FileTree.stands_of_resolve h.start hresolve).2 target)
    | file content modified => exact nofun
    | directory => exact nofun

/-- In a tree without links a scan of what is included reaches everything. -/
theorem skipped_scan (h : tree.Linkless) (hincludes : includes ≠ []) :
    (tree.scan base includes ignores).skipped = 0 := by
  change (warned ((kept (starts tree base includes)).flatten.map (filesAt tree))).length = 0
  rw [List.length_eq_zero_iff, List.eq_nil_iff_forall_not_mem]
  intro warning hwarning
  obtain ⟨start, hstart, herror⟩ := List.mem_map.mp (mem_warned_iff.mp hwarning)
  refine filesAt_ne_error h ?_ warning herror
  cases mem_starts_iff.mp hstart with
  | base all => exact absurd all hincludes
  | path included plain leads => exact leads
  | pattern included wild described among directory =>
    obtain ⟨place, hplace⟩ := Glob.isDirectory_iff.mp directory
    rw [FileTree.exists?, hplace]
    rfl

/-- In a tree without links a scan gives, in strict order, exactly the paths of the source files at
its starts and below them that lie at or below no path to ignore and that no pattern to ignore
describes. Neither the order nor the repetition of entries makes a difference. If the base has no
dots and no wildcards, if what is included has no dots and describes none, and if it is relative or
the base is absolute, then each file is given once. -/
theorem scan_exact (h : tree.Linkless) (base : Path) (includes ignores : List String) :
    (tree.scan base includes ignores).files.Pairwise
      (fun left right => left.compare right = .lt) ∧
    (∀ path ∈ (tree.scan base includes ignores).files,
      (∃ names, LiesIn tree base includes names path) ∧ isSourceFile path = true ∧
        ¬PathExcludes base ignores path ∧ ¬PatternExcludes ignores path) ∧
    (∀ names path, LiesIn tree base includes names path → isSourceFile path = true →
      ¬PathExcludes base ignores path → ¬PatternExcludes ignores path →
        ∃ other ∈ (tree.scan base includes ignores).files, other.components = path.components) ∧
    (∀ others omits : List String, (∀ text, text ∈ others ↔ text ∈ includes) →
      (∀ text, text ∈ omits ↔ text ∈ ignores) →
        (tree.scan base others omits).files.map Path.components =
            (tree.scan base includes ignores).files.map Path.components ∧
          (tree.scan base others omits).skipped = (tree.scan base includes ignores).skipped) ∧
    (base.Dotless → (∀ c ∈ base.text.toList, Glob.IsPlain c) → (∀ text ∈ includes, Ahead text) →
      (base.isAbsolute = true ∨ ∀ text ∈ includes, text.toList.head? ≠ some '/') →
        ∀ names, ∀ first ∈ (tree.scan base includes ignores).files,
          ∀ second ∈ (tree.scan base includes ignores).files,
            LiesIn tree base includes names first → LiesIn tree base includes names second →
              first = second) := by
  refine ⟨pairwise_scan tree base includes ignores, fun path hpath => ?_,
    fun names path hlies hsource hpaths hpatterns => ?_, fun others omits hothers homits => ?_,
    fun hbase hplain hincludes habsolute names first hfirst second hsecond hlies hlies' => ?_⟩
  · obtain ⟨hreach, hsource, hfree⟩ := of_mem_scan hpath
    rw [excludes_iff, not_or] at hfree
    exact ⟨(reaches_iff h).mp hreach, hsource, hfree⟩
  · refine exists_mem_scan ((reaches_iff h).mpr ⟨names, hlies⟩) hsource ?_
    rw [excludes_iff, not_or]
    exact ⟨hpaths, hpatterns⟩
  · refine ⟨map_components_scan hothers homits, ?_⟩
    by_cases hall : includes = []
    · have hnone : others = [] := List.eq_nil_iff_forall_not_mem.mpr fun text htext => by
        simpa [hall] using (hothers text).mp htext
      rw [hall, hnone]
      rfl
    · have hsome : others ≠ [] := by
        rintro rfl
        obtain ⟨text, htext⟩ := List.exists_mem_of_ne_nil includes hall
        cases (hothers text).mpr htext
      rw [skipped_scan h hall, skipped_scan h hsome]
  · obtain ⟨start, hstart, hfound⟩ := hlies
    obtain ⟨other, hother, hfound'⟩ := hlies'
    obtain ⟨hdotless, hsame⟩ := hstart.dotless h hbase hplain hincludes habsolute
    obtain ⟨hdotless', hsame'⟩ := hother.dotless h hbase hplain hincludes habsolute
    exact eq_of_components_eq (pairwise_scan tree base includes ignores) hfirst hsecond
      (components_eq_of_liesAt h hfound hfound' hdotless hdotless' (hsame.trans hsame'.symm))

/-! ### Overlapping entries -/

/-- A project with one source file in a directory. -/
def projectWithSource : FileTree where
  entries := [(["p"], .directory), (["p", "src"], .directory),
    (["p", "src", "a.ts"], .file (.text "") 1)]
  directory := []

/-- The directory of the sources leads to itself. -/
theorem resolve_src : projectWithSource.resolve ⟨"/p/src"⟩ = .ok (["p", "src"], .directory) :=
  FileTree.resolve_of_descend? (show FileTree.pathOf ["p", "src"] = _ by decide) (by decide)
    (by decide) rfl

/-- A letter and a star are the parts of a pattern. -/
theorem parse_star : Glob.Pattern.parse "s*" = .ok ⟨[.char 's', .sequence]⟩ := by
  simp [Glob.Pattern.parse, Glob.tokens, Except.map]

/-- A pattern of a letter and a star describes no dots. -/
theorem ahead_star : Ahead "s*" where
  dotless := by decide
  not_parent := by
    intro _ piece hpiece pattern hpattern
    have hsplit : List.splitOn '/' "s*".toList = ["s*".toList] := by decide
    rw [hsplit, List.mem_singleton] at hpiece
    rw [hpiece, String.ofList_toList, parse_star] at hpattern
    cases hpattern
    decide

/-- The parts of a pattern for declarations in any directory. -/
theorem parse_declarations : Glob.Pattern.parse "**/*.d.ts" =
    .ok ⟨[.directories, .sequence, .char '.', .char 'd', .char '.', .char 't', .char 's']⟩ := by
  simp [Glob.Pattern.parse, Glob.tokens, Except.map]

/-- The file of a project that has only one is given once, although a path and a pattern to include
both lead to it. -/
theorem scan_exact_of_path_and_pattern : projectWithSource.Linkless ∧
    (∃ path ∈ (projectWithSource.scan ⟨"/p"⟩ ["src", "s*"] ["**/*.d.ts"]).files,
      path.components = [.root, .name "p", .name "src", .name "a.ts"]) ∧
    ∀ first ∈ (projectWithSource.scan ⟨"/p"⟩ ["src", "s*"] ["**/*.d.ts"]).files,
      ∀ second ∈ (projectWithSource.scan ⟨"/p"⟩ ["src", "s*"] ["**/*.d.ts"]).files,
        LiesIn projectWithSource ⟨"/p"⟩ ["src", "s*"] ["p", "src", "a.ts"] first →
          LiesIn projectWithSource ⟨"/p"⟩ ["src", "s*"] ["p", "src", "a.ts"] second →
            first = second := by
  have hlinkless : projectWithSource.Linkless := by decide
  obtain ⟨-, -, hall, -, honce⟩ :=
    scan_exact hlinkless ⟨"/p"⟩ ["src", "s*"] ["**/*.d.ts"]
  have hstart : StartsAt projectWithSource ⟨"/p"⟩ ["src", "s*"] ⟨"/p/src"⟩ := by
    have hjoin : (Path.mk "/p").join "src" = ⟨"/p/src"⟩ := by decide
    rw [← hjoin]
    refine .path (by decide) (by decide) ?_
    rw [FileTree.exists?, hjoin, resolve_src]
    rfl
  have hlies : LiesIn projectWithSource ⟨"/p"⟩ ["src", "s*"] ["p", "src", "a.ts"]
      ⟨"/p/src/a.ts"⟩ :=
    ⟨_, hstart, _, _, ["a.ts"], _, _, resolve_src, rfl, rfl, by decide⟩
  refine ⟨hlinkless, ?_, honce (by decide) (by decide) ?_ (Or.inl (by decide)) _⟩
  · refine hall _ _ hlies (by decide) ?_ ?_
    · rintro ⟨entry, hentry, hplain, -⟩
      rw [List.mem_singleton.mp hentry] at hplain
      revert hplain
      decide
    · rintro ⟨entry, hentry, -, pattern, hpattern, hmatches⟩
      rw [List.mem_singleton.mp hentry, parse_declarations] at hpattern
      cases hpattern
      revert hmatches
      decide
  · intro text htext
    rcases List.mem_cons.mp htext with rfl | htext
    · exact ⟨by decide, fun hwild => absurd hwild (by decide)⟩
    · rw [List.mem_singleton.mp htext]
      exact ahead_star

/-- A project with one source file in the root. -/
def sourceInRoot : FileTree where
  entries := [(["a.ts"], .file (.text "") 1)]
  directory := []

/-- A dot and a star are the parts of a pattern. -/
theorem parse_dot_star : Glob.Pattern.parse ".*" = .ok ⟨[.char '.', .sequence]⟩ := by
  simp [Glob.Pattern.parse, Glob.tokens, Except.map]

/-- A pattern of a dot and a star describes a directory itself and the one above it, so that a file
is given twice although no step to include is a dot. -/
theorem scan_twice_of_dot_star : sourceInRoot.Linkless ∧ Path.Dotless ⟨".*"⟩ ∧
    ∃ first ∈ (sourceInRoot.scan ⟨"/"⟩ [".*"] []).files,
      ∃ second ∈ (sourceInRoot.scan ⟨"/"⟩ [".*"] []).files,
        LiesIn sourceInRoot ⟨"/"⟩ [".*"] ["a.ts"] first ∧
          LiesIn sourceInRoot ⟨"/"⟩ [".*"] ["a.ts"] second ∧ first ≠ second := by
  have hlinkless : sourceInRoot.Linkless := by decide
  -- Neither two dots behind the root nor one lead away from it.
  have hroot : ∀ path ∈ [Path.mk "/", ⟨"/.."⟩, ⟨"/."⟩],
      sourceInRoot.resolve path = .ok ([], .directory) := by
    simp only [List.forall_mem_cons]
    refine ⟨?_, ?_, ?_, nofun⟩ <;>
      rw [FileTree.resolve, FileTree.reach_of_isAbsolute _ _ (by decide) (by decide)] <;>
      simp [FileTree.walk, List.splitOn_cons_eq_if_modifyHead]
  have hpaths : Glob.paths sourceInRoot ((Path.mk "/").join ".*").text =
      .ok (Glob.expand sourceInRoot FileTree.greatestPath ⟨"/"⟩
        [.wild ⟨[.char '.', .sequence]⟩]) := by
    have htext : ((Path.mk "/").join ".*").text = "/.*" := by decide
    have htokens : Glob.tokens 0 none "/.*".toList = .ok [.char '/', .char '.', .sequence] := by
      simp [Glob.tokens, Except.map]
    have hsteps : Glob.steps "/.*".toList = .ok [.wild ⟨[.char '.', .sequence]⟩] := by
      have hpieces : Glob.pieces (if "/.*".toList.head? = some '/' then "/.*".toList.tail
          else "/.*".toList) = [".*".toList] := by decide
      simp only [Glob.steps, hpieces, List.mapM_cons, List.mapM_nil, String.ofList_toList,
        parse_dot_star]
      rfl
    simp only [Glob.paths, htext, htokens, hsteps, Except.bind, Except.map]
    rfl
  have hlies : ∀ name ∈ ["..", "."], LiesIn sourceInRoot ⟨"/"⟩ [".*"] ["a.ts"]
      (((Path.mk "/").join name).join "a.ts") := by
    intro name hname
    have hmem : (Path.mk "/").join name ∈ [Path.mk "/", ⟨"/.."⟩, ⟨"/."⟩] := by
      revert name
      decide
    have hspecial : name ∈ Glob.specials ⟨[.char '.', .sequence]⟩ := by
      revert name
      decide
    have hdirectory : ∀ path ∈ [Path.mk "/", ⟨"/.."⟩, ⟨"/."⟩],
        sourceInRoot.isDirectory path = true :=
      fun path hpath => Glob.isDirectory_iff.mpr ⟨[], hroot path hpath⟩
    refine ⟨(Path.mk "/").join name, ?_, [], .directory, ["a.ts"], _, _, hroot _ hmem, rfl, rfl,
      rfl⟩
    exact .pattern (List.mem_singleton_self _) (by decide) hpaths
      (Glob.mem_expand_iff.mpr (.special (hdirectory _ (by simp)) hspecial .done))
      (hdirectory _ hmem)
  have hfound : ∀ name ∈ ["..", "."], ∃ path ∈ (sourceInRoot.scan ⟨"/"⟩ [".*"] []).files,
      path.components = (((Path.mk "/").join name).join "a.ts").components := by
    intro name hname
    refine exists_mem_scan ((reaches_iff hlinkless).mpr ⟨_, hlies name hname⟩) ?_ ?_
    · revert name
      decide
    · rintro ⟨entry, hentry, -⟩
      cases hentry
  -- All files that are given are the only one that there is.
  have honly : ∀ path ∈ (sourceInRoot.scan ⟨"/"⟩ [".*"] []).files,
      LiesIn sourceInRoot ⟨"/"⟩ [".*"] ["a.ts"] path := by
    intro path hpath
    obtain ⟨names, start, hstart, hlies⟩ := (reaches_iff hlinkless).mp (of_mem_scan hpath).1
    have hnames : names = ["a.ts"] := by
      obtain ⟨-, -, -, content, modified, -, -, hget, -⟩ := hlies
      have hne : names ≠ [] := by
        rintro rfl
        cases hget
      have hmem := FileTree.mem_entries_of_get? hne hget
      exact (Prod.mk.inj (List.mem_singleton.mp hmem)).1
    exact ⟨start, hstart, hnames ▸ hlies⟩
  obtain ⟨first, hfirst, hsteps⟩ := hfound ".." (by simp)
  obtain ⟨second, hsecond, hsteps'⟩ := hfound "." (by simp)
  refine ⟨hlinkless, by decide, first, hfirst, second, hsecond, honly first hfirst,
    honly second hsecond, ?_⟩
  rintro rfl
  rw [hsteps] at hsteps'
  revert hsteps'
  decide

end Scan

end KeyLens
