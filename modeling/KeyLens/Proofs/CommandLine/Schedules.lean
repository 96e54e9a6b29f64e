import KeyLens.Proofs.CommandLine.Collected
import KeyLens.Proofs.Files.Stamps
import KeyLens.Proofs.Store.Pool

/-!
# Schedules

The files for which hints are asked are annotated by tasks that share a store and whose steps may
alternate in any order. As long as the files stay as they are, the reports, their order and the
status are those of the files one after the other.
-/

namespace KeyLens

namespace Task

variable {store : Store} {localesDir : Option Path}

/-- Makes the hint for a call, with lines for `languages`. -/
def hint (localesDir : Option Path) (language : String) (languages : List String) (info : CallInfo)
    (position : Position) : Task Hint :=
  (resolveFirst localesDir info.namespaces info.key language).bind fun own =>
    (resolveEach localesDir info.namespaces info.key (Hint.listed languages)).map fun others => {
      offset := info.span.stop
      position := position
      key := info.key
      namespaces := info.namespaces
      language := language
      resolved := own
      label := Hint.labelOf language own
      blockLines := others.map (fun (language, resolved) => Hint.lineOf language resolved) ++
        Hint.moreLine languages }

/-- Makes the hints for calls in their order, with lines for `languages`. -/
def hintsFor (localesDir : Option Path) (language : String) (languages : List String) :
    List (CallInfo × Position) → Task (List Hint)
  | [] => .done []
  | (info, position) :: rest =>
    (hint localesDir language languages info position).bind fun first =>
      (hintsFor localesDir language languages rest).map (first :: ·)

/-- Makes the hints for a host; which languages there are is asked first. -/
def hints (provider : Provider) (localesDir : Option Path) (config : Config) (host : Host) :
    Task (List Hint) :=
  let languages :=
    if config.showAllLanguages then (Store.ofDirectory localesDir).languages provider else []
  hintsFor localesDir config.inlineLanguage languages (host.hinted config.defaultNamespace)

/-- The hint for a call is made by its task. -/
theorem perform_hint (provider : Provider) (hdir : store.localesDir = localesDir)
    (language : String) (languages : List String) (info : CallInfo) (position : Position) :
    (hint localesDir language languages info position).perform provider store =
      store.hint provider language languages info position := by
  have hown := perform_resolveFirst provider hdir info.namespaces info.key language
  have hafter := localesDir_of_perform hown hdir
  rw [hint, perform_bind, hown]
  simp only [perform_map, perform_resolveEach provider hafter, Outcome.map, Store.hint]

/-- The hints for calls are made by their task. -/
theorem perform_hintsFor (provider : Provider) (hdir : store.localesDir = localesDir)
    (language : String) (languages : List String) (calls : List (CallInfo × Position)) :
    (hintsFor localesDir language languages calls).perform provider store =
      store.hintsFor provider language languages calls := by
  induction calls generalizing store with
  | nil => rfl
  | cons call rest ih =>
    obtain ⟨info, position⟩ := call
    have hfirst := perform_hint provider hdir language languages info position
    have hafter := localesDir_of_perform hfirst hdir
    rw [hintsFor, perform_bind, hfirst, Store.hintsFor]
    simp only [perform_map, ih hafter, Outcome.map]

/-- The hints for a host are made by their task. -/
theorem perform_hints (provider : Provider) (hdir : store.localesDir = localesDir) (config : Config)
    (host : Host) :
    (hints provider localesDir config host).perform provider store =
      store.hints provider config host := by
  have hlanguages : (Store.ofDirectory localesDir).languages provider = store.languages provider := by
    rw [Store.languages, Store.languages, hdir, Store.ofDirectory]
  rw [hints, hlanguages, Store.hints]
  exact perform_hintsFor provider hdir _ _ _

end Task

namespace CommandLine

variable {tree : FileTree} {project : Project} {store : Store} {files : List Path}

/-- Annotates one file. -/
def annotate (tree : FileTree) (project : Project) (path : Path) :
    Task (Except SourceError FileReport) :=
  match tree.readHost path with
  | .error error => .done (.error error)
  | .ok host =>
    (Task.hints tree.provider project.localesDir project.config host).map fun hints => .ok {
      path := project.displayPath path
      hints := hints.map fun hint => ⟨hint, host.source.lineText? hint.position.line⟩ }

/-- The reports among the results for files in order, without those that have no hints, and the
number of files that hold no program. -/
def assembled : List (Except SourceError FileReport) → List FileReport × Nat
  | [] => ([], 0)
  | .error _ :: rest => ((assembled rest).1, (assembled rest).2 + 1)
  | .ok report :: rest =>
    (if report.hints = [] then (assembled rest).1 else report :: (assembled rest).1,
      (assembled rest).2)

/-- A file is reported on as its task annotates it: with an error at once, or with the hints that
the store gives. -/
theorem fileReport_eq_perform (tree : FileTree) (hdir : store.localesDir = project.localesDir)
    (path : Path) :
    match fileReport tree project store path with
    | .error error => annotate tree project path = .done (.error error)
    | .ok outcome => (annotate tree project path).perform tree.provider store = outcome.map .ok := by
  rw [fileReport, annotate]
  cases tree.readHost path with
  | error error => rfl
  | ok host =>
    simp only [Except.map, Task.perform_map, Task.perform_hints tree.provider hdir]
    rfl

/-- The reports of files, one after the other, are those of their tasks put together. -/
theorem fileReports_eq_assembled
    (hserves : store.Serves project.localesDir [tree.provider]) (files : List Path) :
    fileReports tree project store files =
      assembled (files.map fun path => (annotate tree project path).value tree.provider) := by
  have hfaithful := FileTree.stampFaithful_provider tree
  have hmoment : tree.provider ∈ [tree.provider] := List.mem_singleton_self _
  induction files generalizing store with
  | nil => rfl
  | cons path rest ih =>
    have hreport := fileReport_eq_perform tree hserves.localesDir_eq path
    have hgives := Task.gives_perform hfaithful hmoment (annotate tree project path) hserves
    rw [fileReports, List.map_cons]
    cases hfirst : fileReport tree project store path with
    | error error =>
      rw [hfirst] at hreport
      simp only [hreport, Task.value, assembled, ih hserves]
    | ok outcome =>
      rw [hfirst] at hreport
      simp only at hreport
      rw [hreport] at hgives
      rw [← hgives.value_eq]
      have hrest : fileReports tree project outcome.store rest = _ := ih hgives.serves
      simp only [Outcome.map, assembled, hrest]

/-- The reports of files whose tasks share the store of a project and carry out their steps in the
order of a schedule, and the number of files that hold no program; none as long as one of the tasks
has not ended. -/
def reportsUnder (tree : FileTree) (project : Project) (files schedule : List Path) :
    Option (List FileReport × Nat) :=
  let pool := (Pool.start project.store.cache (annotate tree project)).run tree.provider schedule
  (pool.results? files).map assembled

/-- What a command tells about reports. -/
def finishOf (tree : FileTree) (verbose : Bool) (collected : Collected)
    (reports : List FileReport × Nat) : Finish :=
  let (files, unreadable) := reports
  { result := .ok (if hasMissing files then .failure else .success)
    printed := Report.parts (Report.lines files)
    told := Report.parts (Report.unreadableLines (collected.skipped + unreadable) verbose)
    warnings := collected.warnings
    tree := tree }

/-- The store of a project serves the directory of its translations. -/
theorem serves_project (tree : FileTree) (project : Project) :
    project.store.Serves project.localesDir [tree.provider] :=
  Store.serves_ofDirectory project.localesDir [tree.provider]

/-- Under each schedule the reports are those of the files one after the other. -/
theorem reportsUnder_eq {schedule : List Path} {reports : List FileReport × Nat}
    (h : reportsUnder tree project files schedule = some reports) :
    reports = fileReports tree project project.store files := by
  have hserves := serves_project tree project
  obtain ⟨results, hresults, rfl⟩ := Option.map_eq_some_iff.mp h
  have hvalues := Pool.results?_run_eq (FileTree.stampFaithful_provider tree) hserves.readDuring
    (annotate tree project) schedule hresults
  rw [fileReports_eq_assembled hserves, hvalues]

/-- There are reports as soon as the schedule has given the task of each file four steps for each of
its look-ups. -/
theorem exists_reportsUnder {schedule : List Path}
    (h : ∀ path ∈ files,
      4 * (annotate tree project path).loads tree.provider ≤ schedule.count path) :
    ∃ reports, reportsUnder tree project files schedule = some reports := by
  have hserves := serves_project tree project
  have hresults := Pool.results?_run_of_le_count (FileTree.stampFaithful_provider tree)
    hserves.readDuring (annotate tree project) h
  exact ⟨_, by rw [reportsUnder, hresults]; rfl⟩

/-! ### Hints for paths -/

/-- What a command shows, and how it ends. The warnings are left out: they tell of each directory
that is scanned, and so of each time that it is given. -/
def Finish.shown (finish : Finish) : Except CommandError Status × List Styled × List Styled :=
  (finish.result, finish.printed, finish.told)

variable {common : Common} {paths : List String}

/-- What is shown of hints depends on the files that are collected for the paths. -/
theorem shown_hints (hlinkless : tree.Linkless) (hproject : common.project tree = .ok project)
    (hne : paths ≠ [])
    (h : collect? tree project.config.ignores (paths.map Path.mk) = some files) :
    (hints tree paths common).shown =
      (reportOn tree project common.verbose ⟨files, 0, []⟩).shown := by
  obtain ⟨-, collected, hcollected, rfl, hskipped⟩ := gathers_of_collect? hlinkless h
  simp only [hints, hproject, if_neg hne, hcollected, reportOn, Finish.shown, hskipped]

/-- Hints for paths fail if one of the paths leads to nothing. -/
theorem exists_error_of_hints (hproject : common.project tree = .ok project)
    (h : ∃ path ∈ paths.map Path.mk, tree.exists? path = false) :
    ∃ error, (hints tree paths common).result = .error error := by
  obtain ⟨error, herror⟩ := ofPaths_of_missing project.config.ignores h
  have hne : paths ≠ [] := by
    rintro rfl
    simp at h
  cases hcollected : Collected.ofPaths tree project.config.ignores (paths.map Path.mk) with
  | mk collected failure =>
    rw [hcollected] at herror
    obtain rfl : failure = some error := herror
    refine ⟨error, ?_⟩
    simp only [hints, hproject, if_neg hne, hcollected, Finish.failed]

/-- Hints for paths are a function of the places to which the paths lead, in a tree without links.
They fail exactly if some path leads to nothing. Otherwise the files stand in order, each once; they
are the same, and the same is shown, for all lists of paths that lead to the same places, and when a
path is added whose files are found already. The files may be annotated at the same time on one
store: whatever the order of their steps, the same is shown, and it is shown as soon as each file
has been given enough steps. -/
theorem hints_of_places (hlinkless : tree.Linkless) (hproject : common.project tree = .ok project)
    (hne : paths ≠ []) :
    let ignores := project.config.ignores
    let given := paths.map Path.mk
    ((∃ path ∈ given, tree.exists? path = false) →
      collect? tree ignores given = none ∧
        ∃ error, (hints tree paths common).result = .error error) ∧
    ((∀ path ∈ given, tree.exists? path = true) →
      ∃ files, collect? tree ignores given = some files ∧ Gathers tree ignores given files ∧
        (∃ status, (hints tree paths common).result = .ok status) ∧
        (∀ others : List String, SamePlaces tree given (others.map Path.mk) →
          collect? tree ignores (others.map Path.mk) = some files ∧
            (hints tree others common).shown = (hints tree paths common).shown) ∧
        (∀ (path : String) (place : Path), tree.canonical ⟨path⟩ = .ok place →
          (∀ file ∈ filesOf tree ignores place, file ∈ files) →
            collect? tree ignores (⟨path⟩ :: given) = some files ∧
              (hints tree (path :: paths) common).shown = (hints tree paths common).shown) ∧
        ∀ schedule : List Path,
          (∀ reports, reportsUnder tree project files schedule = some reports →
            reports = fileReports tree project project.store files ∧
              (finishOf tree common.verbose ⟨files, 0, []⟩ reports).shown =
                (hints tree paths common).shown) ∧
          ((∀ file ∈ files,
              4 * (annotate tree project file).loads tree.provider ≤ schedule.count file) →
            ∃ reports, reportsUnder tree project files schedule = some reports)) := by
  intro ignores given
  refine ⟨fun hmissing => ⟨collect?_eq_none_iff.mpr hmissing,
    exists_error_of_hints hproject hmissing⟩, fun hall => ?_⟩
  obtain ⟨files, hfiles⟩ : ∃ files, collect? tree ignores given = some files := by
    rw [← Option.ne_none_iff_exists', Ne, collect?_eq_none_iff]
    rintro ⟨path, hpath, hmissing⟩
    rw [hall path hpath] at hmissing
    cases hmissing
  obtain ⟨hgathers, -⟩ := gathers_of_collect? hlinkless hfiles
  have hshown := shown_hints hlinkless hproject hne hfiles
  refine ⟨files, hfiles, hgathers, ⟨_, congrArg Prod.fst hshown⟩, fun others hsame => ?_,
    fun path place hplace hfound => ?_, fun schedule => ⟨fun reports hreports => ?_, exists_reportsUnder⟩⟩
  · have hothers : collect? tree ignores (others.map Path.mk) = some files := by
      rw [← collect?_eq_of_samePlaces hlinkless hsame, hfiles]
    have hothersNe : others ≠ [] := by
      rintro rfl
      obtain ⟨path, rest, rfl⟩ := List.exists_cons_of_ne_nil hne
      obtain ⟨other, hother, -⟩ := (hsame _).mp ⟨⟨path⟩, List.mem_cons_self, rfl⟩
      cases hother
    exact ⟨hothers, (shown_hints hlinkless hproject hothersNe hothers).trans hshown.symm⟩
  · have hmore := collect?_cons_of_subset hlinkless hfiles hplace hfound
    exact ⟨hmore,
      (shown_hints hlinkless hproject (List.cons_ne_nil path paths) hmore).trans hshown.symm⟩
  · obtain rfl := reportsUnder_eq hreports
    exact ⟨rfl, hshown.symm⟩

/-- A file may be given with the directory that holds it, and once more in front of it. Its hints
are shown once, whatever the order of the steps that its task takes. -/
theorem hints_of_places_twice :
    let tree := generatedFiles "docs"
    let paths := ["/src", "/src/generated/a.ts"]
    ∃ project, commonInRoot.project tree = .ok project ∧ tree.Linkless ∧
      collect? tree project.config.ignores (paths.map Path.mk) = some [⟨"/src/generated/a.ts"⟩] ∧
      (hints tree ["/src/generated/a.ts", "/src", "/src/generated/a.ts"] commonInRoot).shown =
        (hints tree paths commonInRoot).shown ∧
      ∃ schedule reports,
        reportsUnder tree project [⟨"/src/generated/a.ts"⟩] schedule = some reports ∧
          (finishOf tree false ⟨[⟨"/src/generated/a.ts"⟩], 0, []⟩ reports).shown =
            (hints tree paths commonInRoot).shown := by
  intro tree paths
  obtain ⟨project, hproject, hconfig, -⟩ := @generatedFiles.exists_project "docs"
    { Config.default with ignores := ["docs"] } (by decide +kernel) (by decide +kernel)
  have hlinkless : tree.Linkless := by decide +kernel
  have hdir : tree.canonical ⟨"/src"⟩ = .ok ⟨"/src"⟩ := generatedFiles.canonical_src "docs"
  have hdirectory : tree.isDirectory ⟨"/src"⟩ = true := generatedFiles.isDirectory_src "docs"
  have hresolve : tree.resolve ⟨"/src/generated/a.ts"⟩ =
      .ok (["src", "generated", "a.ts"], .file (.text "t($ => $.a);") 1) :=
    FileTree.resolve_of_descend? (show FileTree.pathOf ["src", "generated", "a.ts"] = _ by decide)
      (by decide) (by decide) rfl
  have hfile : tree.canonical ⟨"/src/generated/a.ts"⟩ = .ok ⟨"/src/generated/a.ts"⟩ := by
    rw [FileTree.canonical, hresolve]
    decide
  have hplain : tree.isDirectory ⟨"/src/generated/a.ts"⟩ = false := by
    rw [FileTree.isDirectory, hresolve]
  have hall : ∀ path ∈ paths.map Path.mk, tree.exists? path = true := by
    intro path hpath
    rw [← Bool.not_eq_false, exists?_eq_false_iff]
    rintro ⟨error, herror⟩
    rcases List.mem_cons.mp hpath with rfl | hpath
    · rw [hdir] at herror
      cases herror
    · rw [List.mem_singleton.mp hpath, hfile] at herror
      cases herror
  obtain ⟨files, hfiles, hgathers, -, hsame, -, hschedule⟩ :=
    (hints_of_places hlinkless hproject (List.cons_ne_nil _ _)).2 hall
  have hscan : (tree.scan ⟨"/src"⟩ [] project.config.ignores).files = [⟨"/src/generated/a.ts"⟩] :=
    generatedFiles.files_scan_src (by rw [hconfig]; decide)
  have hone : files = [⟨"/src/generated/a.ts"⟩] := by
    refine Scan.eq_of_mem_iff hgathers.strict (List.pairwise_singleton _ _) fun path => ?_
    rw [hgathers.mem_iff]
    simp [hdir, hfile, filesOf, hdirectory, hplain, hscan]
  subst hone
  have hagain : SamePlaces tree (paths.map Path.mk)
      (["/src/generated/a.ts", "/src", "/src/generated/a.ts"].map Path.mk) := by
    intro result
    simp only [paths, List.map_cons, List.map_nil, List.mem_cons, List.not_mem_nil, or_false,
      exists_eq_or_imp, exists_eq_left, hdir, hfile]
    exact ⟨fun h => h.symm.imp_right Or.inl, fun h => h.elim Or.inr id⟩
  -- The task of the file takes all its steps, one after the other.
  let steps := 4 * (annotate tree project ⟨"/src/generated/a.ts"⟩).loads tree.provider
  let schedule : List Path := List.replicate steps ⟨"/src/generated/a.ts"⟩
  obtain ⟨reports, hreports⟩ := (hschedule schedule).2 (by simp [schedule, steps])
  obtain ⟨-, hshown⟩ := (hschedule schedule).1 reports hreports
  exact ⟨project, hproject, hlinkless, hfiles, (hsame _ hagain).2, schedule, reports, hreports, hshown⟩

end CommandLine

end KeyLens
