import KeyLens.Proofs.CommandLine.Schedules
import KeyLens.Proofs.Present.CaretColumns
import KeyLens.Proofs.Session.Answers
import Mathlib.Data.List.Forall2

/-!
# Summaries

The status of a command for hints, the summary of its report and the headlines of the hints tell the
same: how many calls there are in the programs that were collected, and how many of them have no
translation. Files that are no programs change nothing but the warning about them.
-/

namespace KeyLens

/-- Two moments at which all keys mean the same and the same languages have translations. -/
structure SameTranslations (first second : Provider) (localesDir : Option Path) : Prop where
  /-- The meanings. -/
  meaning?_eq : first.meaning? localesDir = second.meaning? localesDir
  /-- The languages. -/
  languages_eq : (Store.ofDirectory localesDir).languages first =
    (Store.ofDirectory localesDir).languages second

/-- The hints of a program are the same at both moments. -/
theorem SameTranslations.hintsOf_eq {tree other : FileTree} {project : Project}
    (h : SameTranslations tree.provider other.provider project.localesDir) (host : Host) :
    project.hintsOf tree host = project.hintsOf other host := by
  simp only [Project.hintsOf, Provider.hintOf, Provider.callMeaning, Provider.hintLanguages,
    Provider.firstMeaning_congr h.meaning?_eq, h.languages_eq]

namespace Report

/-- The summary of a number of hints in a number of files, of which some have no translation. -/
def summaryOf (missing total files : Nat) : Line :=
  let count := toString files ++ " " ++ if files = 1 then "file" else "files"
  if missing = 0 then
    [⟨[.green], "✓"⟩, .plain " ",
      ⟨[.green], "Resolved " ++ toString total ++ " translation call(s) in " ++ count⟩]
  else
    [⟨[.red], "✘"⟩, .plain " ",
      ⟨[.red], toString missing ++ " of " ++ toString total ++
        " translation call(s) have no translation (" ++ count ++ ")"⟩]

/-- A summary that tells of calls without a translation. -/
def TellsOfMissing (summary : Line) : Prop := summary.head? = some ⟨[.red], "✘"⟩

/-- The lines of a hint with the headline of a call without a translation. -/
def warns (block : List Line) : Bool :=
  (block.head?.bind List.head?) = some ⟨[.bold, .yellow], "warning"⟩

/-- The lines of a hint are among those of a report, below the path of its file and with its
line. -/
def Shows (hint : Hint) (block : List Line) : Prop :=
  ∃ width path line, block = hintLines width path ⟨hint, line⟩

variable {files : List FileReport} {report : HintReport} {hint : Hint} {block : List Line}

/-- A summary tells of calls without a translation exactly if there are some. -/
theorem tellsOfMissing_summaryOf {missing total count : Nat} :
    TellsOfMissing (summaryOf missing total count) ↔ 0 < missing := by
  rw [TellsOfMissing, summaryOf]
  split <;> simp <;> omega

/-- The lines of a hint warn exactly if it has no value. -/
theorem Shows.warns_iff (h : Shows hint block) :
    warns block = true ↔ hint.resolved.value = none := by
  obtain ⟨width, path, line, rfl⟩ := h
  cases hvalue : hint.resolved.value <;>
    simp [warns, hintLines, headline, HintReport.isFound, Resolved.isFound, hvalue]

/-- The blocks of lines of a report, one for each hint. -/
def blocks (files : List FileReport) : List (List Line) :=
  files.flatMap fun file => file.hints.map (hintLines (numberWidth files) file.path)

/-- The hints of a report, each with the lines that show it. -/
theorem forall₂_shows_blocks (files : List FileReport) :
    List.Forall₂ Shows ((allHints files).map HintReport.hint) (blocks files) := by
  have hfile (width : Nat) (path : String) (hints : List HintReport) :
      List.Forall₂ Shows (hints.map HintReport.hint) (hints.map (hintLines width path)) := by
    rw [List.forall₂_map_left_iff, List.forall₂_map_right_iff, List.forall₂_same]
    exact fun report _ => ⟨width, path, report.sourceLine, rfl⟩
  have hfiles (width : Nat) : List.Forall₂ Shows ((allHints files).map HintReport.hint)
      (files.flatMap fun file => file.hints.map (hintLines width file.path)) := by
    induction files with
    | nil => exact List.Forall₂.nil
    | cons file rest ih =>
      rw [allHints, List.flatMap_cons, List.map_append, List.flatMap_cons]
      exact List.rel_append (hfile width file.path file.hints) ih
  exact hfiles (numberWidth files)

/-- Among blocks for hints as many warn as hints have no value. -/
theorem countP_warns {hints : List Hint} {blocks : List (List Line)}
    (h : List.Forall₂ Shows hints blocks) :
    blocks.countP warns = hints.countP fun hint => hint.resolved.value.isNone := by
  induction h with
  | nil => rfl
  | @cons hint block hints blocks hshows hrest ih =>
    have hwarns : warns block = hint.resolved.value.isNone := by
      rw [Bool.eq_iff_iff, hshows.warns_iff, Option.isNone_iff_eq_none]
    rw [List.countP_cons, List.countP_cons, ih, hwarns]

/-- A report consists of the blocks of its hints and of a summary that counts them. -/
theorem lines_eq (files : List FileReport) :
    lines files = (blocks files).flatten ++
      [summaryOf ((blocks files).countP warns) (blocks files).length files.length] := by
  have hshows := forall₂_shows_blocks files
  have htotal : (allHints files).length = (blocks files).length := by
    rw [← hshows.length_eq, List.length_map]
  have hmissing : ((allHints files).filter fun report => !report.isFound).length =
      (blocks files).countP warns := by
    rw [countP_warns hshows, List.countP_map, ← List.countP_eq_length_filter]
    refine List.countP_congr fun report _ => ?_
    cases hvalue : report.hint.resolved.value <;>
      simp [HintReport.isFound, Resolved.isFound, hvalue]
  have hsummary : summary files =
      summaryOf ((blocks files).countP warns) (blocks files).length files.length := by
    rw [summary, htotal, hmissing]
    rfl
  rw [lines, hsummary, blocks]
  simp [List.flatten_eq_flatMap, List.flatMap_assoc, List.flatMap_map]

/-- The warning about files that are no programs tells how many there are, and that details can be
had where none are given. Without such files nothing is told. -/
theorem textOf_unreadableLines (count : Nat) (verbose : Bool) :
    textOf false (unreadableLines count verbose) =
      if count = 0 then ""
      else "warning: " ++ toString count ++ " file(s) could not be parsed" ++
        (if verbose then "" else " (use -v for details)") ++ "\n" := by
  rw [textOf_false, unreadableLines]
  split
  · rfl
  · cases verbose <;>
      simp [plainLines, plain, warningLine, Styled.plain, ← String.toList_inj]

end Report

namespace CommandLine

variable {tree : FileTree} {project : Project} {common : Common} {paths : List String}
  {store : Store} {collected : Collected} {files : List Path}

/-! ### Programs among files -/

/-- The programs among files, each with its path. -/
def programs (tree : FileTree) (files : List Path) : List (Path × Host) :=
  files.filterMap fun path => (tree.readHost path).toOption.map (path, ·)

/-- The files that hold no program. -/
def unparsable (tree : FileTree) (files : List Path) : List Path :=
  files.filter fun path => (tree.readHost path).toOption.isNone

/-- A file of text holds the program that is read from the text. -/
theorem toOption_readHost {names : List String} {text : String} {time : Nat} {path : Path}
    (h : tree.resolve path = .ok (names, .file (.text text) time)) :
    (tree.readHost path).toOption = (Program.read path.text text).toOption := by
  simp only [FileTree.readHost, FileTree.readText, h, Except.mapError, bind, Except.bind]
  cases Program.read path.text text <;> rfl

/-- The hints of all programs among files. -/
def foundIn (tree : FileTree) (project : Project) (files : List Path) : List Hint :=
  (programs tree files).flatMap fun program => project.hintsOf tree program.2

/-- The report on a program. -/
def reportOf (tree : FileTree) (project : Project) (program : Path × Host) : FileReport where
  path := project.displayPath program.1
  hints := (project.hintsOf tree program.2).map fun hint =>
    ⟨hint, program.2.source.lineText? hint.position.line⟩

/-- The reports on the programs among files that have hints. -/
def reportsOn (tree : FileTree) (project : Project) (files : List Path) : List FileReport :=
  ((programs tree files).map (reportOf tree project)).filter (·.hints ≠ [])

/-- The reports on files are those on the programs among them, and all other files are counted. -/
theorem fileReports_eq (hserves : store.Serves project.localesDir [tree.provider])
    (files : List Path) :
    fileReports tree project store files =
      (reportsOn tree project files, (unparsable tree files).length) := by
  induction files generalizing store with
  | nil => rfl
  | cons path rest ih =>
    rw [fileReports, fileReport]
    cases hhost : tree.readHost path with
    | error error =>
      simp [Except.map, ih hserves, reportsOn, programs, unparsable, hhost, Except.toOption]
    | ok host =>
      have hgives := hserves.hints (FileTree.stampFaithful_provider tree)
        (List.mem_singleton_self _) project.config host
      have hrest := ih hgives.serves
      have hvalue : (store.hints tree.provider project.config host).value =
          project.hintsOf tree host := hgives.value_eq
      simp only [Except.map, hrest, hvalue]
      by_cases hnone : project.hintsOf tree host = []
      · simp [reportsOn, programs, unparsable, hhost, Except.toOption, reportOf, hnone]
      · simp [reportsOn, programs, unparsable, hhost, Except.toOption, reportOf, hnone]

/-- The hints of the reports are those of all programs. -/
theorem allHints_reportsOn (files : List Path) :
    (Report.allHints (reportsOn tree project files)).map HintReport.hint =
      foundIn tree project files := by
  rw [reportsOn, foundIn]
  generalize programs tree files = found
  induction found with
  | nil => rfl
  | cons program rest ih =>
    rw [List.map_cons, List.filter_cons, List.flatMap_cons, ← ih]
    split
    · simp [Report.allHints, reportOf, Function.comp_def]
    · next h =>
      have hnone : project.hintsOf tree program.2 = [] := by simpa [reportOf] using h
      rw [hnone, List.nil_append]

/-- There are as many reports as programs with hints. -/
theorem length_reportsOn (files : List Path) :
    (reportsOn tree project files).length =
      (programs tree files).countP fun program => project.hintsOf tree program.2 ≠ [] := by
  rw [reportsOn, ← List.countP_eq_length_filter, List.countP_map]
  refine List.countP_congr fun program _ => ?_
  simp [reportOf]

/-- Some report tells of a hint without a value exactly if there is such a hint. -/
theorem hasMissing_reportsOn (files : List Path) :
    hasMissing (reportsOn tree project files) = true ↔
      ∃ hint ∈ foundIn tree project files, hint.resolved.value = none := by
  rw [← allHints_reportsOn, hasMissing, List.any_eq_true]
  simp only [FileReport.missing, gt_iff_lt, decide_eq_true_eq, List.length_pos_iff_exists_mem,
    List.mem_filter, List.mem_map, Report.allHints, List.mem_flatMap]
  constructor
  · rintro ⟨file, hfile, report, hreport, hmissing⟩
    refine ⟨report.hint, ⟨report, ⟨file, hfile, hreport⟩, rfl⟩, ?_⟩
    simpa [HintReport.isFound, Resolved.isFound] using hmissing
  · rintro ⟨hint, ⟨report, ⟨file, hfile, hreport⟩, rfl⟩, hnone⟩
    refine ⟨file, hfile, report, hreport, ?_⟩
    simp [HintReport.isFound, Resolved.isFound, hnone]

/-! ### Collected files -/

/-- The files for which hints are asked: those of paths, or those of the project without any path;
none if a path leads to nothing. -/
def gathered? (tree : FileTree) (project : Project) (paths : List String) : Option Collected :=
  if paths = [] then some (.ofScan (project.scan tree))
  else
    match Collected.ofPaths tree project.config.ignores (paths.map Path.mk) with
    | (_, some _) => none
    | (collected, none) => some { collected with files := Scan.inOrder collected.files }

/-- A file stands for itself. -/
theorem ofPath_of_resolve {names : List String} {content : Content} {time : Nat} {path : Path}
    (h : tree.resolve path = .ok (names, .file content time)) (hpath : FileTree.pathOf names = path)
    (ignores : List String) : Collected.ofPath tree ignores path = .ok ⟨[path], 0, []⟩ := by
  have hdirectory : tree.isDirectory path = false := by rw [FileTree.isDirectory, h]
  have hcanonical : tree.canonical path = .ok path := by
    rw [FileTree.canonical, h, ← hpath]
    rfl
  simp [Collected.ofPath, hcanonical, hdirectory]

/-- Hints are the report on the files that are collected. -/
theorem hints_eq_reportOn (hproject : common.project tree = .ok project)
    (hgathered : gathered? tree project paths = some collected) :
    hints tree paths common = reportOn tree project common.verbose collected := by
  rw [hints, hproject]
  rw [gathered?] at hgathered
  split at hgathered
  · next hnone =>
    cases hgathered
    simp only [if_pos hnone]
  · next hsome =>
    split at hgathered
    · cases hgathered
    · next found hfound =>
      cases hgathered
      simp only [if_neg hsome, hfound]

/-- Hints that are shown are those of a project and of collected files. -/
theorem exists_gathered {status : Status} (h : (hints tree paths common).status? = some status) :
    ∃ project collected, common.project tree = .ok project ∧
      gathered? tree project paths = some collected := by
  cases hproject : common.project tree with
  | error error => simp [hints, hproject, Finish.status?, Finish.failed, Except.toOption] at h
  | ok project =>
    refine ⟨project, ?_⟩
    cases hgathered : gathered? tree project paths with
    | some collected => exact ⟨collected, rfl, rfl⟩
    | none =>
      rw [gathered?] at hgathered
      split at hgathered
      · cases hgathered
      · next hsome =>
        split at hgathered
        · next found error hfound =>
          simp [hints, hproject, hsome, hfound, Finish.status?, Finish.failed, Except.toOption] at h
        · cases hgathered

/-- What is shown of hints, and how the command ends. -/
theorem reportOn_eq (verbose : Bool) :
    let reports := reportsOn tree project collected.files
    let finish := reportOn tree project verbose collected
    finish.printed = Report.parts (Report.lines reports) ∧
      finish.told = Report.parts (Report.unreadableLines
        (collected.skipped + (unparsable tree collected.files).length) verbose) ∧
      finish.status? = if Report.canBeSet reports then
        some (if hasMissing reports then .failure else .success) else none := by
  have hreports := fileReports_eq (serves_project tree project) collected.files
  refine ⟨?_, ?_, ?_⟩
  · simp only [reportOn, hreports]
  · simp only [reportOn, hreports]
  · simp only [reportOn, hreports, Finish.status?, Except.toOption]
    cases Report.canBeSet (reportsOn tree project collected.files) <;> rfl

/-- The reports are the same if the programs and the translations are. -/
theorem reportsOn_eq {other : FileTree} {others : List Path}
    (htranslations : SameTranslations tree.provider other.provider project.localesDir)
    (hprograms : programs tree files = programs other others) :
    reportsOn tree project files = reportsOn other project others := by
  have hreport : reportOf tree project = reportOf other project := by
    funext program
    rw [reportOf, reportOf, htranslations.hintsOf_eq]
  rw [reportsOn, reportsOn, hreport, hprograms]

/-- Status, summary and headlines of hints agree. A report has one block of lines for each hint of
the programs that were collected, and the block warns exactly if the hint has no value. The summary
counts the blocks, those that warn, and the programs with hints. The command ends with a failure
exactly if some hint has no value, and exactly if the summary tells of missing ones. With the same
programs and translations, other files make no difference but for the number in the warning. -/
theorem status_of_hints {status : Status} (h : (hints tree paths common).status? = some status) :
    ∃ project collected, common.project tree = .ok project ∧
      gathered? tree project paths = some collected ∧
      let found := foundIn tree project collected.files
      let withHints := (programs tree collected.files).countP fun program =>
        project.hintsOf tree program.2 ≠ []
      (∃ blocks : List (List Report.Line),
        List.Forall₂ (fun hint block => Report.Shows hint block ∧
          (Report.warns block = true ↔ hint.resolved.value = none)) found blocks ∧
        let summary := Report.summaryOf (blocks.countP Report.warns) blocks.length withHints
        (hints tree paths common).printed = Report.parts (blocks.flatten ++ [summary]) ∧
        (status = .failure ↔ ∃ hint ∈ found, hint.resolved.value = none) ∧
        (status = .failure ↔ Report.TellsOfMissing summary)) ∧
      (hints tree paths common).told = Report.parts (Report.unreadableLines
        (collected.skipped + (unparsable tree collected.files).length) common.verbose) ∧
      ∀ (other : FileTree) (others : List String) (gathered : Collected),
        common.project other = .ok project → gathered? other project others = some gathered →
        SameTranslations tree.provider other.provider project.localesDir →
        programs tree collected.files = programs other gathered.files →
        (hints other others common).status? = some status ∧
          (hints other others common).printed = (hints tree paths common).printed ∧
          (hints other others common).told = Report.parts (Report.unreadableLines
            (gathered.skipped + (unparsable other gathered.files).length) common.verbose) := by
  obtain ⟨project, collected, hproject, hgathered⟩ := exists_gathered h
  obtain ⟨hprinted, htold, hstatus⟩ := @reportOn_eq tree project collected common.verbose
  have hhints := hints_eq_reportOn hproject hgathered
  rw [hhints] at h
  refine ⟨project, collected, hproject, hgathered, ?_, by rw [hhints, htold], ?_⟩
  · let reports := reportsOn tree project collected.files
    have hshows := Report.forall₂_shows_blocks reports
    rw [allHints_reportsOn] at hshows
    have hfailure : status = .failure ↔ hasMissing reports = true := by
      rw [h] at hstatus
      split at hstatus
      · rw [Option.some_inj] at hstatus
        cases hmissing : hasMissing reports <;> simp [hstatus, reports, hmissing]
      · cases hstatus
    refine ⟨Report.blocks reports, ?_, ?_, ?_, ?_⟩
    · exact hshows.imp fun hint block hblock => ⟨hblock, hblock.warns_iff⟩
    · rw [hhints, hprinted, Report.lines_eq, length_reportsOn]
    · rw [hfailure, hasMissing_reportsOn]
    · rw [hfailure, hasMissing_reportsOn, Report.tellsOfMissing_summaryOf,
        Report.countP_warns hshows, List.countP_pos_iff]
      simp
  · intro other others gathered hproject' hgathered' htranslations hprograms
    obtain ⟨hprinted', htold', hstatus'⟩ := @reportOn_eq other project gathered common.verbose
    have hreports := reportsOn_eq htranslations hprograms
    rw [hints_eq_reportOn hproject' hgathered', hhints, hprinted, hprinted', hstatus', htold',
      ← hreports, ← hstatus]
    exact ⟨h, rfl, rfl⟩

/-! ### A file that is no program -/

namespace generatedFiles

/-- The program in the source file. -/
def host : Host := ⟨⟨"t($ => $.a);"⟩, [.call "t" ["$ => $.a"] ⟨0, 11⟩]⟩

/-- The configuration that ignores one directory. -/
def config : Config := { Config.default with ignores := ["docs"] }

/-- The project, which has no translations. -/
def plainProject : Project := ⟨config, ⟨"/"⟩, true, none⟩

/-- The project is that of the files. -/
theorem project_docs : commonInRoot.project (generatedFiles "docs") = .ok plainProject := by
  have hmissing : (generatedFiles "docs").isDirectory ⟨"/public/locales"⟩ = false := by
    have hresolve : (generatedFiles "docs").resolve ⟨"/public/locales"⟩ = .error .notFound :=
      FileTree.resolve_of_descend? (show FileTree.pathOf ["public", "locales"] = _ by decide)
        (by decide) (by decide) rfl
    rw [FileTree.isDirectory, hresolve]
  have hdir : config.localesDir ⟨"/"⟩ = ⟨"/public/locales"⟩ := by decide
  rw [@project_eq "docs" config (by decide +kernel) (by decide +kernel), hdir, hmissing]
  rfl

/-- The source file alone is collected for its path. -/
theorem gathered?_source :
    gathered? (generatedFiles "docs") plainProject ["/src/generated/a.ts"] =
      some ⟨[⟨"/src/generated/a.ts"⟩], 0, []⟩ := by
  have hsource := ofPath_of_resolve (resolve_source "docs") (by decide) plainProject.config.ignores
  simp [gathered?, Collected.ofPaths, hsource, Collected.append, Scan.inOrder]

/-- Both files are collected for their paths. -/
theorem gathered?_both :
    gathered? (generatedFiles "docs") plainProject ["/.i18nlensrc.json", "/src/generated/a.ts"] =
      some ⟨[⟨"/.i18nlensrc.json"⟩, ⟨"/src/generated/a.ts"⟩], 0, []⟩ := by
  have hsource := ofPath_of_resolve (resolve_source "docs") (by decide) plainProject.config.ignores
  have hconfig := ofPath_of_resolve (resolve_config "docs") (by decide) plainProject.config.ignores
  have hordered : Path.le ⟨"/.i18nlensrc.json"⟩ ⟨"/src/generated/a.ts"⟩ = true := by decide
  have hsorted : [(⟨"/.i18nlensrc.json"⟩ : Path), ⟨"/src/generated/a.ts"⟩].mergeSort Path.le =
      [⟨"/.i18nlensrc.json"⟩, ⟨"/src/generated/a.ts"⟩] := by
    rw [List.mergeSort_of_pairwise]
    simpa using hordered
  have hapart : (Path.mk "/src/generated/a.ts").components ≠
      (Path.mk "/.i18nlensrc.json").components := by decide
  simp [gathered?, Collected.ofPaths, hsource, hconfig, Collected.append, Scan.inOrder, hsorted,
    hapart]

/-- The program of the source file is read. -/
theorem readHost_source :
    ((generatedFiles "docs").readHost ⟨"/src/generated/a.ts"⟩).toOption = some host := by
  have hread : (Program.read "/src/generated/a.ts" "t($ => $.a);").toOption = some host := by
    decide +kernel
  rw [toOption_readHost (resolve_source "docs"), hread]

/-- The configuration is no program. -/
theorem readHost_config :
    ((generatedFiles "docs").readHost ⟨"/.i18nlensrc.json"⟩).toOption = none := by
  have hread : (Program.read "/.i18nlensrc.json" (ignoring "docs")).toOption = none := by
    decide +kernel
  rw [toOption_readHost (resolve_config "docs"), hread]

/-- There is one hint, and it has no value. -/
theorem hintsOf_host : ∃ hint, plainProject.hintsOf (generatedFiles "docs") host = [hint] ∧
    hint.position = ⟨1, 12⟩ ∧ hint.resolved.value = none := by
  have hhinted : host.hinted "common" =
      [(⟨⟨"a"⟩, ⟨["common"], by decide⟩, ⟨0, 11⟩⟩, ⟨1, 12⟩)] := by
    decide +kernel
  have hnames : plainProject.config.defaultNamespace = "common" := rfl
  rw [Project.hintsOf, hnames, hhinted]
  exact ⟨_, rfl, rfl, rfl⟩

/-- The program is the only one, whether the configuration is given with it or not. -/
theorem programs_both :
    programs (generatedFiles "docs") [⟨"/src/generated/a.ts"⟩] =
        [(⟨"/src/generated/a.ts"⟩, host)] ∧
      programs (generatedFiles "docs") [⟨"/.i18nlensrc.json"⟩, ⟨"/src/generated/a.ts"⟩] =
        [(⟨"/src/generated/a.ts"⟩, host)] := by
  simp [programs, readHost_source, readHost_config]

/-- The configuration is the only file that is no program. -/
theorem unparsable_both :
    unparsable (generatedFiles "docs") [⟨"/src/generated/a.ts"⟩] = [] ∧
      unparsable (generatedFiles "docs") [⟨"/.i18nlensrc.json"⟩, ⟨"/src/generated/a.ts"⟩] =
        [⟨"/.i18nlensrc.json"⟩] := by
  simp [unparsable, readHost_source, readHost_config]

/-- The hint is missing, and its caret can be set. -/
theorem status?_source :
    (hints (generatedFiles "docs") ["/src/generated/a.ts"] commonInRoot).status? =
      some .failure := by
  obtain ⟨hint, hhint, hposition, hnone⟩ := hintsOf_host
  have hfound : foundIn (generatedFiles "docs") plainProject [⟨"/src/generated/a.ts"⟩] =
      [hint] := by
    simp [foundIn, programs_both, hhint]
  have hmissing : hasMissing (reportsOn (generatedFiles "docs") plainProject
      [⟨"/src/generated/a.ts"⟩]) = true := by
    rw [hasMissing_reportsOn, hfound]
    exact ⟨hint, List.mem_singleton_self hint, hnone⟩
  have hset : Report.canBeSet (reportsOn (generatedFiles "docs") plainProject
      [⟨"/src/generated/a.ts"⟩]) = true := by
    have hline : host.source.lineText? 1 = some "t($ => $.a);" := by decide +kernel
    have hwidth : Text.displayWidth (Report.beforeLast "t($ => $.a);" 12) = 10 := by decide +kernel
    simp [reportsOn, programs_both, reportOf, hhint, Report.canBeSet, Report.allHints,
      Report.caretIndent?, hposition, hline, hwidth, Report.greatestIndent]
  obtain ⟨-, -, hstatus⟩ := @reportOn_eq (generatedFiles "docs") plainProject
    ⟨[⟨"/src/generated/a.ts"⟩], 0, []⟩ false
  rw [hints_eq_reportOn project_docs gathered?_source]
  exact hstatus.trans (by rw [if_pos hset, if_pos hmissing])

end generatedFiles

/-- One call has no translation. That the configuration, which is no program, is given as well makes
a difference to the warning only. -/
theorem status_of_hints_docs :
    let tree := generatedFiles "docs"
    let alone := hints tree ["/src/generated/a.ts"] commonInRoot
    let both := hints tree ["/.i18nlensrc.json", "/src/generated/a.ts"] commonInRoot
    alone.status? = some .failure ∧ both.status? = some .failure ∧ both.printed = alone.printed ∧
      alone.told = Report.parts (Report.unreadableLines 0 false) ∧
      both.told = Report.parts (Report.unreadableLines 1 false) ∧
      ∃ block, Report.warns block = true ∧
        alone.printed = Report.parts (block ++ [Report.summaryOf 1 1 1]) := by
  intro tree alone both
  have halone : alone.status? = some .failure := generatedFiles.status?_source
  obtain ⟨project, collected, hproject, hgathered, ⟨blocks, hblocks, hprinted, -, -⟩, htold,
    hsame⟩ := status_of_hints halone
  obtain rfl : generatedFiles.plainProject = project :=
    Except.ok.inj (generatedFiles.project_docs.symm.trans hproject)
  obtain rfl : _ = collected :=
    Option.some.inj (generatedFiles.gathered?_source.symm.trans hgathered)
  obtain ⟨hprograms, hprogramsBoth⟩ := generatedFiles.programs_both
  obtain ⟨hboth, hprintedBoth, htoldBoth⟩ := hsame tree _ _ hproject generatedFiles.gathered?_both
    ⟨rfl, rfl⟩ (hprograms.trans hprogramsBoth.symm)
  obtain ⟨hparsable, hunparsable⟩ := generatedFiles.unparsable_both
  obtain ⟨hint, hhint, -, hnone⟩ := generatedFiles.hintsOf_host
  rw [hparsable] at htold
  rw [hunparsable] at htoldBoth
  refine ⟨halone, hboth, hprintedBoth, htold, htoldBoth, ?_⟩
  have hfound : foundIn tree generatedFiles.plainProject [⟨"/src/generated/a.ts"⟩] = [hint] := by
    rw [foundIn, hprograms, List.flatMap_singleton, hhint]
  have hcount : (programs tree [⟨"/src/generated/a.ts"⟩]).countP (fun program =>
      generatedFiles.plainProject.hintsOf tree program.2 ≠ []) = 1 := by
    rw [hprograms]
    simp [tree, hhint]
  simp only [hfound, hcount] at hblocks hprinted
  obtain ⟨block, rest, ⟨-, hwarns⟩, hrest, rfl⟩ := List.forall₂_cons_left_iff.mp hblocks
  obtain rfl := List.forall₂_nil_left_iff.mp hrest
  refine ⟨block, hwarns.mpr hnone, hprinted.trans ?_⟩
  simp [hwarns.mpr hnone]

end CommandLine
end KeyLens
