import KeyLens.CommandLine.Arguments
import KeyLens.Present.Hover
import KeyLens.Present.Report
import KeyLens.Project

/-!
# Commands

What each command does with the files: what it prints, which warnings it leaves, how it ends, and
which files are there afterwards.
-/

namespace KeyLens.CommandLine

/-- How a command ends that is carried out. -/
inductive Status where
  /-- Everything has a translation. -/
  | success
  /-- Something has none, or there is nothing to show. -/
  | failure
  deriving Repr, DecidableEq

/-- The number that a status is for other programs. -/
def Status.code : Status → Nat
  | success => 0
  | failure => 1

/-- Why a command is not carried out. -/
inductive CommandError where
  /-- There is no project. -/
  | noProject (error : ProjectError)
  /-- A path leads to nothing. -/
  | noPath (path : Path) (error : FileError)
  /-- A file holds no program. -/
  | noSource (error : SourceError)
  /-- A file has no such place. -/
  | noPosition (position : Position) (path : Path)
  /-- The configuration file cannot be written. -/
  | notWritten (error : FileError)
  /-- A session is not a command of its own. -/
  | sessionAsCommand

/-- The words for an error. -/
def CommandError.message : CommandError → String
  | noProject error => error.message
  | noPath path error => "Path not found: " ++ Text.quotedPath path.text ++ ": " ++ error.message
  | noSource error => error.message
  | noPosition position path =>
    "Position " ++ position.display ++ " is outside of " ++ Text.quotedPath path.text
  | notWritten error => "Failed to write " ++ Config.fileName ++ ": " ++ error.message
  | sessionAsCommand => "Serve command should be handled before run_cli()"

/-- What a command leaves. -/
structure Finish where
  /-- How the command ended. -/
  result : Except CommandError Status
  /-- What is printed. -/
  printed : List Styled
  /-- What is printed beside it, for the one who waits. -/
  told : List Styled
  /-- The warnings about the files. -/
  warnings : List Scan.Warning
  /-- The files afterwards. -/
  tree : FileTree
  /-- Printing breaks off, because something cannot be set to its column. -/
  broken : Bool := false

namespace Finish

/-- How the command ended; none if it was not carried out or if printing breaks off. -/
def status? (finish : Finish) : Option Status :=
  if finish.broken then none else finish.result.toOption

/-- A command that was not carried out. -/
def failed (tree : FileTree) (error : CommandError) : Finish :=
  { result := .error error, printed := [], told := [], warnings := [], tree := tree }

/-- A command that printed something. -/
def printing (tree : FileTree) (status : Status) (printed : List Styled) : Finish :=
  { result := .ok status, printed := printed, told := [], warnings := [], tree := tree }

/-- A command that told something. -/
def telling (tree : FileTree) (status : Status) (message : String) : Finish :=
  { result := .ok status
    printed := []
    told := Report.parts [Report.warningLine [.plain message]]
    warnings := []
    tree := tree }

end Finish

/-- The project that a command is about. -/
def Common.project (common : Common) (tree : FileTree) : Except CommandError Project :=
  (tree.project ⟨common.root.getD "."⟩ common.overrides).mapError .noProject

/-- The message about a project without translations. -/
def noLanguages (project : Project) : String :=
  "no language directories found under '" ++ project.config.localesPath ++ "'"

/-! ### Hints -/

/-- The files to look at, among them source files below directories. -/
structure Collected where
  /-- The files. -/
  files : List Path
  /-- The number of paths that could not be reached. -/
  skipped : Nat
  /-- The warnings about the files. -/
  warnings : List Scan.Warning

namespace Collected

/-- What a scan has found. -/
def ofScan (scan : Scan) : Collected := ⟨scan.files, scan.skipped, scan.warnings⟩

/-- Two collections one after the other. -/
def append (left right : Collected) : Collected :=
  ⟨left.files ++ right.files, left.skipped + right.skipped, left.warnings ++ right.warnings⟩

/-- The files of one path: all source files below a directory, and a file by itself. -/
def ofPath (tree : FileTree) (ignores : List String) (path : Path) :
    Except CommandError Collected :=
  match tree.canonical path with
  | .error error => .error (.noPath path error)
  | .ok path =>
    .ok (if tree.isDirectory path then ofScan (tree.scan path [] ignores) else ⟨[path], 0, []⟩)

/-- The files of paths, up to the first one that leads to nothing, and why it does. -/
def ofPaths (tree : FileTree) (ignores : List String) :
    List Path → Collected × Option CommandError
  | [] => (⟨[], 0, []⟩, none)
  | path :: rest =>
    match ofPath tree ignores path with
    | .error error => (⟨[], 0, []⟩, some error)
    | .ok collected =>
      let others := ofPaths tree ignores rest
      (collected.append others.1, others.2)

end Collected

/-- What the hints of one file give. -/
def fileReport (tree : FileTree) (project : Project) (store : Store) (path : Path) :
    Except SourceError (Outcome FileReport) :=
  (tree.readHost path).map fun host =>
    let hints := store.hints tree.provider project.config host
    { value := {
        path := project.displayPath path
        hints := hints.value.map fun hint => ⟨hint, host.source.lineText? hint.position.line⟩ }
      store := hints.store
      accesses := hints.accesses }

/-- The reports of files in order, without files that have no hints, and the number of files that
hold no program. -/
def fileReports (tree : FileTree) (project : Project) (store : Store) :
    List Path → List FileReport × Nat
  | [] => ([], 0)
  | path :: rest =>
    match fileReport tree project store path with
    | .error _ =>
      let others := fileReports tree project store rest
      (others.1, others.2 + 1)
    | .ok first =>
      let others := fileReports tree project first.store rest
      (if first.value.hints = [] then others.1 else first.value :: others.1, others.2)

/-- Whether a report has a hint without a translation. -/
def hasMissing (files : List FileReport) : Bool :=
  files.any fun file => file.missing > 0

/-- The report about files. -/
def reportOn (tree : FileTree) (project : Project) (verbose : Bool) (collected : Collected) :
    Finish :=
  let (files, unreadable) := fileReports tree project project.store collected.files
  { result := .ok (if hasMissing files then .failure else .success)
    printed := Report.parts (Report.lines files)
    told := Report.parts (Report.unreadableLines (collected.skipped + unreadable) verbose)
    warnings := collected.warnings
    tree := tree
    broken := !Report.canBeSet files }

/-- Prints the hints for files and directories. -/
def hints (tree : FileTree) (paths : List String) (common : Common) : Finish :=
  match common.project tree with
  | .error error => .failed tree error
  | .ok project =>
    if paths = [] then
      reportOn tree project common.verbose (.ofScan (project.scan tree))
    else
      match Collected.ofPaths tree project.config.ignores (paths.map Path.mk) with
      | (collected, some error) => { Finish.failed tree error with warnings := collected.warnings }
      | (collected, none) =>
        reportOn tree project common.verbose
          { collected with files := Scan.inOrder collected.files }

/-! ### Other commands -/

/-- Prints the meanings of the key at a place of a file. -/
def hover (tree : FileTree) (file : Path) (position : Position) (markup : Bool) (common : Common) :
    Finish :=
  let outcome : Except CommandError Finish := do
    let project ← common.project tree
    let path ← (tree.canonical file).mapError (.noPath file)
    let host ← (tree.readHost path).mapError .noSource
    let offset ← match host.source.offsetOf? position with
      | some offset => pure offset
      | none => throw (.noPosition position file)
    match (project.store.hover tree.provider project.config host offset).value with
    | some doc =>
      pure (.printing tree .success [.plain (if markup then doc.markup ++ "\n" else doc.text)])
    | none =>
      if project.languages tree.provider = [] then
        pure (.telling tree .failure (noLanguages project))
      else
        pure (.telling tree .failure
          ("no translation call at " ++ project.displayPath path ++ ":" ++ position.display))
  match outcome with
  | .ok finish => finish
  | .error error => .failed tree error

/-- Prints the languages of a project. -/
def languages (tree : FileTree) (common : Common) : Finish :=
  match common.project tree with
  | .error error => .failed tree error
  | .ok project =>
    match project.languages tree.provider with
    | [] => .telling tree .success (noLanguages project)
    | languages =>
      .printing tree .success (Report.parts (languages.map fun language => [.plain language]))

/-- Writes a configuration file with the defaults, at the given time, unless there is one. -/
def init (tree : FileTree) (time : Nat) : Finish :=
  let path : Path := ⟨Config.fileName⟩
  if tree.exists? path then
    { result := .ok .failure
      printed := []
      told := [.plain ("Error: " ++ Config.fileName ++ " already exists\n")]
      warnings := []
      tree := tree }
  else
    match tree.write path Config.defaultText time with
    | .error error => .failed tree (.notWritten error)
    | .ok after =>
      .printing after .success (Report.parts [
        [⟨[.green], Report.successMark⟩, .plain " ", ⟨[.green], "Created " ++ Config.fileName⟩],
        [.plain "  translations are read from ", ⟨[.cyan], Config.default.localesPath⟩,
          .plain "/<language>/<namespace>.json"]])

/-- The help that stands in for a missing command. -/
def helpText : String :=
  "Resolve i18next translation keys at their call-sites for inline hints and hover docs\n" ++
  "\n" ++
  "Usage: i18n-lens [COMMAND]\n" ++
  "\n" ++
  "Commands:\n" ++
  "  hints      Show the resolved translation next to every translation call\n" ++
  "  hover      Show the translations of the key at a source position in every language\n" ++
  "  languages  List the language directories found under the locales path\n" ++
  "  init       Initialize a new .i18nlensrc.json configuration file\n" ++
  "  serve      Start MCP server for AI coding agents\n" ++
  "  help       Print this message or the help of the given subcommand(s)\n" ++
  "\n" ++
  "Options:\n" ++
  "  -h, --help     Print help\n" ++
  "  -V, --version  Print version\n"

/-- Carries a command out; without one, help is printed. -/
def run (tree : FileTree) (time : Nat) : Option Command → Finish
  | none => .printing tree .success [.plain helpText]
  | some (.hints paths common) => hints tree paths common
  | some (.hover file line column markup common) =>
    hover tree ⟨file⟩ ⟨line, column⟩ markup common
  | some (.languages common) => languages tree common
  | some .init => init tree time
  | some .serve => .failed tree .sessionAsCommand

end KeyLens.CommandLine
