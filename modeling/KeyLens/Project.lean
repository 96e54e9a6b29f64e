import KeyLens.Config.Search
import KeyLens.Program.Grammar
import KeyLens.Scan
import KeyLens.Store.Basic

/-!
# Projects

A project is a directory with its configuration and its translations. Values given with a command
come first, then the configuration file, then the defaults.
-/

namespace KeyLens

/-- A project. -/
structure Project where
  /-- What the project says about itself. -/
  config : Config
  /-- The directory that holds the configuration file, or the one that was asked for. -/
  root : Path
  /-- Whether the configuration stands in a file. -/
  fromFile : Bool
  /-- The directory of the translations, if there is one. -/
  localesDir : Option Path

/-- Why a directory gives no project. -/
inductive ProjectError where
  /-- The directory cannot be reached. -/
  | noRoot (start : Path) (error : FileError)
  /-- The configuration file cannot be used. -/
  | noConfig (error : Config.LoadError)
  /-- The configuration with the values that take precedence over it is unusable. -/
  | invalid (reason : Config.Invalid)
  deriving Repr

/-- The words for an error. -/
def ProjectError.message : ProjectError → String
  | noRoot start error =>
    "Invalid root directory: " ++ Text.quotedPath start.text ++ ": " ++ error.message
  | noConfig error => error.message
  | invalid reason => reason.message

/-- Why a file gives no program. -/
inductive SourceError where
  /-- The file cannot be read. -/
  | unreadable (path : Path) (error : FileError)
  /-- The text is no program. -/
  | malformed (path : Path) (fault : Program.Fault)

/-- The words for an error. -/
def SourceError.message : SourceError → String
  | unreadable path error =>
    "Failed to read source file: " ++ Text.quotedPath path.text ++ ": " ++ error.message
  | malformed path fault => "Failed to parse " ++ path.text ++ ": " ++ fault.message

namespace FileTree

/-- The program in a file. -/
def readHost (tree : FileTree) (path : Path) : Except SourceError Host := do
  let text ← (tree.readText path).mapError (.unreadable path)
  (Program.read path.text text).mapError (.malformed path)

/-- The project of a directory. -/
def project (tree : FileTree) (start : Path) (overrides : Overrides) :
    Except ProjectError Project := do
  let start ← (tree.canonical start).mapError (.noRoot start)
  let loaded ← (Config.load tree start).mapError .noConfig
  let config := loaded.config.withOverrides overrides
  config.check.mapError .invalid
  let dir := config.localesDir loaded.root
  pure ⟨config, loaded.root, loaded.fromFile, if tree.isDirectory dir then some dir else none⟩

end FileTree

namespace Project

/-- The translations of a project before anything has been read. -/
def store (project : Project) : Store :=
  Store.ofDirectory project.localesDir

/-- The languages that have translations. -/
def languages (project : Project) (provider : Provider) : List String :=
  project.store.languages provider

/-- A path from the root of a project. -/
def resolvePath (project : Project) (path : String) : Path :=
  project.root.join path

/-- A path as it is shown: from the root of the project, with slashes only. -/
def displayPath (project : Project) (path : Path) : String :=
  let shown := (path.relativeTo? project.root).getD path
  String.ofList (shown.text.toList.map fun c => if c = '\\' then '/' else c)

/-- The source files of a project. -/
def scan (tree : FileTree) (project : Project) : Scan :=
  tree.scan project.root project.config.includes project.config.ignores

end Project

end KeyLens
