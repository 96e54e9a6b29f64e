import KeyLens.Config.Reader
import KeyLens.FileTree
import KeyLens.Text.Quoted

/-!
# Finding the configuration of a project

The configuration file is looked for in a directory and in those above it, up to the root of the
repository. The directory that holds it is the root of the project.
-/

namespace KeyLens

namespace Config

/-- The name of a configuration file. -/
def fileName : String := ".i18nlensrc.json"

/-- The name of what stands in the root of a repository. -/
def repositoryMark : String := ".git"

/-- The first configuration file in a row of directories, up to the root of a repository. -/
def findIn (tree : FileTree) : List Path → Option Path
  | [] => none
  | directory :: rest =>
    if tree.exists? (directory.join fileName) then some (directory.join fileName)
    else if tree.exists? (directory.join repositoryMark) then none
    else findIn tree rest

/-- The configuration file that counts for a directory. -/
def find? (tree : FileTree) (start : Path) : Option Path :=
  findIn tree start.upwards

/-- A configuration and where it was found. -/
structure Loaded where
  /-- The configuration. -/
  config : Config
  /-- Whether it stands in a file. -/
  fromFile : Bool
  /-- The root of the project. -/
  root : Path
  deriving Repr

/-- Why a configuration file cannot be used. -/
inductive LoadError where
  /-- The file cannot be read. -/
  | unreadable (path : Path) (error : FileError)
  /-- The text is none of a configuration. -/
  | malformed (path : Path) (text : String) (failure : Json.Failure)
  /-- The configuration is unusable. -/
  | invalid (reason : Invalid)
  deriving Repr

/-- The words for an error. -/
def LoadError.message : LoadError → String
  | unreadable path error =>
    "Failed to read config file: " ++ Text.quotedPath path.text ++ ": " ++ error.message
  | malformed path text failure =>
    "Failed to parse config file: " ++ Text.quotedPath path.text ++ ": " ++ failure.message text
  | invalid reason => reason.message

/-- The configuration in a file. -/
def readFile (tree : FileTree) (path : Path) : Except LoadError Config := do
  let text ← (tree.readText path).mapError (.unreadable path)
  let config ← (read text).mapError (.malformed path text)
  config.check.mapError .invalid
  pure config

/-- The configuration that counts for a directory. -/
def load (tree : FileTree) (start : Path) : Except LoadError Loaded :=
  match find? tree start with
  | some path => (readFile tree path).map fun config => ⟨config, true, path.parent?.getD start⟩
  | none => .ok ⟨default, false, start⟩

end Config

end KeyLens
