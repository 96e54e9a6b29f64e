import KeyLens.FileTree
import KeyLens.Json.Reader
import KeyLens.Text.Quoted

/-!
# Providers

A provider answers what the translation store asks of the files: whether a document has changed,
what it holds, and which directories a directory has.
-/

namespace KeyLens

/-- What tells two versions of a file apart. -/
structure Stamp where
  /-- The time of the last change. -/
  modified : Nat
  /-- The number of bytes. -/
  length : Nat
  deriving Repr, DecidableEq

/-- The members of a document. -/
abbrev Document := List (String × Json)

/-- Why a path gives no document. -/
inductive DocumentError where
  /-- The file cannot be read. -/
  | unreadable (path : Path) (error : FileError)
  /-- The text is none of a document. -/
  | malformed (path : Path) (text : String) (failure : Json.Failure)
  /-- The document has no members. -/
  | noObject (path : Path)
  deriving Repr

/-- The words for an error. -/
def DocumentError.message : DocumentError → String
  | unreadable path error =>
    "Failed to read JSON file: " ++ Text.quotedPath path.text ++ ": " ++ error.message
  | malformed path text failure =>
    "Failed to parse JSON file: " ++ Text.quotedPath path.text ++ ": " ++ failure.message text
  | noObject path => "JSON root is not an object: " ++ Text.quotedPath path.text

/-- The answers about the files of one moment. -/
structure Provider where
  /-- The stamp of a file; none if the path leads to no file. -/
  stamp? : Path → Option Stamp
  /-- The document of a file. -/
  read : Path → Except DocumentError Document
  /-- The names of the directories in a directory; none if the path leads to no directory. -/
  directories? : Path → Option (List String)

namespace FileTree

/-- The stamp of the file to which a path leads. -/
def stamp? (tree : FileTree) (path : Path) : Option Stamp :=
  match tree.resolve path with
  | .ok (_, .file content modified) => some ⟨modified, content.length⟩
  | _ => none

/-- The document of the file to which a path leads. -/
def readDocument (tree : FileTree) (path : Path) : Except DocumentError Document :=
  match tree.readText path with
  | .error error => .error (.unreadable path error)
  | .ok text =>
    match Json.read text with
    | .error failure => .error (.malformed path text failure)
    | .ok (.object members) => .ok members
    | .ok _ => .error (.noObject path)

/-- The names of the directories in a directory. Links to directories do not count. -/
def directories? (tree : FileTree) (path : Path) : Option (List String) :=
  match tree.resolve path with
  | .ok (names, .directory) =>
    some ((tree.children names).filter fun name => tree.get? (names ++ [name]) = some .directory)
  | _ => none

/-- The provider for the files of a tree. -/
def provider (tree : FileTree) : Provider :=
  ⟨tree.stamp?, tree.readDocument, tree.directories?⟩

end FileTree

end KeyLens
