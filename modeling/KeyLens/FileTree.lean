import KeyLens.Path
import KeyLens.Source.Bytes

/-!
# File trees

Files, directories and symbolic links at one moment. A path leads through directories and links to
an entry; what it leads to does not depend on how it is spelled.
-/

namespace KeyLens

/-- What a file holds. -/
inductive Content where
  /-- Characters. -/
  | text (text : String)
  /-- Bytes that spell no characters. -/
  | bytes (bytes : List UInt8)
  deriving Repr, DecidableEq

/-- The content that bytes spell. -/
def Content.ofBytes (bytes : List UInt8) : Content :=
  match String.fromUTF8? ⟨bytes.toArray⟩ with
  | some chars => .text chars
  | none => .bytes bytes

/-- The number of bytes of a content. -/
def Content.length : Content → Nat
  | text chars => byteLength chars.toList
  | bytes values => values.length

/-- An entry of a directory. -/
inductive Entry where
  /-- A file with the time of its last change. -/
  | file (content : Content) (modified : Nat)
  /-- A directory. -/
  | directory
  /-- A symbolic link. -/
  | link (target : String)
  deriving Repr, DecidableEq

/-- Why a file cannot be reached or read. -/
inductive FileError where
  /-- A step leads to nothing. -/
  | notFound
  /-- A step leads on from something that is no directory. -/
  | notDirectory
  /-- A directory cannot be read as a file. -/
  | isDirectory
  /-- Too many links lead on to others. -/
  | tooManyLinks
  /-- A name or a path is too long. -/
  | nameTooLong
  /-- The path holds a character that ends it. -/
  | endInPath
  /-- The bytes of the file spell no characters. -/
  | notText
  deriving Repr, DecidableEq

/-- The words for an error. -/
def FileError.message : FileError → String
  | notFound => "No such file or directory (os error 2)"
  | notDirectory => "Not a directory (os error 20)"
  | isDirectory => "Is a directory (os error 21)"
  | tooManyLinks => "Too many levels of symbolic links (os error 40)"
  | nameTooLong => "File name too long (os error 36)"
  | endInPath => "file name contained an unexpected NUL byte"
  | notText => "stream did not contain valid UTF-8"

/-- The entries of all directories below the root. -/
structure FileTree where
  /-- Each entry with the names that lead to it from the root. -/
  entries : List (List String × Entry)
  /-- The directory from which relative paths start. -/
  directory : List String
  deriving Repr

namespace FileTree

/-- The entry at the end of a row of names; no name at all is the root. -/
def get? (tree : FileTree) (names : List String) : Option Entry :=
  if names = [] then some .directory else tree.entries.lookup names

/-- The names of the entries of a directory, in order. -/
def children (tree : FileTree) (names : List String) : List String :=
  (tree.entries.filterMap fun (path, _) =>
    if path ≠ [] ∧ path.dropLast = names then path.getLast? else none).mergeSort (· ≤ ·)

/-- How many links may be followed on the way to one entry. -/
def greatestLinks : Nat := 40

/-- The greatest number of bytes of a name. -/
def greatestName : Nat := 255

/-- The greatest number of bytes of a path. -/
def greatestPath : Nat := 4095

/-- What stands at the end of a way: its names from the root, and the entry. -/
abbrev Place := List String × Entry

/-- The entry to which pieces between slashes lead from the directory `place`. Links among them
are followed, up to `links` of them; one at the very end only if `follow` says so. -/
def walk (tree : FileTree) (follow : Bool) (links : Nat) (place : List String) :
    List (List Char) → Except FileError Place
  | [] => .ok (place, .directory)
  | piece :: rest =>
    if piece = [] ∨ piece = ['.'] then walk tree follow links place rest
    else if piece = ['.', '.'] then walk tree follow links place.dropLast rest
    else if byteLength piece > greatestName then .error .nameTooLong
    else
      let names := place ++ [String.ofList piece]
      match tree.get? names with
      | none => .error .notFound
      | some .directory => walk tree follow links names rest
      | some (.file content modified) =>
        if rest = [] then .ok (names, .file content modified) else .error .notDirectory
      | some (.link target) =>
        if rest = [] ∧ !follow then .ok (names, .link target)
        else match links with
          | 0 => .error .tooManyLinks
          | links + 1 =>
            if target.toList.head? = some '/' then
              walk tree follow links [] (List.splitOn '/' target.toList ++ rest)
            else walk tree follow links place (List.splitOn '/' target.toList ++ rest)
termination_by pieces => (links, pieces.length)

/-- The entry to which a path leads. -/
def reach (tree : FileTree) (follow : Bool) (path : Path) : Except FileError Place :=
  let chars := path.text.toList
  if chars = [] then .error .notFound
  else if chars.contains (Char.ofNat 0) then .error .endInPath
  else if byteLength chars > greatestPath then .error .nameTooLong
  else
    let start := if path.isAbsolute then [] else tree.directory
    walk tree follow greatestLinks start (List.splitOn '/' chars)

/-- The entry to which a path leads when all links are followed. -/
def resolve (tree : FileTree) (path : Path) : Except FileError Place :=
  tree.reach true path

/-- Whether a path leads to an entry. -/
def exists? (tree : FileTree) (path : Path) : Bool :=
  (tree.resolve path).isOk

/-- Whether a path leads to a directory. -/
def isDirectory (tree : FileTree) (path : Path) : Bool :=
  match tree.resolve path with
  | .ok (_, .directory) => true
  | _ => false

/-- The path that spells a row of names from the root. -/
def pathOf (names : List String) : Path :=
  ⟨"/" ++ String.intercalate "/" names⟩

/-- The spelling of a path without links, dots and doubled slashes. -/
def canonical (tree : FileTree) (path : Path) : Except FileError Path :=
  (tree.resolve path).map fun (names, _) => pathOf names

/-- The characters of the file to which a path leads. -/
def readText (tree : FileTree) (path : Path) : Except FileError String :=
  match tree.resolve path with
  | .error error => .error error
  | .ok (_, .file (.text text) _) => .ok text
  | .ok (_, .file (.bytes _) _) => .error .notText
  | .ok (_, _) => .error .isDirectory

/-- The names of the entries of the directory to which a path leads. -/
def list (tree : FileTree) (path : Path) : Except FileError (List String) :=
  match tree.resolve path with
  | .error error => .error error
  | .ok (names, .directory) => .ok (tree.children names)
  | .ok _ => .error .notDirectory

/-- The tree with `entry` at the end of a row of names. -/
def put (tree : FileTree) (names : List String) (entry : Entry) : FileTree :=
  { tree with entries := (tree.entries.filter fun (path, _) => path != names) ++ [(names, entry)] }

/-- The tree with directories at the ends of all beginnings of a row of names. -/
def makeDirectories (tree : FileTree) (names : List String) : FileTree :=
  (List.range names.length).foldl (fun tree count =>
    let beginning := names.take (count + 1)
    match tree.get? beginning with
    | none => tree.put beginning .directory
    | some _ => tree) tree

/-- The tree without the entry at the end of a row of names and without all entries below it. -/
def remove (tree : FileTree) (names : List String) : FileTree :=
  { tree with entries := tree.entries.filter fun (path, _) => !names.isPrefixOf path }

/-- The names to which a path leads where its last step may be missing. A link at the end that
leads to nothing yet is followed, up to `links` times. -/
def destinationIn (tree : FileTree) : Nat → Path → Except FileError (List String)
  | 0, _ => .error .tooManyLinks
  | links + 1, path =>
    match tree.resolve path, tree.reach false path with
    | .ok (names, _), _ => .ok names
    | .error _, .ok (names, .link target) =>
      destinationIn tree links ((pathOf names.dropLast).join target)
    | .error error, _ =>
      match path.parent?, path.fileName? with
      | some parent, some file =>
        (tree.resolve (if parent.text = "" then ⟨"."⟩ else parent)).bind fun (names, entry) =>
          if entry = .directory then .ok (names ++ [file]) else .error .notDirectory
      | _, _ => .error error

/-- The names to which a path leads where its last step may be missing. -/
def destination (tree : FileTree) (path : Path) : Except FileError (List String) :=
  tree.destinationIn greatestLinks path

/-- The tree in which a directory stands at the end of a path where nothing did. -/
def ensureDirectory (tree : FileTree) (path : Path) : FileTree :=
  if path.text = "" ∨ tree.exists? path then tree
  else match tree.destination path with
    | .ok names => tree.put names .directory
    | .error _ => tree

/-- The tree with an entry at the end of a path, and with directories on the way to it. -/
def create (tree : FileTree) (path : Path) (entry : Entry) : Except FileError FileTree :=
  let tree := path.upwards.tail.foldr (fun above tree => tree.ensureDirectory above) tree
  (tree.destination path).map fun names => tree.put names entry

/-- The tree after a text has been written to a file. -/
def write (tree : FileTree) (path : Path) (text : String) (time : Nat) :
    Except FileError FileTree :=
  (tree.destination path).bind fun names =>
    match tree.get? names with
    | some .directory => .error .isDirectory
    | _ => .ok (tree.put names (.file (.text text) time))

/-- An entry that has just been put is found. -/
theorem get?_put_self (tree : FileTree) {names : List String} (entry : Entry)
    (h : names ≠ []) : (tree.put names entry).get? names = some entry := by
  have hnone : ∀ entries : List (List String × Entry),
      (entries.filter fun x => x.1 != names).lookup names = none := by
    intro entries
    rw [List.lookup_eq_none_iff]
    intro p hp
    have := (List.mem_filter.1 hp).2
    simpa [bne, BEq.comm] using this
  simp only [get?, h, if_false, put, List.lookup_append, hnone]
  simp

end FileTree

end KeyLens
