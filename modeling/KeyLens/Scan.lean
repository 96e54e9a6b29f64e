import KeyLens.Glob.Expand

/-!
# Source files of a project

A scan collects the source files below a directory. Patterns and paths to include narrow it to
parts of the directory; patterns and paths to ignore take files out again. What cannot be used is
told in warnings, and the scan goes on without it.
-/

namespace KeyLens

/-- Whether the file name of a path ends like that of a source file. -/
def isSourceFile (path : Path) : Bool :=
  match path.extension? with
  | some ending => ["tsx", "ts", "jsx", "js", "mts", "cts", "mjs", "cjs"].contains ending
  | none => false

namespace Scan

/-- What a scan could not use. -/
inductive Warning where
  /-- A pattern to ignore has a mistake. -/
  | invalidIgnore (pattern : String) (fault : Glob.Fault)
  /-- A pattern to include has a mistake. -/
  | invalidInclude (pattern : String) (fault : Glob.Fault)
  /-- A path to include leads to nothing. -/
  | missingInclude (path : Path)
  /-- A directory to scan cannot be reached. -/
  | inaccessible (path : Path) (error : FileError)
  deriving Repr, DecidableEq

/-- The words for a warning. -/
def Warning.message : Warning → String
  | invalidIgnore pattern fault => "Invalid ignore pattern '" ++ pattern ++ "': " ++ fault.message
  | invalidInclude pattern fault => "Invalid glob pattern '" ++ pattern ++ "': " ++ fault.message
  | missingInclude path => "Include path does not exist: " ++ path.text
  | inaccessible path error =>
    "Cannot access path: IO error for operation on " ++ path.text ++ ": " ++ error.message

/-- Something to ignore. -/
inductive Ignore where
  /-- All paths that a pattern describes as a whole. -/
  | pattern (described : Glob.Pattern)
  /-- A path and all that lies below it. -/
  | path (path : Path)
  deriving Repr, DecidableEq

/-- Whether a path is to be ignored. -/
def Ignore.covers (ignore : Ignore) (path : Path) : Bool :=
  match ignore with
  | .pattern described => described.matches? path.text
  | .path own => path.startsWith own

/-- What an entry of the list of things to ignore stands for. -/
def Ignore.ofText (base : Path) (text : String) : Except Warning Ignore :=
  if Glob.Pattern.isWild text then
    match Glob.Pattern.parse text with
    | .ok described => .ok (.pattern described)
    | .error fault => .error (.invalidIgnore text fault)
  else .ok (.path (base.join text))

/-- The paths where a scan starts for an entry of the list of things to include. -/
def startsOf (tree : FileTree) (base : Path) (text : String) : Except Warning (List Path) :=
  if Glob.Pattern.isWild text then
    match Glob.paths tree (base.join text).text with
    | .ok paths => .ok (paths.filter tree.isDirectory)
    | .error fault => .error (.invalidInclude text fault)
  else
    let path := base.join text
    if tree.exists? path then .ok [path] else .error (.missingInclude path)

/-- The paths of all files below a place, followed from `start` to it. No link is followed. -/
def filesBelow (tree : FileTree) (start : Path) (place : List String) : List Path :=
  tree.entries.filterMap fun (names, entry) =>
    match entry with
    | .file _ _ =>
      if place.length < names.length ∧ place.isPrefixOf names then
        some ((names.drop place.length).foldl Path.join start)
      else none
    | _ => none

/-- The paths of all files at a start or below it. A link is followed at the start alone, and only
to a directory. -/
def filesAt (tree : FileTree) (start : Path) : Except Warning (List Path) :=
  match tree.reach false start with
  | .error error => .error (.inaccessible start error)
  | .ok (_, .file _ _) => .ok [start]
  | .ok (place, .directory) => .ok (filesBelow tree start place)
  | .ok (_, .link _) =>
    match tree.resolve start with
    | .error error => .error (.inaccessible start error)
    | .ok (place, .directory) => .ok (filesBelow tree start place)
    | .ok _ => .ok []

/-- The results without a warning. -/
def kept {α : Type} (results : List (Except Warning α)) : List α :=
  results.filterMap Except.toOption

/-- The warnings among results. -/
def warned {α : Type} (results : List (Except Warning α)) : List Warning :=
  results.filterMap fun
    | .error warning => some warning
    | .ok _ => none

/-- Paths in order, each row of steps once. -/
def inOrder (paths : List Path) : List Path :=
  let once (path : Path) (rest : List Path) : List Path :=
    path :: match rest with
      | next :: others => if next.components = path.components then others else rest
      | [] => []
  (paths.mergeSort Path.le).foldr once []

end Scan

/-- What a scan has found. -/
structure Scan where
  /-- The source files in order. -/
  files : List Path
  /-- The number of paths that could not be reached. -/
  skipped : Nat
  /-- The warnings in the order in which they arose. -/
  warnings : List Scan.Warning
  deriving Repr

/-- The source files below `base`, or below the parts of it that `includes` names, without those
that `ignores` covers. -/
def FileTree.scan (tree : FileTree) (base : Path) (includes ignores : List String) : Scan :=
  let covers := ignores.map (Scan.Ignore.ofText base)
  let starts := if includes = [] then [.ok [base]] else includes.map (Scan.startsOf tree base)
  let found := (Scan.kept starts).flatten.map (Scan.filesAt tree)
  let files := (Scan.kept found).flatten.filter fun path =>
    isSourceFile path && !(Scan.kept covers).any (·.covers path)
  { files := Scan.inOrder files
    skipped := (Scan.warned found).length
    warnings := Scan.warned covers ++ Scan.warned starts ++ Scan.warned found }

end KeyLens
