/-!
# Paths

A path is a text with slashes between the names of directories. Two spellings that differ only in
doubled slashes and in single dots lead the same way: they have the same components. Paths are
joined and shortened as texts, so that a path is shown the way it was written.
-/

namespace KeyLens

/-- A step of a path, from the least to the greatest. -/
inductive Component where
  /-- The root at the start of an absolute path. -/
  | root
  /-- A single dot at the start of a relative path. -/
  | current
  /-- Two dots. -/
  | parent
  /-- The name of an entry. -/
  | name (text : String)
  deriving Repr, DecidableEq

namespace Component

/-- The step that a piece between slashes stands for; an empty piece and a single dot are none. -/
def ofPiece? (piece : List Char) : Option Component :=
  if piece = [] ∨ piece = ['.'] then none
  else if piece = ['.', '.'] then some parent
  else some (name (String.ofList piece))

/-- The rank of the kind of a step. -/
def rank : Component → Nat
  | root => 0
  | current => 1
  | parent => 2
  | name _ => 3

/-- The order of two steps: by kind, and names by their characters. -/
def compare (left right : Component) : Ordering :=
  match left, right with
  | name first, name second => Ord.compare first second
  | _, _ => Ord.compare left.rank right.rank

end Component

/-- A path as it is written. -/
structure Path where
  /-- The text of the path. -/
  text : String
  deriving Repr, DecidableEq

namespace Path

/-- The steps of two paths in turn. -/
def compareComponents : List Component → List Component → Ordering
  | [], [] => .eq
  | [], _ :: _ => .lt
  | _ :: _, [] => .gt
  | c :: left, d :: right => (c.compare d).then (compareComponents left right)

/-- A text split into what comes before its pieces, which is a slash, a leading dot or nothing, and
the rest. -/
def splitHead (text : List Char) : List Char × List Char :=
  match text with
  | '/' :: rest => (['/'], rest)
  | ['.'] => (['.'], [])
  | '.' :: '/' :: rest => (['.'], '/' :: rest)
  | _ => ([], text)

/-- The step that stands before the pieces. -/
def headComponent? : List Char → Option Component
  | ['/'] => some .root
  | ['.'] => some .current
  | _ => none

/-- The pieces of a path between its slashes, behind its head. -/
def pieces (path : Path) : List (List Char) :=
  List.splitOn '/' (splitHead path.text.toList).2

/-- The steps of a path. -/
def components (path : Path) : List Component :=
  (headComponent? (splitHead path.text.toList).1).toList ++ path.pieces.filterMap Component.ofPiece?

/-- Whether a path starts at the root. -/
def isAbsolute (path : Path) : Bool :=
  path.text.toList.head? == some '/'

/-- A path followed from another one: an absolute one stands for itself. -/
def join (base : Path) (text : String) : Path :=
  let chars := text.toList
  let first := base.text.toList
  if chars.head? = some '/' then ⟨text⟩
  else if first = [] ∨ first.getLast? = some '/' then ⟨base.text ++ text⟩
  else ⟨base.text ++ "/" ++ text⟩

/-- Pieces without those at the end that are no steps. -/
def trimPieces (pieces : List (List Char)) : List (List Char) :=
  (pieces.reverse.dropWhile fun piece => (Component.ofPiece? piece).isNone).reverse

/-- The path without its last step; none if there is no step but a root. -/
def parent? (path : Path) : Option Path :=
  let head := (splitHead path.text.toList).1
  let trimmed := trimPieces path.pieces
  if trimmed = [] then if head = ['.'] then some ⟨""⟩ else none
  else some ⟨String.ofList (head ++ List.intercalate ['/'] (trimPieces trimmed.dropLast))⟩

/-- A path and the paths above it, at most `count` of them. -/
def upwardsIn : Nat → Path → List Path
  | 0, path => [path]
  | count + 1, path => path :: (path.parent?.map (upwardsIn count)).getD []

/-- A path and all paths above it, from the inside. -/
def upwards (path : Path) : List Path :=
  upwardsIn path.components.length path

/-- The last step of a path, if it is a name. -/
def fileName? (path : Path) : Option String :=
  match path.components.getLast? with
  | some (.name text) => some text
  | _ => none

/-- What follows the last dot of a file name; none if no dot stands behind its first character. -/
def extension? (path : Path) : Option String :=
  path.fileName?.bind fun file =>
    let ending := (file.toList.reverse.takeWhile (· != '.')).reverse
    if ending.length + 1 ≥ file.toList.length then none else some (String.ofList ending)

/-- Whether the steps of `base` are the first steps of a path. -/
def startsWith (path base : Path) : Bool :=
  base.components.isPrefixOf path.components

/-- Pieces behind the first `count` steps among them, starting with a step. -/
def dropSteps : Nat → List (List Char) → List (List Char)
  | _, [] => []
  | count, piece :: rest =>
    if (Component.ofPiece? piece).isNone then dropSteps count rest
    else match count with
      | 0 => piece :: rest
      | count + 1 => dropSteps count rest

/-- The path that leads on from `base`; none if a path does not start with it. -/
def relativeTo? (path base : Path) : Option Path :=
  if path.startsWith base then
    let head := (headComponent? (splitHead path.text.toList).1).toList
    let count := base.components.length
    if count < head.length then
      some ⟨String.ofList
        ((splitHead path.text.toList).1 ++ List.intercalate ['/'] (trimPieces path.pieces))⟩
    else
      some ⟨String.ofList
        (List.intercalate ['/'] (trimPieces (dropSteps (count - head.length) path.pieces)))⟩
  else none

/-- The order of paths by their steps. -/
def compare (left right : Path) : Ordering :=
  compareComponents left.components right.components

/-- Whether a path may stand before another one in order. -/
def le (left right : Path) : Bool :=
  left.compare right != .gt

/-- A path followed from an absolute text is that text. -/
theorem join_of_absolute {base : Path} {text : String} (h : text.toList.head? = some '/') :
    base.join text = ⟨text⟩ := by
  simp [join, h]

end Path

end KeyLens
