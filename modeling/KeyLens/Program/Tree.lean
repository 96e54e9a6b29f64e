import KeyLens.Node
import KeyLens.Source.Text

/-!
# Program trees

The tree of a program keeps all of its characters: the text of a tree is the text of its parts one
after the other. Only what can hold a translation key is told apart, so most parts of a program
are plain.
-/

namespace KeyLens.Program

/-- What a part of a program is. -/
inductive Role where
  /-- A part of no interest by itself. -/
  | plain
  /-- A part that waits for those next to it that have a lower turn, wherever they stand. -/
  | delayed (turn : Nat)
  /-- An argument of the call around it. -/
  | argument
  /-- The name of the tag around it. -/
  | tagName
  /-- An attribute of the tag around it. -/
  | attribute (value : Attribute)
  deriving Repr, DecidableEq

/-- A program or a part of one. -/
inductive Tree where
  /-- Characters that are not divided any further. -/
  | leaf (text : List Char)
  /-- Parts that belong together. -/
  | node (role : Role) (parts : List Tree)
  /-- A call: the callee and the parts behind it, which a closing parenthesis follows. -/
  | call (callee : Tree) (parts : List Tree)
  /-- A tag with everything up to its closing: the parts behind the bracket that opens it. -/
  | tag (parts : List Tree)
  deriving Repr, Inhabited

namespace Tree

mutual

/-- The characters of a tree. -/
def text : Tree → List Char
  | leaf chars => chars
  | node _ parts => textOf parts
  | call callee parts => text callee ++ textOf parts ++ [')']
  | tag parts => '<' :: textOf parts

/-- The characters of trees that follow one another. -/
def textOf : List Tree → List Char
  | [] => []
  | part :: rest => text part ++ textOf rest

end

/-- The text of two rows of trees is the text of one and then of the other. -/
@[simp] theorem textOf_append (left right : List Tree) :
    textOf (left ++ right) = textOf left ++ textOf right := by
  induction left with
  | nil => simp [textOf]
  | cons part rest ih => simp [textOf, ih]

/-- The number of bytes of a tree. -/
def size (tree : Tree) : Nat :=
  byteLength tree.text

/-- The spans of trees that follow one another from `offset` on. -/
def spansFrom (offset : Nat) : List Tree → List (Tree × Span)
  | [] => []
  | part :: rest => (part, ⟨offset, offset + part.size⟩) :: spansFrom (offset + part.size) rest

/-- When a tree is visited among those next to it. -/
def turn : Tree → Nat
  | node (.delayed turn) _ => turn
  | _ => 0

/-- Whether a tree is an argument. -/
def isArgument : Tree → Bool
  | node .argument _ => true
  | _ => false

/-- Whether a tree is the name of a tag. -/
def isTagName : Tree → Bool
  | node .tagName _ => true
  | _ => false

/-- The attribute that a tree is. -/
def attribute? : Tree → Option Attribute
  | node (.attribute value) _ => some value
  | _ => none

end Tree

/-- A call or a tag with the spans of its parts. -/
inductive Found where
  /-- A call with the spans of the callee and of the arguments. -/
  | call (callee : Span) (arguments : List Span) (span : Span)
  /-- A tag with the span of its name. -/
  | tag (name : Span) (attributes : List Attribute) (span : Span)
  deriving Repr, DecidableEq

namespace Found

/-- The span of the whole construct. -/
def span : Found → Span
  | call _ _ span => span
  | tag _ _ span => span

/-- The text that a span covers; empty where the span does not fit the text. -/
def textAt (source : SourceText) (span : Span) : String :=
  (source.slice? span).getD ""

/-- The node of a text that a construct is. -/
def toNode (source : SourceText) : Found → Node
  | call callee arguments span =>
    .call (textAt source callee) (arguments.map (textAt source)) span
  | tag name attributes span => .tag (textAt source name) attributes span

end Found

namespace Tree

/-- The call whose callee starts at `offset`. -/
def foundCall (offset : Nat) (callee : Tree) (parts : List Tree) : Found :=
  .call ⟨offset, offset + callee.size⟩
    (((spansFrom (offset + callee.size) parts).filter fun (part, _) => part.isArgument).map Prod.snd)
    ⟨offset, offset + (call callee parts).size⟩

/-- The tag that starts at `offset`. -/
def foundTag (offset : Nat) (parts : List Tree) : Found :=
  .tag ((((spansFrom (offset + 1) parts).find? fun (part, _) => part.isTagName).map Prod.snd).getD
      ⟨offset + 1, offset + 1⟩)
    (parts.filterMap attribute?)
    ⟨offset, offset + (tag parts).size⟩

/-- Rows in the order of their turns, with one more in front of those that come later. -/
def insertInTurn {α : Type} (row : Nat × List α) : List (Nat × List α) → List (Nat × List α)
  | [] => [row]
  | other :: rest =>
    if row.1 ≤ other.1 then row :: other :: rest else other :: insertInTurn row rest

/-- What rows hold, one row after the other as their turns come; rows of one turn keep their
order. -/
def inTurn {α : Type} (rows : List (Nat × List α)) : List α :=
  (rows.foldr insertInTurn []).flatMap Prod.snd

mutual

/-- The calls and tags of a tree that starts at `offset` as they are visited, each before those
inside of it. -/
def found (offset : Nat) : Tree → List Found
  | leaf _ => []
  | node _ parts => inTurn (foundEach offset parts)
  | call callee parts =>
    foundCall offset callee parts ::
      (found offset callee ++ inTurn (foundEach (offset + callee.size) parts))
  | tag parts => foundTag offset parts :: inTurn (foundEach (offset + 1) parts)

/-- The calls and tags of each of the trees that follow one another from `offset` on, with its
turn. -/
def foundEach (offset : Nat) : List Tree → List (Nat × List Found)
  | [] => []
  | part :: rest => (part.turn, found offset part) :: foundEach (offset + part.size) rest

end

/-- The calls and tags of trees that follow one another from the start of a text. -/
def foundIn (trees : List Tree) : List Found :=
  inTurn (foundEach 0 trees)

end Tree

end KeyLens.Program
