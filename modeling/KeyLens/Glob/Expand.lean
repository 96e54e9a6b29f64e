import KeyLens.FileTree
import KeyLens.Glob.Pattern

/-!
# Paths that a pattern describes

A pattern with slashes is a row of steps. A step without wildcards is followed as it is written; a
step with wildcards leads to all entries of a directory that it describes, in order; two stars lead
to all directories at any depth. Links to directories count as directories.
-/

namespace KeyLens.Glob

/-- A step of a pattern with slashes. -/
inductive Step where
  /-- A name without wildcards. -/
  | plain (name : String)
  /-- A name with wildcards. -/
  | wild (pattern : Pattern)
  /-- Any number of directories. -/
  | anywhere
  deriving Repr, DecidableEq

namespace Step

/-- The step that a pattern between slashes stands for. -/
def ofPattern (pattern : Pattern) : Step :=
  if pattern.tokens = [.directories] then anywhere
  else match pattern.plain? with
    | some name => plain name
    | none => wild pattern

/-- Whether a step describes a name. -/
def admits (step : Step) (name : String) : Bool :=
  match step with
  | plain own => own == name
  | wild pattern => pattern.matches? name
  | anywhere => true

end Step

/-- Steps without a second one right behind another that already leads to any depth. -/
def collapse : List Step → List Step
  | .anywhere :: .anywhere :: rest => collapse (.anywhere :: rest)
  | step :: rest => step :: collapse rest
  | [] => []

/-- The pieces of a text between slashes, without an empty one at the end. -/
def pieces (text : List Char) : List (List Char) :=
  let all := List.splitOn '/' text
  if all.getLast? = some [] then all.dropLast else all

/-- The steps of a pattern behind a slash at its start. -/
def steps (text : List Char) : Except Fault (List Step) :=
  let rest := if text.head? = some '/' then text.tail else text
  ((pieces rest).mapM fun piece => (Pattern.parse (String.ofList piece)).map Step.ofPattern).map
    collapse

/-- The path to an entry of a directory; the working directory is left out. -/
def follow (base : Path) (name : String) : Path :=
  if base.components = [.current] then ⟨name⟩ else base.join name

/-- Whether a name stands for a directory itself or for the one that holds it. -/
def isSpecial (name : String) : Bool :=
  name == "." || name == ".."

/-- The special names that a step with wildcards describes: only one that starts with a dot does. -/
def specials (pattern : Pattern) : List String :=
  if pattern.tokens.head? = some (.char '.') then ["..", "."].filter pattern.matches? else []

/-- The paths to which steps lead from the directory `base`, at most `depth` directories deep where
any depth is asked for. -/
def expand (tree : FileTree) (depth : Nat) (base : Path) : List Step → List Path
  | [] => [base]
  | .plain name :: rest =>
    let next := follow base name
    let leads := if isSpecial name then tree.isDirectory base else tree.exists? next
    if leads then expand tree depth next rest else []
  | .wild pattern :: rest =>
    if tree.isDirectory base then
      (specials pattern).flatMap (fun name => expand tree depth (base.join name) rest) ++
        ((tree.list base).toOption.getD []).flatMap fun name =>
          if pattern.matches? name then expand tree depth (follow base name) rest else []
    else []
  | .anywhere :: rest =>
    if tree.isDirectory base then
      ((tree.list base).toOption.getD []).flatMap fun name =>
        let child := follow base name
        let here := match rest with
          | [] => if tree.isDirectory child then [child] else []
          | step :: more => if step.admits name then expand tree depth child more else []
        let below := match depth with
          | 0 => []
          | depth + 1 => expand tree depth child (.anywhere :: rest)
        here ++ below
    else []
termination_by steps => (depth, steps.length)

/-- The paths that a pattern describes. Nothing lies deeper than the longest path has slashes. -/
def paths (tree : FileTree) (pattern : String) : Except Fault (List Path) :=
  let text := pattern.toList
  (tokens 0 none text).bind fun _ => (steps text).map fun steps =>
    let start : Path := if text.head? = some '/' then ⟨"/"⟩ else ⟨"."⟩
    if steps = [] then [] else expand tree FileTree.greatestPath start steps

end KeyLens.Glob
