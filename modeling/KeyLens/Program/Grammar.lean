import KeyLens.Host
import KeyLens.Program.Elements
import KeyLens.Program.Statements

/-!
# Programs

The reader of every goal, and the host of a program's text. A nested goal is read with one step
less; the number of steps at the start exceeds any nesting that the text allows. The host depends
on the trees of the program alone, so it is defined for any parser that keeps the characters of the
text.
-/

namespace KeyLens.Program

open Reader

/-- The reader of a goal, given the reader of the goals inside of it. -/
def readerOf (language : Language) (read : Readers) : Readers
  | .expression place => Expressions.expression read place
  | .assignment place => Expressions.assignment language read place
  | .unary => Expressions.unary language read
  | .chain => Expressions.chain language read true
  | .constructed => Expressions.chain language read false
  | .element => Elements.element language read
  | .binding => Functions.binding language read
  | .parameters owner => do Functions.parameters language read owner; pure .value
  | .functionTail owner needsBody => do
    Functions.tail language read owner needsBody
    pure .value
  | .classDeclaration needsName => do
    part .plain (Functions.classDeclaration language read needsName)
    pure .value
  | .item => do Statements.item language read; pure .value
  | .itemBlock => do Statements.itemBlock read; pure .value
  | .statement => do Statements.statement language read; pure .value
  | .body => do Statements.body language read; pure .value
  | .block => do Statements.block read; pure .value
  | .type => do Types.type read; pure .value
  | .unconditionalType isBound => do Types.unconditional read isBound; pure .value
  | .returnType => do Types.returnType read; pure .value
  | .typeMembers => do Types.members read; pure .value
  | .typeParameters => do Types.parameters read; pure .value
  | .typeArguments => do Types.arguments read; pure .value

/-- The reader of a goal with goals nested in it up to `steps` deep. -/
def readGoal (language : Language) : Nat → Readers
  | 0 => fun _ => stop .unexpected
  | steps + 1 => readerOf language (readGoal language steps)

/-- How many goals may be nested in one another between two characters of a text. -/
def goalsPerCharacter : Nat := 16

/-- The first line of a text, if it names an interpreter. -/
def interpreterLine : Reader Unit := do
  match ← ahead with
  | '#' :: '!' :: rest => take (2 + (rest.takeWhile fun c => !isLineEnd c).length)
  | _ => pure ()

/-- Takes the blanks and comments at the start of a program, where a line starts. A comment without
an end is not forgiven there. -/
def lineStart : Reader Unit := do
  let text ← ahead
  take (text.length - (skipBetween .outside true text).2.length)
  if ((← ahead).take 2) = ['/', '*'] then stop .unexpected

/-- A whole program. -/
def program (read : Readers) : Reader Unit := do
  interpreterLine
  lineStart
  repeatWhile do
    if (← next) == .finished then pure false
    else
      let _ ← read .item
      pure true
  blanks

/-- The trees of a program. -/
def trees (language : Language) (text : List Char) : Except Fault (List Tree) :=
  match (program (readGoal language (goalsPerCharacter * (text.length + 1)))).run
      (State.start text) with
  | .ok (_, state) => .ok state.trees.reverse
  | .error failure => .error failure.fault

namespace Language

/-- The part of a file name after its last dot; none if the dot stands first or is missing. -/
def extension? (fileName : String) : Option String :=
  let last := (fileName.toList.reverse.takeWhile (· != '/')).reverse
  let ending := (last.reverse.takeWhile (· != '.')).reverse
  if last = ['.', '.'] ∨ ending.length + 1 ≥ last.length then none
  else some (String.ofList ending)

/-- The language that a file name announces. Only typed files that are not named for tags go
without them, so that their type arguments are not taken for tags. -/
def ofFileName (fileName : String) : Language :=
  match extension? fileName with
  | some "ts" | some "mts" | some "cts" => ⟨true, false⟩
  | some "tsx" => ⟨true, true⟩
  | _ => ⟨false, true⟩

end Language

/-- The text without a mark of its byte order at the start. -/
def withoutOrderMark : List Char → List Char
  | [] => []
  | c :: rest => if c = '\ufeff' then rest else c :: rest

/-- A parser of programs. The texts of its trees, one after the other, are the text that they were
made of, or a beginning of it. -/
structure Parser where
  /-- The trees of a text in some language. -/
  parse : Language → List Char → Except Fault (List Tree)
  /-- No character is lost or moved. -/
  spells : ∀ {language text parts}, parse language text = .ok parts → Tree.textOf parts <+: text

/-- The host of a program's text: its calls and tags, with spans that count from behind a mark of
the byte order. -/
def Parser.read (parser : Parser) (fileName text : String) : Except Fault Host :=
  match parser.parse (Language.ofFileName fileName) (withoutOrderMark text.toList) with
  | .ok trees =>
    .ok ⟨⟨text⟩, (Tree.foundIn trees).map (Found.toNode ⟨text⟩)⟩
  | .error fault => .error fault

/-- The trees of a program are those of a beginning of its text. -/
theorem textOf_trees {language : Language} {text : List Char} {parts : List Tree}
    (h : trees language text = .ok parts) : Tree.textOf parts <+: text := by
  unfold trees at h
  split at h
  · next state _ =>
    cases h
    exact ⟨state.rest, state.whole⟩
  · cases h

/-- The parser that reads by the goals above. -/
def grammar : Parser :=
  ⟨trees, textOf_trees⟩

/-- The host of a program's text as the grammar reads it. -/
def read (fileName text : String) : Except Fault Host :=
  grammar.read fileName text

end KeyLens.Program
