import KeyLens.Program.Tree

/-!
# Reading programs

A reader turns the text ahead of it into trees. Its state cannot lose a character: the trees that
are finished and the text that is left always make up the text at the start. A reader may take
characters, put the finished trees into one, or read in a scope of its own; nothing else changes
the state. A reader that stops tells how much of the text was left, so that another one can go on
from there.
-/

namespace KeyLens.Program

/-- Why a text is no program. -/
inductive Fault where
  /-- No expression starts where one is needed. -/
  | noExpression
  /-- The closing tag does not name the tag that is open. -/
  | otherClosingTag (name : String)
  /-- Anything else that cannot follow. -/
  | unexpected
  deriving Repr, DecidableEq

/-- The words for a fault. -/
def Fault.message : Fault → String
  | noExpression => "TS1109"
  | otherClosingTag name =>
    "JSXExpectedClosingTag \x7b tag: \"" ++ name ++ "\" \x7d"
  | unexpected => "Unexpected"

/-- Where and why a reader has stopped. -/
structure Failure where
  /-- Why the text ahead cannot follow. -/
  fault : Fault
  /-- The number of characters that were left. -/
  left : Nat
  deriving Repr, DecidableEq

/-- How far a text has been read. -/
@[ext]
structure State (source : List Char) where
  /-- The finished trees, the last one first. -/
  trees : List Tree
  /-- The text that is left. -/
  rest : List Char
  /-- Nothing of the text is lost. -/
  whole : Tree.textOf trees.reverse ++ rest = source

namespace State

/-- The state before anything has been read. -/
def start (source : List Char) : State source :=
  ⟨[], source, by simp [Tree.textOf]⟩

/-- The state after `count` more characters have been taken as one leaf. -/
def advance {source : List Char} (state : State source) (count : Nat) : State source :=
  ⟨.leaf (state.rest.take count) :: state.trees, state.rest.drop count, by
    simp [Tree.textOf, Tree.text, List.take_append_drop, state.whole]⟩

/-- The state in which the finished trees form one of the given role. -/
def wrap {source : List Char} (state : State source) (role : Role) : State source :=
  ⟨[.node role state.trees.reverse], state.rest, by
    simp [Tree.textOf, Tree.text, state.whole]⟩

/-- The state in which the finished trees, of which the first one is the callee, and the closing
parenthesis ahead form a call. -/
def closeCall? {source : List Char} (state : State source) : Option (State source) :=
  match htrees : state.trees.reverse, hrest : state.rest with
  | callee :: parts, ')' :: rest => some ⟨[.call callee parts], rest, by
      have := state.whole
      rw [htrees, hrest] at this
      simpa [Tree.textOf, Tree.text] using this⟩
  | _, _ => none

/-- The state after the text ahead has been read in a scope of its own, whose trees form one of the
given role. -/
def push {source : List Char} (state : State source) (role : Role) (inner : State state.rest) :
    State source :=
  ⟨.node role inner.trees.reverse :: state.trees, inner.rest, by
    simp [Tree.textOf, Tree.text, inner.whole, state.whole]⟩

/-- The state after the text behind the bracket ahead has been read in a scope of its own, whose
trees form a tag. -/
def pushTag {source rest : List Char} (state : State source) (hrest : state.rest = '<' :: rest)
    (inner : State rest) : State source :=
  ⟨.tag inner.trees.reverse :: state.trees, inner.rest, by
    simp [Tree.textOf, Tree.text, inner.whole, ← state.whole, hrest]⟩

/-- The state after the text ahead has been read in a scope of its own and is kept undivided. -/
def passOver {source : List Char} (state : State source) (inner : State state.rest) :
    State source :=
  ⟨.leaf (Tree.textOf inner.trees.reverse) :: state.trees, inner.rest, by
    simp [Tree.textOf, Tree.text, inner.whole, state.whole]⟩

end State

/-- A reader that gives a value of `α`. -/
structure Reader (α : Type) where
  /-- What the reader makes of a state. -/
  run : {source : List Char} → State source → Except Failure (α × State source)

namespace Reader

instance : Monad Reader where
  pure a := ⟨fun state => .ok (a, state)⟩
  bind reader next := ⟨fun state =>
    match reader.run state with
    | .ok (a, state) => (next a).run state
    | .error failure => .error failure⟩

/-- Reads nothing. -/
def stop {α : Type} (fault : Fault) : Reader α :=
  ⟨fun state => .error ⟨fault, state.rest.length⟩⟩

instance : Inhabited (Reader α) := ⟨stop .unexpected⟩

/-- The text ahead. -/
def ahead : Reader (List Char) :=
  ⟨fun state => .ok (state.rest, state)⟩

/-- Takes characters as one leaf. -/
def take (count : Nat) : Reader Unit :=
  ⟨fun state => .ok ((), if count = 0 then state else state.advance count)⟩

/-- Puts the finished trees of the scope into one. -/
def wrap (role : Role) : Reader Unit :=
  ⟨fun state => .ok ((), state.wrap role)⟩

/-- Takes a closing parenthesis that ends a call of the scope's first tree. -/
def closeCall : Reader Unit :=
  ⟨fun state => match state.closeCall? with
    | some state => .ok ((), state)
    | none => .error ⟨.unexpected, state.rest.length⟩⟩

/-- Reads in a scope of its own, whose trees form one of the given role. -/
def enclose {α : Type} (role : Role) (reader : Reader α) : Reader α :=
  ⟨fun state => match reader.run (State.start state.rest) with
    | .ok (a, inner) => .ok (a, state.push role inner)
    | .error failure => .error failure⟩

/-- Reads in a scope of its own, whose trees form one of the given role, if there is something to
read; tells whether there was. -/
def encloseIf (role : Role) (reader : Reader Bool) : Reader Bool :=
  ⟨fun state => match reader.run (State.start state.rest) with
    | .ok (true, inner) => .ok (true, state.push role inner)
    | .ok (false, _) => .ok (false, state)
    | .error failure => .error failure⟩

/-- Takes the bracket that opens a tag, and reads behind it in a scope of its own, whose trees form
the tag. -/
def encloseTag {α : Type} (reader : Reader α) : Reader α :=
  ⟨fun state => match hrest : state.rest with
    | '<' :: rest => match reader.run (State.start rest) with
      | .ok (a, inner) => .ok (a, state.pushTag hrest inner)
      | .error failure => .error failure
    | _ => .error ⟨.unexpected, state.rest.length⟩⟩

/-- Reads in a scope of its own and keeps what was read undivided. -/
def passOver {α : Type} (reader : Reader α) : Reader α :=
  ⟨fun state => match reader.run (State.start state.rest) with
    | .ok (a, inner) => .ok (a, state.passOver inner)
    | .error failure => .error failure⟩

/-- Reads by `first`, or by `second` from the same place if that fails. -/
def orElse {α : Type} (first second : Reader α) : Reader α :=
  ⟨fun state => match first.run state with
    | .ok result => .ok result
    | .error _ => second.run state⟩

/-- Reads if it can; tells whether it could. -/
def attempt (reader : Reader Unit) : Reader Bool :=
  orElse (do reader; pure true) (pure false)

/-- Whether a reader can read what is ahead; nothing is taken. -/
def canRead {α : Type} (reader : Reader α) : Reader Bool :=
  ⟨fun state => match reader.run state with
    | .ok _ => .ok (true, state)
    | .error _ => .ok (false, state)⟩

/-- Repeats a step as long as it asks for more, at most `count` times. -/
def repeatIn (step : Reader Bool) : Nat → Reader Unit
  | 0 => stop .unexpected
  | count + 1 => do
    if ← step then repeatIn step count

/-- Repeats a step as long as it asks for more. Each step but the last takes a character, so that
the text ahead bounds their number. -/
def repeatWhile (step : Reader Bool) : Reader Unit := do
  repeatIn step ((← ahead).length + 2)

end Reader

end KeyLens.Program
