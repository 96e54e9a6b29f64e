/-!
# Glob patterns

A pattern describes texts with wildcards: a question mark is any character, a star any run of
characters, brackets a choice of characters, and two stars between slashes any number of
directories. A slash is a character like all others, so that a single star runs across it too.
-/

namespace KeyLens.Glob

/-- A part of what stands between brackets. -/
inductive Choice where
  /-- One character. -/
  | single (c : Char)
  /-- All characters from the first to the last one. -/
  | range (first last : Char)
  deriving Repr, DecidableEq

/-- Whether a character is among those of a choice. -/
def Choice.admits (choice : Choice) (c : Char) : Bool :=
  match choice with
  | .single d => c == d
  | .range first last => decide (first ≤ c ∧ c ≤ last)

/-- The choices between brackets, read from the left. -/
def Choice.ofChars : List Char → List Choice
  | first :: '-' :: last :: rest => .range first last :: ofChars rest
  | c :: rest => .single c :: ofChars rest
  | [] => []

/-- A part of a pattern. -/
inductive Token where
  /-- A character that stands for itself. -/
  | char (c : Char)
  /-- Any character. -/
  | anyChar
  /-- Any run of characters. -/
  | sequence
  /-- Any number of directories. -/
  | directories
  /-- A character among the choices. -/
  | within (choices : List Choice)
  /-- A character outside the choices. -/
  | except (choices : List Choice)
  deriving Repr, DecidableEq

/-- The character that a part of a pattern stands for, if it is only one. -/
def Token.plain? : Token → Option Char
  | .char c => some c
  | _ => none

/-- What is wrong with a pattern. -/
inductive Mistake where
  /-- Three stars in a row. -/
  | stars
  /-- Two stars next to something else than a slash. -/
  | directories
  /-- Brackets that are empty or stay open. -/
  | choices
  deriving Repr, DecidableEq

/-- A mistake and the number of characters before it. -/
structure Fault where
  /-- Where the mistake is. -/
  position : Nat
  /-- What is wrong. -/
  mistake : Mistake
  deriving Repr, DecidableEq

/-- The words for a mistake. -/
def Mistake.message : Mistake → String
  | stars => "wildcards are either regular \x60*\x60 or recursive \x60**\x60"
  | directories => "recursive wildcards must form a single path component"
  | choices => "invalid range pattern"

/-- The words for a fault. -/
def Fault.message (fault : Fault) : String :=
  "Pattern syntax error near position " ++ toString fault.position ++ ": " ++ fault.mistake.message

/-- The rest of a text behind the next closing bracket, with the characters before it. -/
def closing? : List Char → Option (List Char × List Char)
  | [] => none
  | c :: rest =>
    if c = ']' then some ([], rest) else (closing? rest).map fun (xs, r) => (c :: xs, r)

/-- Less is left behind a closing bracket. -/
theorem length_of_closing? {text inner rest : List Char} (h : closing? text = some (inner, rest)) :
    rest.length < text.length := by
  induction text generalizing inner with
  | nil => simp [closing?] at h
  | cons c cs ih =>
    simp only [closing?] at h
    split at h
    · simp only [Option.some.injEq, Prod.mk.injEq] at h
      simp [h.2]
    · obtain ⟨⟨xs, r⟩, hx, he⟩ := Option.map_eq_some_iff.1 h
      simp only [Prod.mk.injEq] at he
      rw [he.2] at hx
      exact Nat.lt_succ_of_lt (ih hx)

/-- The parts of a pattern from `position` on; `before` is the character in front of it. -/
def tokens (position : Nat) (before : Option Char) : List Char → Except Fault (List Token)
  | [] => .ok []
  | '*' :: '*' :: '*' :: _ => .error ⟨position + 2, .stars⟩
  | '*' :: '*' :: rest =>
    if before.all (· == '/') then
      match rest with
      | [] => .ok [.directories]
      | '/' :: rest => (tokens (position + 3) (some '/') rest).map (.directories :: ·)
      | _ => .error ⟨position + 2, .directories⟩
    else .error ⟨position - 1, .directories⟩
  | '[' :: '!' :: c :: rest =>
    match h : closing? rest with
    | none => .error ⟨position, .choices⟩
    | some (inner, rest') =>
      have := length_of_closing? h
      (tokens (position + inner.length + 4) (some ']') rest').map
        (.except (Choice.ofChars (c :: inner)) :: ·)
  | '[' :: c :: rest =>
    if c = '!' then .error ⟨position, .choices⟩
    else match h : closing? rest with
      | none => .error ⟨position, .choices⟩
      | some (inner, rest') =>
        have := length_of_closing? h
        (tokens (position + inner.length + 3) (some ']') rest').map
          (.within (Choice.ofChars (c :: inner)) :: ·)
  | c :: rest =>
    if c = '[' then .error ⟨position, .choices⟩
    else
      let token := if c = '?' then .anyChar else if c = '*' then .sequence else .char c
      (tokens (position + 1) (some c) rest).map (token :: ·)
termination_by text => text.length

/-- A pattern without a mistake. -/
structure Pattern where
  /-- The parts of the pattern in order. -/
  tokens : List Token
  deriving Repr, DecidableEq

namespace Pattern

/-- The pattern that a text spells. -/
def parse (text : String) : Except Fault Pattern :=
  (Glob.tokens 0 none text.toList).map (⟨·⟩)

/-- Whether a text has characters that make it a pattern rather than a plain path. -/
def isWild (text : String) : Bool :=
  text.toList.any fun c => c == '*' || c == '?'

/-- All endings of a text, from the whole text to nothing. -/
def endings : List Char → List (List Char)
  | [] => [[]]
  | c :: rest => (c :: rest) :: endings rest

/-- The endings of a text at which a row of directories may end: behind each slash, and nothing. -/
def directoryEnds : List Char → List (List Char)
  | [] => [[]]
  | c :: rest => if c = '/' then rest :: directoryEnds rest else directoryEnds rest

/-- Whether parts of a pattern describe a whole text. -/
def describes : List Token → List Char → Bool
  | [], text => text.isEmpty
  | .sequence :: rest, text => (endings text).any (describes rest)
  | .directories :: rest, text => (text :: directoryEnds text).any (describes rest)
  | .char _ :: _, [] => false
  | .char d :: rest, c :: text => c == d && describes rest text
  | .anyChar :: _, [] => false
  | .anyChar :: rest, _ :: text => describes rest text
  | .within _ :: _, [] => false
  | .within choices :: rest, c :: text => choices.any (·.admits c) && describes rest text
  | .except _ :: _, [] => false
  | .except choices :: rest, c :: text => !choices.any (·.admits c) && describes rest text

/-- Whether a pattern describes a whole text. -/
def matches? (pattern : Pattern) (text : String) : Bool :=
  describes pattern.tokens text.toList

/-- The text that a pattern without wildcards stands for. -/
def plain? (pattern : Pattern) : Option String :=
  (pattern.tokens.mapM Token.plain?).map String.ofList

end Pattern

end KeyLens.Glob
