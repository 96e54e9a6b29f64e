import KeyLens.Program.Literal
import KeyLens.Program.Reader

/-!
# Goals

What can be asked of a reader of programs, and the readers of single lexemes from which the others
are made. A reader of one goal may need any other one, so all of them get the reader of goals as a
parameter.
-/

namespace KeyLens.Program

/-- What a file may hold besides plain script. -/
structure Language where
  /-- Types and the declarations that go with them. -/
  typed : Bool
  /-- Tags as expressions. -/
  tagged : Bool
  deriving Repr, DecidableEq

/-- Where an expression stands. -/
structure Place where
  /-- Whether the operator `in` belongs to the expression. -/
  allowsIn : Bool
  /-- Whether the colon of a conditional follows the expression. -/
  beforeColon : Bool
  deriving Repr, DecidableEq

namespace Place

/-- An expression that nothing around it restricts. -/
def free : Place := ⟨true, false⟩

/-- An expression at the start of a loop's head, or another one that the word `in` ends. -/
def loopHead : Place := ⟨false, false⟩

end Place

/-- What parameters belong to. -/
inductive Owner where
  /-- A function. -/
  | function
  /-- A constructor, whose parameters may be fields too. -/
  | constructor
  /-- A function that gets the value of an object's member. -/
  | getter
  /-- A function with an arrow. -/
  | arrow
  /-- A type, whose parameters have no defaults. -/
  | signature
  deriving Repr, DecidableEq

/-- What a reader can be asked for. -/
inductive Goal where
  /-- Expressions with commas between them. -/
  | expression (place : Place)
  /-- One expression without a comma at its top. -/
  | assignment (place : Place)
  /-- An operand with the operators before it. -/
  | unary
  /-- An operand with members, calls and the like. -/
  | chain
  /-- The operand of `new`. -/
  | constructed
  /-- A tag or a fragment. -/
  | element
  /-- What a declaration binds. -/
  | binding
  /-- Parameters in parentheses. -/
  | parameters (owner : Owner)
  /-- A function from its parameters on; `needsBody` tells whether a body has to follow. -/
  | functionTail (owner : Owner) (needsBody : Bool)
  /-- A class; `needsName` tells whether it has to be named. -/
  | classDeclaration (needsName : Bool)
  /-- An import, an export, a statement or a declaration. -/
  | item
  /-- Items in braces. -/
  | itemBlock
  /-- A statement or a declaration. -/
  | statement
  /-- A statement that another one holds without braces. -/
  | body
  /-- A statement in braces. -/
  | block
  /-- A type. -/
  | type
  /-- A type without a condition; `isBound` tells whether it is the one behind the word `extends` of
  a condition. -/
  | unconditionalType (isBound : Bool)
  /-- The type that a function returns. -/
  | returnType
  /-- The members of a type in braces. -/
  | typeMembers
  /-- The parameters of a type in angle brackets. -/
  | typeParameters
  /-- The arguments of a type in angle brackets. -/
  | typeArguments
  deriving Repr, DecidableEq

/-- What kind of expression was read, as far as the next operator depends on it. -/
inductive Shape where
  /-- A name or a member, to which a value can be assigned. -/
  | target
  /-- An object or a list, which a plain assignment takes apart. -/
  | composite
  /-- Expressions in parentheses, to which a value may be assigned too. -/
  | group
  /-- Operands with an operator, which no assignment may follow. -/
  | operation
  /-- Any other expression. -/
  | value
  deriving Repr, DecidableEq

/-- The reader of any goal. -/
abbrev Readers := Goal → Reader Shape

namespace Reader

/-- Takes the blanks and comments ahead. -/
def blanks : Reader Unit := do
  let text ← ahead
  take (text.length - (skipBlanks text).length)

/-- The text ahead behind blanks and comments, which are not taken. -/
def upcoming : Reader (List Char) := do
  pure (skipBlanks (← ahead))

/-- The next lexeme, which is not taken. -/
def next : Reader Token := do
  pure (tokenAt (← upcoming))

/-- The lexeme after the next one, where the next one is a name or a mark. -/
def second : Reader Token := do
  let text ← upcoming
  pure <| match tokenAt text with
    | .word name => tokenAt (skipBlanks (text.drop name.toList.length))
    | .mark mark => tokenAt (skipBlanks (text.drop mark.toList.length))
    | _ => .strange

/-- Reads; if the reader stops in front of a text for which `p` holds, what it has read is kept
undivided and gives no value. Blanks alone are not taken. -/
def forgiveBefore {α : Type} (p : List Char → Bool) (reader : Reader α) : Reader (Option α) :=
  ⟨fun state => match reader.run state with
    | .ok (a, state) => .ok (some a, state)
    | .error failure =>
      let count := state.rest.length - failure.left
      let isBlank := (skipBlanks state.rest).length ≤ failure.left
      if p (state.rest.drop count) then
        .ok (none, if isBlank then state else state.advance count)
      else .error failure⟩

/-- Reads; what a reader has read before it stops is kept undivided and gives no value. -/
def forgive {α : Type} (reader : Reader α) : Reader (Option α) :=
  forgiveBefore (fun _ => true) reader

/-- Whether a line ends before the next lexeme. -/
def onNewLine : Reader Bool := do
  pure (endsLine (← ahead))

/-- Whether a line ends between the next lexeme, which is a name, and the one after it. -/
def secondOnNewLine : Reader Bool := do
  let text ← upcoming
  pure (endsLine (text.drop (nameLength text)))

/-- Whether a mark comes next. -/
def isMark (mark : String) : Reader Bool := do
  pure ((← next) == .mark mark)

/-- Whether a word comes next. -/
def isWord (word : String) : Reader Bool := do
  pure ((← next) == .word word)

/-- Whether any name or word comes next. -/
def isAnyWord : Reader Bool := do
  match ← next with
  | .word _ => pure true
  | _ => pure false

/-- Takes a mark. -/
def mark (mark : String) : Reader Unit := do
  if ← isMark mark then
    blanks
    take mark.toList.length
  else stop .unexpected

/-- Takes a word. -/
def word (word : String) : Reader Unit := do
  if ← isWord word then
    blanks
    take word.toList.length
  else stop .unexpected

/-- Takes any name or word. -/
def anyWord : Reader Unit := do
  match ← next with
  | .word name =>
    blanks
    take name.toList.length
  | _ => stop .unexpected

/-- Takes a mark if it comes next, and tells whether it did. -/
def optionalMark (text : String) : Reader Bool := do
  if ← isMark text then
    mark text
    pure true
  else pure false

/-- Takes a word if it comes next, and tells whether it did. -/
def optionalWord (text : String) : Reader Bool := do
  if ← isWord text then
    word text
    pure true
  else pure false

/-- Takes a bracket that opens or closes type arguments, even where it starts a longer mark. -/
def angle (c : Char) : Reader Unit := do
  if (← upcoming).head? = some c then
    blanks
    take 1
  else stop .unexpected

/-- The words that cannot be names. -/
def reservedWords : List String := [
  "await", "break", "case", "catch", "class", "const", "continue", "debugger", "default", "delete",
  "do", "else", "export", "extends", "false", "finally", "for", "function", "if", "import", "in",
  "instanceof", "new", "null", "return", "super", "switch", "this", "throw", "true", "try",
  "typeof", "var", "void", "while", "with"]

/-- The words that are forgiven where a name is given, but cannot refer to what has the name. -/
def strictWords : List String := [
  "enum", "implements", "interface", "let", "package", "private", "protected", "public", "static",
  "yield"]

/-- Whether a word can be given as a name. -/
def isName (word : String) : Bool :=
  !reservedWords.contains word

/-- Whether a word can refer to what has it as a name. -/
def isReference (word : String) : Bool :=
  isName word && !strictWords.contains word

/-- Whether a word can be a name in an expression. -/
def isOperandName (word : String) : Bool :=
  isReference word || word == "let"

/-- Takes a word that `p` allows. -/
def wordThat (p : String → Bool) : Reader Unit := do
  match ← next with
  | .word word => if p word then anyWord else stop .unexpected
  | _ => stop .unexpected

/-- Takes a name that is given. -/
def name : Reader Unit := wordThat isName

/-- Takes a name that refers to something, or that is given where nothing else may stand. -/
def reference : Reader Unit := wordThat isReference

/-- Takes the name that a declaration gives, which in a typed language may be the word `this`. -/
def declaredName (language : Language) : Reader Unit :=
  wordThat fun word => isName word || (language.typed && word == "this")

/-- Whether a word that `p` allows comes next. -/
def isWordThat (p : String → Bool) : Reader Bool := do
  match ← next with
  | .word word => pure (p word)
  | _ => pure false

/-- Takes a lexeme that is measured by `length?`. -/
def measured (length? : List Char → Option Nat) : Reader Unit := do
  match length? (← upcoming) with
  | some length =>
    blanks
    take length
  | none => stop .unexpected

/-- Takes a quoted text. -/
def quoted : Reader Unit := measured literalLength?

/-- Takes a number. -/
def number : Reader Unit := measured numberLength?

/-- Takes a private name. -/
def privateName : Reader Unit := do
  if (← next) = .privateName then
    blanks
    take 1
    anyWord
  else stop .unexpected

/-- Takes the next lexeme, whatever it is. -/
def anyToken : Reader Unit := do
  match ← next with
  | .word _ => anyWord
  | .mark text => mark text
  | .quoted => quoted
  | .number => number
  | .privateName => privateName
  | .template =>
    blanks
    take 1
  | .finished => stop .unexpected
  | .strange => stop .unexpected

/-- Ends a statement: by a semicolon, before a closing brace, at the end of the text or where a new
line starts. -/
def semicolon : Reader Unit := do
  if ← optionalMark ";" then pure ()
  else if (← isMark "\x7d") || (← next) == .finished || (← onNewLine) then pure ()
  else stop .unexpected

/-- Whether a statement may end here. -/
def canEnd : Reader Bool := do
  pure ((← isMark ";") || (← isMark "\x7d") || (← next) == .finished || (← onNewLine))

/-- Whether a block ends here: at its closing brace or, which is forgiven, at the end of the
text. -/
def endsBlock : Reader Bool := do
  pure ((← isMark "\x7d") || (← next) == .finished)

/-- Takes the brace that closes a block, unless it is missing at the end of the text. -/
def blockEnd : Reader Unit := do
  if (← next) != .finished then mark "\x7d"

/-- Reads what `reader` reads as a tree of its own, after the blanks before it. -/
def part {α : Type} (role : Role) (reader : Reader α) : Reader α := do
  blanks
  enclose role reader

/-- Reads items up to the mark `close`, which is taken, with commas between them and possibly one
after the last of them. -/
def commaList (close : String) (item : Reader Unit) : Reader Unit := do
  repeatWhile do
    if ← isMark close then pure false
    else
      item
      optionalMark ","
  mark close

end Reader

end KeyLens.Program
