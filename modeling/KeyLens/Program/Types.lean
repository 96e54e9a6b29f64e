import KeyLens.Program.Goal

/-!
# Reading types

Types hold no translation keys, but their texts have to be passed over exactly: names with
arguments, unions, functions, objects, tuples, conditionals and operators on types.
-/

namespace KeyLens.Program.Types

open Reader

/-- The property name of a member: a name, a quoted text, a number or an expression in brackets,
which stands in the given place. -/
def propertyName (read : Readers) (place : Place) : Reader Unit := do
  match ← next with
  | .word _ => anyWord
  | .quoted => quoted
  | .number => number
  | .mark "[" =>
    mark "["
    let _ ← read (.assignment place)
    mark "]"
  | _ => stop .unexpected

/-- The name of a member that may be private. -/
def memberName (read : Readers) (place : Place) : Reader Unit := do
  if (← next) = .privateName then privateName else propertyName read place

/-- Whether a lexeme shows that the word before it on the same line modifies it. -/
def followsModifier : Token → Bool
  | .word _ => true
  | .quoted => true
  | .number => true
  | .privateName => true
  | .mark text => ["[", "\x7b", "*", "..."].contains text
  | _ => false

/-- Takes one of the given words if it modifies what follows it, and tells whether it did. -/
def modifier (words : List String) : Reader Bool := do
  match ← next with
  | .word text =>
    if words.contains text && followsModifier (← second) && !(← secondOnNewLine) then
      anyWord
      pure true
    else pure false
  | _ => pure false

/-- A type after a colon. -/
def annotation (read : Readers) : Reader Unit := do
  mark ":"
  let _ ← read .type

/-- A type after a colon, if one follows. -/
def optionalAnnotation (read : Readers) : Reader Unit := do
  if ← isMark ":" then annotation read

/-- The type parameters ahead, if there are any, which are visited in the given turn. -/
def optionalParameters (read : Readers) (turn : Nat) : Reader Unit := do
  if ← isMark "<" then
    part (.delayed turn) do
      let _ ← read .typeParameters

/-- The type of a result behind a mark, which is visited in the given turn. -/
def result (read : Readers) (text : String) (turn : Nat) : Reader Unit :=
  part (.delayed turn) do
    mark text
    let _ ← read .returnType

/-- The parameters and the result of a signature, whose type parameters are visited last. -/
def signature (read : Readers) : Reader Unit := do
  optionalParameters read 1
  let _ ← read (.parameters .signature)
  if ← isMark ":" then result read ":" 0

/-- A function type with its arrow. Its parameters are visited before its type parameters. -/
def functionType (read : Readers) : Reader Unit :=
  part .plain do
    optionalParameters read 1
    let _ ← read (.parameters .signature)
    result read "=>" 2

/-- Whether the parenthesis ahead starts the parameters of a function type and no type in
parentheses: it is closed at once, or what it binds shows it. -/
def startsParameters (read : Readers) : Reader Bool :=
  canRead do
    mark "("
    if !((← isMark ")") || (← isMark "...")) then
      let _ ← modifier ["public", "protected", "private", "readonly"]
      let _ ← read .binding
      if ← optionalMark ")" then mark "=>"
      else if !((← isMark ":") || (← isMark ",") || (← isMark "?") || (← isMark "=")) then
        stop .unexpected

/-- A name with the members after its dots. That none follows the last dot is forgiven. -/
def entityName : Reader Unit := do
  anyWord
  repeatWhile do
    if (← optionalMark ".") && (← isAnyWord) then
      anyWord
      pure true
    else pure false

/-- The type arguments ahead on the same line, if there are any, which are visited in the given
turn. -/
def optionalArguments (read : Readers) (turn : Nat) : Reader Unit := do
  if (← upcoming).head? = some '<' && !(← onNewLine) then
    part (.delayed turn) do
      let _ ← read .typeArguments

/-- Items in angle brackets, with commas between them and possibly one after the last of them. -/
def angled (item : Reader Unit) : Reader Unit := do
  angle '<'
  repeatWhile do
    if (← upcoming).head? = some '>' then pure false
    else
      item
      optionalMark ","
  angle '>'

/-- The type arguments in angle brackets. -/
def arguments (read : Readers) : Reader Unit :=
  angled do
    let _ ← read .type

/-- The words that are taken for modifiers of a type parameter. -/
def parameterModifiers : List String := [
  "const", "in", "out", "public", "private", "protected", "readonly", "abstract", "override"]

/-- The type parameters in angle brackets, with their bounds and defaults. -/
def parameters (read : Readers) : Reader Unit :=
  angled do
    repeatWhile (modifier parameterModifiers)
    anyWord
    if ← optionalWord "extends" then
      let _ ← read .type
    if ← optionalMark "=" then
      let _ ← read .type

/-- The names of the types on which a class or an object type is built, up to its members. -/
def heritage (read : Readers) : Reader Unit :=
  repeatWhile do
    if (← isMark "\x7b") || (← isWord "extends") || (← isWord "implements") then pure false
    else
      entityName
      optionalArguments read 0
      optionalMark ","

/-- Takes a sign before `readonly` or before a question mark, if there is one, and tells whether
there was. -/
def optionalSign : Reader Bool := do
  if ← optionalMark "+" then pure true else optionalMark "-"

/-- A mapped type in braces: a name in brackets that runs through a type, and the type of the
members. -/
def mapped (read : Readers) : Reader Unit := do
  mark "\x7b"
  let _ ← optionalSign
  let _ ← optionalWord "readonly"
  mark "["
  anyWord
  word "in"
  let _ ← read .type
  if ← optionalWord "as" then
    let _ ← read .type
  mark "]"
  let _ ← optionalSign
  let _ ← optionalMark "?"
  optionalAnnotation read
  let _ ← optionalMark ";"
  mark "\x7d"

/-- Whether a mapped type starts here. -/
def startsMapped : Reader Bool :=
  canRead do
    mark "\x7b"
    if ← optionalSign then word "readonly"
    else
      let _ ← optionalWord "readonly"
      mark "["
      reference
      word "in"

/-- Whether an index signature starts here: a name with its type in brackets. -/
def startsIndexSignature : Reader Bool :=
  canRead do
    mark "["
    reference
    mark ":"

/-- An index signature from its bracket on. -/
def indexSignature (read : Readers) : Reader Unit := do
  mark "["
  reference
  annotation read
  mark "]"
  optionalAnnotation read

/-- A member of an object type. -/
def member (read : Readers) : Reader Unit := do
  if (← isMark "(") || (← isMark "<") then signature read
  else if (← isWord "new") && ((← second) == .mark "(" || (← second) == .mark "<") then
    word "new"
    signature read
  else
    let _ ← modifier ["readonly"]
    if ← startsIndexSignature then indexSignature read
    else
      let _ ← attempt do
        if !(← optionalWord "get") then word "set"
        if (← isMark "?") || (← isMark "(") || (← isMark "<") || (← isMark ":") then
          stop .unexpected
        if (← isMark ",") || (← canEnd) then stop .unexpected
      memberName read .loopHead
      let _ ← optionalMark "?"
      if (← isMark "(") || (← isMark "<") then signature read
      else optionalAnnotation read

/-- The members of an object type in braces. -/
def members (read : Readers) : Reader Unit := do
  mark "\x7b"
  repeatWhile do
    if ← isMark "\x7d" then pure false
    else
      part .plain (member read)
      if ← optionalMark "," then pure true
      else
        semicolon
        pure true
  mark "\x7d"

/-- An element of a tuple: possibly named, optional or the rest. Behind an optional type, which
`mayBeMissing` tells, all others are optional or, without a name, the rest; tells whether an
optional type has been read. -/
def tupleElement (read : Readers) (mayBeMissing : Bool) : Reader Bool := do
  let isRest ← optionalMark "..."
  let isNamed ← canRead (do anyWord; let _ ← optionalMark "?"; mark ":")
  if isNamed then
    anyWord
    let _ ← optionalMark "?"
    mark ":"
  let _ ← read .type
  let isOptional ← if isRest then pure false else optionalMark "?"
  if mayBeMissing && !isOptional && (isNamed || !isRest) then stop .unexpected
  pure (mayBeMissing || isOptional)

/-- The elements of a tuple, at most `count`. -/
def tupleElements (read : Readers) (mayBeMissing : Bool) : Nat → Reader Unit
  | 0 => stop .unexpected
  | count + 1 => do
    if !(← isMark "]") then
      let mayBeMissing ← tupleElement read mayBeMissing
      if ← optionalMark "," then tupleElements read mayBeMissing count

/-- A template type: a template whose substitutions are types. -/
def template (read : Readers) : Reader Unit := do
  blanks
  take 1
  repeatWhile do
    match templateTail (← ahead) with
    | none => stop .unexpected
    | some count =>
      take count
      if (← ahead).head? = some '\x60' then
        take 1
        pure false
      else
        take 2
        let _ ← read .type
        mark "\x7d"
        pure true

/-- The words for types that have no arguments. -/
def builtInTypes : List String := [
  "any", "bigint", "boolean", "intrinsic", "never", "number", "object", "string", "symbol",
  "undefined", "unknown"]

/-- Whether a word can be the name of a type. -/
def isTypeName (word : String) : Bool :=
  (isName word && word != "let") || word == "await" || word == "break"

/-- A type that a word starts. -/
def named (read : Readers) (text : String) : Reader Unit := do
  match text with
  | "typeof" =>
    word "typeof"
    if ← isWord "import" then part .plain importType
    else
      entityName
      optionalArguments read 0
  | "import" => part .plain importType
  | "void" => word "void"
  | "null" => word "null"
  | "this" => self
  | "true" => word "true"
  | "false" => word "false"
  | "asserts" =>
    if (← second) == .word "this" then
      word "asserts"
      self
    else referred
  | _ =>
    if builtInTypes.contains text && (← second) != .mark "." then anyWord
    else if isTypeName text then referred
    else stop .unexpected
where
  /-- A type that has a name. -/
  referred : Reader Unit := do
    entityName
    optionalArguments read 0
  /-- The type of the receiver, or what it tells about the receiver. -/
  self : Reader Unit := do
    word "this"
    if (← isWord "is") && !(← onNewLine) then
      word "is"
      let _ ← read .type
  /-- A type that another module exports. What tells how the module is imported is visited last. -/
  importType : Reader Unit := do
    word "import"
    mark "("
    if (← next) == .quoted then quoted else anyToken
    if ← optionalMark "," then
      part (.delayed 1) do
        let _ ← read (.assignment .free)
    mark ")"
    repeatWhile do
      if ← optionalMark "." then
        anyWord
        pure true
      else pure false
    optionalArguments read 0

/-- A type without operators around it. -/
def primary (read : Readers) : Reader Unit := do
  match ← next with
  | .word text => named read text
  | .quoted => quoted
  | .number => number
  | .template => template read
  | .mark "-" =>
    mark "-"
    number
  | .mark "\x7b" =>
    if ← startsMapped then mapped read else let _ ← read .typeMembers
  | .mark "[" =>
    mark "["
    tupleElements read false ((← ahead).length + 1)
    mark "]"
  | .mark "(" =>
    mark "("
    let _ ← read .type
    mark ")"
  | _ => stop .unexpected

/-- A type with lists of it and types looked up in it. -/
def postfixed (read : Readers) : Reader Unit := do
  primary read
  repeatWhile do
    if (← isMark "[") && !(← onNewLine) then
      mark "["
      if !(← isMark "]") then
        let _ ← read .type
      mark "]"
      pure true
    else pure false

/-- The words that are operators on a type. -/
def operators : List String := ["keyof", "unique", "readonly"]

/-- A type that is left open, with its bound if it has one. Before a question mark the word
`extends` starts a condition and no bound, unless no condition can start there. -/
def inferred (read : Readers) (isBound : Bool) : Reader Unit := do
  word "infer"
  anyWord
  let _ ← attempt do
    word "extends"
    let _ ← read (.unconditionalType isBound)
    if !isBound && (← isMark "?") then stop .unexpected

/-- A type with operators before it. -/
def operated (read : Readers) (isBound : Bool) : Reader Unit := do
  repeatWhile do
    match ← next with
    | .word text =>
      if operators.contains text then
        anyWord
        pure true
      else pure false
    | _ => pure false
  if ← isWord "infer" then inferred read isBound else postfixed read

/-- Types with a mark between them, and possibly one before the first. -/
def row (text : String) (item : Reader Unit) : Reader Unit := do
  let _ ← optionalMark text
  repeatWhile do
    item
    optionalMark text

/-- A type without a condition. -/
def unconditional (read : Readers) (isBound : Bool) : Reader Unit := do
  if (← isMark "<") || (← startsParameters read) then functionType read
  else if (← isWord "new") || ((← isWord "abstract") && (← second) == .word "new") then
    let _ ← optionalWord "abstract"
    word "new"
    functionType read
  else row "|" (row "&" (operated read isBound))

/-- A type, possibly with a condition: what it extends, and the types in either case. -/
def type (read : Readers) : Reader Unit := do
  let _ ← read (.unconditionalType false)
  if (← isWord "extends") && !(← onNewLine) then
    word "extends"
    let _ ← read (.unconditionalType true)
    mark "?"
    let _ ← read .type
    mark ":"
    let _ ← read .type

/-- The type that a function returns: a type, or what it tells about a parameter. -/
def returnType (read : Readers) : Reader Unit := do
  let asserted := match ← second with
    | .word text => isReference text
    | _ => false
  if (← isWord "asserts") && asserted && !(← secondOnNewLine) then
    word "asserts"
    reference
    if ← optionalWord "is" then
      let _ ← read .type
  else if (← isWordThat isReference) && (← second) == .word "is" && !(← secondOnNewLine) then
    reference
    word "is"
    let _ ← read .type
  else
    let _ ← read .type

end KeyLens.Program.Types
