import KeyLens.Program.Functions

/-!
# Reading expressions

Operands, their members and calls, operators, conditionals, assignments and arrow functions. A
call becomes a tree of its own whose first part is the callee and whose arguments are marked.
-/

namespace KeyLens.Program.Expressions

open Reader

/-- Arguments in parentheses that belong to no call of interest. -/
def arguments (read : Readers) : Reader Unit := do
  mark "("
  commaList ")" do
    let _ ← optionalMark "..."
    let _ ← read (.assignment .free)

/-- The arguments of a call, whose callee is the first tree of the scope. -/
def callArguments (read : Readers) : Reader Unit := do
  mark "("
  repeatWhile do
    if ← isMark ")" then pure false
    else
      let _ ← optionalMark "..."
      part .argument do
        let _ ← read (.assignment .free)
      optionalMark ","
  blanks
  closeCall

/-- The type arguments of a call, which are visited behind its arguments. -/
def callTypeArguments (read : Readers) : Reader Unit :=
  part (.delayed 1) do
    let _ ← read .typeArguments

/-- A template with the expressions that it holds. Behind a tag its escapes may be malformed. -/
def template (read : Readers) (isTagged : Bool) : Reader Unit := do
  blanks
  take 1
  repeatWhile do
    match templateTail (← ahead) with
    | none => stop .unexpected
    | some count =>
      if !isTagged && !hasGoodEscapes true ((← ahead).take count) then stop .unexpected
      take count
      if (← ahead).head? = some '\x60' then
        take 1
        pure false
      else
        take 2
        let _ ← read (.expression .free)
        mark "\x7d"
        pure true

/-- An item of a list; it may be left out. -/
def listItem (read : Readers) : Reader Unit := do
  if ← isMark "," then pure ()
  else
    let _ ← optionalMark "..."
    let _ ← read (.assignment .free)

/-- An expression that `new` starts. -/
def construction (language : Language) (read : Readers) : Reader Unit :=
  part .plain do
    word "new"
    if ← optionalMark "." then word "target"
    else
      part .plain do
        let _ ← read .constructed
      if language.typed && (← upcoming).head? = some '<' then
        let _ ← attempt do
          callTypeArguments read
          if !(← isMark "(") then stop .unexpected
      if ← isMark "(" then arguments read
      else if ← isMark "?." then stop .unexpected

/-- An operand that a word starts. -/
def wordOperand (language : Language) (read : Readers) (text : String) : Reader Shape := do
  match text with
  | "function" =>
    Functions.function language read false true
    pure .value
  | "class" => read (.classDeclaration false)
  | "new" =>
    construction language read
    pure .value
  | "this" | "null" | "true" | "false" =>
    anyWord
    pure .value
  | "super" =>
    word "super"
    if ← isMark "(" then arguments read
    else if !((← isMark ".") || (← isMark "[")) then stop .unexpected
    pure .value
  | "import" =>
    word "import"
    if ← optionalMark "." then
      if !(← optionalWord "meta") then
        if !(← optionalWord "source") then word "defer"
        arguments read
    else arguments read
    pure .value
  | _ =>
    if text == "async" && (← second) == .word "function" && !(← secondOnNewLine) then
      word "async"
      Functions.function language read false true
      pure .value
    else if isOperandName text then
      anyWord
      pure .target
    else stop .noExpression

/-- A pattern between slashes. One that its line ends is passed over before the reader stops. -/
def pattern : Reader Unit := do
  let text ← upcoming
  if (patternLength? text).isSome then measured patternLength?
  else
    blanks
    take (text.takeWhile fun c => !isLineEnd c).length
    stop .unexpected

/-- An operand without members and calls. -/
def operand (language : Language) (read : Readers) : Reader Shape := do
  match ← next with
  | .word text => wordOperand language read text
  | .quoted =>
    quoted
    pure .value
  | .number =>
    number
    pure .value
  | .template =>
    template read false
    pure .value
  | .mark "(" =>
    mark "("
    if ← optionalMark ")" then stop .unexpected
    repeatWhile do
      let _ ← read (.assignment .free)
      if ← optionalMark "," then pure !(← isMark ")") else pure false
    mark ")"
    pure .group
  | .privateName =>
    privateName
    pure .value
  | .mark "[" =>
    mark "["
    commaList "]" (listItem read)
    pure .composite
  | .mark "\x7b" =>
    mark "\x7b"
    commaList "\x7d" (Functions.objectMember language read)
    pure .composite
  | .mark "/" | .mark "/=" =>
    pattern
    pure .value
  | _ => stop .noExpression

/-- A member in brackets. -/
def indexed (read : Readers) : Reader Unit := do
  mark "["
  let _ ← read (.expression .free)
  mark "]"

/-- A member name after a dot. -/
def memberName : Reader Unit := do
  if (← next) = .privateName then privateName else anyWord

/-- The operators between two operands. -/
def binaryMarks : List String := [
  "||", "&&", "??", "|", "^", "&", "==", "!=", "===", "!==", "<", ">", "<=", ">=", "<<", ">>",
  ">>>", "+", "-", "*", "/", "%", "**"]

/-- Whether an expression may start with a lexeme. -/
def startsExpression : Token → Bool
  | .word text => isName text ||
    ["function", "class", "new", "this", "null", "true", "false", "super", "import", "typeof",
      "void", "delete", "await"].contains text
  | .mark text => ["(", "[", "\x7b", "<", "+", "-", "!", "~", "++", "--", "/", "/="].contains text
  | .finished => false
  | .strange => false
  | _ => true

/-- Type arguments in an expression. They are type arguments if what follows them can follow a
whole expression, a call's arguments or a template. -/
def expressionTypeArguments (read : Readers) : Reader Unit := do
  let _ ← read .typeArguments
  match ← next with
  | .template => pure ()
  | .mark "(" => pure ()
  | token =>
    let ambiguous := token == .mark "<" || token == .mark ">" || token == .mark "+" ||
      token == .mark "-"
    let binary := match token with
      | .mark text => binaryMarks.contains text
      | .word text => text == "in" || text == "instanceof" || text == "as" || text == "satisfies"
      | _ => false
    if ambiguous || !((← onNewLine) || binary || !startsExpression token) then stop .unexpected

/-- What follows an operand after the mark of an optional chain. -/
def optionalMember (language : Language) (read : Readers) : Reader Shape := do
  let follower ← second
  if follower == .mark "(" then
    wrap .plain
    mark "?."
    callArguments read
  else if language.typed && follower == .mark "<" then
    wrap .plain
    mark "?."
    callTypeArguments read
    callArguments read
  else
    mark "?."
    if ← isMark "[" then indexed read else memberName
  pure .target

/-- A member, a call or the like behind an operand of the given kind; none if nothing of the kind
follows. -/
def suffix? (language : Language) (read : Readers) (calls : Bool) (shape : Shape) :
    Reader (Option Shape) := do
  match ← next with
  | .mark "." =>
    mark "."
    memberName
    pure (some .target)
  | .mark "[" =>
    indexed read
    pure (some .target)
  | .mark "?." => if calls then pure (some (← optionalMember language read)) else pure none
  | .mark "(" =>
    if calls then
      wrap .plain
      callArguments read
      pure (some .value)
    else pure none
  | .template =>
    template read true
    pure (some .value)
  | .mark "!" =>
    if language.typed && !(← onNewLine) then
      mark "!"
      pure (some shape)
    else pure none
  | .mark text =>
    if language.typed && calls && (text == "<" || text == "<<") &&
        (← canRead (expressionTypeArguments read)) then
      wrap .plain
      callTypeArguments read
      if ← isMark "(" then
        callArguments read
        pure (some .value)
      else if text == "<<" then stop .unexpected
      else
        wrap .plain
        pure (some .target)
    else pure none
  | _ => pure none

/-- Everything that follows an operand, at most `count` pieces. -/
def suffixes (language : Language) (read : Readers) (calls : Bool) (shape : Shape) :
    Nat → Reader Shape
  | 0 => stop .unexpected
  | count + 1 => do
    match ← suffix? language read calls shape with
    | some shape => suffixes language read calls shape count
    | none => pure shape

/-- An operand with its members, and with its calls if `calls` says so, as a tree of its own. -/
def chain (language : Language) (read : Readers) (calls : Bool) : Reader Shape :=
  part .plain do
    let shape ← operand language read
    suffixes language read calls shape ((← ahead).length + 1)

/-- An operand behind an operator. Parentheses there do not hold the parameters of an arrow
function. -/
def rightOperand (read : Readers) : Reader Unit := do
  let shape ← read .unary
  if shape = .group && (← isMark "=>") then stop .unexpected

/-- The words that are operators before an operand. -/
def prefixWords : List String := ["typeof", "void", "delete"]

/-- A value that is waited for. That nothing follows the word is forgiven where nothing can. -/
def awaited (read : Readers) : Reader Unit := do
  word "await"
  match ← next with
  | .mark ")" | .mark "]" | .mark "\x7d" | .mark ";" | .mark "," | .finished => pure ()
  | _ =>
    rightOperand read
    if ← isMark "**" then stop .unexpected

/-- An operand with the operators before or behind it. An operand that cannot be read is forgiven
behind an operator. -/
def unary (language : Language) (read : Readers) : Reader Shape := do
  let token ← next
  let sign := token == .mark "!" || token == .mark "~" || token == .mark "+" || token == .mark "-"
  let named := match token with
    | .word text => prefixWords.contains text
    | _ => false
  if sign || named then
    blanks
    match token with
    | .mark text => mark text
    | _ => anyWord
    let operand ← forgive (rightOperand read)
    if operand.isSome && (← isMark "**") then stop .unexpected
    pure .operation
  else if token == .word "await" then
    awaited read
    pure .value
  else if token == .mark "++" || token == .mark "--" then
    blanks
    take 2
    let _ ← read .unary
    pure .operation
  else if token == .mark "<" && language.typed && !language.tagged then
    part .plain do
      part (.delayed 1) do
        angle '<'
        if !(← optionalWord "const") then
          let _ ← read .type
        angle '>'
      read .unary
  else if token == .mark "<" && language.tagged then read .element
  else
    let shape ← read .chain
    if ((← isMark "++") || (← isMark "--")) && !(← onNewLine) then
      blanks
      take 2
      pure .operation
    else pure shape

/-- The operators that follow an operand and the operands after them, at most `count`. -/
def operators (language : Language) (read : Readers) (place : Place) (shape : Shape) :
    Nat → Reader Shape
  | 0 => stop .unexpected
  | count + 1 => do
    match ← next with
    | .mark text =>
      if binaryMarks.contains text then
        mark text
        rightOperand read
        operators language read place .operation count
      else pure shape
    | .word text =>
      if text == "instanceof" || (text == "in" && place.allowsIn) then
        word text
        rightOperand read
        operators language read place .operation count
      else if language.typed && (text == "as" || text == "satisfies") && !(← onNewLine) then
        word text
        let isConstant ← if text == "as" then optionalWord "const" else pure false
        if !isConstant then
          let _ ← read .type
        let shape := if isConstant then .value
          else if text == "satisfies" && shape = .operation then .operation
          else .target
        operators language read place shape count
      else pure shape
    | _ => pure shape

/-- Whether an operator between two operands comes next. -/
def isBinary : Reader Bool := do
  match ← next with
  | .mark text => pure (binaryMarks.contains text)
  | _ => pure false

/-- Whether a text starts with an operator between two operands. -/
def startsOperator (place : Place) (text : List Char) : Bool :=
  match tokenAt (skipBlanks text) with
  | .mark text => binaryMarks.contains text
  | .word text => text == "instanceof" || (text == "in" && place.allowsIn)
  | _ => false

/-- Operands with operators between them. A first operand that cannot be read up to the operator
behind it is forgiven. -/
def operation (language : Language) (read : Readers) (place : Place) : Reader Shape := do
  let isTag := language.tagged && (← isMark "<")
  let shape ← if isTag then some <$> read .unary
    else forgiveBefore (startsOperator place) (read .unary)
  operators language read place (shape.getD .value) ((← ahead).length + 1)

/-- A conditional, or an operation alone. -/
def conditional (language : Language) (read : Readers) (place : Place) : Reader Shape := do
  let shape ← operation language read place
  if ← optionalMark "?" then
    let _ ← read (.assignment ⟨true, true⟩)
    mark ":"
    let _ ← read (.assignment place)
    pure .value
  else pure shape

/-- The arrow of a function, which stands on the line of the parameters' end. -/
def arrow : Reader Unit := do
  if ← onNewLine then stop .unexpected
  mark "=>"

/-- Takes the word before an asynchronous function, if it is one, and tells whether it did. -/
def optionalAsync : Reader Bool := do
  if (← isWord "async") && (← second) != .mark "=>" && !(← secondOnNewLine) then
    word "async"
    pure true
  else pure false

/-- The head of an arrow function whose only parameter is a name. If the function is asynchronous,
its arrow may stand on a new line. -/
def nameHead : Reader Unit := do
  let isAsync ← optionalAsync
  reference
  if isAsync then mark "=>" else arrow

/-- The head of an arrow function with its parameters in parentheses. A type of its result may
follow them if `withType` says so. -/
def listHead (language : Language) (read : Readers) (withType : Bool) : Reader Unit := do
  let isAsync ← optionalAsync
  let isGeneric ← isMark "<"
  if language.typed then
    if language.tagged && isGeneric && !isAsync then
      if !(← canRead (do
          angle '<'
          let _ ← attempt (do word "const"; if !(← isWordThat isName) then stop .unexpected)
          name
          if !((← isMark ",") || (← isMark "=") || (← isWord "extends")) then
            stop .unexpected)) then
        stop .unexpected
    Types.optionalParameters read 1
  let _ ← read (.parameters (if isAsync && isGeneric then .function else .arrow))
  if withType then
    if ← isMark ":" then Types.result read ":" 2
  arrow

/-- The body of an arrow function: a block or an expression. -/
def arrowBody (read : Readers) (place : Place) : Reader Unit := do
  if ← isMark "\x7b" then
    let _ ← read .block
  else
    let _ ← read (.assignment place)

/-- Reads an arrow function if one starts here, and tells whether it did. Before the colon of a
conditional, the type of a result counts only if a colon follows the whole function. -/
def attemptArrow (language : Language) (read : Readers) (place : Place) : Reader Bool :=
  encloseIf .plain do
    if ← attempt nameHead then
      arrowBody read place
      pure true
    else if ← attempt (listHead language read (language.typed && !place.beforeColon)) then
      arrowBody read place
      pure true
    else if language.typed && place.beforeColon then
      attempt do
        listHead language read true
        arrowBody read place
        if !(← isMark ":") then stop .unexpected
    else pure false

/-- Whether an arrow function may start with a lexeme. -/
def mayStartArrow (language : Language) : Token → Bool
  | .word text => isReference text
  | .mark text => text == "(" || (text == "<" && language.typed)
  | _ => false

/-- The marks that assign a value to what stands before them and to nothing else. -/
def compoundMarks : List String := [
  "+=", "-=", "*=", "/=", "%=", "**=", "<<=", ">>=", ">>>=", "&=", "|=", "^=", "&&=", "||=",
  "??="]

/-- A value that a generator yields. -/
def yielded (read : Readers) (place : Place) : Reader Unit := do
  word "yield"
  if ← onNewLine then pure ()
  else if ← optionalMark "*" then
    let _ ← read (.assignment place)
  else if startsExpression (← next) then
    let _ ← read (.assignment place)

/-- One expression without a comma at its top. That expressions in parentheses stand for the
parameters of an arrow function is forgiven. -/
def assignment (language : Language) (read : Readers) (place : Place) : Reader Shape := do
  let token ← next
  if token == .word "yield" && (← second) != .mark "=>" && (← second) != .mark "=" then
    yielded read place
    pure .value
  else if mayStartArrow language token && (← attemptArrow language read place) then pure .value
  else
    let shape ← conditional language read place
    match ← next with
    | .mark "=" =>
      if shape = .operation then pure shape
      else
        if shape = .value then stop .unexpected
        mark "="
        let _ ← read (.assignment place)
        pure .value
    | .mark "=>" =>
      if shape = .group then
        arrow
        arrowBody read place
        pure .value
      else pure shape
    | .mark text =>
      if compoundMarks.contains text && shape != .operation then
        if shape = .value ∨ shape = .composite then stop .unexpected
        mark text
        let _ ← read (.assignment place)
        pure .value
      else pure shape
    | _ => pure shape

/-- Expressions with commas between them. -/
def expression (read : Readers) (place : Place) : Reader Shape := do
  let shape ← read (.assignment place)
  if ← isMark "," then
    repeatWhile do
      if ← optionalMark "," then
        let _ ← read (.assignment place)
        pure true
      else pure false
    pure .value
  else pure shape

end KeyLens.Program.Expressions
