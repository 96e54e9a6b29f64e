import KeyLens.Program.Expressions

/-!
# Reading statements

Statements and declarations up to their ends. A missing end of a variable declaration is forgiven:
what stands before the next end is passed over.
-/

namespace KeyLens.Program.Statements

open Reader

/-- An expression in parentheses. -/
def condition (read : Readers) : Reader Unit := do
  mark "("
  let _ ← read (.expression .free)
  mark ")"

/-- Statements up to the end of a block, which is not taken. -/
def statements (read : Readers) : Reader Unit :=
  repeatWhile do
    if ← endsBlock then pure false
    else
      let _ ← read .statement
      pure true

/-- Statements in braces. -/
def block (read : Readers) : Reader Unit := do
  mark "\x7b"
  statements read
  blockEnd

/-- The words that declare variables. -/
inductive Declaring where
  /-- The word `var`. -/
  | functionWide
  /-- The word `let`. -/
  | blockWide
  /-- The word `const`. -/
  | constant
  /-- The word `using`, possibly behind the word `await`. -/
  | disposable
  deriving Repr, DecidableEq

namespace Declaring

/-- The words that start a variable declaration, if one starts here. -/
def next? : Reader (Option Declaring) := do
  match ← next with
  | .word "var" => pure (some functionWide)
  | .word "const" => pure (some constant)
  | .word "let" =>
    match ← second with
    | .word text => pure (if isName text then some blockWide else none)
    | .mark text => pure (if text == "[" || text == "\x7b" then some blockWide else none)
    | _ => pure none
  | .word text =>
    let behindAwait ← canRead do
      word "await"
      if ← secondOnNewLine then stop .unexpected
      word "using"
      reference
    let named := match ← second with
      | .word follower => isReference follower
      | _ => false
    pure (if behindAwait || (text == "using" && named && !(← secondOnNewLine)) then
      some disposable else none)
  | _ => pure none

/-- Takes the words that declare variables. -/
def take (declaring : Declaring) : Reader Unit := do
  if declaring = disposable then
    let _ ← optionalWord "await"
  anyWord

/-- Whether a declared name is bound in its block only. -/
def isLexical (declaring : Declaring) : Bool :=
  declaring = blockWide ∨ declaring = constant

end Declaring

/-- Imports, exports, statements and declarations in braces. -/
def itemBlock (read : Readers) : Reader Unit := do
  mark "\x7b"
  repeatWhile do
    if ← endsBlock then pure false
    else
      let _ ← read .item
      pure true
  blockEnd

/-- A declared variable with its value. What takes an object or a list apart needs one if
`needsValue` says so. -/
def declarator (language : Language) (read : Readers) (declaring : Declaring) (place : Place)
    (needsValue : Shape → Reader Bool) : Reader Unit := do
  if declaring.isLexical && (← isWord "let") then stop .unexpected
  let shape ← read .binding
  if language.typed && shape = .target then
    let _ ← optionalMark "!"
  Types.optionalAnnotation read
  if ← optionalMark "=" then
    let _ ← read (.assignment place)
  else if ← needsValue shape then stop .unexpected

/-- The variables of a declaration. In an ambient one none needs a value. -/
def declarators (language : Language) (read : Readers) (declaring : Declaring)
    (isAmbient : Bool) : Reader Unit :=
  repeatWhile do
    if ← isMark ";" then pure false
    else
      declarator language read declaring .free fun shape =>
        pure (!isAmbient && declaring != .constant && shape != .target)
      optionalMark ","

/-- Passes over what stands before the next end of a statement. -/
def toEnd (read : Readers) : Reader Unit := do
  passOver do
    let _ ← forgive (read (.expression .free))
    repeatWhile do
      if ← canEnd then pure false
      else
        anyToken
        pure true
  let _ ← optionalMark ";"

/-- The end of a variable declaration. -/
def variablesEnd (read : Readers) : Reader Unit := do
  if ← canEnd then semicolon else toEnd read

/-- A variable declaration. -/
def variableList (language : Language) (read : Readers) (declaring : Declaring)
    (isAmbient : Bool) : Reader Unit := do
  declaring.take
  declarators language read declaring isAmbient
  variablesEnd read

/-- The rest of a loop's head after its start: a condition and a step. The semicolon behind the
condition may be missing. -/
def loopSteps (read : Readers) : Reader Unit := do
  mark ";"
  if !(← optionalMark ";") then
    let _ ← read (.expression .free)
    let _ ← optionalMark ";"
  if !(← isMark ")") then
    let _ ← read (.expression .free)

/-- The rest of a loop's head: what it runs through, or its condition and its step. -/
def loopHead (read : Readers) : Reader Unit := do
  if ← optionalWord "of" then
    let _ ← read (.assignment .free)
  else if ← optionalWord "in" then
    let _ ← read (.expression .free)
  else loopSteps read

/-- The variables at the start of a loop's head. In a typed language they may be left out where
the loop runs through a value. What takes an object or a list apart needs a value or something to
run through. -/
def loopVariables (language : Language) (read : Readers) (declaring : Declaring) :
    Reader Unit := do
  declaring.take
  let place := if declaring = .functionWide then Place.loopHead else Place.free
  let leftOut ← canRead do
    if !(← optionalWord "of") then word "in"
    let _ ← read (.expression .free)
    mark ")"
  if !(language.typed && leftOut) then
    repeatWhile do
      declarator language read declaring place fun shape => do
        pure (shape != .target && !(← isWord "of") && !(← isWord "in"))
      optionalMark ","

/-- The words that declare the variables at the start of a loop's head, if there are any. -/
def loopDeclaring? : Reader (Option Declaring) := do
  if (← isWord "using") && (← second) == .word "of" then pure none else Declaring.next?

/-- The variables or the expression at the start of a loop's head. Variables that are disposed of
need a value to run through. -/
def loopStart (language : Language) (read : Readers) : Reader Unit := do
  match ← loopDeclaring? with
  | some declaring =>
    loopVariables language read declaring
    if declaring = .disposable && !((← isWord "of") || (← isWord "in")) then stop .unexpected
  | none =>
    let _ ← read (.expression .loopHead)

/-- A loop with a head. One that waits for its values runs through them. -/
def forLoop (language : Language) (read : Readers) : Reader Unit := do
  word "for"
  let awaits ← optionalWord "await"
  mark "("
  if ← isMark ";" then
    if awaits then stop .unexpected
    loopSteps read
  else
    loopStart language read
    if awaits && !(← isWord "of") then stop .unexpected
    loopHead read
  mark ")"
  let _ ← read .body

/-- A loop whose condition stands behind its body. The condition is visited first. -/
def doLoop (read : Readers) : Reader Unit := do
  part .plain do
    word "do"
    part (.delayed 1) do
      let _ ← read .body
    word "while"
    condition read
  let _ ← optionalMark ";"

/-- A choice between two statements. -/
def choice (read : Readers) : Reader Unit := do
  word "if"
  condition read
  let _ ← read .body
  if ← optionalWord "else" then
    let _ ← read .body

/-- What catches the values that are thrown in the block before it, if it is there. -/
def optionalCatch (language : Language) (read : Readers) : Reader Unit := do
  if ← optionalWord "catch" then
    if ← optionalMark "(" then
      let _ ← read .binding
      if language.typed then Types.optionalAnnotation read
      mark ")"
    block read

/-- What is done in any case after the blocks before it, if it is there. -/
def optionalFinally (read : Readers) : Reader Unit := do
  if ← optionalWord "finally" then block read

/-- A statement that catches what is thrown in a block. That nothing follows the block is
forgiven. -/
def trial (language : Language) (read : Readers) : Reader Unit := do
  word "try"
  block read
  optionalCatch language read
  optionalFinally read

/-- A case of a statement that chooses by a value, up to its colon; tells whether it is the one for
all other values. -/
def caseHead (read : Readers) : Reader Bool := do
  let isDefault ← optionalWord "default"
  if !isDefault then
    word "case"
    let _ ← read (.expression .free)
  mark ":"
  pure isDefault

/-- The cases of a statement that chooses by a value, at most `count`. Only one of them can be for
all other values; `hasDefault` tells whether it has been read. -/
def cases (read : Readers) (hasDefault : Bool) : Nat → Reader Unit
  | 0 => stop .unexpected
  | count + 1 => do
    if !(← isMark "\x7d") then
      let isDefault ← caseHead read
      if isDefault && hasDefault then stop .unexpected
      repeatWhile do
        if (← isWord "case") || (← isWord "default") || (← isMark "\x7d") then pure false
        else
          let _ ← read .statement
          pure true
      cases read (hasDefault || isDefault) count

/-- A statement that chooses by a value. -/
def switch (read : Readers) : Reader Unit := do
  word "switch"
  condition read
  mark "\x7b"
  cases read false ((← ahead).length + 1)
  mark "\x7d"

/-- An expression as a statement. That an operator follows a function whose body stands in braces is
forgiven. -/
def expressionStatement (language : Language) (read : Readers) : Reader Unit := do
  let _ ← read (.expression .free)
  if !(← canEnd) && (← Expressions.isBinary) then
    let _ ← Expressions.operators language read .free .operation ((← ahead).length + 1)
  else semicolon

/-- A named type. -/
def typeAlias (read : Readers) : Reader Unit := do
  word "type"
  anyWord
  Types.optionalParameters read 0
  mark "="
  let _ ← read .type
  semicolon

/-- A named object type. -/
def interface (read : Readers) : Reader Unit := do
  word "interface"
  anyWord
  Types.optionalParameters read 0
  if ← optionalWord "extends" then Types.heritage read
  let _ ← read .typeMembers

/-- An enumeration. That no comma follows a value is forgiven; a lexeme that cannot follow a member
without a value is too, together with the one after it. -/
def enumeration (read : Readers) : Reader Unit := do
  let _ ← optionalWord "const"
  word "enum"
  anyWord
  mark "\x7b"
  repeatWhile do
    if ← isMark "\x7d" then pure false
    else
      Types.propertyName read .loopHead
      if ← optionalMark "=" then
        let _ ← read (.assignment .loopHead)
        let _ ← optionalMark ","
        pure true
      else if (← isMark ",") || (← isMark "\x7d") then optionalMark ","
      else
        anyToken
        anyToken
        pure true
  mark "\x7d"

/-- A namespace, or the declaration of a module, which may lack its body. -/
def «namespace» (read : Readers) : Reader Unit := do
  anyWord
  let isModule := (← next) == .quoted
  if isModule then quoted else Types.entityName
  if isModule && !(← isMark "\x7b") then semicolon
  else
    let _ ← read .itemBlock

/-- The words that may follow the word `declare`, except for those that declare variables. -/
def declarableWords : List String := [
  "function", "class", "abstract", "enum", "interface", "module", "namespace", "type", "global"]

/-- Reads a declaration of what is defined elsewhere, and tells whether one starts here. -/
def ambient (language : Language) (read : Readers) : Reader Bool := do
  match ← second with
  | .word follower =>
    if declarableWords.contains follower then
      word "declare"
      let _ ← read .statement
      pure true
    else
      attempt do
        word "declare"
        match ← Declaring.next? with
        | some .disposable => stop .unexpected
        | some declaring =>
          if (← second) == .word "enum" then
            let _ ← read .statement
          else variableList language read declaring true
        | none => stop .unexpected
  | _ => pure false

/-- Reads a statement that only a typed language has, and tells whether one starts here. -/
def typedStatement (language : Language) (read : Readers) (text : String) : Reader Bool := do
  let follower ← second
  let sameLine := !(← secondOnNewLine)
  let worded := sameLine && (follower matches .word _)
  let named := match follower with
    | .word follower => isReference follower
    | _ => false
  if text == "type" && worded then
    typeAlias read
    pure true
  else if text == "interface" && worded then
    interface read
    pure true
  else if text == "enum" || (text == "const" && follower == .word "enum") then
    enumeration read
    pure true
  else if (text == "namespace" && named) ||
      (text == "module" && (named || (sameLine && follower == .quoted))) then
    «namespace» read
    pure true
  else if text == "global" && follower == .mark "\x7b" then
    word "global"
    let _ ← read .itemBlock
    pure true
  else if text == "abstract" && sameLine && follower == .word "class" then
    word "abstract"
    let _ ← read (.classDeclaration true)
    pure true
  else if text == "declare" && sameLine then ambient language read
  else pure false

/-- A name of a module's interface: a name, a word or a quoted text. -/
def interfaceName : Reader Unit := do
  if (← next) == .quoted then quoted else anyWord

/-- An imported name, with the name that it gets here. A quoted name needs one. -/
def importedName (language : Language) : Reader Unit := do
  let isQuoted := (← next) == .quoted
  interfaceName
  if ← optionalWord "as" then declaredName language
  else if isQuoted then stop .unexpected

/-- An exported name, possibly with another name for it. -/
def exportedName : Reader Unit := do
  interfaceName
  if ← optionalWord "as" then interfaceName

/-- An entry of a list of imported or exported names, which may be marked as a type. -/
def specifier (language : Language) (entry : Reader Unit) : Reader Unit := do
  let marked ←
    if language.typed then
      attempt do
        word "type"
        if (← next) == .quoted then stop .unexpected
        entry
        if !((← isMark ",") || (← isMark "\x7d")) then stop .unexpected
    else pure false
  if !marked then entry

/-- The attributes of an import, if there are any. -/
def optionalAttributes (language : Language) (read : Readers) : Reader Unit := do
  if language.typed && ((← isWord "with") || (← isWord "assert")) && !(← onNewLine) then
    anyWord
    mark "\x7b"
    commaList "\x7d" (Functions.objectMember language read)

/-- The module from which names come, up to the end of the statement. -/
def source (language : Language) (read : Readers) : Reader Unit := do
  quoted
  optionalAttributes language read
  semicolon

/-- A name for a module or a member of one, after its equals sign. -/
def moduleAlias : Reader Unit := do
  mark "="
  if (← isWord "require") && (← second) == .mark "(" then
    word "require"
    mark "("
    quoted
    mark ")"
  else Types.entityName
  semicolon

/-- The names that an import binds besides its first one. -/
def importedNames (language : Language) : Reader Unit := do
  if ← optionalMark "*" then
    word "as"
    declaredName language
  else
    mark "\x7b"
    commaList "\x7d" (specifier language (importedName language))

/-- Takes the word that tells what of a module is imported or when it runs, if it is there and not
itself the imported name. -/
def optionalPhase (language : Language) : Reader Unit := do
  let isNamed ← canRead do
    anyWord
    if !(← optionalWord "from") then reference
    else if !((← isWord "from") || (← isMark "=")) then stop .unexpected
  let follower ← second
  if (language.typed && (← isWord "type") &&
        (isNamed || follower == .mark "\x7b" || follower == .mark "*")) ||
      ((← isWord "source") && isNamed) || ((← isWord "defer") && follower == .mark "*") then
    anyWord

/-- An import. -/
def importing (language : Language) (read : Readers) : Reader Unit := do
  word "import"
  if (← next) == .quoted then
    quoted
    optionalAttributes language read
    let _ ← optionalMark ";"
  else
    optionalPhase language
    let named ← isWordThat isReference
    if named then reference
    if named && language.typed && (← isMark "=") then moduleAlias
    else
      if !named || (← optionalMark ",") then importedNames language
      word "from"
      source language read

/-- The expression or declaration that a module exports without a name. -/
def exportedDefault (language : Language) (read : Readers) : Reader Unit := do
  word "default"
  let follower ← second
  if ← isWord "function" then Functions.function language read false (!language.typed)
  else if (← isWord "async") && follower == .word "function" && !(← secondOnNewLine) then
    word "async"
    Functions.function language read false (!language.typed)
  else if ← isWord "class" then
    let _ ← read (.classDeclaration false)
  else if language.typed && (← isWord "abstract") && follower == .word "class" then
    word "abstract"
    let _ ← read (.classDeclaration false)
  else if language.typed && (← isWord "interface") then interface read
  else
    let _ ← read (.assignment .free)
    semicolon

/-- Reads a declaration, and tells whether one starts here. -/
def declaration (language : Language) (read : Readers) (text : String) : Reader Bool := do
  if language.typed && text != "global" && (← typedStatement language read text) then pure true
  else if text == "function" || text == "class" ||
      (text == "async" && (← second) == .word "function" && !(← secondOnNewLine)) ||
      (← Declaring.next?).any (· != .disposable) then
    let _ ← read .statement
    pure true
  else pure false

/-- An export. -/
def exporting (language : Language) (read : Readers) : Reader Unit := do
  word "export"
  if ← isWord "default" then exportedDefault language read
  else
    let follower ← second
    if language.typed && (← isWord "type") && (follower == .mark "\x7b" || follower == .mark "*")
    then word "type"
    if ← optionalMark "*" then
      if ← optionalWord "as" then interfaceName
      word "from"
      source language read
    else if ← optionalMark "\x7b" then
      commaList "\x7d" (specifier language exportedName)
      if ← optionalWord "from" then source language read
      else
        let _ ← optionalMark ";"
    else if language.typed && (← optionalMark "=") then expressionStatement language read
    else if language.typed && (← isWord "as") then
      word "as"
      word "namespace"
      declaredName language
      semicolon
    else if language.typed && (← optionalWord "import") then
      optionalPhase language
      anyWord
      moduleAlias
    else match ← next with
      | .word text => if !(← declaration language read text) then stop .unexpected
      | _ => stop .unexpected

/-- A statement that a word starts. -/
def wordStatement (language : Language) (read : Readers) (text : String) : Reader Unit := do
  match text with
  | "if" => choice read
  | "for" => forLoop language read
  | "while" =>
    word "while"
    condition read
    let _ ← read .body
  | "do" => doLoop read
  | "return" =>
    word "return"
    if ← canEnd then semicolon else expressionStatement language read
  | "throw" =>
    word "throw"
    if ← onNewLine then stop .unexpected
    expressionStatement language read
  | "break" | "continue" =>
    anyWord
    if !(← canEnd) then declaredName language
    semicolon
  | "try" => trial language read
  | "catch" | "finally" =>
    passOver do
      optionalCatch language read
      optionalFinally read
  | "switch" => switch read
  | "with" =>
    word "with"
    condition read
    let _ ← read .body
  | "debugger" =>
    word "debugger"
    semicolon
  | "function" => Functions.function language read true (!language.typed)
  | "class" =>
    let _ ← read (.classDeclaration true)
  | _ =>
    if let some declaring ← Declaring.next? then variableList language read declaring false
    else if text == "async" && (← second) == .word "function" && !(← secondOnNewLine) then
      word "async"
      Functions.function language read true (!language.typed)
    else if isOperandName text && (← second) == .mark ":" then
      anyWord
      mark ":"
      let _ ← read .body
    else expressionStatement language read

/-- A statement or a declaration. -/
def statement (language : Language) (read : Readers) : Reader Unit := do
  match ← next with
  | .mark "\x7b" => block read
  | .mark ";" => mark ";"
  | .word text =>
    if language.typed then
      if !(← typedStatement language read text) then wordStatement language read text
    else wordStatement language read text
  | _ => expressionStatement language read

/-- An import, an export, a statement or a declaration. An expression that starts with the word
`import` may lack its end. -/
def item (language : Language) (read : Readers) : Reader Unit := do
  let follower ← second
  if ← isWord "export" then exporting language read
  else if ← isWord "import" then
    if follower == .mark "(" || follower == .mark "." then
      let _ ← read (.expression .free)
      let _ ← optionalMark ";"
    else importing language read
  else
    let _ ← read .statement

/-- A statement that another one holds without braces. No declaration of block-wide variables can
stand there. -/
def body (language : Language) (read : Readers) : Reader Unit := do
  if (← isWord "const") && (← second) != .word "enum" then stop .noExpression
  else if ((← isWord "let") && (← second) != .mark ":") ||
      (← Declaring.next?) = some .disposable then
    expressionStatement language read
  else statement language read

end KeyLens.Program.Statements
