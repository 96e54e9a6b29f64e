import KeyLens.Program.Types

/-!
# Reading bindings, functions and classes

What a declaration binds, the parameters and bodies of functions, the members of objects and
classes. The body of a class is visited before the class that it extends, and types behind what
they tell something about.
-/

namespace KeyLens.Program.Functions

open Reader

/-- A value after an equals sign, if one follows. -/
def optionalDefault (read : Readers) : Reader Unit := do
  if ← optionalMark "=" then
    let _ ← read (.assignment .free)

/-- A property of an object that a binding takes apart. -/
def boundProperty (read : Readers) : Reader Unit := do
  if ← optionalMark "..." then
    let _ ← read .binding
  else
    let named ← isAnyWord
    Types.propertyName read .free
    if ← optionalMark ":" then
      let _ ← read .binding
    else if !named then stop .unexpected
    optionalDefault read

/-- An item of a list that a binding takes apart; it may be left out. -/
def boundItem (read : Readers) : Reader Unit := do
  if ← isMark "," then pure ()
  else
    let _ ← optionalMark "..."
    let _ ← read .binding
    optionalDefault read

/-- What a declaration binds: a name, or the parts of an object or of a list. -/
def binding (language : Language) (read : Readers) : Reader Shape := do
  match ← next with
  | .word _ =>
    declaredName language
    pure .target
  | .mark "\x7b" =>
    mark "\x7b"
    commaList "\x7d" (boundProperty read)
    pure .composite
  | .mark "[" =>
    mark "["
    commaList "]" (boundItem read)
    pure .composite
  | _ => stop .unexpected

/-- Takes a word that tells how a binding or a property may be used, if one stands before it. -/
def optionalUse : Reader Bool := do
  match ← second with
  | .word _ => Types.modifier ["public", "protected", "private", "readonly"]
  | .mark text =>
    if text == "\x7b" || text == "[" then
      Types.modifier ["public", "protected", "private", "readonly"]
    else pure false
  | _ => pure false

/-- Takes the words that make a constructor's parameter a field, and tells whether there are any. -/
def fieldWords : Reader Bool := do
  let access ← Types.modifier ["public", "protected", "private"]
  let overriding ← Types.modifier ["override"]
  let constant ← Types.modifier ["readonly"]
  pure (access || overriding || constant)

/-- A parameter with its type and its default. A parameter that is a field too has a name or a
default. -/
def parameter (language : Language) (read : Readers) (owner : Owner) : Reader Unit := do
  let isRest ← optionalMark "..."
  if owner = .arrow && (← isAnyWord) && !(← isWordThat isOperandName) then stop .unexpected
  let mayBeField := language.typed && owner = .constructor && !isRest
  let isField ← if mayBeField then fieldWords else pure false
  if language.typed && !isRest then
    let _ ← optionalUse
  let shape ← read .binding
  if language.typed then
    let _ ← optionalMark "?"
    Types.optionalAnnotation read
  if ← isMark "=" then
    if owner = .signature && !isRest then stop .unexpected else optionalDefault read
  else if isField && shape != .target then stop .unexpected

/-- Parameters in parentheses. -/
def parameters (language : Language) (read : Readers) (owner : Owner) : Reader Unit := do
  mark "("
  commaList ")" (parameter language read owner)

/-- A function of the given owner from its type parameters on. Without a body it is a declaration
only. The types around the parameters are visited last, but that of a getter before its body. -/
def tail (language : Language) (read : Readers) (owner : Owner) (needsBody : Bool) :
    Reader Unit :=
  part .plain do
    if language.typed then Types.optionalParameters read 1
    let _ ← read (.parameters owner)
    if language.typed then
      if ← isMark ":" then Types.result read ":" (if owner = .getter then 0 else 2)
    if (← isMark "\x7b") then
      let _ ← read .block
    else if language.typed && !needsBody then semicolon
    else stop .unexpected

/-- A function from its keyword on. A declaration, which needs a name, gives it to the scope around
it. -/
def function (language : Language) (read : Readers) (needsName needsBody : Bool) :
    Reader Unit := do
  word "function"
  let _ ← optionalMark "*"
  if needsName then declaredName language
  else if ← isWordThat isReference then reference
  let _ ← read (.functionTail .function needsBody)

/-- Whether a function starts here, from its type parameters or its parameters on. -/
def startsTail (language : Language) : Reader Bool := do
  pure ((← isMark "(") || (language.typed && (← isMark "<")))

/-- What follows the word `text` that starts a member of an object and is not followed by a value or
by parameters. -/
def afterMemberWord (read : Readers) (text : String) : Reader Unit := do
  let _ ← optionalMark "?"
  if (← isMark "=") || (← isMark ",") || (← isMark "\x7d") then optionalDefault read
  else if text == "get" || text == "set" || text == "async" then
    if text == "async" then
      let _ ← optionalMark "*"
    Types.propertyName read .free
    let _ ← read (.functionTail (if text == "get" then .getter else .function) false)
  else stop .unexpected

/-- A member of an object. In a typed language a last name without a value is forgiven. -/
def objectMember (language : Language) (read : Readers) : Reader Unit := do
  if ← optionalMark "..." then
    let _ ← read (.assignment .free)
  else if ← optionalMark "*" then
    Types.propertyName read .free
    let _ ← read (.functionTail .function false)
  else
    if language.typed then
      let _ ← optionalUse
    let key ← next
    Types.propertyName read .free
    if ← optionalMark ":" then
      let _ ← read (.assignment .free)
    else if ← startsTail language then
      let _ ← read (.functionTail .function false)
    else match key with
      | .word text => afterMemberWord read text
      | _ => if !(language.typed && (← isMark "\x7d")) then stop .unexpected

/-- Whether what follows a name shows that it is the name of a field. A new line does so if
`newLine` says so. -/
def continuesField (language : Language) (newLine : Bool) : Reader Bool := do
  match ← next with
  | .mark "=" | .mark "\x7d" | .mark ";" => pure true
  | .mark "!" | .mark ":" => pure language.typed
  | .finished => pure newLine
  | _ => if newLine then onNewLine else pure false

/-- Takes a word before a member, unless it is the name of the member, and tells whether it did. -/
def leadingWord (language : Language) (text : String) (newLine : Bool) : Reader Bool :=
  attempt do
    word text
    if (← startsTail language) || (← continuesField language newLine) ||
        (language.typed && (← isMark "?")) then
      stop .unexpected

/-- The value of a field from its type on, which is visited last. A missing end is forgiven. -/
def field (language : Language) (read : Readers) (isOptional : Bool) : Reader Unit := do
  if language.typed then
    if !isOptional then
      let _ ← optionalMark "!"
    if ← isMark ":" then part (.delayed 1) (Types.annotation read)
  optionalDefault read
  let _ ← optionalMark ";"

/-- A constructor from its type parameters on. -/
def constructor (language : Language) (read : Readers) : Reader Unit :=
  tail language read .constructor false

/-- A member of a class from its name on. A function whose value cannot be changed is none, but one
that gets or sets a value is forgiven. -/
def namedMember (language : Language) (read : Readers) (isReadonly : Bool) : Reader Unit := do
  let key ← next
  Types.memberName read .free
  let isOptional ← if language.typed then optionalMark "?" else pure false
  if ← startsTail language then
    if isReadonly then stop .unexpected
    if key == .word "constructor" then constructor language read
    else
      let _ ← read (.functionTail .function false)
  else
    let accessor := key == .word "get" || key == .word "set"
    let lineOfStars := (← onNewLine) && (← isMark "*")
    if accessor && !(← continuesField language false) && !lineOfStars then
      Types.memberName read .free
      let _ ← read (.functionTail .function false)
    else if ← continuesField language true then
      if key == .word "constructor" then stop .unexpected
      else field language read isOptional
    else if key == .word "async" then
      if isReadonly then stop .unexpected
      let _ ← optionalMark "*"
      if ← isWord "constructor" then stop .unexpected
      Types.memberName read .free
      if language.typed then
        let _ ← optionalMark "?"
      let _ ← read (.functionTail .function false)
    else stop .unexpected

/-- What the words before a member of a typed class tell about its use. -/
structure Use where
  /-- Whether its value cannot be changed. -/
  isReadonly : Bool
  /-- Whether it replaces or leaves open a member of that name. -/
  isVirtual : Bool

/-- Takes the words before a member of a typed class that concern its use, at most `count`, and
tells what they and those before them say. -/
def useWords (use : Use) : Nat → Reader Use
  | 0 => stop .unexpected
  | count + 1 => do
    if ← Types.modifier ["readonly"] then useWords ⟨true, use.isVirtual⟩ count
    else if ← Types.modifier ["abstract", "override"] then useWords ⟨use.isReadonly, true⟩ count
    else if ← Types.modifier ["static"] then useWords use count
    else pure use

/-- A member of a class behind the words before it. -/
def bareMember (language : Language) (read : Readers) (isStatic mayIndex isReadonly : Bool) :
    Reader Unit := do
  if isStatic && (← isMark "\x7b") then
    let _ ← read .block
  else if mayIndex && (← Types.startsIndexSignature) then
    Types.indexSignature read
    if !(← optionalMark ",") then semicolon
  else if ← optionalMark "*" then
    Types.memberName read .free
    let _ ← read (.functionTail .function false)
  else namedMember language read isReadonly

/-- A member of a class. -/
def classMember (language : Language) (read : Readers) : Reader Unit := do
  if language.typed then
    let declared ← leadingWord language "declare" true
    let limited ← Types.modifier ["public", "protected", "private"]
    if !declared then
      let _ ← leadingWord language "declare" true
    let isStatic ← leadingWord language "static" false
    let isAbstract ← Types.modifier ["abstract"]
    if isAbstract then
      let _ ← leadingWord language "static" false
    let _ ← leadingWord language "accessor" false
    let use ← useWords ⟨false, false⟩ ((← ahead).length + 1)
    bareMember language read isStatic (!use.isVirtual && !limited && !isAbstract) use.isReadonly
  else
    let isStatic ← leadingWord language "static" false
    bareMember language read isStatic false false

/-- The members of a class in braces. -/
def classBody (language : Language) (read : Readers) : Reader Unit := do
  mark "\x7b"
  repeatWhile do
    if ← isMark "\x7d" then pure false
    else if ← optionalMark ";" then pure true
    else
      part .plain (classMember language read)
      pure true
  mark "\x7d"

/-- A class from its keyword on. The body is visited first, then the class that it extends and the
types around it. -/
def classDeclaration (language : Language) (read : Readers) (needsName : Bool) : Reader Unit := do
  word "class"
  if ← isWord "let" then stop .unexpected
  if language.typed && !needsName && (← isWord "implements") then pure ()
  else if needsName then declaredName language
  else if ← isWordThat isReference then reference
  if language.typed then Types.optionalParameters read 2
  if ← optionalWord "extends" then
    part (.delayed 1) do
      let _ ← read .chain
    if language.typed && (← isMark "<") then Types.optionalArguments read 3
  if language.typed then
    if ← optionalWord "implements" then part (.delayed 4) (Types.heritage read)
  classBody language read

end KeyLens.Program.Functions
