import KeyLens.Json.Kind

/-!
# Requests

Another program asks with the name of a tool and a document of named values. A value of a wrong
kind is told before one that is missing; names that are not asked for are passed over.
-/

namespace KeyLens.Session

open Json (Cause)

/-- What is asked for. -/
inductive Request where
  /-- The configuration of a project. -/
  | config (root : String)
  /-- The languages of a project. -/
  | languages (root : String)
  /-- The hints for a file. -/
  | hints (root file : String)
  /-- The meanings of the key at a place of a file. -/
  | hover (root file : String) (line column : Nat)
  /-- The meaning of a key, in the given namespaces and language if there are any. -/
  | resolve (root key : String) (namespaces : Option (List String)) (language : Option String)
  deriving Repr, DecidableEq

/-- The directory that a request is about. -/
def Request.root : Request → String
  | config root => root
  | languages root => root
  | hints root _ => root
  | hover root _ _ _ => root
  | resolve root _ _ _ => root

/-! ### Values -/

/-- A text. -/
def textOf : Json → Except Cause String
  | .string value => .ok value
  | other => .error (.otherKind other.kindName "a string")

/-- The greatest number that a place of a file has. -/
def greatestNumber : Nat := 4294967295

/-- A whole number from zero up to the greatest one. -/
def numberOf : Json → Except Cause Nat
  | .number (.whole value) =>
    if 0 ≤ value ∧ value ≤ greatestNumber then .ok value.toNat
    else .error (.otherValue (Json.number (.whole value)).kindName "u32")
  | other => .error (.otherKind other.kindName "u32")

/-- A row of texts. -/
def textsOf : Json → Except Cause (List String)
  | .array items => items.mapM textOf
  | other => .error (.otherKind other.kindName "a sequence")

/-- A value that may be left out; nothing stands for it too. -/
def optionally {α : Type} (read : Json → Except Cause α) : Json → Except Cause (Option α)
  | .null => .ok none
  | value => (read value).map some

/-! ### Parameters -/

/-- The kind of a parameter. -/
inductive Kind where
  /-- A text. -/
  | text
  /-- A number. -/
  | number
  /-- A row of texts that may be left out. -/
  | optionalTexts
  /-- A text that may be left out. -/
  | optionalText
  deriving Repr, DecidableEq

/-- Whether a value is of a kind. -/
def Kind.check (kind : Kind) (value : Json) : Except Cause Unit :=
  match kind with
  | .text => (textOf value).map fun _ => ()
  | .number => (numberOf value).map fun _ => ()
  | .optionalTexts => (optionally textsOf value).map fun _ => ()
  | .optionalText => (optionally textOf value).map fun _ => ()

/-- A tool that can be asked. -/
inductive Tool where
  /-- The configuration of a project. -/
  | config
  /-- The languages of a project. -/
  | languages
  /-- The hints for a file. -/
  | hints
  /-- The meanings of the key at a place of a file. -/
  | hover
  /-- The meaning of a key. -/
  | resolve
  deriving Repr, DecidableEq

namespace Tool

/-- All tools. -/
def all : List Tool := [config, languages, hints, hover, resolve]

/-- The name of a tool. -/
def name : Tool → String
  | config => "get_config"
  | languages => "get_languages"
  | hints => "inline_hints"
  | hover => "hover"
  | resolve => "resolve_key"

/-- The tool of a name. -/
def ofName? (text : String) : Option Tool :=
  all.find? fun tool => tool.name == text

/-- How a mistake names the parameters of a tool. -/
def parametersName : Tool → String
  | config => "struct GetConfigParams"
  | languages => "struct GetLanguagesParams"
  | hints => "struct InlineHintsParams"
  | hover => "struct HoverParams"
  | resolve => "struct ResolveKeyParams"

/-- The parameters of a tool in their order. -/
def parameters : Tool → List (String × Kind)
  | config => [("projectRootPath", .text)]
  | languages => [("projectRootPath", .text)]
  | hints => [("projectRootPath", .text), ("filePath", .text)]
  | hover => [("projectRootPath", .text), ("filePath", .text), ("line", .number),
      ("column", .number)]
  | resolve => [("projectRootPath", .text), ("key", .text), ("namespaces", .optionalTexts),
      ("language", .optionalText)]

/-- How a mistake names the parameters of a tool with their number. -/
def rowName (tool : Tool) : String :=
  let count := tool.parameters.length
  tool.parametersName ++ " with " ++ toString count ++
    if count = 1 then " element" else " elements"

/-- Whether the named values that a tool asks for are of their kinds. -/
def checkMembers (tool : Tool) : List (String × Json) → Except Cause Unit
  | [] => .ok ()
  | (name, value) :: rest =>
    match tool.parameters.lookup name with
    | some kind => (kind.check value).bind fun _ => checkMembers tool rest
    | none => checkMembers tool rest

/-- The named values of a document. In a row they stand in the order of the parameters, and none is
left out. -/
def members (tool : Tool) : Json → Except Cause (List (String × Json))
  | .object members => do
    tool.checkMembers members
    pure members
  | .array items => do
    let named := (tool.parameters.map Prod.fst).zip items
    tool.checkMembers named
    if items.length < tool.parameters.length then throw (.otherLength items.length tool.rowName)
    if tool.parameters.length < items.length then
      throw (.otherLength items.length "fewer elements in array")
    pure named
  | other => .error (.otherKind other.kindName tool.parametersName)

end Tool

/-- The value of a parameter that must be there. -/
def required {α : Type} (read : Json → Except Cause α) (name : String)
    (members : List (String × Json)) : Except Cause α :=
  match Json.member? name members with
  | some value => read value
  | none => .error (.noField name)

/-- The value of a parameter that may be left out. -/
def optional? {α : Type} (read : Json → Except Cause α) (name : String)
    (members : List (String × Json)) : Except Cause (Option α) :=
  match Json.member? name members with
  | some value => optionally read value
  | none => .ok none

/-- The request for a tool with the given parameters. -/
def Request.read (tool : Tool) (parameters : Json) : Except Cause Request := do
  let members ← tool.members parameters
  let root ← required textOf "projectRootPath" members
  match tool with
  | .config => pure (.config root)
  | .languages => pure (.languages root)
  | .hints => pure (.hints root (← required textOf "filePath" members))
  | .hover =>
    pure (.hover root (← required textOf "filePath" members) (← required numberOf "line" members)
      (← required numberOf "column" members))
  | .resolve =>
    pure (.resolve root (← required textOf "key" members)
      (← optional? textsOf "namespaces" members) (← optional? textOf "language" members))

end KeyLens.Session
