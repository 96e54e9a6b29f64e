import KeyLens.Config.Basic
import KeyLens.Json.Kind
import KeyLens.Json.Skip

/-!
# Reading a configuration

A configuration is an object with some of its parts, or a row of their values in order. A part that
is not given has its default; a name that is no part is skipped; no part is given twice.
-/

namespace KeyLens.Config

open Json (Failure)

/-- The parts of a configuration that a text has given so far. -/
structure Given where
  /-- The configuration with these parts; the others have their defaults. -/
  config : Config
  /-- The parts that were given. -/
  fields : List Field

/-- Nothing is given. -/
def Given.nothing : Given := ⟨default, []⟩

/-- Reads the value of a part into a configuration. -/
def readField (config : Config) (field : Field) (text : List Char) :
    Except Failure (Config × List Char) :=
  match field with
  | .localesPath => do
    let (value, rest) ← Json.readText text
    pure ({ config with localesPath := value }, rest)
  | .defaultNamespace => do
    let (value, rest) ← Json.readText text
    pure ({ config with defaultNamespace := value }, rest)
  | .inlineLanguage => do
    let (value, rest) ← Json.readText text
    pure ({ config with inlineLanguage := value }, rest)
  | .showAllLanguages => do
    let (value, rest) ← Json.readTruth text
    pure ({ config with showAllLanguages := value }, rest)
  | .includes => do
    let (value, rest) ← Json.readTexts text
    pure ({ config with includes := value }, rest)
  | .ignores => do
    let (value, rest) ← Json.readTexts text
    pure ({ config with ignores := value }, rest)

/-- The failure for a part that is given twice; `text` follows its second name. A brace right there
is passed over. -/
def repeated (field : Field) (text : List Char) : Failure :=
  match Json.skipSpace text with
  | '\x7d' :: rest => .before (.repeatedField field.name) rest
  | rest => .before (.repeatedField field.name) rest

/-- Reads the members of an object up to its closing brace. The number bounds the members; a text
as long as it holds no more. -/
def readMembers (isFirst : Bool) (given : Given) :
    Nat → List Char → Except Failure (Config × List Char)
  | 0, text => .error (.before .endInObject text)
  | steps + 1, text => do
    match ← Json.nextName isFirst text with
    | none => pure (given.config, Json.afterClosing text)
    | some start =>
      let (name, rest) ← Json.readQuoted start
      match Field.ofName? name with
      | none =>
        let rest ← Json.skip (← Json.readColon rest)
        readMembers false given steps rest
      | some field =>
        if field ∈ given.fields then throw (repeated field rest)
        let (config, rest) ← readField given.config field (← Json.readColon rest)
        readMembers false ⟨config, field :: given.fields⟩ steps rest

/-- The end of a row in which no further value may stand. -/
def readRowEnd (text : List Char) : Except Failure (List Char) :=
  match Json.skipSpace text with
  | [] => .error (.before .endInArray [])
  | c :: rest =>
    if c = ']' then .ok rest
    else if c = ',' then
      match Json.skipSpace rest with
      | [] => .error (.inside .trailingText [])
      | d :: after =>
        .error (.inside (if d = ']' then .trailingComma else .trailingText) (d :: after))
    else .error (.inside .trailingText (c :: rest))

/-- Reads the values of a row for the parts that are left. -/
def readRow (isFirst : Bool) (config : Config) :
    List Field → List Char → Except Failure (Config × List Char)
  | [], text => do pure (config, ← readRowEnd text)
  | field :: fields, text => do
    match ← Json.nextItem isFirst text with
    | none => pure (config, Json.afterClosing text)
    | some start =>
      let (config, rest) ← readField config field start
      readRow false config fields rest

/-- Reads a configuration. -/
def readValue (text : List Char) : Except Failure (Config × List Char) :=
  match Json.skipSpace text with
  | '[' :: rest => readRow true default Field.all rest
  | '\x7b' :: rest => readMembers true Given.nothing (rest.length + 1) rest
  | _ => .error (Json.kindFailure "struct Config" text)

/-- The configuration that a text spells. -/
def read (text : String) : Except Failure Config := do
  let (config, rest) ← readValue text.toList
  Json.readEnd rest
  pure config

end KeyLens.Config
