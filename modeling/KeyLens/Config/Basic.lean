import KeyLens.Glob.Pattern
import KeyLens.Json.Printer
import KeyLens.Path
import KeyLens.Text.Blank

/-!
# Configuration

What a project says about itself: where its translations stand, which namespace and language count
by default, and which files are looked at. Values given with a command take precedence over it.
-/

namespace KeyLens

/-- The configuration of a project. -/
structure Config where
  /-- The directory of the translations, from the root of the project. -/
  localesPath : String
  /-- The namespace of a call that names none. -/
  defaultNamespace : String
  /-- The language of the hints. -/
  inlineLanguage : String
  /-- Whether hints list the other languages too. -/
  showAllLanguages : Bool
  /-- The directories to look at; all of the project if there are none. -/
  includes : List String
  /-- The files to leave out. -/
  ignores : List String
  deriving Repr, DecidableEq

/-- Values that take precedence over a configuration. -/
structure Overrides where
  /-- The directory of the translations. -/
  localesPath : Option String
  /-- The namespace of a call that names none. -/
  defaultNamespace : Option String
  /-- The language of the hints. -/
  inlineLanguage : Option String
  deriving Repr, DecidableEq

/-- No value takes precedence. -/
def Overrides.none : Overrides := ⟨.none, .none, .none⟩

namespace Config

/-- The configuration of a project that says nothing. -/
def default : Config where
  localesPath := "public/locales"
  defaultNamespace := "common"
  inlineLanguage := "en"
  showAllLanguages := true
  includes := []
  ignores := ["**/node_modules/**"]

/-- A part of a configuration. -/
inductive Field where
  /-- The directory of the translations. -/
  | localesPath
  /-- The namespace of a call that names none. -/
  | defaultNamespace
  /-- The language of the hints. -/
  | inlineLanguage
  /-- Whether hints list the other languages too. -/
  | showAllLanguages
  /-- The directories to look at. -/
  | includes
  /-- The files to leave out. -/
  | ignores
  deriving Repr, DecidableEq

namespace Field

/-- The parts of a configuration in their order. -/
def all : List Field :=
  [localesPath, defaultNamespace, inlineLanguage, showAllLanguages, includes, ignores]

/-- The name of a part. -/
def name : Field → String
  | localesPath => "localesPath"
  | defaultNamespace => "defaultNamespace"
  | inlineLanguage => "inlineLanguage"
  | showAllLanguages => "showAllLanguages"
  | includes => "includes"
  | ignores => "ignores"

/-- The part of a name. -/
def ofName? (text : String) : Option Field :=
  all.find? fun field => field.name == text

/-- Every part is found by its name. -/
theorem ofName?_name (field : Field) : ofName? field.name = some field := by
  cases field <;> decide

end Field

/-- The value of a part as a document shows it. -/
def value (config : Config) : Field → Json
  | .localesPath => .string config.localesPath
  | .defaultNamespace => .string config.defaultNamespace
  | .inlineLanguage => .string config.inlineLanguage
  | .showAllLanguages => .bool config.showAllLanguages
  | .includes => .array (config.includes.map .string)
  | .ignores => .array (config.ignores.map .string)

/-- The given parts of a configuration as a document. -/
def documentOf (config : Config) (fields : List Field) : Json :=
  .object (fields.map fun field => (field.name, config.value field))

/-- A configuration as a document. -/
def toJson (config : Config) : Json :=
  config.documentOf Field.all

/-- The text of a configuration file of a project that says nothing. -/
def defaultText : String :=
  default.toJson.pretty

/-- A configuration with the values that take precedence over it. -/
def withOverrides (config : Config) (overrides : Overrides) : Config :=
  { config with
    localesPath := overrides.localesPath.getD config.localesPath
    defaultNamespace := overrides.defaultNamespace.getD config.defaultNamespace
    inlineLanguage := overrides.inlineLanguage.getD config.inlineLanguage }

/-- The directory of the translations of a project at `root`. -/
def localesDir (config : Config) (root : Path) : Path :=
  root.join config.localesPath

/-- What makes a configuration unusable. -/
inductive Invalid where
  /-- A part that must not be blank is. -/
  | blank (field : Field)
  /-- A pattern has a mistake. -/
  | pattern (field : Field) (text : String) (fault : Glob.Fault)
  deriving Repr, DecidableEq

/-- The words for what makes a configuration unusable. -/
def Invalid.message : Invalid → String
  | blank field => "'" ++ field.name ++ "' must not be empty"
  | pattern field text fault =>
    "Invalid glob pattern in '" ++ field.name ++ "': \"" ++ text ++ "\": " ++ fault.message

/-- Whether a text that must not be blank is. -/
def checkText (field : Field) (text : String) : Except Invalid Unit :=
  if Text.isBlankText text then .error (.blank field) else .ok ()

/-- Whether a text is a pattern without a mistake. -/
def checkPattern (field : Field) (text : String) : Except Invalid Unit :=
  match Glob.Pattern.parse text with
  | .ok _ => .ok ()
  | .error fault => .error (.pattern field text fault)

/-- Whether a configuration can be used. What is included and has no wildcards is a path, and any
text is one. -/
def check (config : Config) : Except Invalid Unit := do
  checkText .localesPath config.localesPath
  checkText .defaultNamespace config.defaultNamespace
  checkText .inlineLanguage config.inlineLanguage
  config.ignores.forM (checkPattern .ignores)
  (config.includes.filter Glob.Pattern.isWild).forM (checkPattern .includes)

end Config

end KeyLens
