import KeyLens.Present.Hint
import KeyLens.Present.Hover
import KeyLens.Project
import KeyLens.Session.Request

/-!
# Sessions

A session answers the requests of another program. It keeps each project that was asked for, by the
spelling of its directory without links and dots, together with the documents that were read; a
project that is kept is not made anew.
-/

namespace KeyLens

/-- A project that is kept, with its translations. -/
structure KeptProject where
  /-- The project. -/
  project : Project
  /-- The translations with the documents that have been read. -/
  store : Store

/-- The projects that are kept, by their directories. -/
structure Session where
  /-- Each directory with its project. -/
  kept : List (Path × KeptProject)

/-- Why a request is not answered. -/
inductive SessionError where
  /-- The directory cannot be reached. -/
  | noRoot (root : String) (error : FileError)
  /-- The directory gives no project. -/
  | noProject (error : ProjectError)
  /-- The file gives no program. -/
  | noSource (error : SourceError)
  /-- The file has no such place. -/
  | noPosition (position : Position)
  /-- The key has no characters. -/
  | emptyKey
  /-- There is no namespace. -/
  | noNamespaces

namespace SessionError

/-- The words for an error. -/
def message : SessionError → String
  | noRoot root error => "Invalid project root " ++ root ++ ": " ++ error.message
  | noProject error => "Failed to load config: " ++ error.message
  | noSource error => "Failed to parse file: " ++ error.message
  | noPosition position => "Position " ++ position.display ++ " is outside of the file"
  | emptyKey => "Key must not be empty"
  | noNamespaces => "Namespaces must not be empty"

/-- Whether the request is to blame, and not the files. -/
def isAboutRequest : SessionError → Bool
  | noProject _ | noSource _ => false
  | _ => true

end SessionError

namespace Session

/-- A session in which nothing was asked. -/
def start : Session := ⟨[]⟩

/-- The project that is kept for a directory. -/
def find? (session : Session) (root : Path) : Option KeptProject :=
  session.kept.lookup root

/-- Keeps a project for a directory, unless one is kept for it; gives the one that is kept then. -/
def keep (session : Session) (root : Path) (kept : KeptProject) : Session × KeptProject :=
  match session.find? root with
  | some earlier => (session, earlier)
  | none => (⟨session.kept ++ [(root, kept)]⟩, kept)

/-- The session with other translations for the project of a directory. -/
def withStore (session : Session) (root : Path) (store : Store) : Session :=
  ⟨session.kept.map fun (path, kept) =>
    (path, if path = root then { kept with store := store } else kept)⟩

/-- The project of a directory as it is made when none is kept. -/
def build (tree : FileTree) (root : Path) : Except SessionError KeptProject :=
  ((tree.project root Overrides.none).mapError .noProject).map fun project =>
    ⟨project, project.store⟩

/-- The project that a request is about, and the session that keeps it. -/
def context (tree : FileTree) (session : Session) (root : String) :
    Session × Except SessionError (Path × KeptProject) :=
  match tree.canonical ⟨root⟩ with
  | .error error => (session, .error (.noRoot root error))
  | .ok path =>
    match session.find? path with
    | some kept => (session, .ok (path, kept))
    | none =>
      match build tree path with
      | .error error => (session, .error error)
      | .ok kept =>
        let (session, kept) := session.keep path kept
        (session, .ok (path, kept))

end Session

/-! ### Answers -/

namespace Project

/-- A project as an answer. -/
def toJson (project : Project) : Json :=
  .object [
    ("fromFile", .bool project.fromFile),
    ("projectRoot", .string project.root.text),
    ("config", project.config.toJson)]

/-- The languages of a project as an answer. -/
def languagesJson (project : Project) (provider : Provider) : Json :=
  .object [
    ("localesDir", ((project.localesDir.map fun dir => Json.string dir.text)).getD .null),
    ("languages", .array ((project.languages provider).map .string))]

/-- The hints for a file as an answer. -/
def hintsJson (project : Project) (path : Path) (hints : List Hint) : Json :=
  let missing := hints.filter fun hint => !hint.resolved.isFound
  .object [
    ("filePath", .string (project.displayPath path)),
    ("totalCount", .number (.whole hints.length)),
    ("missingCount", .number (.whole missing.length)),
    ("hints", .array (hints.map Hint.toJson))]

end Project

/-- The meaning of a key as an answer. -/
def Resolved.toJson (resolved : Resolved) (key : Key) (namespaces : Namespaces)
    (language : String) : Json :=
  let nullable : Option String → Json := fun text? => (text?.map Json.string).getD .null
  .object [
    ("key", .string key.text),
    ("language", .string language),
    ("namespaces", .array (namespaces.toList.map .string)),
    ("matchedNamespace", nullable resolved.matchedNamespace),
    ("value", nullable resolved.value)]

namespace KeptProject

/-- The key and the namespaces that a request names. Given namespaces count before the one in
front of the key, and that one before the default. -/
def keyAndNamespaces (kept : KeptProject) (text : String) (namespaces : Option (List String)) :
    Except SessionError (Key × Namespaces) := do
  let (own, rest) := splitNamespace text
  let key ← match Key.ofText? rest with
    | some key => pure key
    | none => throw .emptyKey
  let candidates := match namespaces, own with
    | some names, _ => Namespaces.ofList? names
    | none, some name => Namespaces.single? name
    | none, none => Namespaces.single? kept.project.config.defaultNamespace
  match candidates with
  | some namespaces => pure (key, namespaces)
  | none => throw .noNamespaces

/-- The answer to a request about a project that is kept, and the translations afterwards. -/
def answer (tree : FileTree) (kept : KeptProject) (request : Session.Request) :
    Except SessionError (Json × Store) :=
  let project := kept.project
  match request with
  | .config _ => .ok (project.toJson, kept.store)
  | .languages _ => .ok (project.languagesJson tree.provider, kept.store)
  | .hints _ file => do
    let path := project.resolvePath file
    let host ← (tree.readHost path).mapError .noSource
    let hints := kept.store.hints tree.provider project.config host
    pure (project.hintsJson path hints.value, hints.store)
  | .hover _ file line column => do
    let host ← (tree.readHost (project.resolvePath file)).mapError .noSource
    let offset ← match host.source.offsetOf? ⟨line, column⟩ with
      | some offset => pure offset
      | none => throw (.noPosition ⟨line, column⟩)
    let doc := kept.store.hover tree.provider project.config host offset
    pure ((doc.value.map HoverDoc.toJson).getD .null, doc.store)
  | .resolve _ text namespaces language => do
    let (key, namespaces) ← kept.keyAndNamespaces text namespaces
    let language := language.getD project.config.inlineLanguage
    let resolved := kept.store.resolveFirst tree.provider namespaces key language
    pure (resolved.value.toJson key namespaces language, resolved.store)

end KeptProject

namespace Session

/-- Answers a request, and the session afterwards. -/
def answer (tree : FileTree) (session : Session) (request : Request) :
    Session × Except SessionError Json :=
  match session.context tree request.root with
  | (session, .error error) => (session, .error error)
  | (session, .ok (path, kept)) =>
    match kept.answer tree request with
    | .error error => (session, .error error)
    | .ok (answer, store) => (session.withStore path store, .ok answer)

/-- What a session tells about itself. -/
def instructions : String :=
  "i18n-lens MCP shows what i18next translation calls resolve to.\n\n" ++
  "Available tools:\n" ++
  "1. get_config - Get project configuration\n" ++
  "2. get_languages - List language directories under the locales path\n" ++
  "3. inline_hints - Resolved value of every translation call in a file\n" ++
  "4. hover - Translations of the key at a line/column in every language\n" ++
  "5. resolve_key - Resolve one key against candidate namespaces\n\n" ++
  "Keys are looked up in <localesPath>/<language>/<namespace>.json.\n" ++
  "Namespaces come from ns: options, useTranslation(...) or TFunction<...>\n" ++
  "declarations above the call, or the configured default namespace."

end Session

end KeyLens
