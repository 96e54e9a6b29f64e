import KeyLens.Config.Basic
import KeyLens.Present.Markup
import KeyLens.Present.Truncate
import KeyLens.Site
import KeyLens.Store.Basic

/-!
# Hover documents

A hover document tells what the key of a translation call means in every language. It is shown as
markup, in which values cannot add tags, or as lines of text.
-/

namespace KeyLens

/-- The meaning of a key in one language. -/
structure HoverEntry where
  /-- The language. -/
  language : String
  /-- What was found in it. -/
  resolved : Resolved
  deriving Repr, DecidableEq

/-- The meanings of a key in every language. -/
structure HoverDoc where
  /-- The key. -/
  key : Key
  /-- Where the key is looked for. -/
  candidates : Namespaces
  /-- The candidates that hold the key, or all of them if none does. -/
  namespaces : List String
  /-- The bytes of the call. -/
  span : Span
  /-- The meanings by language. -/
  entries : List HoverEntry

namespace HoverDoc

/-- The greatest number of characters of a value that is shown. -/
def greatestValue : Nat := 200

/-- The namespace that is named beside a value: none if there is one candidate only. -/
def indicator? (doc : HoverDoc) (entry : HoverEntry) : Option String :=
  if doc.candidates.toList.length > 1 then entry.resolved.matchedNamespace else none

/-- The namespaces that are shown, in one line. -/
def namespaceLine (doc : HoverDoc) : String :=
  String.intercalate ", " doc.namespaces

/-- A value in markup. -/
def valuePieces (doc : HoverDoc) (entry : HoverEntry) : List Markup :=
  match entry.resolved.value with
  | none => [.tag "i", .text Present.missingText, .tag "/i"]
  | some value =>
    let shown := Markup.text (Present.truncate value greatestValue)
    match doc.indicator? entry with
    | some name =>
      [shown, .text " ", .tag "i", .text "(", .text name, .text ")", .tag "/i"]
    | none => [shown]

/-- An entry in markup. -/
def entryPieces (doc : HoverDoc) (entry : HoverEntry) : List Markup :=
  [.tag "b", .text entry.language, .text ":", .tag "/b", .text " "] ++ doc.valuePieces entry ++
    [.tag "br/"]

/-- A document in markup. -/
def pieces (doc : HoverDoc) : List Markup :=
  [.tag "html", .tag "body",
    .tag "b", .text "i18next Translations", .tag "/b", .tag "br/",
    .tag "b", .text "Key:", .tag "/b", .text " ", .text doc.key.text, .tag "br/",
    .tag "b", .text "Namespaces:", .tag "/b", .text " ", .text doc.namespaceLine,
    .tag "br/", .tag "br/"] ++
  doc.entries.flatMap doc.entryPieces ++ [.tag "/body", .tag "/html"]

/-- The text of a document in markup. -/
def markup (doc : HoverDoc) : String :=
  Markup.render doc.pieces

/-- An entry in a line of text. -/
def entryLine (doc : HoverDoc) (entry : HoverEntry) : String :=
  let shown := entry.language ++ ": " ++ Present.shownValue greatestValue entry.resolved.value
  let place := (entry.resolved.value.bind fun _ => doc.indicator? entry).map fun name =>
    " (" ++ name ++ ")"
  shown ++ place.getD "" ++ "\n"

/-- A document in lines of text. -/
def text (doc : HoverDoc) : String :=
  "Key: " ++ doc.key.text ++ "\n" ++ "Namespaces: " ++ doc.namespaceLine ++ "\n" ++
    String.join (doc.entries.map doc.entryLine)

/-- An entry as a document. -/
def entryJson (entry : HoverEntry) : Json :=
  let nullable : Option String → Json := fun text? => (text?.map Json.string).getD .null
  .object [
    ("language", .string entry.language),
    ("matchedNamespace", nullable entry.resolved.matchedNamespace),
    ("value", nullable entry.resolved.value)]

/-- A hover document as a document. -/
def toJson (doc : HoverDoc) : Json :=
  .object [
    ("key", .string doc.key.text),
    ("candidates", .array (doc.candidates.toList.map .string)),
    ("namespaces", .array (doc.namespaces.map .string)),
    ("span", .object [
      ("start", .number (.whole doc.span.start)),
      ("end", .number (.whole doc.span.stop))]),
    ("entries", .array (doc.entries.map entryJson))]

end HoverDoc

namespace Store

/-- The hover document for a call in the given languages. -/
def hoverFor (provider : Provider) (store : Store) (info : CallInfo) (languages : List String) :
    Outcome HoverDoc :=
  let found := store.holders provider info.namespaces info.key
  let each := found.store.resolveEach provider info.namespaces info.key languages
  { value := {
      key := info.key
      candidates := info.namespaces
      namespaces := if found.value = [] then info.namespaces.toList else found.value
      span := info.span
      entries := each.value.map fun (language, resolved) => ⟨language, resolved⟩ }
    store := each.store
    accesses := found.accesses ++ each.accesses }

/-- The hover document for the call around an offset. There is none without a call, and none
without a language. -/
def hover (provider : Provider) (store : Store) (config : Config) (host : Host) (offset : Nat) :
    Outcome (Option HoverDoc) :=
  match host.infoAt? offset config.defaultNamespace .lenient with
  | none => ⟨none, store, []⟩
  | some info =>
    match store.languages provider with
    | [] => ⟨none, store, []⟩
    | languages =>
      let doc := store.hoverFor provider info languages
      ⟨some doc.value, doc.store, doc.accesses⟩

end Store

end KeyLens
