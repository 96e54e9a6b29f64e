import KeyLens.Config.Basic
import KeyLens.Present.Truncate
import KeyLens.Site
import KeyLens.Store.Basic

/-!
# Hints

A hint stands behind a translation call and shows what its key means in one language, and in the
others below it. Keys are read strictly, and calls that end together have one hint.
-/

namespace KeyLens

/-- What is shown behind a translation call. -/
structure Hint where
  /-- The offset behind the call. -/
  offset : Nat
  /-- The line and the column of that offset. -/
  position : Position
  /-- The key that the call names. -/
  key : Key
  /-- Where the key is looked for. -/
  namespaces : Namespaces
  /-- The language of the hint. -/
  language : String
  /-- What was found in that language. -/
  resolved : Resolved
  /-- The text of the hint. -/
  label : String
  /-- The lines below it. -/
  blockLines : List String

namespace Hint

/-- The greatest number of characters of a value that a hint shows. -/
def greatestValue : Nat := 120

/-- The greatest number of lines below a hint. -/
def greatestLines : Nat := 3

/-- The text of a hint. -/
def labelOf (language : String) (resolved : Resolved) : String :=
  "i18n[" ++ language ++ "]: " ++ Present.shownValue greatestValue resolved.value

/-- The line of one language below a hint. -/
def lineOf (language : String) (resolved : Resolved) : String :=
  language ++ ": " ++ Present.shownValue greatestValue resolved.value

/-- The languages that have a line of their own: all of them, or one less than the greatest number
of lines if there are more. -/
def listed (languages : List String) : List String :=
  if languages.length ≤ greatestLines then languages else languages.take (greatestLines - 1)

/-- The line for the languages without one. -/
def moreLine (languages : List String) : List String :=
  let left := languages.length - (listed languages).length
  if left = 0 then [] else ["+" ++ toString left ++ " more"]

/-- A hint as a document. -/
def toJson (hint : Hint) : Json :=
  let nullable : Option String → Json := fun text? => (text?.map Json.string).getD .null
  let lines := if hint.blockLines = [] then []
    else [("blockLines", Json.array (hint.blockLines.map .string))]
  .object ([
    ("offset", .number (.whole hint.offset)),
    ("position", .object [
      ("line", .number (.whole hint.position.line)),
      ("column", .number (.whole hint.position.column))]),
    ("key", .string hint.key.text),
    ("namespaces", .array (hint.namespaces.toList.map .string)),
    ("language", .string hint.language),
    ("matchedNamespace", nullable hint.resolved.matchedNamespace),
    ("value", nullable hint.resolved.value),
    ("label", .string hint.label)] ++ lines)

end Hint

/-- The first of the calls that end at each offset, without those that end at one of `seen`. -/
def firstEnding (seen : List Nat) : List CallInfo → List CallInfo
  | [] => []
  | info :: rest =>
    if info.span.stop ∈ seen then firstEnding seen rest
    else info :: firstEnding (info.span.stop :: seen) rest

/-- The calls of a host that have a hint, with the place of the hint. -/
def Host.hinted (host : Host) (fallback : String) : List (CallInfo × Position) :=
  (firstEnding [] (host.sites.filterMap (host.infoOf? fallback .strict))).filterMap fun info =>
    (host.source.position? info.span.stop).map fun position => (info, position)

namespace Store

/-- The hint for a call, with lines for `languages`. -/
def hint (provider : Provider) (store : Store) (language : String) (languages : List String)
    (info : CallInfo) (position : Position) : Outcome Hint :=
  let own := store.resolveFirst provider info.namespaces info.key language
  let others := own.store.resolveEach provider info.namespaces info.key (Hint.listed languages)
  { value := {
      offset := info.span.stop
      position := position
      key := info.key
      namespaces := info.namespaces
      language := language
      resolved := own.value
      label := Hint.labelOf language own.value
      blockLines := others.value.map (fun (language, resolved) => Hint.lineOf language resolved) ++
        Hint.moreLine languages }
    store := others.store
    accesses := own.accesses ++ others.accesses }

/-- The hints for calls in their order, with lines for `languages`. -/
def hintsFor (provider : Provider) (store : Store) (language : String) (languages : List String) :
    List (CallInfo × Position) → Outcome (List Hint)
  | [] => ⟨[], store, []⟩
  | (info, position) :: rest =>
    let first := store.hint provider language languages info position
    let others := hintsFor provider first.store language languages rest
    ⟨first.value :: others.value, others.store, first.accesses ++ others.accesses⟩

/-- The hints for a host. -/
def hints (provider : Provider) (store : Store) (config : Config) (host : Host) :
    Outcome (List Hint) :=
  let languages := if config.showAllLanguages then store.languages provider else []
  store.hintsFor provider config.inlineLanguage languages (host.hinted config.defaultNamespace)

end Store

end KeyLens
