import KeyLens.Proofs.Files.Stamps
import KeyLens.Proofs.Present.Meanings
import KeyLens.Session.Basic

/-!
# Answers about a project

What a request about a project is answered follows from the project and from the files of the
moment. A project that is kept with the documents that were read for it gives these answers,
provided that they were read while stamps were faithful.
-/

namespace KeyLens

namespace Project

/-- The calls of a file with their hints, as the files of the moment tell them. -/
def hintsOf (tree : FileTree) (project : Project) (host : Host) : List Hint :=
  (host.hinted project.config.defaultNamespace).map fun call =>
    tree.provider.hintOf project.localesDir project.config.inlineLanguage
      (tree.provider.hintLanguages project.localesDir project.config) call.1 call.2

/-- The hover document around an offset of a file, as the files of the moment tell it. -/
def hoverOf (tree : FileTree) (project : Project) (host : Host) (offset : Nat) : Option HoverDoc :=
  (host.infoAt? offset project.config.defaultNamespace .lenient).bind fun info =>
    if project.languages tree.provider = [] then none
    else some (tree.provider.hoverOf project.localesDir (project.languages tree.provider) info)

/-- The answer to a request that follows from a project and from the files of the moment. -/
def answerOf (tree : FileTree) (project : Project) (request : Session.Request) :
    Except SessionError Json :=
  match request with
  | .config _ => .ok project.toJson
  | .languages _ => .ok (project.languagesJson tree.provider)
  | .hints _ file => do
    let host ← (tree.readHost (project.resolvePath file)).mapError .noSource
    pure (project.hintsJson (project.resolvePath file) (project.hintsOf tree host))
  | .hover _ file line column => do
    let host ← (tree.readHost (project.resolvePath file)).mapError .noSource
    let offset ← match host.source.offsetOf? ⟨line, column⟩ with
      | some offset => pure offset
      | none => throw (.noPosition ⟨line, column⟩)
    pure (((project.hoverOf tree host offset).map HoverDoc.toJson).getD .null)
  | .resolve _ text namespaces language => do
    let (key, namespaces) ← KeptProject.keyAndNamespaces ⟨project, project.store⟩ text namespaces
    let language := language.getD project.config.inlineLanguage
    let resolved := tree.provider.firstMeaning project.localesDir key language namespaces.toList
    pure (resolved.toJson key namespaces language)

end Project

/-- An answer of a kept project that agrees with what follows from the files, and after which the
documents that are kept were read at the given moments. -/
structure Session.Agrees (result : Except SessionError (Json × Store))
    (expected : Except SessionError Json) (localesDir : Option Path) (moments : List Provider) :
    Prop where
  /-- The answer. -/
  value_eq : result.map Prod.fst = expected
  /-- The store after the answer. -/
  serves : ∀ answer store, result = .ok (answer, store) → store.Serves localesDir moments

namespace Session.Agrees

variable {localesDir : Option Path} {moments : List Provider}

/-- An error leaves no store. -/
theorem error (failure : SessionError) :
    Agrees (.error failure) (.error failure) localesDir moments :=
  ⟨rfl, nofun⟩

/-- The outcome of a store operation as an answer. -/
theorem of_gives {α : Type} {outcome : Outcome α} {value : α}
    (h : outcome.Gives value localesDir moments) (form : α → Json) :
    Agrees (.ok (form outcome.value, outcome.store)) (.ok (form value)) localesDir moments where
  value_eq := congrArg (fun value => Except.ok (form value)) h.value_eq
  serves := by
    intro answer store hanswer
    cases hanswer
    exact h.serves

/-- An answer that leaves the store as it is. -/
theorem of_serves {store : Store} (h : store.Serves localesDir moments) (answer : Json) :
    Agrees (.ok (answer, store)) (.ok answer) localesDir moments where
  value_eq := rfl
  serves := by
    intro other left hother
    cases hother
    exact h

/-- What an answer needs first is found alike. -/
theorem bind {α : Type} {first : Except SessionError α}
    {result : α → Except SessionError (Json × Store)} {expected : α → Except SessionError Json}
    (h : ∀ value, Agrees (result value) (expected value) localesDir moments) :
    Agrees (first >>= result) (first >>= expected) localesDir moments := by
  cases first with
  | error failure => exact error failure
  | ok value => exact h value

end Session.Agrees

namespace KeptProject

variable {kept : KeptProject} {moments : List Provider} {tree : FileTree}

/-- A kept project whose documents were read at the given moments. -/
def Serves (kept : KeptProject) (moments : List Provider) : Prop :=
  kept.store.Serves kept.project.localesDir moments

/-- A project that has just been made has read nothing. -/
theorem serves_store (project : Project) (moments : List Provider) :
    (⟨project, project.store⟩ : KeptProject).Serves moments :=
  Store.serves_ofDirectory project.localesDir moments

/-- A kept project gives the answer that follows from the files of the moment, and the documents it
then keeps were read at the given moments too. -/
theorem Serves.agrees (h : kept.Serves moments) (hfaithful : StampFaithful moments)
    (hmoment : tree.provider ∈ moments) (request : Session.Request) :
    Session.Agrees (kept.answer tree request) (kept.project.answerOf tree request)
      kept.project.localesDir moments := by
  cases request with
  | config root => exact Session.Agrees.of_serves h kept.project.toJson
  | languages root => exact Session.Agrees.of_serves h (kept.project.languagesJson tree.provider)
  | hints root file =>
    refine Session.Agrees.bind fun host => ?_
    have hhints := Store.Serves.hints h hfaithful hmoment kept.project.config host
    exact Session.Agrees.of_gives hhints (kept.project.hintsJson (kept.project.resolvePath file))
  | hover root file line column =>
    refine Session.Agrees.bind fun host => ?_
    cases host.source.offsetOf? ⟨line, column⟩ with
    | none => exact Session.Agrees.error (.noPosition ⟨line, column⟩)
    | some offset =>
      have hdoc := Store.Serves.hover h hfaithful hmoment kept.project.config host offset
      exact Session.Agrees.of_gives hdoc fun doc => (doc.map HoverDoc.toJson).getD .null
  | resolve root text namespaces language =>
    refine Session.Agrees.bind fun ⟨key, namespaces⟩ => ?_
    have hfirst := Store.Serves.resolveFirst h hfaithful hmoment namespaces key
      (language.getD kept.project.config.inlineLanguage)
    exact Session.Agrees.of_gives hfirst fun resolved =>
      resolved.toJson key namespaces (language.getD kept.project.config.inlineLanguage)

end KeptProject

end KeyLens
