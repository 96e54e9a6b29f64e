import KeyLens.Present.Hint
import KeyLens.Present.Hover
import KeyLens.Proofs.Store.Meaning

/-!
# Hints and hover documents without a cache

What hints and hover documents show depends on the files alone. This file states both without a
cache and shows that every store whose documents were read while stamps were faithful gives them,
and that it stays such a store.
-/

namespace KeyLens

namespace Provider

/-- What a call means in a language. -/
def callMeaning (provider : Provider) (localesDir : Option Path) (info : CallInfo)
    (language : String) : Resolved :=
  provider.firstMeaning localesDir info.key language info.namespaces.toList

/-- The hint for a call, with lines for `languages`. -/
def hintOf (provider : Provider) (localesDir : Option Path) (language : String)
    (languages : List String) (info : CallInfo) (position : Position) : Hint where
  offset := info.span.stop
  position := position
  key := info.key
  namespaces := info.namespaces
  language := language
  resolved := provider.callMeaning localesDir info language
  label := Hint.labelOf language (provider.callMeaning localesDir info language)
  blockLines := (Hint.listed languages).map (fun other =>
    Hint.lineOf other (provider.callMeaning localesDir info other)) ++ Hint.moreLine languages

/-- The languages of which a hint may have lines. -/
def hintLanguages (provider : Provider) (localesDir : Option Path) (config : Config) :
    List String :=
  if config.showAllLanguages then (Store.ofDirectory localesDir).languages provider else []

/-- The candidates of a call that hold its key in the first language. -/
def callHolding (provider : Provider) (localesDir : Option Path) (info : CallInfo) : List String :=
  (((Store.ofDirectory localesDir).languages provider).head?.map fun language =>
    provider.holding localesDir info.key language info.namespaces.toList).getD []

/-- The hover document for a call in the given languages. -/
def hoverOf (provider : Provider) (localesDir : Option Path) (languages : List String)
    (info : CallInfo) : HoverDoc where
  key := info.key
  candidates := info.namespaces
  namespaces :=
    if provider.callHolding localesDir info = [] then info.namespaces.toList
    else provider.callHolding localesDir info
  span := info.span
  entries := languages.map fun language => ⟨language, provider.callMeaning localesDir info language⟩

end Provider

namespace Store

variable {store : Store} {localesDir : Option Path} {moments : List Provider} {provider : Provider}

/-- The hint for a call shows what the call means. -/
theorem Serves.hint (h : store.Serves localesDir moments) (hfaithful : StampFaithful moments)
    (hmoment : provider ∈ moments) (language : String) (languages : List String) (info : CallInfo)
    (position : Position) :
    (store.hint provider language languages info position).Gives
      (provider.hintOf localesDir language languages info position) localesDir moments := by
  have hown := h.resolveFirst hfaithful hmoment info.namespaces info.key language
  have hothers := hown.serves.resolveEach hfaithful hmoment info.namespaces info.key
    (Hint.listed languages)
  refine ⟨?_, hothers.serves⟩
  simp only [Store.hint, hown.value_eq, hothers.value_eq, List.map_map]
  rfl

/-- The hints for calls show what the calls mean. -/
theorem Serves.hintsFor (h : store.Serves localesDir moments) (hfaithful : StampFaithful moments)
    (hmoment : provider ∈ moments) (language : String) (languages : List String)
    (calls : List (CallInfo × Position)) :
    (store.hintsFor provider language languages calls).Gives
      (calls.map fun call => provider.hintOf localesDir language languages call.1 call.2)
      localesDir moments := by
  induction calls generalizing store with
  | nil => exact ⟨rfl, h⟩
  | cons call rest ih =>
    obtain ⟨info, position⟩ := call
    have hfirst := h.hint hfaithful hmoment language languages info position
    have hrest := ih hfirst.serves
    refine ⟨?_, hrest.serves⟩
    simp only [Store.hintsFor, List.map_cons, hfirst.value_eq, hrest.value_eq]

/-- The hints for a host show what its calls mean. -/
theorem Serves.hints (h : store.Serves localesDir moments) (hfaithful : StampFaithful moments)
    (hmoment : provider ∈ moments) (config : Config) (host : Host) :
    (store.hints provider config host).Gives
      ((host.hinted config.defaultNamespace).map fun call =>
        provider.hintOf localesDir config.inlineLanguage (provider.hintLanguages localesDir config)
          call.1 call.2)
      localesDir moments := by
  simp only [Store.hints, Provider.hintLanguages, h.languages_eq]
  exact h.hintsFor hfaithful hmoment config.inlineLanguage _ _

/-- The hover document for a call shows what the call means. -/
theorem Serves.hoverFor (h : store.Serves localesDir moments) (hfaithful : StampFaithful moments)
    (hmoment : provider ∈ moments) (info : CallInfo) (languages : List String) :
    (store.hoverFor provider info languages).Gives (provider.hoverOf localesDir languages info)
      localesDir moments := by
  have hfound := h.holders hfaithful hmoment info.namespaces info.key
  have heach := hfound.serves.resolveEach hfaithful hmoment info.namespaces info.key languages
  refine ⟨?_, heach.serves⟩
  simp only [Store.hoverFor, hfound.value_eq, heach.value_eq, List.map_map]
  rfl

/-- The hover document around an offset shows what the call there means, in all languages. -/
theorem Serves.hover (h : store.Serves localesDir moments) (hfaithful : StampFaithful moments)
    (hmoment : provider ∈ moments) (config : Config) (host : Host) (offset : Nat) :
    (store.hover provider config host offset).Gives
      ((host.infoAt? offset config.defaultNamespace .lenient).bind fun info =>
        if (ofDirectory localesDir).languages provider = [] then none
        else some (provider.hoverOf localesDir ((ofDirectory localesDir).languages provider) info))
      localesDir moments := by
  simp only [Store.hover, h.languages_eq]
  cases host.infoAt? offset config.defaultNamespace .lenient with
  | none => exact ⟨rfl, h⟩
  | some info =>
    cases (ofDirectory localesDir).languages provider with
    | nil => exact ⟨rfl, h⟩
    | cons language others =>
      have hdoc := h.hoverFor hfaithful hmoment info (language :: others)
      exact ⟨by simp only [Option.bind_some, hdoc.value_eq, reduceCtorEq, if_false], hdoc.serves⟩

end Store

end KeyLens
