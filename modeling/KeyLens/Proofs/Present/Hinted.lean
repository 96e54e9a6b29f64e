import KeyLens.Proofs.Present.Caret
import KeyLens.Proofs.Store.Transparency

/-!
# Calls with hints

A hint stands behind a site exactly if the site asks for a key, no site before it that asks for one
ends in the same place, and that place is a boundary of the text. Sites whose keys are not read
strictly do not count, so that they take no hint from others. What a hint shows is found for its own
site, in the store that the hints before it leave.
-/

namespace KeyLens

section Firsts

variable {α β : Type}

/-- Those of a row that are the first with their key. -/
def firstsBy (key : α → Nat) (row : List α) : List α :=
  (row.zipIdx.filter fun (value, index) =>
    (row.take index).all fun earlier => key earlier != key value).map Prod.fst

/-- A row that starts with a value has it first, and then those with other keys. -/
theorem firstsBy_cons (key : α → Nat) (value : α) (rest : List α) :
    firstsBy key (value :: rest) =
      value :: (firstsBy key rest).filter fun later => key value != key later := by
  rw [firstsBy, firstsBy, List.zipIdx_cons', List.filter_cons, if_pos (by simp), List.map_cons,
    List.filter_map, List.map_map, List.filter_map, List.filter_filter]
  congr 1

/-- The first of a row are among it, in its order. -/
theorem firstsBy_sublist (key : α → Nat) (row : List α) : (firstsBy key row).Sublist row := by
  have h := (List.filter_sublist (l := row.zipIdx) (p := fun (value, index) =>
    (row.take index).all fun earlier => key earlier != key value)).map Prod.fst
  rwa [List.zipIdx_map_fst] at h

/-- The first of a row that is mapped are those of the row, if its keys stay. -/
theorem firstsBy_map {key : α → Nat} {other : β → Nat} {form : β → α} {row : List β}
    (h : ∀ value ∈ row, key (form value) = other value) :
    firstsBy key (row.map form) = (firstsBy other row).map form := by
  induction row with
  | nil => rfl
  | cons value rest ih =>
    have hrest : ∀ value ∈ rest, key (form value) = other value :=
      fun later hlater => h later (List.mem_cons_of_mem value hlater)
    rw [List.map_cons, firstsBy_cons, firstsBy_cons, ih hrest, List.map_cons, List.filter_map]
    congr 2
    refine List.filter_congr fun later hlater => ?_
    rw [Function.comp_apply, h value List.mem_cons_self,
      hrest later ((firstsBy_sublist other rest).subset hlater)]

/-- The first of a row have distinct keys. -/
theorem nodup_map_firstsBy (key : α → Nat) (row : List α) :
    ((firstsBy key row).map key).Nodup := by
  induction row with
  | nil => exact List.nodup_nil
  | cons value rest ih =>
    rw [firstsBy_cons, List.map_cons, List.nodup_cons]
    refine ⟨?_, ih.sublist (List.filter_sublist.map key)⟩
    simp only [List.mem_map, List.mem_filter, bne_iff_ne, ne_eq, not_exists, not_and]
    rintro later ⟨-, hne⟩ heq
    exact hne heq.symm

end Firsts

/-- The calls that are kept are the first with their ends, as far as these are new. -/
theorem firstEnding_eq_filter (seen : List Nat) (calls : List CallInfo) :
    firstEnding seen calls =
      (firstsBy (fun info => info.span.stop) calls).filter fun info => info.span.stop ∉ seen := by
  induction calls generalizing seen with
  | nil => rfl
  | cons info rest ih =>
    rw [firstEnding, firstsBy_cons, List.filter_cons]
    by_cases hseen : info.span.stop ∈ seen
    · -- Later calls with this end are dropped because it has been seen.
      rw [if_pos hseen, ih, if_neg (by simpa using hseen), List.filter_filter]
      refine List.filter_congr fun later _ => ?_
      by_cases hend : info.span.stop = later.span.stop
      · simp [← hend, hseen]
      · simp [hend]
    · rw [if_neg hseen, ih, if_pos (by simpa using hseen), List.filter_filter]
      refine congrArg _ (List.filter_congr fun later _ => ?_)
      by_cases hend : later.span.stop = info.span.stop
      · simp [hend]
      · simp [hend, Ne.symm hend]

namespace Host

/-- The sites of a host that ask for a key, in document order, with what they ask for. -/
def asking (host : Host) (fallback : String) : List (Site × CallInfo) :=
  host.sites.filterMap fun site =>
    (host.infoOf? fallback .strict site).map fun info => (site, info)

/-- Those sites that ask for a key as the first that end in their place, a boundary of the text. -/
def firstAsking (host : Host) (fallback : String) : List (Site × CallInfo) :=
  (firstsBy (fun asked => asked.1.span.stop) (host.asking fallback)).filter fun asked =>
    host.source.IsBoundary asked.1.span.stop

/-- A site that asks for a key is covered by what it asks for. -/
theorem span_of_mem_asking {host : Host} {fallback : String} {asked : Site × CallInfo}
    (h : asked ∈ host.asking fallback) : asked.2.span = asked.1.span := by
  obtain ⟨site, -, hasked⟩ := List.mem_filterMap.mp h
  obtain ⟨info, hinfo, rfl⟩ := Option.map_eq_some_iff.mp hasked
  exact Site.span_of_info? hinfo

/-- The calls with hints are what the first sites that ask for a key ask for, with the positions of
their ends. -/
theorem hinted_eq (host : Host) (fallback : String) :
    host.hinted fallback =
      ((firstsBy (fun asked => asked.1.span.stop) (host.asking fallback)).map
        Prod.snd).filterMap fun info =>
          (host.source.position? info.span.stop).map fun position => (info, position) := by
  have hasking : host.sites.filterMap (host.infoOf? fallback .strict) =
      (host.asking fallback).map Prod.snd := by
    rw [asking, List.map_filterMap]
    simp only [Option.map_map, Function.comp_def, Option.map_id']
  have hfirsts : firstsBy (fun info => info.span.stop) ((host.asking fallback).map Prod.snd) =
      (firstsBy (fun asked => asked.1.span.stop) (host.asking fallback)).map Prod.snd :=
    firstsBy_map fun asked hasked => congrArg Span.stop (span_of_mem_asking hasked)
  rw [hinted, hasking, firstEnding_eq_filter, List.filter_eq_self.mpr (by simp), hfirsts]

end Host

/-- A hint that stands behind a site and shows what the site asks for, as it is found in a store. -/
structure Hint.IsFor (hint : Hint) (provider : Provider) (store : Store) (language : String)
    (source : SourceText) (asked : Site × CallInfo) : Prop where
  /-- The hint stands at the end of the site. -/
  offset_eq : hint.offset = asked.1.span.stop
  /-- The line and the column are those of its offset. -/
  position_eq : source.position? hint.offset = some hint.position
  /-- The key is the one that the site asks for. -/
  key_eq : hint.key = asked.2.key
  /-- The candidates are those of the site. -/
  namespaces_eq : hint.namespaces = asked.2.namespaces
  /-- The language is the one of all hints. -/
  language_eq : hint.language = language
  /-- The translation is found for the key and the candidates of the site. -/
  resolved_eq : hint.resolved =
    (store.resolveFirst provider asked.2.namespaces asked.2.key language).value
  /-- The text shows that translation. -/
  label_eq : hint.label = Hint.labelOf language hint.resolved

/-- The store after a site's key has been looked up in the language of the hints and in those with
lines of their own. -/
def Store.lookedUp (provider : Provider) (store : Store) (language : String)
    (languages : List String) (info : CallInfo) : Store :=
  ((store.resolveFirst provider info.namespaces info.key language).store.resolveEach provider
    info.namespaces info.key (Hint.listed languages)).store

/-- Hints that stand behind a row of sites, one behind each in their order, each found in the store
that the look-ups for those before it leave. -/
inductive Hint.AreFor (provider : Provider) (language : String) (languages : List String)
    (source : SourceText) : Store → List (Site × CallInfo) → List Hint → Prop
  /-- No sites have no hints. -/
  | nil (store : Store) : AreFor provider language languages source store [] []
  /-- A hint for the first site, and hints for the others. -/
  | cons {store : Store} {asked : Site × CallInfo} {sites : List (Site × CallInfo)} {hint : Hint}
      {hints : List Hint} (first : hint.IsFor provider store language source asked)
      (others : AreFor provider language languages source
        (store.lookedUp provider language languages asked.2) sites hints) :
      AreFor provider language languages source store (asked :: sites) (hint :: hints)

namespace Hint.AreFor

variable {provider : Provider} {language : String} {languages : List String} {source : SourceText}
  {store : Store} {sites : List (Site × CallInfo)} {hints : List Hint}

/-- The hints stand at the ends of the sites. -/
theorem map_offset (h : AreFor provider language languages source store sites hints) :
    hints.map Hint.offset = sites.map fun asked => asked.1.span.stop := by
  induction h with
  | nil => rfl
  | cons first _ ih => rw [List.map_cons, List.map_cons, first.offset_eq, ih]

end Hint.AreFor

namespace Store

/-- The hints for what sites ask for stand behind those of them that end at a boundary. -/
theorem areFor_hintsFor {provider : Provider} {language : String} {languages : List String}
    {source : SourceText} (store : Store) {sites : List (Site × CallInfo)}
    (hsites : ∀ asked ∈ sites, asked.2.span = asked.1.span) :
    Hint.AreFor provider language languages source store
      (sites.filter fun asked => source.IsBoundary asked.1.span.stop)
      (store.hintsFor provider language languages ((sites.map Prod.snd).filterMap fun info =>
        (source.position? info.span.stop).map fun position => (info, position))).value := by
  induction sites generalizing store with
  | nil => exact .nil store
  | cons asked sites ih =>
    have hspan := hsites asked List.mem_cons_self
    have hrest := fun store => ih store fun later hlater =>
      hsites later (List.mem_cons_of_mem asked hlater)
    have hboundary := @SourceText.isSome_position?_iff source asked.1.span.stop
    rw [List.map_cons, List.filterMap_cons, List.filter_cons, hspan]
    cases hposition : source.position? asked.1.span.stop with
    | none =>
      have hno : ¬ source.IsBoundary asked.1.span.stop := by
        rw [← hboundary, hposition]
        exact Bool.false_ne_true
      rw [if_neg (by simpa using hno)]
      exact hrest store
    | some position =>
      have hyes : source.IsBoundary asked.1.span.stop := by
        rw [← hboundary, hposition]
        rfl
      have hoffset : asked.2.span.stop = asked.1.span.stop := congrArg Span.stop hspan
      rw [if_pos (by simpa using hyes)]
      rw [← hoffset] at hposition
      exact .cons ⟨hoffset, hposition, rfl, rfl, rfl, rfl, rfl⟩ (hrest _)

/-- Hints stand, in document order, exactly behind the sites that ask for a key as the first that
end in their place, a boundary of the text. No two stand at one offset, and each shows what its own
site asks for; while stamps are faithful, that is what the site means, whatever has been read
before. -/
theorem hints_areFor_firstAsking (provider : Provider) (store : Store) (config : Config)
    (host : Host) :
    Hint.AreFor provider config.inlineLanguage
        (if config.showAllLanguages then store.languages provider else []) host.source store
        (host.firstAsking config.defaultNamespace) (store.hints provider config host).value ∧
      ((store.hints provider config host).value.map Hint.offset).Nodup ∧
      ∀ localesDir moments, store.Serves localesDir moments → StampFaithful moments →
        provider ∈ moments → ∀ hint ∈ (store.hints provider config host).value,
          hint.resolved = provider.firstMeaning localesDir hint.key config.inlineLanguage
            hint.namespaces.toList := by
  have hsites : ∀ asked ∈ firstsBy (fun asked => asked.1.span.stop)
      (host.asking config.defaultNamespace), asked.2.span = asked.1.span :=
    fun asked hasked => Host.span_of_mem_asking ((firstsBy_sublist _ _).subset hasked)
  have hfor : Hint.AreFor provider config.inlineLanguage
      (if config.showAllLanguages then store.languages provider else []) host.source store
      (host.firstAsking config.defaultNamespace) (store.hints provider config host).value := by
    rw [hints, Host.hinted_eq]
    exact areFor_hintsFor store hsites
  refine ⟨hfor, ?_, ?_⟩
  · rw [hfor.map_offset, Host.firstAsking]
    exact (nodup_map_firstsBy (fun asked : Site × CallInfo => asked.1.span.stop) _).sublist
      (List.filter_sublist.map _)
  · intro localesDir moments hserves hfaithful hmoment hint hhint
    rw [(hserves.hints hfaithful hmoment config host).value_eq] at hhint
    obtain ⟨call, -, rfl⟩ := List.mem_map.mp hhint
    rfl

/-- Of four sites, the first names no key, the third ends where the second does, and the fourth ends
outside the text: the one hint is that of the second. -/
theorem hints_of_overlapping_sites :
    let files := filesWith ⟨"/locales/en/common.json"⟩ (some (⟨1, 9⟩, [("a", .string "A")]))
    let store := ofDirectory (some ⟨"/locales"⟩)
    let host : Host :=
      ⟨⟨"t(f, t($ => $.a))"⟩,
        [.call "t" ["f"] ⟨0, 16⟩, .call "t" ["$ => $.a"] ⟨5, 16⟩, .call "t" ["$ => $.b"] ⟨5, 16⟩,
          .call "t" ["$ => $.c"] ⟨7, 40⟩]⟩
    store.Serves (some ⟨"/locales"⟩) [files] ∧ StampFaithful [files] ∧
      (store.hints files Config.default host).value.map
          (fun hint => (hint.offset, hint.key, hint.resolved)) =
        [(16, ⟨"a"⟩, .found "common" "A")] := by
  intro files store host
  have hserves : store.Serves (some ⟨"/locales"⟩) [files] := serves_ofDirectory _ _
  have hfaithful : StampFaithful [files] :=
    @stampFaithful_filesWith ⟨"/locales/en/common.json"⟩ [some (⟨1, 9⟩, [("a", .string "A")])]
      (by simp)
  obtain ⟨hfor, -, hmeaning⟩ := hints_areFor_firstAsking files store Config.default host
  refine ⟨hserves, hfaithful, ?_⟩
  have hsites : (host.firstAsking Config.default.defaultNamespace).map
      (fun asked => (asked.1.span.stop, asked.2.key, asked.2.namespaces.toList)) =
        [(16, ⟨"a"⟩, ["common"])] := by
    decide +kernel
  obtain ⟨asked, hasked, hpair⟩ := List.map_eq_singleton_iff.mp hsites
  obtain ⟨hstop, hkey, hnames⟩ : asked.1.span.stop = 16 ∧ asked.2.key = ⟨"a"⟩ ∧
      asked.2.namespaces.toList = ["common"] := by
    simpa only [Prod.mk.injEq] using hpair
  have hmeaning := hmeaning _ _ hserves hfaithful (List.mem_singleton_self _)
  rw [hasked] at hfor
  generalize (store.hints files Config.default host).value = hints at hfor hmeaning
  cases hfor with
  | @cons _ _ _ hint _ first others =>
    cases others
    have hresolved := hmeaning hint (List.mem_singleton_self _)
    rw [first.key_eq, first.namespaces_eq, hkey, hnames] at hresolved
    have hvalue : files.firstMeaning (some ⟨"/locales"⟩) ⟨"a"⟩ Config.default.inlineLanguage
        ["common"] = .found "common" "A" := by
      decide +kernel
    simp only [List.map_cons, List.map_nil, first.offset_eq, first.key_eq, hresolved, hstop, hkey,
      hvalue]

end Store

end KeyLens
