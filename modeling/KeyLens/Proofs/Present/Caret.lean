import KeyLens.Proofs.Files.Canonical
import KeyLens.Proofs.Files.Stamps
import KeyLens.Proofs.Locate.Innermost
import KeyLens.Proofs.Present.Meanings
import KeyLens.Proofs.Selector.Reading

/-!
# Hints and the caret

A hint stands behind the last character of a call. With the caret on that character, the hover
document is about the same call and shows the same meaning, although its key is read leniently and
its call is found from the inside.
-/

namespace KeyLens

/-- What a site names strictly it names leniently. -/
theorem Site.info?_lenient_of_strict {preceding fallback : String} {site : Site} {info : CallInfo}
    (h : site.info? preceding fallback .strict = some info) :
    site.info? preceding fallback .lenient = some info := by
  unfold Site.info? at h ⊢
  obtain ⟨⟨key, own⟩, hkey, hinfo⟩ := Option.bind_eq_some_iff.mp h
  rw [Option.bind_eq_some_iff]
  refine ⟨(key, own), ?_, hinfo⟩
  cases site with
  | tag rawKey span => exact hkey
  | call first options span =>
    obtain ⟨text, rfl, hkey⟩ := Option.bind_eq_some_iff.mp hkey
    obtain ⟨read, hread, hpair⟩ := Option.map_eq_some_iff.mp hkey
    rw [Site.keyAndNamespace?, Option.bind_some, Selector.read_lenient_of_strict hread]
    exact congrArg some hpair

/-- What a site asks for covers the site. -/
theorem Site.span_of_info? {preceding fallback : String} {tolerance : Selector.Tolerance}
    {site : Site} {info : CallInfo} (h : site.info? preceding fallback tolerance = some info) :
    info.span = site.span := by
  unfold Site.info? at h
  obtain ⟨⟨key, own⟩, -, hinfo⟩ := Option.bind_eq_some_iff.mp h
  obtain ⟨namespaces, -, rfl⟩ := Option.map_eq_some_iff.mp hinfo
  rfl

/-- Hints are made for calls in their order. -/
theorem sublist_firstEnding (seen : List Nat) (calls : List CallInfo) :
    (firstEnding seen calls).Sublist calls := by
  induction calls generalizing seen with
  | nil => exact List.Sublist.refl []
  | cons info rest ih =>
    rw [firstEnding]
    split
    · exact (ih seen).cons info
    · exact (ih (info.span.stop :: seen)).cons_cons info

namespace Host

variable {host : Host}

/-- A call with a hint is what a node of the host asks for, read strictly, and the hint stands at
its end. -/
theorem exists_node_of_mem_hinted {fallback : String} {info : CallInfo} {position : Position}
    (h : (info, position) ∈ host.hinted fallback) :
    ∃ node ∈ host.nodes, ∃ site, Site.ofNode? node = some site ∧
      host.infoOf? fallback .strict site = some info ∧
      host.source.position? info.span.stop = some position := by
  unfold hinted at h
  obtain ⟨found, hfound, hplace⟩ := List.mem_filterMap.mp h
  obtain ⟨place, hposition, hpair⟩ := Option.map_eq_some_iff.mp hplace
  cases hpair
  obtain ⟨site, hsite, hinfo⟩ := List.mem_filterMap.mp ((sublist_firstEnding _ _).subset hfound)
  obtain ⟨node, hnode, hnode'⟩ := List.mem_filterMap.mp hsite
  exact ⟨node, hnode, site, hnode', hinfo, hposition⟩

/-- If the last character of a node ends no line, one column back from the end of the node is the
place of that character. -/
theorem offsetOf?_last {front after : List Char} {c : Char} {offset : Nat} {position : Position}
    (htext : host.source.text.toList = front ++ c :: after)
    (hbytes : byteLength front + c.utf8Size = offset)
    (hposition : host.source.position? offset = some position)
    (hlast : (host.preceding offset).toList.getLast? ≠ some '\n') :
    host.source.offsetOf? ⟨position.line, position.column - 1⟩ = some (byteLength front) := by
  have htext' : host.source.text.toList = (front ++ [c]) ++ after := by rw [htext]; simp
  have hbytes' : byteLength (front ++ [c]) = offset := by simpa [byteLength] using hbytes
  have hc : c ≠ '\n' := by
    rintro rfl
    apply hlast
    rw [preceding, SourceText.preceding, htext', ← hbytes', SourceText.takeBytes_append,
      String.toList_ofList, List.getLast?_concat]
  have hplace : host.source.position? offset = some (SourceText.positionAfter (front ++ [c])) :=
    SourceText.position?_eq_some_iff.mpr ⟨front ++ [c], after, htext', hbytes', rfl⟩
  rw [hposition, Option.some_inj, SourceText.positionAfter_concat hc] at hplace
  rw [hplace]
  exact SourceText.offsetOf?_positionAfter htext

end Host

namespace Store

/-- With the caret on the last character of a call that has a hint, there is a hover document about
the same call with the same key, candidates and end, and in the language of the hint it shows the
same meaning, whatever the stores behind the two have read before. -/
theorem hover_at_caret {tree : FileTree} {localesDir : Option Path} {store other : Store}
    (hstore : store.Serves localesDir [tree.provider])
    (hother : other.Serves localesDir [tree.provider])
    (hlanguages : store.languages tree.provider ≠ []) {host : Host} (hhost : host.WellNested)
    (config : Config) {hint : Hint} (hhint : hint ∈ (store.hints tree.provider config host).value)
    (hlast : (host.preceding hint.offset).toList.getLast? ≠ some '\n') :
    ∃ offset doc,
      host.source.offsetOf? ⟨hint.position.line, hint.position.column - 1⟩ = some offset ∧
      (other.hover tree.provider config host offset).value = some doc ∧
      doc.key = hint.key ∧ doc.candidates = hint.namespaces ∧ doc.span.stop = hint.offset ∧
      (config.inlineLanguage ∈ store.languages tree.provider →
        ∃ entry ∈ doc.entries, entry.language = config.inlineLanguage) ∧
      ∀ entry ∈ doc.entries, entry.language = config.inlineLanguage →
        entry.resolved = hint.resolved := by
  have hfaithful := FileTree.stampFaithful_provider tree
  have hmoment : tree.provider ∈ [tree.provider] := List.mem_singleton_self _
  rw [(hstore.hints hfaithful hmoment config host).value_eq] at hhint
  obtain ⟨⟨info, position⟩, hcall, rfl⟩ := List.mem_map.mp hhint
  obtain ⟨node, hnode, site, hsite, hinfo, hposition⟩ := Host.exists_node_of_mem_hinted hcall
  obtain ⟨front, c, after, htext, hbytes⟩ := hhost.exists_last hnode
  have hspan : info.span = node.span :=
    (Site.span_of_info? hinfo).trans (Site.span_of_ofNode? hsite)
  have hlenient : host.infoAt? (byteLength front) config.defaultNamespace .lenient = some info := by
    rw [hhost.infoAt?_last hnode hsite htext hbytes]
    exact Site.info?_lenient_of_strict hinfo
  rw [hstore.languages_eq] at hlanguages ⊢
  refine ⟨byteLength front, tree.provider.hoverOf localesDir
    ((ofDirectory localesDir).languages tree.provider) info, ?_, ?_, rfl, rfl, rfl, ?_, ?_⟩
  · exact Host.offsetOf?_last htext (hbytes.trans (congrArg Span.stop hspan.symm)) hposition hlast
  · rw [(hother.hover hfaithful hmoment config host (byteLength front)).value_eq, hlenient,
      Option.bind_some, if_neg hlanguages]
  · intro hlisted
    exact ⟨_, List.mem_map_of_mem hlisted, rfl⟩
  · intro entry hentry hlanguage
    obtain ⟨language, -, rfl⟩ := List.mem_map.mp hentry
    cases hlanguage
    rfl

/-- The hint behind a call inside another one, and the hover document on its last character. -/
theorem hover_at_end_of_call :
    let host : Host :=
      ⟨⟨"g(t($ => $.a) )"⟩,
        [.call "g" ["t($ => $.a)"] ⟨0, 15⟩, .call "t" ["$ => $.a"] ⟨2, 13⟩]⟩
    let tree : FileTree :=
      ⟨[(["locales"], .directory), (["locales", "en"], .directory),
        (["locales", "en", "common.json"], .file (.text "\x7b\"a\":\"A\"\x7d") 1)], []⟩
    let store := ofDirectory (some ⟨"/locales"⟩)
    store.languages tree.provider = ["en"] ∧ host.WellNested ∧
      ∃ hint ∈ (store.hints tree.provider Config.default host).value,
        hint.key = ⟨"a"⟩ ∧ hint.offset = 13 ∧
        ∃ offset doc,
          host.source.offsetOf? ⟨hint.position.line, hint.position.column - 1⟩ = some offset ∧
          (store.hover tree.provider Config.default host offset).value = some doc ∧
          doc.key = hint.key ∧ doc.candidates = hint.namespaces ∧ doc.span.stop = hint.offset ∧
          (Config.default.inlineLanguage ∈ store.languages tree.provider →
            ∃ entry ∈ doc.entries, entry.language = Config.default.inlineLanguage) ∧
          ∀ entry ∈ doc.entries, entry.language = Config.default.inlineLanguage →
            entry.resolved = hint.resolved := by
  intro host tree store
  have hstore : store.Serves (some ⟨"/locales"⟩) [tree.provider] := serves_ofDirectory _ _
  have hlanguages : store.languages tree.provider = ["en"] := by
    have hresolve : tree.resolve ⟨"/locales"⟩ = .ok (["locales"], .directory) :=
      FileTree.resolve_of_descend? (show FileTree.pathOf ["locales"] = _ by decide) (by decide)
        (by decide) rfl
    have hchildren : tree.children ["locales"] = ["en"] := by
      simp [FileTree.children, tree]
    simp only [languages, store, ofDirectory, FileTree.provider, Option.bind_some,
      FileTree.directories?, hresolve, hchildren]
    decide +kernel
  have hhost : host.WellNested := by
    refine ⟨?_, ?_, ?_, ?_, ?_⟩
    · decide
    · decide
    · decide
    · simp [host, Node.span, Span.NestedOrApart]
    · simp [host, Node.span]
  have hcall : (host.hinted "common").head?.map (fun call => (call.1.key, call.1.span.stop)) =
      some (⟨"a"⟩, 13) := by
    decide +kernel
  obtain ⟨⟨info, position⟩, hhead, hpair⟩ := Option.map_eq_some_iff.mp hcall
  obtain ⟨hkey, hstop⟩ := Prod.mk.inj hpair
  have hhint : tree.provider.hintOf (some ⟨"/locales"⟩) "en"
      (tree.provider.hintLanguages (some ⟨"/locales"⟩) Config.default) info position ∈
        (store.hints tree.provider Config.default host).value := by
    rw [(hstore.hints (FileTree.stampFaithful_provider tree) (List.mem_singleton_self _)
      Config.default host).value_eq]
    exact List.mem_map_of_mem (List.mem_of_mem_head? hhead)
  refine ⟨hlanguages, hhost, _, hhint, hkey, hstop, ?_⟩
  refine hover_at_caret hstore hstore (by rw [hlanguages]; decide) hhost Config.default hhint ?_
  change (host.preceding info.span.stop).toList.getLast? ≠ some '\n'
  rw [hstop]
  decide +kernel

end Store

end KeyLens
