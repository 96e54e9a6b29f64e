import KeyLens.Proofs.Locate.WellFormed
import KeyLens.Proofs.Present.Caret
import KeyLens.Proofs.Program.Spans
import KeyLens.Proofs.Session.Transparency

/-!
# Keys of hints

A hint tells its key, where the key was looked for and the language. A request for the meaning of
that key, in the same namespaces and the same language, is answered with what the hint shows, unless
a colon stands behind the first character of the key: the request takes what stands before its first
colon as a namespace, so that it asks for another key then.
-/

namespace KeyLens

/-! ### Key texts -/

/-- No colon stands behind the first character of a text, unless one is that character. -/
def IsUnprefixed (text : String) : Prop :=
  ':' ∉ text.toList ∨ text.toList.head? = some ':'

/-- A text without a namespace in front is all key. -/
theorem splitNamespace_of_isUnprefixed {text : String} (h : IsUnprefixed text) :
    splitNamespace text = (none, text) := by
  rcases h with hfree | hhead
  · have hrest : text.toList.dropWhile (· != ':') = [] := by
      rw [List.dropWhile_eq_nil_iff]
      rintro c hc
      rw [bne_iff_ne]
      rintro rfl
      exact hfree hc
    simp only [splitNamespace, hrest]
  · obtain ⟨rest, htext⟩ := List.head?_eq_some_iff.mp hhead
    simp [splitNamespace, htext]

/-- A text with a namespace in front is not all key. -/
theorem splitNamespace_of_not_isUnprefixed {text : String} (h : ¬ IsUnprefixed text) :
    (splitNamespace text).2 ≠ text := by
  obtain ⟨hcolon, hhead⟩ := not_or.mp h
  intro hsame
  cases hrest : text.toList.dropWhile (· != ':') with
  | nil =>
    rw [List.dropWhile_eq_nil_iff] at hrest
    exact hcolon fun hmem => by simpa using hrest ':' hmem
  | cons c after =>
    by_cases hbefore : text.toList.takeWhile (· != ':') = []
    · have htext : text.toList = c :: after := by
        rw [← List.takeWhile_append_dropWhile (p := (· != ':')) (l := text.toList), hbefore, hrest]
        rfl
      rw [htext, Text.eq_of_dropWhile_ne hrest] at hhead
      exact hhead rfl
    · have hshorter := (List.dropWhile_sublist (l := text.toList) (· != ':')).length_le
      simp only [splitNamespace, hrest, hbefore, if_false] at hsame
      rw [hrest, ← hsame, String.toList_ofList, List.length_cons] at hshorter
      omega

/-! ### Meanings -/

/-- Providers that find the same documents of a directory find the same meanings. -/
theorem Provider.meaning?_congr {first second : Provider} {localesDir : Option Path}
    (h : ∀ language name path, (Store.ofDirectory localesDir).path? language name = some path →
      first.document? path = second.document? path) :
    first.meaning? localesDir = second.meaning? localesDir := by
  funext key language name
  unfold Provider.meaning?
  cases hpath : (Store.ofDirectory localesDir).path? language name with
  | none => rfl
  | some path => simp only [Option.bind_some, h language name path hpath]

/-- Two documents tell the same about the meaning of a key. -/
def Json.TellsAs (first second : Json) : Prop :=
  ∀ name ∈ ["key", "matchedNamespace", "value"], first.get? name = second.get? name

/-- The answer for a key tells what a hint with the same key and the same meaning tells. -/
theorem Resolved.toJson_tellsAs (hint : Hint) :
    (hint.resolved.toJson hint.key hint.namespaces hint.language).TellsAs hint.toJson := by
  intro name hname
  simp only [List.mem_cons, List.not_mem_nil, or_false] at hname
  rcases hname with rfl | rfl | rfl <;> rfl

/-- The answer for another key does not tell what a hint tells. -/
theorem Resolved.key_eq_of_tellsAs {resolved : Resolved} {key : Key} {namespaces : Namespaces}
    {language : String} {hint : Hint}
    (h : (resolved.toJson key namespaces language).TellsAs hint.toJson) :
    key.text = hint.key.text := by
  have hkey := h "key" List.mem_cons_self
  change some (Json.string key.text) = some (Json.string hint.key.text) at hkey
  simpa using hkey

namespace KeptProject

variable {kept : KeptProject} {key : Key} {namespaces : Namespaces}

/-- A request for a key without a namespace in front asks for that key in the given namespaces. -/
theorem keyAndNamespaces_of_isUnprefixed (hkey : key.text ≠ "")
    (hnames : Namespaces.ofList? namespaces.toList = some namespaces)
    (h : IsUnprefixed key.text) :
    kept.keyAndNamespaces key.text (some namespaces.toList) = .ok (key, namespaces) := by
  have hread : Key.ofText? key.text = some key := Key.ofText?_eq_some_iff.mpr ⟨hkey, rfl⟩
  simp only [keyAndNamespaces, splitNamespace_of_isUnprefixed h, hread, hnames]
  rfl

/-- A request asks for the key behind the namespace in its text. -/
theorem key_of_keyAndNamespaces {text : String} {given : Option (List String)}
    (h : kept.keyAndNamespaces text given = .ok (key, namespaces)) :
    key.text = (splitNamespace text).2 := by
  cases hread : Key.ofText? (splitNamespace text).2 with
  | none => simp only [keyAndNamespaces, hread, bind, Except.bind, throw, throwThe,
      MonadExceptOf.throw, reduceCtorEq] at h
  | some found =>
    have htext := (Key.ofText?_eq_some_iff.mp hread).2
    simp only [keyAndNamespaces, hread, bind, Except.bind, pure, Except.pure] at h
    split at h
    · cases h
      exact htext
    · cases h

end KeptProject

namespace Project

variable {project : Project} {tree later : FileTree} {host : Host} {hint : Hint}

/-- What a hint tells can be asked for, and the hint shows the meaning of its key. -/
theorem asked_of_mem_hintsOf (h : hint ∈ project.hintsOf tree host) :
    hint.key.text ≠ "" ∧ Namespaces.ofList? hint.namespaces.toList = some hint.namespaces ∧
      hint.resolved = tree.provider.firstMeaning project.localesDir hint.key hint.language
        hint.namespaces.toList := by
  obtain ⟨⟨info, position⟩, hcall, rfl⟩ := List.mem_map.mp h
  obtain ⟨node, -, site, -, hinfo, -⟩ := Host.exists_node_of_mem_hinted hcall
  obtain ⟨names, hnames⟩ := Site.exists_ofList?_of_info? hinfo
  exact ⟨Site.key_ne_empty_of_info? hinfo, Namespaces.ofList?_toList hnames, rfl⟩

/-- A request for what a hint tells is answered with what the hint tells exactly if the key has no
namespace in front, provided that keys still mean the same. -/
theorem answerOf_resolve_iff (hhint : hint ∈ project.hintsOf tree host)
    (hmeaning : ∀ key language names,
      later.provider.firstMeaning project.localesDir key language names =
        tree.provider.firstMeaning project.localesDir key language names) (root : String) :
    (∃ answer, project.answerOf later (.resolve root hint.key.text (some hint.namespaces.toList)
        (some hint.language)) = .ok answer ∧ answer.TellsAs hint.toJson) ↔
      IsUnprefixed hint.key.text := by
  obtain ⟨hkey, hnames, hresolved⟩ := asked_of_mem_hintsOf hhint
  constructor
  · rintro ⟨answer, hanswer, htells⟩
    by_contra hprefixed
    cases hasked : KeptProject.keyAndNamespaces ⟨project, project.store⟩ hint.key.text
        (some hint.namespaces.toList) with
    | error failure =>
      simp only [answerOf, hasked, bind, Except.bind, reduceCtorEq] at hanswer
    | ok asked =>
      simp only [answerOf, hasked, bind, Except.bind, pure, Except.pure, Except.ok.injEq] at hanswer
      subst hanswer
      have hsame := Resolved.key_eq_of_tellsAs htells
      rw [KeptProject.key_of_keyAndNamespaces hasked] at hsame
      exact splitNamespace_of_not_isUnprefixed hprefixed hsame
  · intro hunprefixed
    have hasked := @KeptProject.keyAndNamespaces_of_isUnprefixed ⟨project, project.store⟩ _ _ hkey
      hnames hunprefixed
    refine ⟨_, ?_, Resolved.toJson_tellsAs hint⟩
    simp only [answerOf, hasked, bind, Except.bind, Option.getD_some, hmeaning, ← hresolved]
    rfl

/-- A request for hints is answered with the hints of the file. -/
theorem exists_host_of_answerOf_hints {root file : String} {document : Json}
    (h : project.answerOf tree (.hints root file) = .ok document) :
    ∃ host, tree.readHost (project.resolvePath file) = .ok host ∧
      document = project.hintsJson (project.resolvePath file) (project.hintsOf tree host) := by
  cases hhost : tree.readHost (project.resolvePath file) with
  | error failure =>
    simp [answerOf, hhost, Except.mapError, bind, Except.bind] at h
  | ok host =>
    simp only [answerOf, hhost, Except.mapError, bind, Except.bind, pure, Except.pure,
      Except.ok.injEq] at h
    exact ⟨host, rfl, h.symm⟩

end Project

namespace Session

/-- In a run the documents of a project are the same at all calls about its directory. -/
def DocumentsStay (run : List Call) : Prop :=
  ∀ earlier ∈ run, ∀ later ∈ run, ∀ root, earlier.root? = .ok root → later.root? = .ok root →
    ∀ project, earlier.tree.project root Overrides.none = .ok project →
      ∀ language name path, project.store.path? language name = some path →
        earlier.tree.provider.document? path = later.tree.provider.document? path

variable {run : List Call} {call : Call}

/-- A call that is answered is about a directory of which a project can be made. -/
theorem Call.exists_project_of_answerOf {document : Json} (h : call.answerOf = .ok document) :
    ∃ root project, call.root? = .ok root ∧
      call.tree.project root Overrides.none = .ok project ∧
      project.answerOf call.tree call.request = .ok document := by
  cases hroot : call.root? with
  | error failure =>
    simp [Call.answerOf, hroot, Except.mapError, bind, Except.bind] at h
  | ok root =>
    cases hproject : call.tree.project root Overrides.none with
    | error failure =>
      simp [Call.answerOf, hroot, hproject, Except.mapError, bind, Except.bind] at h
    | ok project =>
      rw [Call.answerOf_eq hroot hproject] at h
      exact ⟨root, project, rfl, hproject, h⟩

/-! ### A file with one call -/

/-- Nothing changes in a run on one tree. -/
theorem steady_of_forall_eq {tree : FileTree} (hstart : tree.Stands tree.directory .directory)
    (h : ∀ call ∈ run, call.tree = tree) : Steady run ∧ LocalesStay run ∧ DocumentsStay run := by
  refine ⟨⟨?_, ?_, ?_⟩, ?_, ?_⟩
  · intro earlier hearlier later hlater
    obtain ⟨call, hcall, rfl⟩ := List.mem_map.mp hearlier
    obtain ⟨other, hother, rfl⟩ := List.mem_map.mp hlater
    have hmem : tree.provider ∈ [tree.provider] := List.mem_singleton_self _
    rw [h call hcall, h other hother]
    exact FileTree.stampFaithful_provider tree tree.provider hmem tree.provider hmem
  · intro call hcall
    rwa [h call hcall]
  · intro earlier hearlier later hlater root _ _
    rw [h earlier hearlier, h later hlater]
    exact ⟨fun _ _ => rfl, fun _ _ => rfl, fun _ _ _ => rfl⟩
  · intro earlier hearlier later hlater root _ _ loaded _
    rw [h earlier hearlier, h later hlater]
  · intro earlier hearlier later hlater root _ _ project _ language name path _
    rw [h earlier hearlier, h later hlater]

/-- The files of a project in the root that has one document of translations and one program. -/
def programFiles (source document : String) : FileTree where
  entries := (["a.js"], .file (.text source) 1) :: (translatedFiles document 1).entries
  directory := []

/-- The hints for the program of a project, and then the meaning of a key in the namespace and the
language of the defaults. -/
def hintsThenKey (source document key : String) : List Call :=
  [⟨programFiles source document, .hints "/" "a.js"⟩,
    ⟨programFiles source document, .resolve "/" key (some ["common"]) (some "en")⟩]

/-- The files stay in that run. -/
theorem steady_hintsThenKey (source document key : String) :
    Steady (hintsThenKey source document key) ∧ LocalesStay (hintsThenKey source document key) ∧
      DocumentsStay (hintsThenKey source document key) := by
  have hroot := FileTree.Stands.root (programFiles source document)
  refine steady_of_forall_eq hroot fun call hcall => ?_
  simp only [hintsThenKey, List.mem_cons, List.not_mem_nil, or_false] at hcall
  rcases hcall with rfl | rfl <;> rfl

/-- A program with one call has one hint, which asks for the key of the call. -/
theorem exists_hint_hintsThenKey {source key : String} (document : String) {nodes : List Node}
    (hnodes : (Program.read "/a.js" source).toOption.map Host.nodes = some nodes)
    (hcalls : ((⟨⟨source⟩, nodes⟩ : Host).hinted "common").map
      (fun call => (call.1.key, call.1.namespaces.toList)) = [(⟨key⟩, ["common"])]) :
    ∃ project host hint, hint ∈ Project.hintsOf (programFiles source document) project host ∧
      hint.key = ⟨key⟩ ∧ hint.namespaces.toList = ["common"] ∧ hint.language = "en" ∧
      (start.answers (hintsThenKey source document key))[0]? = some (.ok (project.hintsJson
        ⟨"/a.js"⟩ (Project.hintsOf (programFiles source document) project host))) ∧
      (start.answers (hintsThenKey source document key))[1]? =
        some (project.answerOf (programFiles source document)
          (.resolve "/" key (some ["common"]) (some "en"))) := by
  have hplain : Plain (hintsThenKey source document key) := by
    constructor
    all_goals
      intro call hcall
      simp only [hintsThenKey, List.mem_cons, List.not_mem_nil, or_false] at hcall
      rcases hcall with rfl | rfl <;> rfl
  obtain ⟨hsteady, hlocales, -⟩ := steady_hintsThenKey source document key
  have hanswers : start.answers (hintsThenKey source document key) =
      (hintsThenKey source document key).map Call.answerOf :=
    (keeps_start _).answers_eq hsteady hlocales fun _ hcall => hcall
  obtain ⟨⟨text, own⟩, hread, rfl, rfl⟩ := Program.exists_host_of_nodes hnodes
  obtain ⟨call, hcall, hpair⟩ := List.map_eq_singleton_iff.mp hcalls
  obtain ⟨hkey, hnames⟩ := Prod.mk.inj hpair
  have hroot := hplain.root?_eq List.mem_cons_self
  have hroot' := hplain.root?_eq (List.mem_cons_of_mem _ List.mem_cons_self)
  obtain ⟨project, hproject, hconfig, hdirectory⟩ : ∃ project,
      (programFiles source document).project ⟨"/"⟩ Overrides.none = .ok project ∧
        project.config = Config.default ∧ project.root = ⟨"/"⟩ :=
    ⟨_, hplain.project_eq List.mem_cons_self, rfl, rfl⟩
  have hpath : project.resolvePath "a.js" = ⟨"/a.js"⟩ := by
    rw [Project.resolvePath, hdirectory]
    decide
  have hresolve : (programFiles source document).resolve ⟨"/a.js"⟩ =
      .ok (["a.js"], .file (.text source) 1) :=
    FileTree.resolve_of_descend? (show FileTree.pathOf ["a.js"] = _ by decide) (by decide)
      (by decide) rfl
  have hprogram : (programFiles source document).readHost ⟨"/a.js"⟩ = .ok ⟨⟨source⟩, own⟩ := by
    simp only [FileTree.readHost, FileTree.readText, hresolve, hread, Except.mapError, bind,
      Except.bind]
  have hmem : call ∈ (⟨⟨source⟩, own⟩ : Host).hinted project.config.defaultNamespace := by
    rw [hconfig]
    exact hcall ▸ List.mem_singleton_self call
  refine ⟨project, ⟨⟨source⟩, own⟩, _, List.mem_map_of_mem hmem, hkey, hnames, ?_, ?_, ?_⟩
  · rw [hconfig]
    rfl
  · rw [hanswers, List.getElem?_map, hintsThenKey, List.getElem?_cons_zero, Option.map_some,
      Call.answerOf_eq hroot hproject]
    simp only [Project.answerOf, hpath, hprogram, Except.mapError, bind, Except.bind]
    rfl
  · rw [hanswers, List.getElem?_map, hintsThenKey, List.getElem?_cons_succ,
      List.getElem?_cons_zero, Option.map_some, Call.answerOf_eq hroot' hproject]

/-- In a run in which the configuration files and the documents stay, a request for the key of a
hint, in the namespaces and the language of the hint, is answered with the key, the namespace and
the value of the hint exactly if no colon stands behind the first character of the key, or one is
that character. -/
theorem answer_of_hinted_key_iff (run : List Call) (hsteady : Steady run)
    (hlocales : LocalesStay run) (hdocuments : DocumentsStay run) {first : Nat} {tree : FileTree}
    {root file : String} {document : Json} (hcall : run[first]? = some ⟨tree, .hints root file⟩)
    (hanswer : (start.answers run)[first]? = some (.ok document)) :
    ∃ items : List Json, document.get? "hints" = some (.array items) ∧ ∀ item ∈ items,
      ∃ (key : String) (names : List String) (language : String),
        item.get? "key" = some (.string key) ∧
        item.get? "namespaces" = some (.array (names.map .string)) ∧
        item.get? "language" = some (.string language) ∧
        ∀ (second : Nat) (later : FileTree) (other : String), run[second]? =
            some ⟨later, .resolve other key (some names) (some language)⟩ →
          later.canonical ⟨other⟩ = tree.canonical ⟨root⟩ →
            ((∃ answer, (start.answers run)[second]? = some (.ok answer) ∧ answer.TellsAs item) ↔
              ':' ∉ key.toList ∨ key.toList.head? = some ':') := by
  have hanswers : start.answers run = run.map Call.answerOf :=
    (keeps_start run).answers_eq hsteady hlocales fun _ hcall => hcall
  rw [hanswers, List.getElem?_map, hcall, Option.map_some, Option.some_inj] at hanswer
  obtain ⟨directory, project, hroot, hproject, hanswer⟩ := Call.exists_project_of_answerOf hanswer
  obtain ⟨host, -, rfl⟩ := Project.exists_host_of_answerOf_hints hanswer
  refine ⟨(project.hintsOf tree host).map Hint.toJson, rfl, fun item hitem => ?_⟩
  obtain ⟨hint, hhint, rfl⟩ := List.mem_map.mp hitem
  refine ⟨hint.key.text, hint.namespaces.toList, hint.language, rfl, rfl, rfl, ?_⟩
  intro second later other hsecond hsame
  have hmem := List.mem_of_getElem? hcall
  have hmem' := List.mem_of_getElem? hsecond
  have hroot' : Call.root? ⟨later, .resolve other hint.key.text (some hint.namespaces.toList)
      (some hint.language)⟩ = .ok directory := hsame.trans hroot
  have hproject' := hsteady.project_eq hlocales hmem hmem' hroot hroot' hproject
  have hmeaning := Provider.firstMeaning_congr <| Provider.meaning?_congr
    (hdocuments _ hmem' _ hmem directory hroot' hroot project hproject')
  rw [← IsUnprefixed, ← Project.answerOf_resolve_iff hhint hmeaning other, hanswers,
    List.getElem?_map, hsecond, Option.map_some]
  simp only [Option.some_inj, Call.answerOf_eq hroot' hproject']

/-- The key of a selector with one name is asked for as its hint tells it. -/
theorem answer_of_hinted_name :
    let run := hintsThenKey "t($ => $.a)" "\x7b\"a\":\"A\"\x7d" "a"
    Steady run ∧ LocalesStay run ∧ DocumentsStay run ∧
      ∃ document items item answer, (start.answers run)[0]? = some (.ok document) ∧
        document.get? "hints" = some (.array items) ∧ item ∈ items ∧
        item.get? "key" = some (.string "a") ∧
        (start.answers run)[1]? = some (.ok answer) ∧ answer.TellsAs item := by
  intro run
  obtain ⟨hsteady, hlocales, hdocuments⟩ :=
    steady_hintsThenKey "t($ => $.a)" "\x7b\"a\":\"A\"\x7d" "a"
  obtain ⟨project, host, hint, hhint, hkey, hnames, hlanguage, hanswer, -⟩ :=
    @exists_hint_hintsThenKey "t($ => $.a)" "a" "\x7b\"a\":\"A\"\x7d"
      [.call "t" ["$ => $.a"] ⟨0, 11⟩] (by decide +kernel) (by decide +kernel)
  obtain ⟨items, hitems, htold⟩ :=
    answer_of_hinted_key_iff run hsteady hlocales hdocuments rfl hanswer
  cases hitems
  have hitem := List.mem_map_of_mem (f := Hint.toJson) hhint
  obtain ⟨key, names, language, hkey', hnames', hlanguage', hasked⟩ := htold _ hitem
  change some (Json.string hint.key.text) = _ at hkey'
  change some (Json.array (hint.namespaces.toList.map .string)) = _ at hnames'
  change some (Json.string hint.language) = _ at hlanguage'
  rw [hkey, Option.some_inj, Json.string.injEq] at hkey'
  rw [hnames, Option.some_inj, Json.array.injEq] at hnames'
  rw [hlanguage, Option.some_inj, Json.string.injEq] at hlanguage'
  have hcommon : ["common"] = names :=
    (List.map_inj_right fun first second h => Json.string.inj h).mp hnames'
  subst hkey' hcommon hlanguage'
  obtain ⟨answer, hanswer', htells⟩ := (hasked 1 _ "/" rfl rfl).mpr (Or.inl (by decide))
  exact ⟨hsteady, hlocales, hdocuments, _, _, hint.toJson, answer, hanswer, rfl, hitem,
    congrArg (fun key : Key => some (Json.string key.text)) hkey, hanswer', htells⟩

/-- A key with a colon behind its first character is not asked for: the request takes what stands
before the colon as a namespace, although namespaces are given. -/
theorem answer_of_hinted_name_with_colon :
    let run := hintsThenKey "t($ => $[\"a:b\"])" "\x7b\"a:b\":\"x\"\x7d" "a:b"
    Steady run ∧ LocalesStay run ∧ DocumentsStay run ∧
      ∃ document items item, (start.answers run)[0]? = some (.ok document) ∧
        document.get? "hints" = some (.array items) ∧ item ∈ items ∧
        item.get? "key" = some (.string "a:b") ∧
        item.get? "namespaces" = some (.array [.string "common"]) ∧
        item.get? "language" = some (.string "en") ∧
        ∀ answer, (start.answers run)[1]? = some (.ok answer) → ¬ answer.TellsAs item := by
  intro run
  obtain ⟨hsteady, hlocales, hdocuments⟩ :=
    steady_hintsThenKey "t($ => $[\"a:b\"])" "\x7b\"a:b\":\"x\"\x7d" "a:b"
  obtain ⟨project, host, hint, hhint, hkey, hnames, hlanguage, hanswer, hasked⟩ :=
    @exists_hint_hintsThenKey "t($ => $[\"a:b\"])" "a:b" "\x7b\"a:b\":\"x\"\x7d"
      [.call "t" ["$ => $[\"a:b\"]"] ⟨0, 16⟩] (by decide +kernel) (by decide +kernel)
  refine ⟨hsteady, hlocales, hdocuments, _, _, hint.toJson, hanswer, rfl,
    List.mem_map_of_mem hhint, ?_, ?_, ?_, fun answer htold htells => ?_⟩
  · change some (Json.string hint.key.text) = _
    rw [hkey]
  · change some (Json.array (hint.namespaces.toList.map .string)) = _
    rw [hnames]
    rfl
  · change some (Json.string hint.language) = _
    rw [hlanguage]
  · have hiff := @Project.answerOf_resolve_iff project _ _ host hint hhint (fun _ _ _ => rfl) "/"
    rw [hkey, hnames, hlanguage] at hiff
    rw [hasked, Option.some_inj] at htold
    rcases hiff.mp ⟨answer, htold, htells⟩ with hfree | hhead
    · exact hfree (by decide)
    · exact absurd hhead (by decide)

end Session

end KeyLens
