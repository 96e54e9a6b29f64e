import KeyLens.Present.Hint
import KeyLens.Present.Hover
import KeyLens.Proofs.Files.Below
import KeyLens.Proofs.Store.Lookups

/-!
# Files below the directory of the translations

A store asks for the files of the languages and namespaces that it is given. They are followed from
its directory as they are: where none of them is absolute or leads upwards, no file outside of the
directory is asked for, and otherwise some file is.
-/

namespace KeyLens

/-- The path of the file that was asked for. -/
def Access.path : Access → Path
  | .stamp path | .read path => path

/-- Files tell the directories in a directory by names, which hold no slash and are not two dots. -/
def Provider.ListsNames (provider : Provider) : Prop :=
  ∀ path names, provider.directories? path = some names →
    ∀ name ∈ names, '/' ∉ name.toList ∧ name.toList ≠ ['.', '.']

/-- The files of a tree do, whose entries are known by names. -/
theorem FileTree.listsNames_provider {tree : FileTree}
    (h : ∀ names entry, (names, entry) ∈ tree.entries → ∀ name ∈ names, IsName name) :
    tree.provider.ListsNames := by
  intro path names hdirectories name hname
  suffices hfound : ∃ place, name ∈ tree.children place by
    obtain ⟨place, hchild⟩ := hfound
    obtain ⟨⟨way, entry⟩, hmem, hlast⟩ :=
      List.mem_filterMap.mp (List.mem_mergeSort.mp hchild)
    obtain ⟨-, hlast⟩ := Option.ite_none_right_eq_some.mp hlast
    have hisName := h way entry hmem name (List.mem_of_getLast? hlast)
    exact ⟨hisName.no_slash, hisName.not_parent⟩
  simp only [provider, directories?] at hdirectories
  split at hdirectories
  · next place _ =>
    cases hdirectories
    exact ⟨place, (List.mem_filter.mp hname).1⟩
  · cases hdirectories

/-- An operation on a store of a directory that asks for files of some languages and namespaces
only. -/
structure Outcome.AsksFor {α : Type} (outcome : Outcome α) (dir : Path)
    (languages names : List String) : Prop where
  /-- The store looks into the directory afterwards. -/
  localesDir_eq : outcome.store.localesDir = some dir
  /-- Each file is that of a language and a namespace. -/
  exists_path_eq : ∀ access ∈ outcome.accesses, ∃ language ∈ languages, ∃ name ∈ names,
    access.path = (dir.join language).join (name ++ ".json")

namespace Outcome.AsksFor

variable {α β : Type} {dir : Path} {languages names : List String} {first : Outcome α}
  {rest : Outcome β}

/-- What asks for nothing. -/
theorem nothing {store : Store} (h : store.localesDir = some dir) (value : α)
    (languages names : List String) : AsksFor ⟨value, store, []⟩ dir languages names :=
  ⟨h, nofun⟩

/-- An operation and then another one, with whatever answer. -/
theorem andThen {γ : Type} (hfirst : first.AsksFor dir languages names)
    (hrest : rest.AsksFor dir languages names) (value : γ) :
    AsksFor ⟨value, rest.store, first.accesses ++ rest.accesses⟩ dir languages names where
  localesDir_eq := hrest.localesDir_eq
  exists_path_eq := fun access haccess => (List.mem_append.mp haccess).elim
    (hfirst.exists_path_eq access) (hrest.exists_path_eq access)

/-- Another form of the answer. -/
theorem map (h : first.AsksFor dir languages names) (form : α → β) :
    (first.map form).AsksFor dir languages names :=
  ⟨h.localesDir_eq, h.exists_path_eq⟩

end Outcome.AsksFor

namespace Store

variable {store : Store} {dir : Path} {provider : Provider}

/-! ### What operations ask for -/

section

variable {languages names : List String}

/-- A look-up asks for its own file only. -/
theorem path_of_mem_load {cache : Cache} {path : Path} {access : Access}
    (h : access ∈ (cache.load provider path).accesses) : access.path = path := by
  have haccess : access ∈ (Lookup.loaded ⟨provider, cache, path⟩).accesses := h
  rw [Lookup.accesses_eq] at haccess
  split at haccess
  · rcases List.mem_cons.mp haccess with rfl | hread
    · rfl
    · rw [List.mem_singleton.mp hread]
      rfl
  · rw [List.mem_singleton.mp haccess]
    rfl

/-- A look-up takes the stamp of its file. -/
theorem stamp_mem_load (provider : Provider) (cache : Cache) (path : Path) :
    Access.stamp path ∈ (cache.load provider path).accesses := by
  have haccesses := Lookup.accesses_eq ⟨provider, cache, path⟩
  exact haccesses ▸ List.mem_cons_self

/-- Looking a key up in one namespace asks for the file of the namespace. -/
theorem asksFor_resolve (h : store.localesDir = some dir) (provider : Provider) {name : String}
    (key : Key) {language : String} (hlanguage : language ∈ languages) (hname : name ∈ names) :
    (store.resolve provider name key language).AsksFor dir languages names := by
  simp only [resolve, path?, h, Option.map_some]
  exact ⟨rfl, fun access haccess => ⟨language, hlanguage, name, hname, path_of_mem_load haccess⟩⟩

/-- Looking a key up in one namespace after the other asks for files of these namespaces. -/
theorem asksFor_resolveIn (h : store.localesDir = some dir) (provider : Provider) (key : Key)
    {language : String} (hlanguage : language ∈ languages) {tried : List String}
    (htried : tried ⊆ names) :
    (store.resolveIn provider key language tried).AsksFor dir languages names := by
  induction tried generalizing store with
  | nil => exact .nothing h _ _ _
  | cons name rest ih =>
    obtain ⟨hname, hrest⟩ := List.cons_subset.mp htried
    have hfirst := asksFor_resolve h provider key hlanguage hname
    rw [resolveIn]
    split
    · exact ⟨hfirst.localesDir_eq, hfirst.exists_path_eq⟩
    · exact hfirst.andThen (ih hfirst.localesDir_eq hrest) _

/-- Looking a key up in several languages asks for files of these languages. -/
theorem asksFor_resolveEach (h : store.localesDir = some dir) (provider : Provider)
    {namespaces : Namespaces} (key : Key) {tried : List String} (htried : tried ⊆ languages)
    (hnames : namespaces.toList ⊆ names) :
    (store.resolveEach provider namespaces key tried).AsksFor dir languages names := by
  induction tried generalizing store with
  | nil => exact .nothing h _ _ _
  | cons language rest ih =>
    obtain ⟨hlanguage, hrest⟩ := List.cons_subset.mp htried
    have hfirst := asksFor_resolveIn h provider key hlanguage hnames
    exact hfirst.andThen (ih hfirst.localesDir_eq hrest) _

/-- Which namespaces hold a key in a language is told by their files. -/
theorem asksFor_holdersIn (h : store.localesDir = some dir) (provider : Provider) (key : Key)
    {language : String} (hlanguage : language ∈ languages) {tried : List String}
    (htried : tried ⊆ names) :
    (store.holdersIn provider key language tried).AsksFor dir languages names := by
  induction tried generalizing store with
  | nil => exact .nothing h _ _ _
  | cons name rest ih =>
    obtain ⟨hname, hrest⟩ := List.cons_subset.mp htried
    have hfirst := asksFor_resolve h provider key hlanguage hname
    exact hfirst.andThen (ih hfirst.localesDir_eq hrest) _

/-- Which candidates hold a key is told by their files in a language that is listed. -/
theorem asksFor_holders (h : store.localesDir = some dir) {namespaces : Namespaces} (key : Key)
    (hlisted : store.languages provider ⊆ languages) (hnames : namespaces.toList ⊆ names) :
    (store.holders provider namespaces key).AsksFor dir languages names := by
  rw [holders]
  cases hlanguages : store.languages provider with
  | nil => exact .nothing h _ _ _
  | cons language rest =>
    rw [hlanguages, List.cons_subset] at hlisted
    exact asksFor_holdersIn h provider key hlisted.1 hnames

/-- A hint asks for the namespaces of its call, in its language and in those that have lines. -/
theorem asksFor_hint (h : store.localesDir = some dir) (provider : Provider) {language : String}
    (hlanguage : language ∈ languages) {others : List String} (hothers : others ⊆ languages)
    {info : CallInfo} (hnames : info.namespaces.toList ⊆ names) (position : Position) :
    (store.hint provider language others info position).AsksFor dir languages names := by
  have hlisted : Hint.listed others ⊆ languages := by
    unfold Hint.listed
    split
    · exact hothers
    · exact fun other hother => hothers (List.mem_of_mem_take hother)
  have hown := asksFor_resolveIn h provider info.key hlanguage hnames
  exact hown.andThen (asksFor_resolveEach hown.localesDir_eq provider info.key hlisted hnames) _

/-- Hints ask for the namespaces of their calls. -/
theorem asksFor_hintsFor (h : store.localesDir = some dir) (provider : Provider)
    {language : String} (hlanguage : language ∈ languages) {others : List String}
    (hothers : others ⊆ languages) {calls : List (CallInfo × Position)}
    (hnames : ∀ call ∈ calls, call.1.namespaces.toList ⊆ names) :
    (store.hintsFor provider language others calls).AsksFor dir languages names := by
  induction calls generalizing store with
  | nil => exact .nothing h _ _ _
  | cons call rest ih =>
    obtain ⟨hcall, hrest⟩ := List.forall_mem_cons.mp hnames
    have hfirst := asksFor_hint h provider hlanguage hothers hcall call.2
    exact hfirst.andThen (ih hfirst.localesDir_eq hrest) _

/-- A hover document asks for the namespaces of its call in the languages that are listed. -/
theorem asksFor_hover (h : store.localesDir = some dir) {config : Config} {host : Host}
    {offset : Nat} (hlisted : store.languages provider ⊆ languages)
    (hnames : ∀ info, host.infoAt? offset config.defaultNamespace .lenient = some info →
      info.namespaces.toList ⊆ names) :
    (store.hover provider config host offset).AsksFor dir languages names := by
  rw [hover]
  cases hinfo : host.infoAt? offset config.defaultNamespace .lenient with
  | none => exact .nothing h _ _ _
  | some info =>
    have hfound := asksFor_holders h info.key hlisted (hnames info hinfo)
    have heach := asksFor_resolveEach hfound.localesDir_eq provider info.key hlisted
      (hnames info hinfo)
    cases hlanguages : store.languages provider with
    | nil => exact .nothing h _ _ _
    | cons language rest =>
      rw [hlanguages] at heach
      exact hfound.andThen heach _

end

/-! ### Runs -/

/-- What is demanded of a store, by itself or for the calls of a file. -/
inductive Demand where
  /-- An operation. -/
  | operation (operation : Operation)
  /-- The hints for a file. -/
  | hints (config : Config) (host : Host)
  /-- The hover document around an offset of a file. -/
  | hover (config : Config) (host : Host) (offset : Nat)

namespace Demand

/-- The languages that are given with a demand. -/
def languages : Demand → List String
  | .operation (.resolve _ _ language) => [language]
  | .operation (.resolveFirst _ _ language) => [language]
  | .operation _ => []
  | .hints config _ => [config.inlineLanguage]
  | .hover _ _ _ => []

/-- The namespaces that are given with a demand. -/
def names : Demand → List String
  | .operation (.resolve name _ _) => [name]
  | .operation (.resolveFirst namespaces _ _) => namespaces.toList
  | .operation (.holders namespaces _) => namespaces.toList
  | .operation _ => []
  | .hints config host =>
    (host.hinted config.defaultNamespace).flatMap fun call => call.1.namespaces.toList
  | .hover config host offset =>
    (host.infoAt? offset config.defaultNamespace .lenient).toList.flatMap fun info =>
      info.namespaces.toList

/-- Meets a demand, whatever the answer. -/
def meet (provider : Provider) (store : Store) : Demand → Outcome Unit
  | .operation wanted => (store.perform provider wanted).map fun _ => ()
  | .hints config host => (store.hints provider config host).map fun _ => ()
  | .hover config host offset => (store.hover provider config host offset).map fun _ => ()

/-- A demand asks for the namespaces that are given with it, in languages that are given with it or
listed. -/
theorem asksFor_meet (h : store.localesDir = some dir) (provider : Provider) (demand : Demand) :
    (demand.meet provider store).AsksFor dir (demand.languages ++ store.languages provider)
      demand.names := by
  have hlisted := List.subset_append_right demand.languages (store.languages provider)
  cases demand with
  | operation wanted =>
    rw [meet]
    refine Outcome.AsksFor.map ?_ _
    cases wanted with
    | resolve name key language =>
      exact (asksFor_resolve h provider key List.mem_cons_self List.mem_cons_self).map _
    | resolveFirst namespaces key language =>
      exact (asksFor_resolveIn h provider key List.mem_cons_self (List.Subset.refl _)).map _
    | languages => exact .nothing h _ _ _
    | holders namespaces key => exact (asksFor_holders h key hlisted (List.Subset.refl _)).map _
    | clear => exact ⟨h, nofun⟩
  | hints config host =>
    rw [meet]
    refine (asksFor_hintsFor h provider List.mem_cons_self ?_ fun call hcall name hname =>
      List.mem_flatMap.mpr ⟨call, hcall, hname⟩).map _
    split
    · exact hlisted
    · exact List.nil_subset _
  | hover config host offset =>
    rw [meet]
    refine (asksFor_hover h hlisted fun info hinfo name hname => ?_).map _
    exact List.mem_flatMap.mpr ⟨info, Option.mem_toList.mpr hinfo, hname⟩

end Demand

/-- What a store asks of the files in a run of demands, each with the files of its moment. -/
def asked (store : Store) : List (Provider × Demand) → List Access
  | [] => []
  | (provider, demand) :: rest =>
    let outcome := demand.meet provider store
    outcome.accesses ++ asked outcome.store rest

/-- Languages that are listed lead on. -/
theorem leadsOn_of_mem_languages (h : provider.ListsNames) {language : String}
    (hlanguage : language ∈ store.languages provider) : Path.LeadsOn language := by
  rw [languages, List.mem_mergeSort] at hlanguage
  cases hnames : store.localesDir.bind provider.directories? with
  | none =>
    rw [hnames] at hlanguage
    cases hlanguage
  | some names =>
    rw [hnames] at hlanguage
    obtain ⟨dir, -, hlisted⟩ := Option.bind_eq_some_iff.mp hnames
    obtain ⟨hslash, hparent⟩ := h dir names hlisted language hlanguage
    refine ⟨fun hhead => hslash (List.mem_of_head? hhead), ?_⟩
    rw [List.splitOn_eq_singleton hslash, List.mem_singleton]
    exact Ne.symm hparent

/-- A run of demands whose languages and namespaces lead on asks for files below the directory. -/
theorem liesBelow_of_mem_asked {run : List (Provider × Demand)} (h : store.localesDir = some dir)
    (hlists : ∀ moment ∈ run, moment.1.ListsNames)
    (hlanguages : ∀ moment ∈ run, ∀ language ∈ moment.2.languages, Path.LeadsOn language)
    (hnames : ∀ moment ∈ run, ∀ name ∈ moment.2.names, Path.LeadsOn (name ++ ".json")) :
    ∀ access ∈ store.asked run, access.path.LiesBelow dir := by
  induction run generalizing store with
  | nil => exact nofun
  | cons moment rest ih =>
    obtain ⟨provider, demand⟩ := moment
    obtain ⟨hlist, hlists⟩ := List.forall_mem_cons.mp hlists
    obtain ⟨hlanguage, hlanguages⟩ := List.forall_mem_cons.mp hlanguages
    obtain ⟨hname, hnames⟩ := List.forall_mem_cons.mp hnames
    have hmeet := demand.asksFor_meet h provider
    intro access haccess
    rcases List.mem_append.mp haccess with hnow | hlater
    · obtain ⟨language, hmem, name, hgiven, hpath⟩ := hmeet.exists_path_eq access hnow
      have hleads : Path.LeadsOn language := (List.mem_append.mp hmem).elim (hlanguage language)
        (leadsOn_of_mem_languages hlist)
      rw [hpath, Path.liesBelow_join_join_iff]
      exact hleads.leadsBelow (hname name hgiven) dir
    · exact ih hmeet.localesDir_eq hlists hlanguages hnames access hlater

/-- A look-up asks for files below the directory exactly if its language and namespace lead
there. -/
theorem liesBelow_resolve_iff (h : store.localesDir = some dir) (provider : Provider)
    (name : String) (key : Key) (language : String) :
    (∀ access ∈ (store.resolve provider name key language).accesses, access.path.LiesBelow dir) ↔
      dir.LeadsBelow language (name ++ ".json") := by
  have hloads : (store.resolve provider name key language).accesses =
      (store.cache.load provider ((dir.join language).join (name ++ ".json"))).accesses := by
    simp only [resolve, path?, h, Option.map_some]
  rw [← Path.liesBelow_join_join_iff, hloads]
  generalize (dir.join language).join (name ++ ".json") = path
  constructor
  · intro hbelow
    exact hbelow (.stamp path) (stamp_mem_load provider store.cache path)
  · intro hbelow access haccess
    rwa [path_of_mem_load haccess]

/-- In every run of demands whose languages and namespaces are relative and do not lead upwards,
each file that is asked for lies below the directory of the store: along names alone, if that is
absolute. A look-up stays below the directory exactly if its language and namespace lead there. -/
theorem lookups_stay_below (dir : Path) :
    (∀ run : List (Provider × Demand), (∀ moment ∈ run, moment.1.ListsNames) →
      (∀ moment ∈ run, ∀ language ∈ moment.2.languages, Path.LeadsOn language) →
      (∀ moment ∈ run, ∀ name ∈ moment.2.names, Path.LeadsOn (name ++ ".json")) →
      ∀ access ∈ (ofDirectory (some dir)).asked run, access.path.LiesBelow dir ∧
        (dir.isAbsolute = true →
          ∃ names : List String, access.path.components = dir.components ++ names.map .name)) ∧
      ∀ (provider : Provider) (store : Store), store.localesDir = some dir →
        ∀ name key language,
          ((∀ access ∈ (store.resolve provider name key language).accesses,
            access.path.LiesBelow dir) ↔ dir.LeadsBelow language (name ++ ".json")) := by
  refine ⟨fun run hlists hlanguages hnames access haccess => ?_,
    fun provider store h name key language => liesBelow_resolve_iff h provider name key language⟩
  have hbelow := liesBelow_of_mem_asked rfl hlists hlanguages hnames access haccess
  exact ⟨hbelow, hbelow.exists_names⟩

/-- Files of which one path leads to a document tell their one directory by a name. -/
theorem listsNames_filesWith (path : Path) (file : Option (Stamp × Document)) :
    (filesWith path file).ListsNames := by
  intro other names hnames name hname
  cases hnames
  rw [List.mem_singleton.mp hname]
  decide

/-- A source text whose call names a namespace in a directory of its own. -/
def hostOfNestedNamespace : Host :=
  ⟨⟨"t($ => $.a, \x7b ns: 'pages/home' \x7d)"⟩,
    [.call "t" ["$ => $.a", "\x7b ns: 'pages/home' \x7d"] ⟨0, 33⟩]⟩

/-- A single dot and a slash in a namespace do not lead out of the directory. -/
theorem lookups_of_nested_namespace :
    let dir : Path := ⟨"/p/locales"⟩
    let files := filesWith ⟨"/p/locales/en/pages/home.json"⟩
      (some (⟨1, 9⟩, [("a", .string "x")]))
    let run : List (Provider × Demand) :=
      [(files, .operation (.resolveFirst ⟨["./common"], by decide⟩ ⟨"a"⟩ "en")),
        (files, .hover Config.default hostOfNestedNamespace 0)]
    (∀ moment ∈ run, moment.1.ListsNames) ∧
      (∀ moment ∈ run, ∀ language ∈ moment.2.languages, Path.LeadsOn language) ∧
      (∀ moment ∈ run, ∀ name ∈ moment.2.names, Path.LeadsOn (name ++ ".json")) ∧
      dir.isAbsolute = true ∧
      (ofDirectory (some dir)).asked run =
        [.stamp ⟨"/p/locales/en/./common.json"⟩, .stamp ⟨"/p/locales/en/pages/home.json"⟩,
          .read ⟨"/p/locales/en/pages/home.json"⟩, .stamp ⟨"/p/locales/en/pages/home.json"⟩] ∧
      (∀ access ∈ (ofDirectory (some dir)).asked run, access.path.LiesBelow dir ∧
        ∃ names : List String, access.path.components = dir.components ++ names.map .name) := by
  intro dir files run
  have hlists : ∀ moment ∈ run, moment.1.ListsNames :=
    List.forall_mem_cons.mpr ⟨listsNames_filesWith _ _,
      List.forall_mem_singleton.mpr (listsNames_filesWith _ _)⟩
  have hlanguages : ∀ moment ∈ run, ∀ language ∈ moment.2.languages, Path.LeadsOn language := by
    decide +kernel
  have hnames : ∀ moment ∈ run, ∀ name ∈ moment.2.names, Path.LeadsOn (name ++ ".json") := by
    decide +kernel
  refine ⟨hlists, hlanguages, hnames, by decide, by decide +kernel, fun access haccess => ?_⟩
  obtain ⟨hbelow, habsolute⟩ :=
    (lookups_stay_below dir).1 run hlists hlanguages hnames access haccess
  exact ⟨hbelow, habsolute (by decide)⟩

/-- An absolute namespace leads to a file outside of the directory, and so do two dots. -/
theorem lookup_leaves_directory :
    let store := ofDirectory (some ⟨"/p/locales"⟩)
    let outside := filesWith ⟨"/p/secret.json"⟩ (some (⟨1, 9⟩, [("a", .string "s")]))
    let lookup := store.resolve outside "/p/secret" ⟨"a"⟩ "en"
    lookup.value = some "s" ∧ .read ⟨"/p/secret.json"⟩ ∈ lookup.accesses ∧
      ¬Path.LiesBelow ⟨"/p/secret.json"⟩ ⟨"/p/locales"⟩ ∧
      .stamp ⟨"/p/locales/en/../../secret.json"⟩ ∈
        (store.resolve outside "../../secret" ⟨"a"⟩ "en").accesses ∧
      ¬Path.LiesBelow ⟨"/p/locales/en/../../secret.json"⟩ ⟨"/p/locales"⟩ := by
  refine ⟨by decide +kernel, by decide +kernel, ?_, by decide +kernel, ?_⟩
  · rintro ⟨steps, hsteps, -, -⟩
    have hprefix : (⟨"/p/secret.json"⟩ : Path).startsWith ⟨"/p/locales"⟩ = true :=
      Path.startsWith_iff.mpr (hsteps ▸ List.prefix_append _ _)
    exact absurd hprefix (by decide)
  · have hsteps : (⟨"/p/locales/en/../../secret.json"⟩ : Path).components =
        (⟨"/p/locales"⟩ : Path).components ++
          [.name "en", .parent, .parent, .name "secret.json"] := by decide
    rw [Path.liesBelow_iff hsteps]
    decide

end Store

end KeyLens
