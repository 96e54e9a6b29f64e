import KeyLens.Proofs.Config.Checks
import KeyLens.Proofs.Config.Found
import KeyLens.Proofs.Files.Canonical
import KeyLens.Proofs.Session.Answers

/-!
# A session does not show

Files change between the calls of a session, in any order and in any way that leaves the
configuration files as they are and stamps faithful. As long as the directory of the translations
is neither made nor deleted on the way, each call is answered as a new session would answer it at
that moment. A session looks for that directory once, when a project is first asked for: it does not
see a directory that is made later.
-/

namespace KeyLens

namespace Config

/-- The configuration files that may count for a directory are the same at two moments. -/
structure Unchanged (earlier later : FileTree) (start : Path) : Prop where
  /-- They stand in the same directories. -/
  file : ∀ dir ∈ start.upwards,
    earlier.exists? (dir.join fileName) = later.exists? (dir.join fileName)
  /-- The roots of repositories are the same. -/
  mark : ∀ dir ∈ start.upwards,
    earlier.exists? (dir.join repositoryMark) = later.exists? (dir.join repositoryMark)
  /-- They hold the same text. -/
  text : ∀ dir ∈ start.upwards, earlier.exists? (dir.join fileName) = true →
    earlier.readText (dir.join fileName) = later.readText (dir.join fileName)

variable {earlier later tree : FileTree} {start : Path}

/-- Files that stand in the same directories are found alike. -/
theorem Unchanged.findIn_eq (h : Unchanged earlier later start) {dirs : List Path}
    (hdirs : ∀ dir ∈ dirs, dir ∈ start.upwards) : findIn earlier dirs = findIn later dirs := by
  induction dirs with
  | nil => rfl
  | cons dir rest ih =>
    have hdir := hdirs dir List.mem_cons_self
    rw [findIn, findIn, h.file dir hdir, h.mark dir hdir,
      ih fun other hother => hdirs other (List.mem_cons_of_mem dir hother)]

/-- Where no configuration file stands, nothing changes about them. -/
theorem Unchanged.of_missing
    (hfile : ∀ dir ∈ start.upwards,
      earlier.exists? (dir.join fileName) = false ∧ later.exists? (dir.join fileName) = false)
    (hmark : ∀ dir ∈ start.upwards,
      earlier.exists? (dir.join repositoryMark) = later.exists? (dir.join repositoryMark)) :
    Unchanged earlier later start where
  file := fun dir hdir => (hfile dir hdir).1.trans (hfile dir hdir).2.symm
  mark := hmark
  text := by
    intro dir hdir hexists
    rw [(hfile dir hdir).1] at hexists
    cases hexists

/-- A directory has the same configuration when its configuration files are the same. -/
theorem Unchanged.load_eq (h : Unchanged earlier later start) :
    load earlier start = load later start := by
  have hfind : find? earlier start = find? later start := h.findIn_eq fun _ hdir => hdir
  unfold load
  rw [← hfind]
  cases hpath : find? earlier start with
  | none => rfl
  | some path =>
    obtain ⟨dir, hdir, rfl, hexists⟩ := exists_of_findIn hpath
    simp only [readFile, h.text dir hdir hexists]

end Config

namespace Session

/-- A request with the files of the moment at which it comes. -/
structure Call where
  /-- The files. -/
  tree : FileTree
  /-- The request. -/
  request : Request

/-- The directory that a call is about, without links and dots. -/
def Call.root? (call : Call) : Except FileError Path :=
  call.tree.canonical ⟨call.request.root⟩

/-- The answers of a session to calls that come one after the other. -/
def answers (session : Session) : List Call → List (Except SessionError Json)
  | [] => []
  | call :: rest =>
    let (next, answer) := session.answer call.tree call.request
    answer :: answers next rest

/-- The answers to calls if a new session takes each of them. -/
def answersApart (run : List Call) : List (Except SessionError Json) :=
  run.map fun call => (start.answer call.tree call.request).2

/-- The files at the moments of a run. -/
def moments (run : List Call) : List Provider :=
  run.map fun call => call.tree.provider

/-- A run in which the files change as they may. -/
structure Steady (run : List Call) : Prop where
  /-- Stamps are faithful. -/
  faithful : StampFaithful (moments run)
  /-- Relative paths start at a directory. -/
  grounded : ∀ call ∈ run, call.tree.Stands call.tree.directory .directory
  /-- The configuration files of the directories that are asked for stay the same. -/
  config : ∀ earlier ∈ run, ∀ later ∈ run, ∀ root, earlier.root? = .ok root →
    later.root? = .ok root → Config.Unchanged earlier.tree later.tree root

/-- In a run the directories of translations are neither made nor deleted between two calls that are
about one directory. -/
def LocalesStay (run : List Call) : Prop :=
  ∀ earlier ∈ run, ∀ later ∈ run, ∀ root, earlier.root? = .ok root → later.root? = .ok root →
    ∀ loaded, Config.load earlier.tree root = .ok loaded →
      earlier.tree.isDirectory (loaded.config.localesDir loaded.root) =
        later.tree.isDirectory (loaded.config.localesDir loaded.root)

/-- The answer to a call that follows from the files of the moment. -/
def Call.answerOf (call : Call) : Except SessionError Json := do
  let root ← call.root?.mapError (.noRoot call.request.root)
  let project ← (call.tree.project root Overrides.none).mapError .noProject
  project.answerOf call.tree call.request

/-- Every project that a session keeps was made at a call of the run for its directory, and its
documents were read at moments of the run. -/
def Keeps (session : Session) (run : List Call) : Prop :=
  ∀ root kept, session.find? root = some kept →
    (∃ call ∈ run, call.root? = .ok root ∧
      call.tree.project root Overrides.none = .ok kept.project) ∧ kept.Serves (moments run)

variable {session : Session} {run : List Call} {call : Call} {root : Path} {kept : KeptProject}

/-! ### What is kept -/

/-- A new session keeps nothing. -/
theorem keeps_start (run : List Call) : start.Keeps run := by
  intro root kept hfind
  cases hfind

/-- Keeping a project leaves what is kept for other directories. -/
theorem find?_keep (hfind : session.find? root = none) (other : Path) :
    (session.keep root kept).1.find? other =
      if other = root then some kept else session.find? other := by
  simp only [keep, hfind]
  simp only [find?, List.lookup_append]
  by_cases hother : other = root
  · subst hother
    rw [find?] at hfind
    simp [hfind]
  · have hne : (other == root) = false := beq_eq_false_iff_ne.mpr hother
    simp [hother, List.lookup_cons, hne]

/-- Other translations for the project of a directory leave all other projects. -/
theorem find?_withStore (session : Session) (root other : Path) (store : Store) :
    (session.withStore root store).find? other =
      (session.find? other).map fun kept =>
        if other = root then { kept with store := store } else kept := by
  simp only [find?, withStore]
  induction session.kept with
  | nil => rfl
  | cons entry rest ih =>
    obtain ⟨path, kept⟩ := entry
    rw [List.map_cons, List.lookup_cons, List.lookup_cons, ih]
    by_cases hpath : other = path
    · simp [hpath]
    · have hne : (other == path) = false := beq_eq_false_iff_ne.mpr hpath
      simp [hne]

/-- A project for which other documents are kept was made at the same call. -/
theorem Keeps.withStore (h : session.Keeps run) (hfind : session.find? root = some kept)
    {store : Store} (hstore : store.Serves kept.project.localesDir (moments run)) :
    (session.withStore root store).Keeps run := by
  intro other found hfound
  rw [find?_withStore] at hfound
  obtain ⟨earlier, hearlier, rfl⟩ := Option.map_eq_some_iff.mp hfound
  split
  · next hother =>
    subst hother
    rw [hfind] at hearlier
    cases hearlier
    exact ⟨(h other kept hfind).1, hstore⟩
  · exact h other earlier hearlier

/-- A project that is made at a call of the run may be kept. -/
theorem Keeps.keep (h : session.Keeps run) (hfind : session.find? root = none) (hcall : call ∈ run)
    (hroot : call.root? = .ok root) {project : Project}
    (hproject : call.tree.project root Overrides.none = .ok project) :
    (session.keep root ⟨project, project.store⟩).1.Keeps run := by
  intro other found hfound
  rw [find?_keep hfind] at hfound
  split at hfound
  · next hother =>
    subst hother
    cases hfound
    exact ⟨⟨call, hcall, hroot, hproject⟩, KeptProject.serves_store project (moments run)⟩
  · exact h other found hfound

/-! ### Projects stay the same -/

/-- A directory of which a project can be made is its own canonical spelling. -/
theorem isSpelling_of_project {tree : FileTree} {project : Project}
    (h : tree.project root Overrides.none = .ok project) : FileTree.IsSpelling root := by
  cases hcanonical : tree.canonical root with
  | error failure =>
    rw [FileTree.project, hcanonical] at h
    cases h
  | ok path =>
    obtain ⟨names, entry, hresolve, -⟩ := FileTree.resolve_of_canonical hcanonical
    exact FileTree.isSpelling_of_resolve hresolve

/-- The project of a directory is the same at two calls of a run. -/
theorem Steady.project_eq {earlier later : Call} {project : Project} (hsteady : Steady run)
    (hlocales : LocalesStay run) (hearlier : earlier ∈ run) (hlater : later ∈ run)
    (hroot : earlier.root? = .ok root) (hroot' : later.root? = .ok root)
    (hproject : earlier.tree.project root Overrides.none = .ok project) :
    later.tree.project root Overrides.none = .ok project := by
  have hspelling := isSpelling_of_project hproject
  have hcanonical := FileTree.canonical_canonical (hsteady.grounded earlier hearlier) hroot hspelling
  have hcanonical' := FileTree.canonical_canonical (hsteady.grounded later hlater) hroot' hspelling
  have hload := (hsteady.config earlier hearlier later hlater root hroot hroot').load_eq
  have hdirectory := hlocales earlier hearlier later hlater root hroot hroot'
  rw [← hproject]
  simp only [FileTree.project, hcanonical, hcanonical', Except.mapError, bind, Except.bind, ← hload]
  cases hloaded : Config.load earlier.tree root with
  | error failure => rfl
  | ok loaded =>
    have hsame : later.tree.isDirectory
          ((loaded.config.withOverrides Overrides.none).localesDir loaded.root) =
        earlier.tree.isDirectory
          ((loaded.config.withOverrides Overrides.none).localesDir loaded.root) :=
      (hdirectory loaded hloaded).symm
    simp only [hsame]

/-! ### Calls -/

/-- A call about a directory of which a project can be made is answered from that project. -/
theorem Call.answerOf_eq {project : Project} (hroot : call.root? = .ok root)
    (hproject : call.tree.project root Overrides.none = .ok project) :
    call.answerOf = project.answerOf call.tree call.request := by
  rw [Call.answerOf, hroot]
  simp only [Except.mapError, bind, Except.bind, hproject]

/-- A session finds the project of a call as the files of the moment tell it, and keeps projects of
the run only. -/
theorem Keeps.context (h : session.Keeps run) (hsteady : Steady run) (hlocales : LocalesStay run)
    (hcall : call ∈ run) :
    (session.context call.tree call.request.root).1.Keeps run ∧
      ((∃ failure, (session.context call.tree call.request.root).2 = .error failure ∧
        call.answerOf = .error failure) ∨
      ∃ root kept, (session.context call.tree call.request.root).2 = .ok (root, kept) ∧
        (session.context call.tree call.request.root).1.find? root = some kept ∧
        call.answerOf = kept.project.answerOf call.tree call.request) := by
  cases hroot : call.tree.canonical ⟨call.request.root⟩ with
  | error failure =>
    simp only [Session.context, hroot]
    refine ⟨h, Or.inl ⟨_, rfl, ?_⟩⟩
    rw [Call.answerOf, Call.root?, hroot]
    rfl
  | ok root =>
    cases hfind : session.find? root with
    | some kept =>
      simp only [Session.context, hroot, hfind]
      obtain ⟨⟨earlier, hearlier, hroot', hproject⟩, -⟩ := h root kept hfind
      have hsame := hsteady.project_eq hlocales hearlier hcall hroot' hroot hproject
      exact ⟨h, Or.inr ⟨root, kept, rfl, hfind, Call.answerOf_eq hroot hsame⟩⟩
    | none =>
      cases hproject : call.tree.project root Overrides.none with
      | error failure =>
        simp only [Session.context, hroot, hfind, build, hproject, Except.mapError, Except.map]
        refine ⟨h, Or.inl ⟨_, rfl, ?_⟩⟩
        rw [Call.answerOf, Call.root?, hroot]
        simp only [Except.mapError, bind, Except.bind, hproject]
      | ok project =>
        have hkept := h.keep hfind hcall hroot hproject
        have hfound : (session.keep root ⟨project, project.store⟩).1.find? root =
            some ⟨project, project.store⟩ := by
          rw [find?_keep hfind, if_pos rfl]
        have hfirst : (session.keep root ⟨project, project.store⟩).2 =
            ⟨project, project.store⟩ := by
          rw [Session.keep, hfind]
        simp only [Session.context, hroot, hfind, build, hproject, Except.mapError, Except.map, hfirst]
        exact ⟨hkept, Or.inr ⟨root, _, rfl, hfound, Call.answerOf_eq hroot hproject⟩⟩

/-- A call is answered as the files of the moment tell, and what is kept after it are projects of
the run with documents that were read in it. -/
theorem Keeps.answer (h : session.Keeps run) (hsteady : Steady run) (hlocales : LocalesStay run)
    (hcall : call ∈ run) :
    (session.answer call.tree call.request).2 = call.answerOf ∧
      (session.answer call.tree call.request).1.Keeps run := by
  obtain ⟨hnext, hfound⟩ := h.context hsteady hlocales hcall
  unfold Session.answer
  generalize session.context call.tree call.request.root = found at hnext hfound ⊢
  obtain ⟨next, found⟩ := found
  rcases hfound with ⟨failure, rfl, hanswer⟩ | ⟨root, kept, rfl, hfind, hanswer⟩
  · exact ⟨hanswer.symm, hnext⟩
  · have hmoment : call.tree.provider ∈ moments run :=
      List.mem_map_of_mem (f := fun call : Call => call.tree.provider) hcall
    have hagrees := (hnext root kept hfind).2.agrees hsteady.faithful hmoment call.request
    rw [hanswer, ← hagrees.value_eq]
    cases hresult : kept.answer call.tree call.request with
    | error failure =>
      simp only [hresult]
      exact ⟨rfl, hnext⟩
    | ok result =>
      simp only [hresult]
      exact ⟨rfl, hnext.withStore hfind (hagrees.serves result.1 result.2 hresult)⟩

/-- A session that keeps projects of the run only answers calls of the run as the files of their
moments tell. -/
theorem Keeps.answers_eq {calls : List Call} (h : session.Keeps run) (hsteady : Steady run)
    (hlocales : LocalesStay run) (hcalls : ∀ call ∈ calls, call ∈ run) :
    session.answers calls = calls.map Call.answerOf := by
  induction calls generalizing session with
  | nil => rfl
  | cons call rest ih =>
    obtain ⟨hanswer, hnext⟩ := h.answer hsteady hlocales (hcalls call List.mem_cons_self)
    have hrest := ih hnext fun other hother => hcalls other (List.mem_cons_of_mem call hother)
    simp only [answers, List.map_cons, hanswer, hrest]

/-- A session answers each call of a run as a new session would answer it. -/
theorem answers_eq_answersApart (run : List Call) (hsteady : Steady run)
    (hlocales : LocalesStay run) : start.answers run = answersApart run := by
  rw [(keeps_start run).answers_eq hsteady hlocales fun _ hcall => hcall, answersApart]
  refine List.map_congr_left fun call hcall => ?_
  exact ((keeps_start run).answer hsteady hlocales hcall).1.symm

/-! ### A project in the root -/

/-- A run of calls about the root, which has neither a configuration file nor the mark of a
repository. -/
structure Plain (run : List Call) : Prop where
  /-- The calls are about the root. -/
  root : ∀ call ∈ run, call.request.root = "/"
  /-- The root has no configuration file. -/
  no_file : ∀ call ∈ run, call.tree.get? [Config.fileName] = none
  /-- The root is no repository. -/
  no_mark : ∀ call ∈ run, call.tree.get? [Config.repositoryMark] = none
  /-- Relative paths start at the root. -/
  directory : ∀ call ∈ run, call.tree.directory = []

namespace Plain

/-- An entry that the root does not have leads to nothing. -/
theorem exists?_eq_false {tree : FileTree} {path : Path} {name : String}
    (hpath : FileTree.pathOf [name] = path) (hspelling : FileTree.IsSpelling path)
    (hname : FileTree.IsName name) (hmissing : tree.get? [name] = none) :
    tree.exists? path = false := by
  have hdescend : tree.descend? [] [name] = some (.error .notFound) := by
    rw [FileTree.descend?, List.nil_append, hmissing]
  rw [FileTree.exists?,
    FileTree.resolve_of_descend? hpath hspelling (by simpa using hname) hdescend]
  rfl

/-- No configuration file is found. -/
theorem exists_file (h : Plain run) (hcall : call ∈ run) :
    call.tree.exists? ⟨"/.i18nlensrc.json"⟩ = false :=
  exists?_eq_false (by decide) (by decide) (by decide) (h.no_file call hcall)

/-- No mark of a repository is found. -/
theorem exists_mark (h : Plain run) (hcall : call ∈ run) :
    call.tree.exists? ⟨"/.git"⟩ = false :=
  exists?_eq_false (by decide) (by decide) (by decide) (h.no_mark call hcall)

/-- The calls are about the root. -/
theorem root?_eq (h : Plain run) (hcall : call ∈ run) : call.root? = .ok ⟨"/"⟩ := by
  have hresolve : call.tree.resolve ⟨"/"⟩ = .ok ([], .directory) :=
    FileTree.resolve_of_descend? (show FileTree.pathOf [] = _ by decide) (by decide) (by simp) rfl
  rw [Call.root?, h.root call hcall, FileTree.canonical, hresolve]
  rfl

/-- The configuration is the default. -/
theorem load_eq (h : Plain run) (hcall : call ∈ run) :
    Config.load call.tree ⟨"/"⟩ = .ok ⟨Config.default, false, ⟨"/"⟩⟩ := by
  have hfind : Config.find? call.tree ⟨"/"⟩ = none := by
    have hupwards : Path.upwards ⟨"/"⟩ = [⟨"/"⟩] := by decide
    have hfile : Path.join ⟨"/"⟩ Config.fileName = ⟨"/.i18nlensrc.json"⟩ := by decide
    have hmark : Path.join ⟨"/"⟩ Config.repositoryMark = ⟨"/.git"⟩ := by decide
    simp [Config.find?, hupwards, Config.findIn, hfile, hmark, h.exists_file hcall,
      h.exists_mark hcall]
  rw [Config.load, hfind]

/-- The project of the root depends on the directory of the translations alone. -/
theorem project_eq (h : Plain run) (hcall : call ∈ run) :
    call.tree.project ⟨"/"⟩ Overrides.none = .ok ⟨Config.default, ⟨"/"⟩, false,
      if call.tree.isDirectory ⟨"/public/locales"⟩ then some ⟨"/public/locales"⟩ else none⟩ := by
  have hcanonical := h.root?_eq hcall
  rw [Call.root?, h.root call hcall] at hcanonical
  have hcheck : (Config.default.withOverrides Overrides.none).check = .ok () :=
    Config.check_default
  have hdir : (Config.default.withOverrides Overrides.none).localesDir ⟨"/"⟩ =
      ⟨"/public/locales"⟩ := by decide
  simp only [FileTree.project, hcanonical, Except.mapError, bind, Except.bind, h.load_eq hcall, hcheck,
    hdir]
  rfl

/-- The configuration files do not change. -/
theorem steady (h : Plain run) (hfaithful : StampFaithful (moments run)) : Steady run where
  faithful := hfaithful
  grounded := by
    intro call hcall
    rw [h.directory call hcall]
    exact FileTree.Stands.root call.tree
  config := by
    intro earlier hearlier later hlater root hroot _
    rw [h.root?_eq hearlier] at hroot
    cases hroot
    have hupwards : Path.upwards ⟨"/"⟩ = [⟨"/"⟩] := by decide
    apply Config.Unchanged.of_missing
    all_goals
      intro dir hdir
      rw [hupwards, List.mem_singleton] at hdir
      subst hdir
    · exact ⟨h.exists_file hearlier, h.exists_file hlater⟩
    · exact (h.exists_mark hearlier).trans (h.exists_mark hlater).symm

/-- The directory of the translations stays if it is there at all calls. -/
theorem localesStay (h : Plain run)
    (hdir : ∀ call ∈ run, call.tree.isDirectory ⟨"/public/locales"⟩ = true) : LocalesStay run := by
  intro earlier hearlier later hlater root hroot _ loaded hloaded
  rw [h.root?_eq hearlier] at hroot
  cases hroot
  rw [h.load_eq hearlier] at hloaded
  cases hloaded
  have hpath : Config.default.localesDir ⟨"/"⟩ = ⟨"/public/locales"⟩ := by decide
  rw [hpath, hdir earlier hearlier, hdir later hlater]

end Plain

/-- The files of a project in the root that has one document of translations. -/
def translatedFiles (text : String) (time : Nat) : FileTree where
  entries := [(["public"], .directory), (["public", "locales"], .directory),
    (["public", "locales", "en"], .directory),
    (["public", "locales", "en", "common.json"], .file (.text text) time)]
  directory := []

/-- The time of a stamp is that of the document. -/
theorem modified_of_stamp?_translatedFiles {text : String} {time : Nat} {path : Path}
    {stamp : Stamp} (h : (translatedFiles text time).stamp? path = some stamp) :
    stamp.modified = time := by
  obtain ⟨names, content, modified, hentry, rfl⟩ := FileTree.exists_entry_of_stamp? h
  unfold FileTree.get? at hentry
  split at hentry
  · cases hentry
  · obtain ⟨before, after, hentries, -⟩ := List.lookup_eq_some_iff.mp hentry
    have hmem : (names, Entry.file content modified) ∈ (translatedFiles text time).entries := by
      rw [hentries]
      exact List.mem_append_right before List.mem_cons_self
    simp only [translatedFiles, List.mem_cons, Prod.mk.injEq, reduceCtorEq, and_false, false_or,
      Entry.file.injEq, List.not_mem_nil, or_false] at hmem
    exact hmem.2.2

/-- The directory of the translations is there. -/
theorem isDirectory_translatedFiles (text : String) (time : Nat) :
    (translatedFiles text time).isDirectory ⟨"/public/locales"⟩ = true := by
  have hresolve : (translatedFiles text time).resolve ⟨"/public/locales"⟩ =
      .ok (["public", "locales"], .directory) :=
    FileTree.resolve_of_descend? (show FileTree.pathOf ["public", "locales"] = _ by decide)
      (by decide) (by decide) rfl
  rw [FileTree.isDirectory, hresolve]

/-- A run in which a key is asked for before and after its document is edited. -/
theorem answers_around_edit :
    let ask : Request := .resolve "/" "a" none none
    let old := translatedFiles "\x7b\"a\":\"old\"\x7d" 1
    let new := translatedFiles "\x7b\"a\":\"new\"\x7d" 2
    let run : List Call := [⟨old, ask⟩, ⟨new, ask⟩]
    Steady run ∧ LocalesStay run ∧ start.answers run = answersApart run := by
  intro ask old new run
  have hplain : Plain run := by
    constructor
    all_goals
      intro call hcall
      simp only [run, List.mem_cons, List.not_mem_nil, or_false] at hcall
      rcases hcall with rfl | rfl <;> rfl
  have hfaithful : StampFaithful ([old, new].map FileTree.provider) := by
    refine FileTree.stampFaithful_of_spelling ?_
    simp only [List.forall_mem_cons, List.not_mem_nil, IsEmpty.forall_iff, implies_true, and_true,
      true_and]
    refine ⟨fun path stamp hold hnew => ?_, fun path stamp hnew hold => ?_⟩
    all_goals
      have hfirst := modified_of_stamp?_translatedFiles hold
      have hsecond := modified_of_stamp?_translatedFiles hnew
      rw [hfirst] at hsecond
      cases hsecond
  have hlocales : LocalesStay run := by
    refine hplain.localesStay fun call hcall => ?_
    simp only [run, List.mem_cons, List.not_mem_nil, or_false] at hcall
    rcases hcall with rfl | rfl <;> exact isDirectory_translatedFiles _ _
  exact ⟨hplain.steady hfaithful, hlocales,
    answers_eq_answersApart run (hplain.steady hfaithful) hlocales⟩

/-- A directory of translations that is made after a project has been asked for is not seen: the
languages are asked for before and after it is made. -/
theorem answers_ne_answersApart_of_made_directory :
    let ask : Request := .languages "/"
    let run : List Call := [⟨⟨[], []⟩, ask⟩, ⟨translatedFiles "\x7b\x7d" 1, ask⟩]
    Steady run ∧ start.answers run ≠ answersApart run := by
  intro ask run
  have hplain : Plain run := by
    constructor
    all_goals
      intro call hcall
      simp only [run, List.mem_cons, List.not_mem_nil, or_false] at hcall
      rcases hcall with rfl | rfl <;> rfl
  have hbare : ∀ path stamp, (⟨[], []⟩ : FileTree).stamp? path ≠ some stamp := by
    intro path stamp h
    obtain ⟨names, content, modified, hentry, -⟩ := FileTree.exists_entry_of_stamp? h
    unfold FileTree.get? at hentry
    split at hentry <;> cases hentry
  have hfaithful :
      StampFaithful ([⟨[], []⟩, translatedFiles "\x7b\x7d" 1].map FileTree.provider) := by
    refine FileTree.stampFaithful_of_spelling ?_
    simp only [List.forall_mem_cons, List.not_mem_nil, IsEmpty.forall_iff, implies_true, and_true,
      true_and]
    exact ⟨fun path stamp hbefore => absurd hbefore (hbare path stamp),
      fun path stamp _ hbefore => absurd hbefore (hbare path stamp)⟩
  refine ⟨hplain.steady hfaithful, ?_⟩
  have hmissing : (⟨[], []⟩ : FileTree).isDirectory ⟨"/public/locales"⟩ = false := by
    have hresolve : (⟨[], []⟩ : FileTree).resolve ⟨"/public/locales"⟩ = .error .notFound :=
      FileTree.resolve_of_descend? (show FileTree.pathOf ["public", "locales"] = _ by decide)
        (by decide) (by decide) rfl
    rw [FileTree.isDirectory, hresolve]
  have hbefore := hplain.project_eq List.mem_cons_self
  have hafter := hplain.project_eq (List.mem_cons_of_mem _ List.mem_cons_self)
  have hroot := hplain.root?_eq List.mem_cons_self
  have hroot' := hplain.root?_eq (List.mem_cons_of_mem _ List.mem_cons_self)
  simp only [hmissing, isDirectory_translatedFiles] at hbefore hafter
  simp only [Call.root?, ask, Request.root] at hroot hroot'
  -- The project that is kept has no directory of translations, a new one has.
  simp [run, ask, answers, answersApart, Session.answer, Session.context, Request.root, hroot,
    hroot', hbefore, hafter, build, start, find?, Except.mapError, Except.map, Session.keep,
    KeptProject.answer, Session.withStore, Project.languagesJson]

end Session

end KeyLens
