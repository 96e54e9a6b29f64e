import KeyLens.Proofs.Config.Loading
import KeyLens.Proofs.Config.RoundTrip
import KeyLens.Proofs.Files.WrittenAt
import KeyLens.Proofs.Session.Transparency

/-!
# Configurations that are written to their project

The configuration that a session tells of a project, written to the configuration file in the root
that it tells, is what another session tells of that project. The configuration file is then the
one that counts, whether it was there before or not.
-/

namespace KeyLens

open FileTree (IsName pathOf WrittenAt)

namespace Config

variable {tree later : FileTree} {start dir : Path} {loaded : Loaded} {text : String}

/-- The root of a loaded configuration spells some names and is its own canonical spelling, and the
file that counts, if there is one, stands in it. -/
theorem root_of_load (hdirectory : tree.Stands tree.directory .directory)
    (hstart : tree.canonical start = .ok dir) (hdir : tree.canonical dir = .ok dir)
    (hload : load tree dir = .ok loaded) :
    (∃ place, (∀ name ∈ place, IsName name) ∧ loaded.root = pathOf place) ∧
      tree.canonical loaded.root = .ok loaded.root ∧
      (loaded.root = dir ∨ find? tree dir = some (loaded.root.join fileName) ∧
        ∃ text, tree.readText (loaded.root.join fileName) = .ok text) := by
  obtain ⟨names, entry, hresolve, rfl⟩ := FileTree.resolve_of_canonical hstart
  obtain ⟨hstands, hlink⟩ := FileTree.stands_of_resolve hdirectory hresolve
  rcases eq_of_load hload with ⟨-, rfl⟩ | ⟨path, hfind, hread, hloaded⟩
  · exact ⟨⟨names, hstands.isName, rfl⟩, hdir, Or.inl rfl⟩
  · obtain ⟨place, hplace, rfl⟩ := exists_place_of_find? hstands.isName hfind
    have hnames : ∀ name ∈ place, IsName name :=
      fun name hname => hstands.isName name (hplace.subset hname)
    have hroot : loaded.root = pathOf place := by
      rw [hloaded, parent?_join_fileName hnames]
      rfl
    have hspelling : FileTree.IsSpelling (pathOf names) := by
      obtain ⟨found, other, hfound, -⟩ := FileTree.resolve_of_canonical hdir
      exact FileTree.isSpelling_of_resolve hfound
    obtain ⟨text, htext, -, -⟩ := readFile_eq_ok_iff.mp hread
    rw [hroot]
    exact ⟨⟨place, hnames, rfl⟩, hstands.canonical_of_prefix hlink hspelling hplace,
      Or.inr ⟨hfind, text, htext⟩⟩

/-- The same configuration file counts for a directory after a text was written to a file that could
be read before. -/
theorem find?_of_writtenAt {path : Path} {before : String}
    (hwritten : WrittenAt tree later path text) (hbefore : tree.readText path = .ok before)
    (start : Path) : find? later start = find? tree start := by
  obtain ⟨names, modified, hlater, hwritten⟩ := hwritten
  obtain ⟨found, earlier, hresolve⟩ := FileTree.resolve_of_readText hbefore
  obtain ⟨other, hother, -⟩ := hwritten.resolve_eq_ok hresolve
  obtain rfl : found = names := by
    rw [hlater] at hother
    exact (Prod.mk.inj (Except.ok.inj hother)).1.symm
  exact find?_of_written hwritten ⟨_, _, FileTree.get?_of_resolve hresolve⟩ start

/-- A loaded configuration that was written to the configuration file in its root is loaded from
there, for the same directory and for the root. -/
theorem load_of_writtenAt (hdirectory : tree.Stands tree.directory .directory)
    (hstart : tree.canonical start = .ok dir) (hdir : tree.canonical dir = .ok dir)
    (hload : load tree dir = .ok loaded)
    (htext : text = loaded.config.toJson.pretty ∨ text = loaded.config.toJson.compact)
    (hwritten : WrittenAt tree later (loaded.root.join fileName) text) :
    later.canonical loaded.root = .ok loaded.root ∧
      ∀ place, place = dir ∨ place = loaded.root →
        load later place = .ok ⟨loaded.config, true, loaded.root⟩ := by
  obtain ⟨⟨names, hnames, hroot⟩, hcanonical, hfile⟩ := root_of_load hdirectory hstart hdir hload
  have hparent : (loaded.root.join fileName).parent? = some loaded.root := by
    rw [hroot]
    exact parent?_join_fileName hnames
  have hfound : find? later loaded.root = some (loaded.root.join fileName) :=
    find?_of_exists hwritten.exists?_eq
  have hfind : find? later dir = some (loaded.root.join fileName) := by
    rcases hfile with hsame | ⟨hbefore, old, hread⟩
    · rw [← hsame]
      exact hfound
    · rw [find?_of_writtenAt hwritten hread, hbefore]
  have hloaded : ∀ place, find? later place = some (loaded.root.join fileName) →
      load later place = .ok ⟨loaded.config, true, loaded.root⟩ := by
    intro place hplace
    rw [load_of_find? hplace, hparent,
      readFile_of_read hwritten.readText_eq (read_toJson loaded.config htext), check_of_load hload]
    rfl
  obtain ⟨written, modified, -, hentries⟩ := hwritten
  refine ⟨hentries.canonical_eq_ok hcanonical, fun place hplace => ?_⟩
  rcases hplace with rfl | rfl
  · exact hloaded place hfind
  · exact hloaded loaded.root hfound

end Config

namespace Session

variable {tree later : FileTree} {given : String} {dir : Path} {loaded : Config.Loaded}

/-- A new session tells the loaded configuration of a directory, with its root. -/
theorem answer_config (hgiven : tree.canonical ⟨given⟩ = .ok dir)
    (hdir : tree.canonical dir = .ok dir) (hload : Config.load tree dir = .ok loaded) :
    (start.answer tree (.config given)).2 =
      .ok (loaded.toProject tree Overrides.none).toJson := by
  simp only [answer, context, Request.root, hgiven, find?, start, List.lookup_nil, build,
    Config.project_none_of_load hdir hload, Except.mapError, Except.map, keep, KeptProject.answer]

/-- A printed configuration is read as the parts that are left in it and the defaults of the others,
as itself if none is left out. The configuration that a new session tells of a project, written to
the configuration file in the root that it tells, is what a new session then tells of the directory
that was asked for, and of that root. -/
theorem config_of_written :
    (∀ (config : Config) (omitted : List Config.Field), ∃ found,
      Config.read (config.toJson.without (omitted.map Config.Field.name)).pretty = .ok found ∧
        ∀ field, found.value field =
          if field ∈ omitted then Config.default.value field else config.value field) ∧
    (∀ (config : Config) text, text = config.toJson.pretty ∨ text = config.toJson.compact →
      Config.read text = .ok config) ∧
    ∀ (tree : FileTree) (given : String) (dir : Path) (project : Project),
      tree.Stands tree.directory .directory → tree.canonical ⟨given⟩ = .ok dir →
      tree.project dir Overrides.none = .ok project →
        ∃ answer root object, (start.answer tree (.config given)).2 = .ok answer ∧
          answer.get? "projectRoot" = some (.string root) ∧
          answer.get? "config" = some object ∧
          ∀ text, text = object.pretty ∨ text = object.compact →
          ∀ later, tree.WrittenAt later ((Path.mk root).join Config.fileName) text →
            ∀ again, again = given ∨ again = root →
              ∃ other, (start.answer later (.config again)).2 = .ok other ∧
                other.get? "projectRoot" = some (.string root) ∧
                other.get? "config" = some object := by
  refine ⟨Config.read_without, fun config _ => Config.read_toJson config, ?_⟩
  intro tree given dir project hdirectory hgiven hproject
  have hdir := FileTree.canonical_canonical hdirectory hgiven (isSpelling_of_project hproject)
  obtain ⟨same, loaded, hsame, hload, -, rfl⟩ := Config.exists_of_project hproject
  obtain rfl : dir = same := Except.ok.inj (hdir.symm.trans hsame)
  refine ⟨_, loaded.root.text, loaded.config.toJson, answer_config hgiven hdir hload, rfl, rfl, ?_⟩
  intro text htext later hwritten again hagain
  obtain ⟨hroot, hloaded⟩ := Config.load_of_writtenAt hdirectory hgiven hdir hload htext hwritten
  obtain ⟨names, modified, -, hentries⟩ := hwritten
  rcases hagain with rfl | rfl
  · exact ⟨_, answer_config (hentries.canonical_eq_ok hgiven) (hentries.canonical_eq_ok hdir)
      (hloaded dir (Or.inl rfl)), rfl, rfl⟩
  · exact ⟨_, answer_config hroot hroot (hloaded loaded.root (Or.inr rfl)), rfl, rfl⟩

end Session

namespace configured

/-- The text of a configuration file whose language is a control character and a quotation mark. -/
def escaped : String := inLanguage "\\u0007\\\""

/-- A language of a control character and a quotation mark is told, written and told again. -/
theorem config_of_escaped_language :
    let tree := configured escaped
    let config := { Config.default with inlineLanguage := "\x07\"" }
    tree.Stands tree.directory .directory ∧ tree.canonical ⟨"/"⟩ = .ok ⟨"/"⟩ ∧
      (∃ project, tree.project ⟨"/"⟩ Overrides.none = .ok project) ∧
      ∃ answer later other, (Session.start.answer tree (.config "/")).2 = .ok answer ∧
        answer.get? "config" = some config.toJson ∧
        tree.write ⟨"/.i18nlensrc.json"⟩ config.toJson.pretty 2 = .ok later ∧
        tree.WrittenAt later ⟨"/.i18nlensrc.json"⟩ config.toJson.pretty ∧
        (Session.start.answer later (.config "/")).2 = .ok other ∧
        other.get? "config" = some config.toJson := by
  intro tree config
  have hread : Config.read escaped = .ok config := Config.read_eq_ok (by decide +kernel)
  have hcheck : config.check = .ok () := Config.check_eq_ok (by decide +kernel)
  have hload := load_eq hread
  rw [hcheck] at hload
  obtain ⟨project, hproject, -⟩ := @exists_project _ _ Overrides.none hread hcheck hcheck
  have hstands : tree.Stands tree.directory .directory := FileTree.Stands.root tree
  have hanswer := Session.answer_config (canonical_root escaped) (canonical_root escaped) hload
  obtain ⟨later, hwrite, hwritten⟩ := FileTree.exists_writtenAt (FileTree.Stands.root tree)
    Config.isName_fileName (show FileTree.IsSpelling (pathOf ([] ++ [Config.fileName])) by decide)
    (Or.inr ⟨_, _, rfl⟩) config.toJson.pretty 2
  obtain ⟨-, -, hsurvives⟩ := Session.config_of_written
  obtain ⟨answer, root, object, htold, hroot, hobject, hagain⟩ :=
    hsurvives tree "/" ⟨"/"⟩ project hstands (canonical_root escaped) hproject
  obtain rfl := Except.ok.inj (hanswer.symm.trans htold)
  obtain rfl : "/" = root := Json.string.inj (Option.some.inj hroot)
  obtain rfl : config.toJson = object := Option.some.inj hobject
  obtain ⟨other, hother, -, hsame⟩ := hagain _ (Or.inl rfl) later hwritten "/" (Or.inl rfl)
  exact ⟨hstands, canonical_root escaped, ⟨project, hproject⟩, _, later, other, htold, rfl, hwrite,
    hwritten, hother, hsame⟩

end configured

end KeyLens
