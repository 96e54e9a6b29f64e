import KeyLens.Project
import KeyLens.Proofs.Config.Checks
import KeyLens.Proofs.Config.Found

/-!
# Loaded configurations

A configuration that is loaded from a file was read from its text and can be used; one that is not
stands for a project that says nothing. A project is made from a loaded configuration, with the
values that take precedence over it.
-/

namespace KeyLens

/-- Of two steps that succeed the first one does, and the second one does with its value. -/
theorem exists_of_bind_eq_ok {ε α β : Type} {result : Except ε α} {next : α → Except ε β}
    {value : β} (h : (result >>= next) = .ok value) :
    ∃ found, result = .ok found ∧ next found = .ok value := by
  cases result with
  | error failure => cases h
  | ok found => exact ⟨found, rfl, h⟩

/-- A result that is a success whatever failures are called is one. -/
theorem eq_ok_of_mapError {ε δ α : Type} {result : Except ε α} {name : ε → δ} {value : α}
    (h : result.mapError name = .ok value) : result = .ok value := by
  cases result with
  | error failure => cases h
  | ok found => exact congrArg _ (Except.ok.inj h)

namespace Config

variable {tree : FileTree} {start dir path : Path} {text : String} {config : Config}
  {loaded : Loaded}

/-- A file with the text of a configuration gives it if it can be used. -/
theorem readFile_of_read (htext : tree.readText path = .ok text) (hread : read text = .ok config) :
    readFile tree path = (config.check.mapError .invalid).map fun _ => config := by
  rw [readFile, htext]
  simp only [Except.mapError, bind, Except.bind, hread]
  cases config.check <;> rfl

/-- A file gives a configuration exactly if its text does and it can be used. -/
theorem readFile_eq_ok_iff :
    readFile tree path = .ok config ↔
      ∃ text, tree.readText path = .ok text ∧ read text = .ok config ∧ config.check = .ok () := by
  constructor
  · intro h
    obtain ⟨text, htext, h⟩ := exists_of_bind_eq_ok h
    obtain ⟨found, hread, h⟩ := exists_of_bind_eq_ok h
    obtain ⟨⟨⟩, hcheck, h⟩ := exists_of_bind_eq_ok h
    cases h
    exact ⟨text, eq_ok_of_mapError htext, eq_ok_of_mapError hread, eq_ok_of_mapError hcheck⟩
  · rintro ⟨text, htext, hread, hcheck⟩
    rw [readFile_of_read htext hread, hcheck]
    rfl

/-- A text that gives a configuration is read with success. -/
theorem read_eq_ok (h : (read text).toOption = some config) : read text = .ok config := by
  cases hread : read text with
  | error failure =>
    rw [hread] at h
    cases h
  | ok found =>
    rw [hread] at h
    cases h
    rfl

/-- Where no configuration file counts, the configuration is the default. -/
theorem load_of_missing (hfind : find? tree start = none) :
    load tree start = .ok ⟨default, false, start⟩ := by
  rw [load, hfind]

/-- Where a configuration file counts, the configuration is the one that it gives. -/
theorem load_of_find? (hfind : find? tree start = some path) :
    load tree start =
      (readFile tree path).map fun config => ⟨config, true, path.parent?.getD start⟩ := by
  rw [load, hfind]

/-- A configuration that is loaded is the default, or is given by the file that counts. -/
theorem eq_of_load (h : load tree start = .ok loaded) :
    (find? tree start = none ∧ loaded = ⟨default, false, start⟩) ∨
      ∃ path, find? tree start = some path ∧ readFile tree path = .ok loaded.config ∧
        loaded = ⟨loaded.config, true, path.parent?.getD start⟩ := by
  cases hfind : find? tree start with
  | none =>
    rw [load_of_missing hfind] at h
    cases h
    exact Or.inl ⟨rfl, rfl⟩
  | some path =>
    rw [load_of_find? hfind] at h
    cases hread : readFile tree path with
    | error error =>
      rw [hread] at h
      cases h
    | ok config =>
      rw [hread] at h
      cases h
      exact Or.inr ⟨path, rfl, hread, rfl⟩

/-- A configuration that is loaded can be used. -/
theorem check_of_load (h : load tree start = .ok loaded) : loaded.config.check = .ok () := by
  rcases eq_of_load h with ⟨-, rfl⟩ | ⟨path, -, hread, -⟩
  · exact check_default
  · obtain ⟨text, -, -, hcheck⟩ := readFile_eq_ok_iff.mp hread
    exact hcheck

/-- The project of a loaded configuration with values that take precedence over it. -/
def Loaded.toProject (tree : FileTree) (overrides : Overrides) (loaded : Loaded) : Project :=
  let config := loaded.config.withOverrides overrides
  let dir := config.localesDir loaded.root
  ⟨config, loaded.root, loaded.fromFile, if tree.isDirectory dir then some dir else none⟩

/-- A directory with a loaded configuration has its project if this can be used with the values
that take precedence over it. -/
theorem project_of_load {overrides : Overrides} (hcanonical : tree.canonical start = .ok dir)
    (hload : load tree dir = .ok loaded) :
    tree.project start overrides =
      ((loaded.config.withOverrides overrides).check.mapError .invalid).map
        fun _ => loaded.toProject tree overrides := by
  simp only [FileTree.project, hcanonical, Except.mapError, bind, Except.bind, hload]
  cases (loaded.config.withOverrides overrides).check <;> rfl

/-- A project is that of a loaded configuration. -/
theorem exists_of_project {overrides : Overrides} {project : Project}
    (h : tree.project start overrides = .ok project) :
    ∃ dir loaded, tree.canonical start = .ok dir ∧ load tree dir = .ok loaded ∧
      (loaded.config.withOverrides overrides).check = .ok () ∧
      project = loaded.toProject tree overrides := by
  obtain ⟨dir, hcanonical, h⟩ := exists_of_bind_eq_ok h
  obtain ⟨loaded, hload, h⟩ := exists_of_bind_eq_ok h
  obtain ⟨⟨⟩, hcheck, h⟩ := exists_of_bind_eq_ok h
  cases h
  exact ⟨dir, loaded, eq_ok_of_mapError hcanonical, eq_ok_of_mapError hload,
    eq_ok_of_mapError hcheck, rfl⟩

/-- Without values that take precedence, a directory with a loaded configuration has a project. -/
theorem project_none_of_load (hcanonical : tree.canonical start = .ok dir)
    (hload : load tree dir = .ok loaded) :
    tree.project start Overrides.none = .ok (loaded.toProject tree Overrides.none) := by
  have hcheck : (loaded.config.withOverrides Overrides.none).check = .ok () := check_of_load hload
  rw [project_of_load hcanonical hload, hcheck]
  rfl

/-! ### Configuration files in the root -/

variable {names : List String} {modified : Nat}

/-- A configuration file in the root counts for it. -/
theorem find?_root
    (hfile : tree.resolve ⟨"/.i18nlensrc.json"⟩ = .ok (names, .file (.text text) modified)) :
    find? tree ⟨"/"⟩ = some ⟨"/.i18nlensrc.json"⟩ := by
  have hjoin : Path.join ⟨"/"⟩ fileName = ⟨"/.i18nlensrc.json"⟩ := by decide
  rw [← hjoin]
  refine find?_of_exists ?_
  rw [hjoin, FileTree.exists?, hfile]
  rfl

/-- The configuration of the root is that of a configuration file in it. -/
theorem load_root
    (hfile : tree.resolve ⟨"/.i18nlensrc.json"⟩ = .ok (names, .file (.text text) modified))
    (hread : read text = .ok config) :
    load tree ⟨"/"⟩ = (config.check.mapError .invalid).map fun _ => ⟨config, true, ⟨"/"⟩⟩ := by
  have hparent : Path.parent? ⟨"/.i18nlensrc.json"⟩ = some ⟨"/"⟩ := by decide
  have htext : tree.readText ⟨"/.i18nlensrc.json"⟩ = .ok text := by rw [FileTree.readText, hfile]
  rw [load_of_find? (find?_root hfile), hparent, readFile_of_read htext hread]
  cases config.check <;> rfl

end Config

/-- The text of a configuration file that names the language of the hints. -/
def inLanguage (language : String) : String :=
  "\x7b\"inlineLanguage\":\"" ++ language ++ "\"\x7d"

/-- The files of a project in the root that has a configuration file alone. -/
def configured (text : String) : FileTree :=
  ⟨[([Config.fileName], .file (.text text) 1)], []⟩

namespace configured

/-- The root leads to itself. -/
theorem canonical_root (text : String) : (configured text).canonical ⟨"/"⟩ = .ok ⟨"/"⟩ := by
  have hresolve : (configured text).resolve ⟨"/"⟩ = .ok ([], .directory) :=
    FileTree.resolve_of_descend? (show FileTree.pathOf [] = _ by decide) (by decide) (by decide) rfl
  rw [FileTree.canonical, hresolve]
  rfl

/-- The configuration file leads to itself. -/
theorem resolve_file (text : String) :
    (configured text).resolve ⟨"/.i18nlensrc.json"⟩ =
      .ok ([Config.fileName], .file (.text text) 1) :=
  FileTree.resolve_of_descend? (show FileTree.pathOf [Config.fileName] = _ by decide) (by decide)
    (by decide) rfl

/-- The configuration file counts for the root. -/
theorem find?_root (text : String) :
    Config.find? (configured text) ⟨"/"⟩ = some ⟨"/.i18nlensrc.json"⟩ :=
  Config.find?_root (resolve_file text)

/-- The configuration of the root is that of the file. -/
theorem load_eq {text : String} {config : Config} (hread : Config.read text = .ok config) :
    Config.load (configured text) ⟨"/"⟩ =
      (config.check.mapError .invalid).map fun _ => ⟨config, true, ⟨"/"⟩⟩ :=
  Config.load_root (resolve_file text) hread

/-- A configuration that can be used by itself and with the values that take precedence over it
gives a project. -/
theorem exists_project {text : String} {config : Config} {overrides : Overrides}
    (hread : Config.read text = .ok config) (hcheck : config.check = .ok ())
    (hmerged : (config.withOverrides overrides).check = .ok ()) :
    ∃ project, (configured text).project ⟨"/"⟩ overrides = .ok project ∧
      project.config = config.withOverrides overrides := by
  have hload := load_eq hread
  rw [hcheck] at hload
  rw [Config.project_of_load (canonical_root text) hload, hmerged]
  exact ⟨_, rfl, rfl⟩

end configured

end KeyLens
