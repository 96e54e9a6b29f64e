import KeyLens.Proofs.Config.Loading
import KeyLens.Proofs.Config.Parts

/-!
# Values that are overridden

A value of a configuration file for which another one takes precedence makes no difference to the
project, as long as it is not blank: a file with a blank value is refused before any value takes
precedence over it.
-/

namespace KeyLens

/-- Whether a value takes precedence for a part. -/
def Overrides.gives (overrides : Overrides) : Config.Field → Bool
  | .localesPath => overrides.localesPath.isSome
  | .defaultNamespace => overrides.defaultNamespace.isSome
  | .inlineLanguage => overrides.inlineLanguage.isSome
  | .showAllLanguages | .includes | .ignores => false

namespace Config

variable {config changed : Config} {overrides : Overrides}

/-- Two configurations differ only in parts for which a value takes precedence. -/
def AlikeUnder (overrides : Overrides) (config changed : Config) : Prop :=
  ∀ field, overrides.gives field = false → config.value field = changed.value field

/-- The first part that must not be blank and is. -/
def firstBlank? (config : Config) : Option Field :=
  let parts := [(Field.localesPath, config.localesPath),
    (.defaultNamespace, config.defaultNamespace), (.inlineLanguage, config.inlineLanguage)]
  (parts.find? fun part => Text.isBlankText part.2).map Prod.fst

/-- Whether the patterns of a configuration have no mistakes. -/
def checkPatterns (config : Config) : Except Invalid Unit := do
  config.ignores.forM (checkPattern .ignores)
  (config.includes.filter Glob.Pattern.isWild).forM (checkPattern .includes)

/-- A configuration is refused for its first blank part; without one its patterns decide. -/
theorem check_eq (config : Config) :
    config.check =
      match config.firstBlank? with
      | some field => .error (.blank field)
      | none => config.checkPatterns := by
  unfold check firstBlank?
  cases hpath : Text.isBlankText config.localesPath with
  | true => simp [checkText, hpath, bind, Except.bind]
  | false =>
    cases hname : Text.isBlankText config.defaultNamespace with
    | true => simp [checkText, hpath, hname, bind, Except.bind]
    | false =>
      cases hlanguage : Text.isBlankText config.inlineLanguage with
      | true => simp [checkText, hpath, hname, hlanguage, bind, Except.bind]
      | false =>
        simp only [checkText, hpath, hname, hlanguage, List.find?_cons, List.find?_nil,
          checkPatterns, bind, Except.bind, Bool.false_eq_true, if_false, Option.map_none]

/-- The values that take precedence leave the same configuration. -/
theorem AlikeUnder.withOverrides_eq (h : AlikeUnder overrides config changed) :
    changed.withOverrides overrides = config.withOverrides overrides := by
  have htruth : config.showAllLanguages = changed.showAllLanguages :=
    Json.bool.inj (h .showAllLanguages rfl)
  have hincludes := eq_of_array_eq (h .includes rfl)
  have hignores := eq_of_array_eq (h .ignores rfl)
  have hpath : overrides.localesPath.getD changed.localesPath =
      overrides.localesPath.getD config.localesPath := by
    cases hgiven : overrides.localesPath with
    | some value => rfl
    | none => exact (Json.string.inj (h .localesPath (by rw [Overrides.gives, hgiven]; rfl))).symm
  have hname : overrides.defaultNamespace.getD changed.defaultNamespace =
      overrides.defaultNamespace.getD config.defaultNamespace := by
    cases hgiven : overrides.defaultNamespace with
    | some value => rfl
    | none =>
      exact (Json.string.inj (h .defaultNamespace (by rw [Overrides.gives, hgiven]; rfl))).symm
  have hlanguage : overrides.inlineLanguage.getD changed.inlineLanguage =
      overrides.inlineLanguage.getD config.inlineLanguage := by
    cases hgiven : overrides.inlineLanguage with
    | some value => rfl
    | none =>
      exact (Json.string.inj (h .inlineLanguage (by rw [Overrides.gives, hgiven]; rfl))).symm
  simp only [withOverrides, hpath, hname, hlanguage, htruth, hincludes, hignores]

/-- Configurations with the same first blank part are refused alike if they differ only in parts for
which a value takes precedence. -/
theorem AlikeUnder.check_eq (h : AlikeUnder overrides config changed)
    (hblank : config.firstBlank? = changed.firstBlank?) : changed.check = config.check := by
  rw [Config.check_eq, Config.check_eq, hblank]
  simp only [checkPatterns, eq_of_array_eq (h .includes rfl), eq_of_array_eq (h .ignores rfl)]

/-- A configuration that can be used has no blank part. -/
theorem firstBlank?_of_check (h : config.check = .ok ()) : config.firstBlank? = none := by
  rw [Config.check_eq] at h
  split at h
  · cases h
  · next hnone => exact hnone

end Config

namespace FileTree

variable {tree : FileTree} {start dir path : Path} {names : List String} {text other : String}
  {modified later : Nat} {config changed : Config} {overrides : Overrides}

/-- The project of a directory for which a configuration file counts. -/
theorem project_of_find? (hdir : tree.canonical start = .ok dir)
    (hfind : Config.find? tree dir = some path) (htext : tree.readText path = .ok text)
    (hread : Config.read text = .ok config) (overrides : Overrides) :
    tree.project start overrides =
      match config.check with
      | .error reason => .error (.noConfig (.invalid reason))
      | .ok _ => ((config.withOverrides overrides).check.mapError .invalid).map fun _ =>
        Config.Loaded.toProject tree overrides ⟨config, true, path.parent?.getD dir⟩ := by
  have hload := Config.load_of_find? hfind
  rw [Config.readFile_of_read htext hread] at hload
  cases hcheck : config.check with
  | error reason =>
    rw [hcheck] at hload
    simp only [project, hdir, Except.mapError, bind, Except.bind, hload, Except.map]
  | ok value =>
    rw [hcheck] at hload
    rw [Config.project_of_load hdir hload]

/-- Two texts of the configuration file of a project that differ only in values for which others
take precedence lead to the same outcome, if the first blank value is the same one in both, or there
is none. A configuration file that cannot be used by itself is refused, whatever takes
precedence. -/
theorem project_of_overridden (hdir : tree.canonical start = .ok dir)
    (hfind : Config.find? tree dir = some path)
    (hfile : tree.resolve path = .ok (names, .file (.text text) modified))
    (hread : Config.read text = .ok config) (hchanged : Config.read other = .ok changed)
    (halike : Config.AlikeUnder overrides config changed) (later : Nat) :
    let edited := tree.put names (.file (.text other) later)
    (config.firstBlank? = changed.firstBlank? →
      edited.project start overrides = tree.project start overrides) ∧
    (∀ project found, tree.project start overrides = .ok project →
      edited.project start overrides = .ok found → found = project) ∧
    (∀ reason, config.check = .error reason →
      tree.project start overrides = .error (.noConfig (.invalid reason))) ∧
    ∀ reason, changed.check = .error reason →
      edited.project start overrides = .error (.noConfig (.invalid reason)) := by
  intro edited
  have hbefore := get?_of_resolve hfile
  have hne : names ≠ [] := by
    rintro rfl
    cases hbefore
  have hwritten : Written tree edited names := written_put (Or.inr ⟨_, _, hbefore⟩)
  have hafter : edited.resolve path = .ok (names, .file (.text other) later) :=
    hwritten.resolve_self hfile (get?_put_self tree _ hne)
  have htext : tree.readText path = .ok text := by rw [readText, hfile]
  have htext' : edited.readText path = .ok other := by rw [readText, hafter]
  have hproject := project_of_find? hdir hfind htext hread overrides
  have hfind' := (Config.find?_of_written hwritten ⟨_, _, hbefore⟩ dir).trans hfind
  have hedited := project_of_find? (hwritten.canonical_eq_ok hdir) hfind' htext' hchanged overrides
  have hsame : ∀ root, Config.Loaded.toProject edited overrides ⟨changed, true, root⟩ =
      Config.Loaded.toProject tree overrides ⟨config, true, root⟩ := by
    intro root
    simp only [Config.Loaded.toProject, halike.withOverrides_eq,
      hwritten.isDirectory_eq ⟨_, _, hbefore⟩]
  have halike' : config.firstBlank? = changed.firstBlank? →
      edited.project start overrides = tree.project start overrides := by
    intro hblank
    rw [hproject, hedited, halike.check_eq hblank, halike.withOverrides_eq, hsame]
  refine ⟨halike', fun project found hfirst hsecond => ?_, fun reason hcheck => ?_,
    fun reason hcheck => ?_⟩
  · have hcheck : config.check = .ok () := by
      cases hcheck : config.check with
      | error reason =>
        rw [hproject, hcheck] at hfirst
        cases hfirst
      | ok value => rfl
    have hcheck' : changed.check = .ok () := by
      cases hcheck : changed.check with
      | error reason =>
        rw [hedited, hcheck] at hsecond
        cases hsecond
      | ok value => rfl
    rw [halike' (by rw [Config.firstBlank?_of_check hcheck, Config.firstBlank?_of_check hcheck']),
      hfirst] at hsecond
    exact (Except.ok.inj hsecond).symm
  · rw [hproject, hcheck]
  · rw [hedited, hcheck]

end FileTree

namespace configured

/-- The language of the hints, for which another one takes precedence. -/
def inGerman : Overrides := ⟨none, none, some "de"⟩

/-- Configurations that differ in the language of the hints alone. -/
theorem alikeUnder_inGerman (language other : String) :
    Config.AlikeUnder inGerman { Config.default with inlineLanguage := language }
      { Config.default with inlineLanguage := other } := by
  intro field hfield
  cases field with
  | inlineLanguage => cases hfield
  | localesPath | defaultNamespace | showAllLanguages | includes | ignores => rfl

/-- Another text of the configuration file makes the files of that text. -/
theorem put_file (text other : String) :
    (configured text).put [Config.fileName] (.file (.text other) 1) = configured other := by
  simp [configured, FileTree.put]

/-- Another language takes precedence over the one of the file, whichever that is. -/
theorem project_of_overridden_language :
    let tree := configured (inLanguage "en")
    let edited := tree.put [Config.fileName] (.file (.text (inLanguage "fr")) 2)
    Config.AlikeUnder inGerman { Config.default with inlineLanguage := "en" }
        { Config.default with inlineLanguage := "fr" } ∧
      edited.project ⟨"/"⟩ inGerman = tree.project ⟨"/"⟩ inGerman ∧
      ∃ project, tree.project ⟨"/"⟩ inGerman = .ok project ∧
        project.config = { Config.default with inlineLanguage := "de" } := by
  intro tree edited
  have hread : Config.read (inLanguage "en") =
      .ok { Config.default with inlineLanguage := "en" } := Config.read_eq_ok (by decide +kernel)
  have hread' : Config.read (inLanguage "fr") =
      .ok { Config.default with inlineLanguage := "fr" } := Config.read_eq_ok (by decide +kernel)
  have halike := alikeUnder_inGerman "en" "fr"
  obtain ⟨hsame, -⟩ := FileTree.project_of_overridden (canonical_root _) (find?_root _)
    (resolve_file _) hread hread' halike 2
  exact ⟨halike, hsame (by decide +kernel), exists_project hread
    (Config.check_eq_ok (by decide +kernel)) (Config.check_eq_ok (by decide +kernel))⟩

/-- A blank language in the file is refused, although another one takes precedence over it. -/
theorem project_of_blank_language :
    let tree := configured (inLanguage " ")
    let edited := tree.put [Config.fileName] (.file (.text (inLanguage "fr")) 1)
    Config.read (inLanguage " ") = .ok { Config.default with inlineLanguage := " " } ∧
      Config.read (inLanguage "fr") = .ok { Config.default with inlineLanguage := "fr" } ∧
      Config.AlikeUnder inGerman { Config.default with inlineLanguage := " " }
        { Config.default with inlineLanguage := "fr" } ∧
      tree.project ⟨"/"⟩ inGerman = .error (.noConfig (.invalid (.blank .inlineLanguage))) ∧
      ∃ project, edited.project ⟨"/"⟩ inGerman = .ok project ∧
        project.config = { Config.default with inlineLanguage := "de" } := by
  intro tree edited
  have hread : Config.read (inLanguage " ") =
      .ok { Config.default with inlineLanguage := " " } := Config.read_eq_ok (by decide +kernel)
  have hread' : Config.read (inLanguage "fr") =
      .ok { Config.default with inlineLanguage := "fr" } := Config.read_eq_ok (by decide +kernel)
  refine ⟨hread, hread', alikeUnder_inGerman " " "fr", ?_, ?_⟩
  · have htext : tree.readText ⟨"/.i18nlensrc.json"⟩ = .ok (inLanguage " ") := by
      rw [FileTree.readText, resolve_file]
    have hcheck : ({ Config.default with inlineLanguage := " " } : Config).check =
        .error (.blank .inlineLanguage) := rfl
    rw [FileTree.project_of_find? (canonical_root _) (find?_root _) htext hread, hcheck]
  · obtain ⟨project, hproject, hconfig⟩ := @exists_project _ _ inGerman hread'
      (Config.check_eq_ok (by decide +kernel)) (Config.check_eq_ok (by decide +kernel))
    refine ⟨project, ?_, hconfig⟩
    rw [show edited = configured (inLanguage "fr") from put_file _ _, hproject]

end configured

end KeyLens
