import KeyLens.Config.Basic

/-!
# Parts of a configuration

A configuration is known by the values of its parts as a document shows them, and one of its parts
can be taken from another configuration.
-/

namespace KeyLens.Config

variable {config other : Config}

/-- Rows of texts that are shown alike are the same. -/
theorem eq_of_array_eq {texts others : List String}
    (h : Json.array (texts.map .string) = Json.array (others.map .string)) : texts = others := by
  exact (List.map_inj_right fun _ _ => Json.string.inj).mp (Json.array.inj h)

/-- Configurations all of whose parts are shown alike are the same. -/
theorem eq_of_value_eq (h : ∀ field, config.value field = other.value field) : config = other := by
  cases config
  cases other
  rw [mk.injEq]
  exact ⟨Json.string.inj (h .localesPath), Json.string.inj (h .defaultNamespace),
    Json.string.inj (h .inlineLanguage), Json.bool.inj (h .showAllLanguages),
    eq_of_array_eq (h .includes), eq_of_array_eq (h .ignores)⟩

/-- Parts with the same name are the same. -/
theorem Field.eq_of_name_eq {field same : Field} (h : field.name = same.name) : field = same := by
  have hfound := Field.ofName?_name field
  rw [h, Field.ofName?_name] at hfound
  exact (Option.some.inj hfound).symm

/-- The configuration with one part taken from another one. -/
def withPart (config source : Config) : Field → Config
  | .localesPath => { config with localesPath := source.localesPath }
  | .defaultNamespace => { config with defaultNamespace := source.defaultNamespace }
  | .inlineLanguage => { config with inlineLanguage := source.inlineLanguage }
  | .showAllLanguages => { config with showAllLanguages := source.showAllLanguages }
  | .includes => { config with includes := source.includes }
  | .ignores => { config with ignores := source.ignores }

/-- The part that is taken has its new value, and all others have their old ones. -/
theorem value_withPart (config source : Config) (taken field : Field) :
    (config.withPart source taken).value field =
      if field = taken then source.value field else config.value field := by
  cases taken <;> cases field <;> rfl

/-- The configuration with several parts taken from another one has the new values for those. -/
theorem value_foldl_withPart (config source : Config) (taken : List Field) (field : Field) :
    (taken.foldl (fun config field => config.withPart source field) config).value field =
      if field ∈ taken then source.value field else config.value field := by
  induction taken generalizing config with
  | nil => rfl
  | cons first taken ih =>
    rw [List.foldl_cons, ih, value_withPart]
    by_cases hfirst : field = first
    · simp [hfirst]
    · simp [hfirst]

end KeyLens.Config
