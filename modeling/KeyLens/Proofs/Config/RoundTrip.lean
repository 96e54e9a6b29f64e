import KeyLens.Config.Reader
import KeyLens.Proofs.Config.Parts
import KeyLens.Proofs.Json.Rows

/-!
# Configurations that are printed and read

A document with some parts of a configuration, each of them once, is read back as those parts of
the configuration and the defaults of the others, whether it is printed in one line or in many.
-/

namespace KeyLens

/-- A document without the members of some names; only an object has any. -/
def Json.without (names : List String) : Json → Json
  | .object members => .object (members.filter fun (name, _) => name ∉ names)
  | other => other

namespace Config

open Json (Failure Spacing nextName quotedText escapedChar skipSpace)

variable {config source : Config} {field : Field} {fields : List Field} {given : Given}
  {isFirst : Bool} {steps : Nat} {text start rest : List Char} {spacing : Spacing}
  {print : Json → List Char}

/-! ### Values -/

/-- A printer of values from whose texts the parts of a configuration are read back. -/
def Readable (print : Json → List Char) : Prop :=
  ∀ (config source : Config) (field : Field) (rest : List Char),
    readField config field (print (source.value field) ++ rest) =
      .ok (config.withPart source field, rest)

/-- A printer is readable if the texts and truth values that it prints are the usual ones, and the
rows of texts are read back. -/
theorem readable_of_readTexts
    (htext : ∀ text, print (.string text) = quotedText text.toList)
    (htruth : ∀ value, print (.bool value) = Json.boolText value)
    (htexts : ∀ (texts : List String) rest,
      Json.readTexts (print (.array (texts.map .string)) ++ rest) = .ok (texts, rest)) :
    Readable print := by
  intro config source field rest
  cases field with
  | localesPath | defaultNamespace | inlineLanguage =>
    simp only [readField, value, htext, Json.readText_quotedText]
    rfl
  | showAllLanguages =>
    simp only [readField, value, htruth, withPart]
    cases source.showAllLanguages <;> rfl
  | includes | ignores =>
    simp only [readField, value, htexts]
    rfl

/-- The parts of a configuration are read back from values in one line. -/
theorem readable_compactChars : Readable Json.compactChars :=
  readable_of_readTexts (fun _ => rfl) (fun _ => rfl) Json.readTexts_compactChars

/-- The parts of a configuration are read back from values in lines. -/
theorem readable_prettyChars (level : Nat) : Readable (Json.prettyChars level) :=
  readable_of_readTexts (fun _ => rfl) (fun _ => rfl) (Json.readTexts_prettyChars level)

/-- Blanks in front of a value make no difference. -/
theorem readField_append {blanks : List Char} (hblanks : ∀ c ∈ blanks, Json.isSpace c = true)
    (config : Config) (field : Field) (text : List Char) :
    readField config field (blanks ++ text) = readField config field text := by
  have hskip : skipSpace (blanks ++ text) = skipSpace text := Json.skipSpace_append hblanks text
  cases field <;>
    simp only [readField, Json.readText, Json.readTruth, Json.readTexts, Json.kindFailure, hskip]

/-! ### Members -/

/-- The printed member of a part. -/
def memberText (source : Config) (spacing : Spacing) (print : Json → List Char) (field : Field) :
    List Char :=
  quotedText field.name.toList ++ ':' :: (spacing.colon ++ print (source.value field))

/-- What follows the opening mark of the name in a printed member. -/
theorem memberText_append (source : Config) (spacing : Spacing) (print : Json → List Char)
    (field : Field) (rest : List Char) :
    source.memberText spacing print field ++ rest =
      '"' :: (field.name.toList.flatMap escapedChar ++ '"' ::
        (':' :: (spacing.colon ++ (print (source.value field) ++ rest)))) := by
  simp [memberText, quotedText]

/-- A printed member is read in front of the ones that follow it, unless its part was given. -/
theorem readMembers_of_nextName (hprint : Readable print)
    (hnext : nextName isFirst text = .ok (some start))
    (hstart : '"' :: start = source.memberText spacing print field ++ rest)
    (hnew : field ∉ given.fields) (steps : Nat) :
    readMembers isFirst given (steps + 1) text =
      readMembers false ⟨given.config.withPart source field, field :: given.fields⟩ steps rest := by
  rw [memberText_append, List.cons.injEq] at hstart
  have hcolon : ∀ after, Json.readColon (':' :: after) = .ok after := fun _ => rfl
  rw [readMembers, hnext, hstart.2]
  simp only [bind, Except.bind, Json.readQuoted_flatMap, Field.ofName?_name, if_neg hnew, hcolon,
    readField_append spacing.isSpace_colon, hprint given.config source field rest]

/-- An object ends at its closing brace. -/
theorem readMembers_closing {blanks : List Char} (hblanks : ∀ c ∈ blanks, Json.isSpace c = true)
    (steps : Nat) (rest : List Char) :
    readMembers isFirst given (steps + 1) (blanks ++ '\x7d' :: rest) =
      .ok (given.config, rest) := by
  rw [readMembers, Json.nextName_closing isFirst hblanks]
  simp only [bind, Except.bind,
    Json.afterClosing_append hblanks (show Json.isSpace '\x7d' = false by decide)]
  rfl

/-- After a part was given, the parts behind it are still new. -/
theorem not_mem_given_of_nodup {known : List Field} (hnodup : (field :: fields).Nodup)
    (hnew : ∀ other ∈ field :: fields, other ∉ known) :
    ∀ other ∈ fields, other ∉ field :: known := by
  intro other hother hmem
  rcases List.mem_cons.mp hmem with rfl | hgiven
  · exact (List.nodup_cons.mp hnodup).1 hother
  · exact hnew other (List.mem_cons_of_mem _ hother) hgiven

/-- Members behind commas are read up to the closing brace, in more steps than there are parts. -/
theorem readMembers_others (hprint : Readable print) (spacing : Spacing) (source : Config)
    (hnodup : fields.Nodup) (hnew : ∀ field ∈ fields, field ∉ given.fields)
    (hsteps : fields.length < steps) (rest : List Char) :
    readMembers false given steps
      (spacing.others '\x7d' (fields.map (source.memberText spacing print)) ++ rest) =
      .ok (fields.foldl (fun found field => found.withPart source field) given.config, rest) := by
  induction fields generalizing steps given with
  | nil =>
    obtain ⟨steps, rfl⟩ := Nat.exists_eq_add_one_of_ne_zero (Nat.ne_zero_of_lt hsteps)
    rw [Spacing.others, List.map_nil, List.flatMap_nil, List.nil_append, List.append_assoc]
    exact readMembers_closing spacing.isSpace_after steps rest
  | cons field fields ih =>
    obtain ⟨steps, rfl⟩ := Nat.exists_eq_add_one_of_ne_zero (Nat.ne_zero_of_lt hsteps)
    have hnew' := not_mem_given_of_nodup hnodup hnew
    have hothers :
        spacing.others '\x7d' ((field :: fields).map (source.memberText spacing print)) ++ rest =
          ',' :: (spacing.between ++ (source.memberText spacing print field ++
            (spacing.others '\x7d' (fields.map (source.memberText spacing print)) ++ rest))) := by
      simp [Spacing.others]
    rw [hothers, memberText_append,
      readMembers_of_nextName hprint (Json.nextName_comma spacing.isSpace_between _)
        (memberText_append source spacing print field _).symm (hnew field List.mem_cons_self),
      ih (List.nodup_cons.mp hnodup).2 hnew' (Nat.lt_of_succ_lt_succ hsteps)]
    rfl

/-- The members of a printed object are read behind its opening brace. -/
theorem readMembers_row (hprint : Readable print) (spacing : Spacing) (given : Given)
    (source : Config) (hnodup : fields.Nodup) (hnew : ∀ field ∈ fields, field ∉ given.fields)
    (rest : List Char) :
    ∃ inside,
      spacing.row '\x7b' '\x7d' (fields.map (source.memberText spacing print)) ++ rest =
        '\x7b' :: inside ∧
      readMembers true given (inside.length + 1) inside =
        .ok (fields.foldl (fun found field => found.withPart source field) given.config,
          rest) := by
  cases fields with
  | nil => exact ⟨'\x7d' :: rest, rfl, readMembers_closing (List.forall_mem_nil _) _ rest⟩
  | cons field fields =>
    have hlength := Json.length_lt_length_others spacing '\x7d'
      (fields.map (source.memberText spacing print))
    rw [List.length_map] at hlength
    simp only [List.map_cons, Spacing.row, List.cons_append, List.append_assoc]
    refine ⟨_, rfl, ?_⟩
    rw [memberText_append,
      readMembers_of_nextName hprint (Json.nextName_first spacing.isSpace_before _)
        (memberText_append source spacing print field _).symm (hnew field List.mem_cons_self),
      readMembers_others hprint spacing source (List.nodup_cons.mp hnodup).2
        (not_mem_given_of_nodup hnodup hnew)]
    · rfl
    · simp only [List.length_append, List.length_cons]
      omega

/-! ### Documents -/

/-- The text of an object of some parts of a configuration, each of them once, is read as those
parts and the defaults of the others. -/
theorem read_of_row (hprint : Readable print) (spacing : Spacing) (hnodup : fields.Nodup)
    (htext : text = spacing.row '\x7b' '\x7d' (fields.map (config.memberText spacing print))) :
    read (String.ofList text) =
      .ok (fields.foldl (fun found field => found.withPart config field) default) := by
  obtain ⟨inside, hinside, hread⟩ := readMembers_row hprint spacing Given.nothing config hnodup
    (fun _ _ => List.not_mem_nil) []
  have hvalue : readValue text =
      .ok (fields.foldl (fun found field => found.withPart config field) default, []) := by
    rw [htext, ← List.append_nil (Spacing.row _ _ _ _), hinside, readValue,
      Json.skipSpace_cons (by decide)]
    exact hread
  rw [read, String.toList_ofList, hvalue]
  rfl

/-- Some parts of a configuration, each of them once, are read back from one line. -/
theorem read_compact (config : Config) (hnodup : fields.Nodup) :
    read (config.documentOf fields).compact =
      .ok (fields.foldl (fun found field => found.withPart config field) default) := by
  have hmembers : ∀ fields : List Field,
      Json.compactMembers (fields.map fun field => (field.name, config.value field)) =
        fields.map (config.memberText Spacing.none Json.compactChars) := by
    intro fields
    induction fields with
    | nil => rfl
    | cons field fields ih => rw [List.map_cons, Json.compactMembers, ih]; rfl
  refine read_of_row readable_compactChars Spacing.none hnodup ?_
  rw [documentOf, Json.compactChars, hmembers, Json.row_none]

/-- Some parts of a configuration, each of them once, are read back from lines. -/
theorem read_pretty (config : Config) (hnodup : fields.Nodup) :
    read (config.documentOf fields).pretty =
      .ok (fields.foldl (fun found field => found.withPart config field) default) := by
  have hmembers : ∀ fields : List Field,
      Json.prettyMembers 1 (fields.map fun field => (field.name, config.value field)) =
        fields.map (config.memberText (Spacing.lines 0) (Json.prettyChars 1)) := by
    intro fields
    induction fields with
    | nil => rfl
    | cons field fields ih => rw [List.map_cons, Json.prettyMembers, ih]; rfl
  refine read_of_row (readable_prettyChars 1) (Spacing.lines 0) hnodup ?_
  rw [documentOf, Json.prettyChars, hmembers, Json.row_lines]

/-- The document of a configuration without some members is the one of the parts that are left. -/
theorem toJson_without (config : Config) (omitted : List Field) :
    config.toJson.without (omitted.map Field.name) =
      config.documentOf (Field.all.filter fun field => field ∉ omitted) := by
  have hname : ∀ field : Field, field.name ∈ omitted.map Field.name ↔ field ∈ omitted := by
    intro field
    rw [List.mem_map]
    constructor
    · rintro ⟨other, hother, hsame⟩
      exact Field.eq_of_name_eq hsame ▸ hother
    · exact fun h => ⟨field, h, rfl⟩
  rw [toJson, documentOf, documentOf, Json.without, List.filter_map]
  simp only [Function.comp_def, hname]

/-- A configuration printed in lines from which some members are left out is read as the parts that
are there and the defaults of the others. -/
theorem read_without (config : Config) (omitted : List Field) :
    ∃ found, read (config.toJson.without (omitted.map Field.name)).pretty = .ok found ∧
      ∀ field, found.value field =
        if field ∈ omitted then default.value field else config.value field := by
  rw [toJson_without, read_pretty config (List.Pairwise.filter _ (show Field.all.Nodup by decide))]
  refine ⟨_, rfl, fun field => ?_⟩
  have hall : field ∈ Field.all := by cases field <;> decide
  rw [value_foldl_withPart]
  by_cases homitted : field ∈ omitted
  · rw [if_neg (by simp [homitted]), if_pos homitted]
  · rw [if_pos (by simp [homitted, hall]), if_neg homitted]

/-- All parts of a configuration make the configuration. -/
theorem foldl_withPart_all (config other : Config) :
    Field.all.foldl (fun found field => found.withPart config field) other = config := by
  refine eq_of_value_eq fun field => ?_
  have hall : field ∈ Field.all := by cases field <;> decide
  rw [value_foldl_withPart, if_pos hall]

/-- A configuration is read back from its text, in lines or in one. -/
theorem read_toJson (config : Config) {text : String}
    (htext : text = config.toJson.pretty ∨ text = config.toJson.compact) :
    read text = .ok config := by
  rcases htext with rfl | rfl
  · rw [toJson, read_pretty config (by decide), foldl_withPart_all]
  · rw [toJson, read_compact config (by decide), foldl_withPart_all]

end Config

end KeyLens
