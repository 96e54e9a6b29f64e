import KeyLens.Proofs.Present.Tags

/-!
# Tags and texts of hover documents

The tags of a hover document follow from the forms of its entries: no key, namespace, language or
value adds a tag or takes one away. The texts between the tags are what the document shows, with
entities in place of characters.
-/

namespace KeyLens.HoverDoc

/-- The form in which an entry is shown. -/
inductive EntryForm where
  /-- There is no value. -/
  | missing
  /-- A value. -/
  | plain
  /-- A value with its namespace beside it. -/
  | placed
  deriving Repr, DecidableEq

variable {doc other : HoverDoc} {entry : HoverEntry}

/-- The form of an entry. -/
def entryForm (doc : HoverDoc) (entry : HoverEntry) : EntryForm :=
  match entry.resolved.value, doc.indicator? entry with
  | none, _ => .missing
  | some _, none => .plain
  | some _, some _ => .placed

/-- The forms of the entries. -/
def forms (doc : HoverDoc) : List EntryForm := doc.entries.map doc.entryForm

/-- The tags of an entry after its language, each with the text that is shown behind it. -/
def valueShown (doc : HoverDoc) (entry : HoverEntry) : List (String × String) :=
  match entry.resolved.value with
  | none => [("</b>", " "), ("<i>", "<missing>"), ("</i>", "")]
  | some value =>
    match doc.indicator? entry with
    | none => [("</b>", " " ++ Present.truncate value 200)]
    | some name =>
      [("</b>", " " ++ Present.truncate value 200 ++ " "), ("<i>", "(" ++ name ++ ")"),
        ("</i>", "")]

/-- The tags of an entry, each with the text that is shown behind it. -/
def entryShown (doc : HoverDoc) (entry : HoverEntry) : List (String × String) :=
  ("<b>", entry.language ++ ":") :: doc.valueShown entry ++ [("<br/>", "")]

/-- The tags of a document, each with the text that is shown behind it. -/
def shown (doc : HoverDoc) : List (String × String) :=
  [("<html>", ""), ("<body>", ""),
    ("<b>", "i18next Translations"), ("</b>", ""), ("<br/>", ""),
    ("<b>", "Key:"), ("</b>", " " ++ doc.key.text), ("<br/>", ""),
    ("<b>", "Namespaces:"), ("</b>", " " ++ String.intercalate ", " doc.namespaces),
    ("<br/>", ""), ("<br/>", "")] ++
  doc.entries.flatMap doc.entryShown ++ [("</body>", ""), ("</html>", "")]

/-- The tags of an entry of a form. -/
def formTags : EntryForm → List String
  | .missing | .placed => ["<b>", "</b>", "<i>", "</i>", "<br/>"]
  | .plain => ["<b>", "</b>", "<br/>"]

/-- The form of an entry tells its tags. -/
theorem map_fst_entryShown (doc : HoverDoc) (entry : HoverEntry) :
    (doc.entryShown entry).map Prod.fst = formTags (doc.entryForm entry) := by
  cases hvalue : entry.resolved.value <;> cases hplace : doc.indicator? entry <;>
    simp [entryShown, valueShown, entryForm, formTags, hvalue, hplace]

/-- Documents with entries of the same forms have the same tags. -/
theorem map_fst_shown_eq (h : doc.forms = other.forms) :
    doc.shown.map Prod.fst = other.shown.map Prod.fst := by
  have hentries (doc : HoverDoc) :
      (doc.entries.flatMap doc.entryShown).map Prod.fst = doc.forms.flatMap formTags := by
    simp [forms, List.map_flatMap, List.flatMap_map, map_fst_entryShown]
  simp [shown, hentries, h]

/-- An entry is written with the tags and texts that are shown. -/
theorem arranges_entryPieces (doc : HoverDoc) (entry : HoverEntry) :
    Markup.Arranges (doc.entryPieces entry) (doc.entryShown entry) := by
  intro rest hrest
  cases hvalue : entry.resolved.value <;> cases hplace : doc.indicator? entry <;>
    simp [entryPieces, valuePieces, entryShown, valueShown, hvalue, hplace, Markup.arranged,
      Markup.Cut.behind, Markup.Cut.append, Markup.Cut.ofTagged, hrest, Present.missingText,
      greatestValue]

/-- A document is written with the tags and texts that are shown. -/
theorem arranges_pieces (doc : HoverDoc) : Markup.Arranges doc.pieces doc.shown := by
  refine .append (.append ?_ (.flatMap doc.arranges_entryPieces doc.entries)) ?_
  all_goals
    intro rest hrest
    simp [Markup.arranged, Markup.Cut.behind, Markup.Cut.append, Markup.Cut.ofTagged, hrest,
      namespaceLine]

/-- No tag of a document has a closing bracket inside. -/
theorem proper_of_mem_pieces (doc : HoverDoc) : ∀ part ∈ doc.pieces, part.Proper := by
  have hentry (entry : HoverEntry) : ∀ part ∈ doc.entryPieces entry, part.Proper := by
    cases hvalue : entry.resolved.value <;> cases hplace : doc.indicator? entry <;>
      simp [entryPieces, valuePieces, hvalue, hplace, Markup.Proper]
  simp only [pieces, List.forall_mem_append, List.forall_mem_flatMap, List.forall_mem_cons]
  refine ⟨⟨?_, fun entry _ => hentry entry⟩, ?_⟩ <;> simp [Markup.Proper]

/-- Whatever the keys, the namespaces, the languages and the values of two documents are: with
entries of the same forms they have the same tags. The texts between the tags of a document, with
characters in place of the entities, are what it shows. -/
theorem tags_eq_of_forms_eq (h : doc.forms = other.forms) :
    Markup.tags doc.markup = Markup.tags other.markup ∧
      Markup.tags doc.markup = doc.shown.map Prod.fst ∧
      (Markup.texts doc.markup).map Markup.restored = "" :: doc.shown.map Prod.snd := by
  have htags (doc : HoverDoc) : Markup.tags doc.markup = doc.shown.map Prod.fst :=
    doc.arranges_pieces.tags_render doc.proper_of_mem_pieces
  refine ⟨?_, htags doc, doc.arranges_pieces.map_restored_texts_render doc.proper_of_mem_pieces⟩
  rw [htags, htags]
  exact map_fst_shown_eq h

/-- A document of plain words, with one value and one language without any. -/
def plainWords : HoverDoc where
  key := ⟨"greeting"⟩
  candidates := ⟨["common", "errors"], by decide⟩
  namespaces := ["errors"]
  span := ⟨0, 20⟩
  entries := [⟨"de", .missing⟩, ⟨"en", .found "errors" "Hello"⟩]

/-- A document in which everything looks like a tag, like an entity or like a missing value. -/
def tagsForWords : HoverDoc where
  key := ⟨"</html>.&lt;"⟩
  candidates := ⟨["<i>", "<missing>"], by decide⟩
  namespaces := ["<i>", "&amp;lt;"]
  span := ⟨7, 9⟩
  entries := [⟨"<b>", .missing⟩, ⟨"&quot;\"", .found "<missing>" "&amp;<br/>&lt"⟩]

/-- Words that look like tags are words all the same. -/
theorem tags_of_tagsForWords :
    tagsForWords.forms = plainWords.forms ∧
      Markup.tags tagsForWords.markup = Markup.tags plainWords.markup ∧
      Markup.tags tagsForWords.markup = tagsForWords.shown.map Prod.fst ∧
      (Markup.texts tagsForWords.markup).map Markup.restored =
        "" :: tagsForWords.shown.map Prod.snd :=
  have h : tagsForWords.forms = plainWords.forms := by decide
  ⟨h, tags_eq_of_forms_eq h⟩

end KeyLens.HoverDoc
