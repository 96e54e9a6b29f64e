import KeyLens.Present.Hover
import KeyLens.Proofs.Text.Replacing

/-!
# Tags of hover documents

Markup is read the way a browser does: a tag reaches from an opening angle bracket to the next
closing one, and the entities in the texts between the tags stand for characters. What is written as
a row of tags and texts is read as these tags and texts, whatever characters are in the texts.
-/

namespace KeyLens

namespace Markup

/-! ### Escaped texts -/

/-- A text with entities in place of its special characters, one kind after the other. The
ampersand comes first, because each entity starts with one. -/
def escaped (text : List Char) : List Char :=
  let replace (c : Char) := Text.replaceAll [c] (escapedChar c)
  replace '"' (replace '>' (replace '<' (replace '&' text)))

/-- A text with characters in place of its entities, one after the other. The ampersand comes last,
because more entities would start with the ones that are put in. -/
def unescaped (text : List Char) : List Char :=
  let restore (c : Char) := Text.replaceAll (escapedChar c) [c]
  restore '&' (restore '"' (restore '>' (restore '<' text)))

/-- The characters that have an entity. -/
def specials : List Char := ['&', '<', '>', '"']

/-- A character without an entity stands for itself. -/
theorem escapedChar_of_not_mem {c : Char} (h : c ∉ specials) : escapedChar c = [c] := by
  simp only [specials, List.mem_cons, List.not_mem_nil, or_false, not_or] at h
  obtain ⟨hand, hless, hgreater, hquote⟩ := h
  rw [escapedChar, if_neg hand, if_neg hless, if_neg hgreater, if_neg hquote]

/-- The replacements one after the other give each character its own form. -/
theorem escaped_eq_flatMap (text : List Char) : escaped text = text.flatMap escapedChar := by
  simp only [escaped, Text.replaceAll_singleton, List.flatMap_assoc]
  congr 1
  funext c
  by_cases h : c ∈ specials
  · simp only [specials, List.mem_cons, List.not_mem_nil, or_false] at h
    rcases h with rfl | rfl | rfl | rfl <;> decide
  · rw [escapedChar_of_not_mem h]
    simp only [specials, List.mem_cons, List.not_mem_nil, or_false, not_or] at h
    simp [h]

/-- An entity starts with an ampersand. -/
theorem exists_entity {d : Char} (h : d ∈ specials) : ∃ tail, escapedChar d = '&' :: tail := by
  simp only [specials, List.mem_cons, List.not_mem_nil, or_false] at h
  rcases h with rfl | rfl | rfl | rfl <;> exact ⟨_, rfl⟩

/-- The entity of one character is no occurrence of that of another one, and none starts inside. -/
theorem replaceAll_entity {c d : Char} (hc : c ∈ specials) (hd : d ∈ specials) (h : c ≠ d)
    (new rest : List Char) :
    Text.replaceAll (escapedChar d) new (escapedChar c ++ rest) =
      escapedChar c ++ Text.replaceAll (escapedChar d) new rest := by
  simp only [specials, List.mem_cons, List.not_mem_nil, or_false] at hc hd
  rcases hc with rfl | rfl | rfl | rfl <;> rcases hd with rfl | rfl | rfl | rfl <;>
    simp [escapedChar, Text.replaceAll_cons, List.isPrefixOf] at h ⊢

/-- A character as it stands in a text in which the entities of `done` are characters again. -/
def partlyEscaped (done : List Char) (c : Char) : List Char :=
  if c ∈ done then [c] else escapedChar c

/-- One more kind of entity becomes characters, as long as no ampersand stands for itself. -/
theorem replaceAll_partlyEscaped {d : Char} {done : List Char} (hd : d ∈ specials)
    (hdone : d ∉ done) (hand : '&' ∉ done) (text : List Char) :
    Text.replaceAll (escapedChar d) [d] (text.flatMap (partlyEscaped done)) =
      text.flatMap (partlyEscaped (d :: done)) := by
  obtain ⟨tail, htail⟩ := exists_entity hd
  induction text with
  | nil => exact Text.replaceAll_nil _ _
  | cons c rest ih =>
    rw [List.flatMap_cons, List.flatMap_cons, ← ih]
    by_cases hc : c = d
    · have hstays : partlyEscaped done c = escapedChar d := by rw [partlyEscaped, hc, if_neg hdone]
      have hrestored : partlyEscaped (d :: done) c = [d] := by
        rw [partlyEscaped, hc, if_pos List.mem_cons_self]
      rw [hstays, hrestored]
      exact Text.replaceAll_append (by rw [htail]; exact List.cons_ne_nil _ _) _ _
    · have hsame : partlyEscaped (d :: done) c = partlyEscaped done c := by
        simp [partlyEscaped, hc]
      rw [hsame]
      by_cases hplain : c ∈ done ∨ c ∉ specials
      · have hform : partlyEscaped done c = [c] := by
          rcases hplain with hmem | hnot
          · rw [partlyEscaped, if_pos hmem]
          · rw [partlyEscaped, escapedChar_of_not_mem hnot, ite_self]
        have hne : '&' ≠ c := by
          rintro rfl
          exact hplain.elim hand fun hnot => hnot List.mem_cons_self
        rw [hform, htail]
        exact Text.replaceAll_cons_of_ne hne _ _ _
      · rw [not_or, Classical.not_not] at hplain
        rw [partlyEscaped, if_neg hplain.1]
        exact replaceAll_entity hplain.2 hd hc _ _

/-- What has been escaped is restored. -/
theorem unescaped_escaped (text : List Char) : unescaped (escaped text) = text := by
  have hstart : escaped text = text.flatMap (partlyEscaped []) := escaped_eq_flatMap text
  have hend : text.flatMap (partlyEscaped ['&', '"', '>', '<']) = text := by
    have hform : partlyEscaped ['&', '"', '>', '<'] = fun c => [c] := by
      funext c
      rw [partlyEscaped]
      split
      · rfl
      · next h => exact escapedChar_of_not_mem (by simp_all [specials])
    rw [hform, List.flatMap_singleton']
  simp only [unescaped, hstart]
  rw [replaceAll_partlyEscaped (by decide) (by decide) (by decide),
    replaceAll_partlyEscaped (by decide) (by decide) (by decide),
    replaceAll_partlyEscaped (by decide) (by decide) (by decide),
    replaceAll_partlyEscaped (by decide) (by decide) (by decide), hend]

/-! ### Tags and the texts between them -/

/-- A text cut at its tags: what stands in front of the first tag, and each tag with the text
behind it. -/
structure Cut where
  /-- The text in front of the first tag. -/
  front : List Char
  /-- Each tag and the text behind it. -/
  tagged : List (List Char × List Char)
  deriving Repr, DecidableEq

namespace Cut

/-- A cut text behind one more character. -/
def cons (c : Char) (cut : Cut) : Cut := ⟨c :: cut.front, cut.tagged⟩

/-- A cut text behind a tag. -/
def behind (tag : List Char) (cut : Cut) : Cut := ⟨[], (tag, cut.front) :: cut.tagged⟩

/-- A cut text behind more text. -/
def append (text : List Char) (cut : Cut) : Cut := ⟨text ++ cut.front, cut.tagged⟩

/-- A cut text with another form of the texts between the tags. -/
def mapTexts (form : List Char → List Char) (cut : Cut) : Cut :=
  ⟨form cut.front, cut.tagged.map (Prod.map id form)⟩

/-- The cut of a text that starts with its first tag. -/
def ofTagged (tagged : List (String × String)) : Cut :=
  ⟨[], tagged.map (Prod.map String.toList String.toList)⟩

end Cut

mutual

/-- Cuts a text at its tags. A tag starts with an opening angle bracket. -/
def cut : List Char → Cut
  | [] => ⟨[], []⟩
  | c :: rest =>
    if c = '<' then (cutInTag rest).2.behind (c :: (cutInTag rest).1) else (cut rest).cons c

/-- The rest of a tag, which ends with the next closing angle bracket, and what is behind it. -/
def cutInTag : List Char → List Char × Cut
  | [] => ([], ⟨[], []⟩)
  | c :: rest =>
    if c = '>' then ([c], cut rest) else (c :: (cutInTag rest).1, (cutInTag rest).2)

end

/-- A text without an opening bracket belongs to what stands in front of the first tag. -/
theorem cut_append {front : List Char} (h : '<' ∉ front) (rest : List Char) :
    cut (front ++ rest) = (cut rest).append front := by
  induction front with
  | nil => rfl
  | cons c front ih =>
    rw [List.mem_cons, not_or] at h
    rw [List.cons_append, cut, if_neg (Ne.symm h.1), ih h.2]
    rfl

/-- A tag ends with its first closing bracket. -/
theorem cutInTag_append {name : List Char} (h : '>' ∉ name) (rest : List Char) :
    cutInTag (name ++ '>' :: rest) = (name ++ ['>'], cut rest) := by
  induction name with
  | nil => rw [List.nil_append, cutInTag, if_pos rfl, List.nil_append]
  | cons c name ih =>
    rw [List.mem_cons, not_or] at h
    rw [List.cons_append, cutInTag, if_neg (Ne.symm h.1), ih h.2, List.cons_append]

/-- The tags that parts make and the texts between them, without entities. -/
def arranged : List Markup → Cut
  | [] => ⟨[], []⟩
  | .tag name :: rest => (arranged rest).behind ('<' :: (name.toList ++ ['>']))
  | .text content :: rest => (arranged rest).append content.toList

/-- No closing bracket is inside of a tag. -/
def Proper : Markup → Prop
  | tag name => '>' ∉ name.toList
  | text _ => True

/-- No text is written with an opening bracket. -/
theorem not_mem_flatMap_escapedChar (text : List Char) : '<' ∉ text.flatMap escapedChar := by
  intro h
  obtain ⟨c, -, hc⟩ := List.mem_flatMap.mp h
  exact (not_mem_escapedChar hc).1 rfl

/-- What is written is cut at the tags that were meant, into the texts that were meant. -/
theorem cut_flatMap_chars {parts : List Markup} (h : ∀ part ∈ parts, part.Proper) :
    cut (parts.flatMap chars) = (arranged parts).mapTexts escaped := by
  induction parts with
  | nil => simp [cut, arranged, Cut.mapTexts, escaped]
  | cons part rest ih =>
    have hrest := ih fun other hother => h other (List.mem_cons_of_mem part hother)
    rw [List.flatMap_cons]
    cases part with
    | tag name =>
      have hname : '>' ∉ name.toList := h (.tag name) List.mem_cons_self
      rw [chars, List.cons_append, List.append_assoc, List.singleton_append, cut, if_pos rfl,
        cutInTag_append hname, hrest]
      simp [arranged, Cut.behind, Cut.mapTexts, escaped]
    | text content =>
      rw [chars, cut_append (not_mem_flatMap_escapedChar _), hrest]
      simp [arranged, Cut.append, Cut.mapTexts, escaped_eq_flatMap]

/-! ### Texts as they are shown -/

/-- The tags of a text. -/
def tags (text : String) : List String :=
  (cut text.toList).tagged.map fun tagged => String.ofList tagged.1

/-- The texts in front of, between and behind the tags of a text. -/
def texts (text : String) : List String :=
  String.ofList (cut text.toList).front ::
    (cut text.toList).tagged.map fun tagged => String.ofList tagged.2

/-- A text with characters in place of its entities. -/
def restored (text : String) : String := String.ofList (unescaped text.toList)

/-- Parts that are the given tags, each with the text behind it. -/
def Arranges (parts : List Markup) (tagged : List (String × String)) : Prop :=
  ∀ rest : List Markup, (arranged rest).front = [] →
    arranged (parts ++ rest) =
      ⟨[], (Cut.ofTagged tagged).tagged ++ (arranged rest).tagged⟩

namespace Arranges

variable {α : Type} {parts others : List Markup} {tagged more : List (String × String)}

/-- No part, no tag. -/
theorem nil : Arranges [] [] := by
  intro rest hrest
  cases hcut : arranged rest with
  | mk front tagged =>
    rw [hcut] at hrest
    simpa [hcut, Cut.ofTagged] using hrest

/-- One row of tags behind another one. -/
theorem append (h : Arranges parts tagged) (hmore : Arranges others more) :
    Arranges (parts ++ others) (tagged ++ more) := by
  intro rest hrest
  have hbehind := hmore rest hrest
  rw [List.append_assoc, h (others ++ rest) (by rw [hbehind]), hbehind]
  simp [Cut.ofTagged]

/-- One row of tags for each element. -/
theorem flatMap {form : α → List Markup} {shown : α → List (String × String)}
    (h : ∀ a, Arranges (form a) (shown a)) (row : List α) :
    Arranges (row.flatMap form) (row.flatMap shown) := by
  induction row with
  | nil => exact nil
  | cons a row ih => exact (h a).append ih

/-- The tags of what is written are those that were meant. -/
theorem tags_render (h : Arranges parts tagged) (hform : ∀ part ∈ parts, part.Proper) :
    tags (render parts) = tagged.map Prod.fst := by
  have hcut := h [] rfl
  rw [List.append_nil] at hcut
  simp [tags, render, cut_flatMap_chars hform, hcut, Cut.mapTexts, Cut.ofTagged, arranged,
    Function.comp_def]

/-- The texts of what is written, with characters in place of the entities, are those that were
meant. -/
theorem map_restored_texts_render (h : Arranges parts tagged)
    (hform : ∀ part ∈ parts, part.Proper) :
    (texts (render parts)).map restored = "" :: tagged.map Prod.snd := by
  have hcut := h [] rfl
  rw [List.append_nil] at hcut
  simp [texts, render, cut_flatMap_chars hform, hcut, Cut.mapTexts, Cut.ofTagged, arranged,
    Function.comp_def, restored, unescaped_escaped]

end Arranges

end Markup
end KeyLens
