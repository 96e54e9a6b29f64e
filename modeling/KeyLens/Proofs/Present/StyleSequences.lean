import KeyLens.Proofs.Present.CaretColumns
import KeyLens.Proofs.Text.Pieces

/-!
# Style sequences in reports

A style sequence is an escape character, an opening bracket, numbers with semicolons between them
and the letter `m`. A report in colour without its style sequences is the report without colours,
character by character: where a text is set to a width, its blanks are counted before the sequences
are written around them.
-/

namespace KeyLens

/-! ### Texts without their sequences -/

namespace Styled

/-- A character of the numbers of a sequence. -/
def isCode (c : Char) : Bool := c.isDigit || c == ';'

/-- The text behind the sequence that a text starts with; none if it starts with no sequence. -/
def behindSequence? : List Char → Option (List Char)
  | '\x1b' :: '[' :: rest =>
    match rest.dropWhile isCode with
    | 'm' :: behind => some behind
    | _ => none
  | _ => none

/-- Behind a sequence the text is shorter. -/
theorem length_of_behindSequence? {text behind : List Char}
    (h : behindSequence? text = some behind) : behind.length < text.length := by
  unfold behindSequence? at h
  split at h
  · next rest =>
    have hle := (List.dropWhile_sublist (l := rest) isCode).length_le
    split at h
    · next hdrop =>
      cases h
      rw [hdrop] at hle
      simp only [List.length_cons] at hle ⊢
      omega
    · cases h
  · cases h

/-- A text without its sequences. -/
def withoutSequences : List Char → List Char
  | [] => []
  | c :: rest =>
    match h : behindSequence? (c :: rest) with
    | some behind =>
      have := length_of_behindSequence? h
      withoutSequences behind
    | none => c :: withoutSequences rest
termination_by text => text.length
decreasing_by
  · exact this
  · exact Nat.lt_add_one rest.length

/-- A sequence is left out. -/
theorem withoutSequences_of_behindSequence? {text behind : List Char}
    (h : behindSequence? text = some behind) : withoutSequences text = withoutSequences behind := by
  cases text with
  | nil => cases h
  | cons c rest =>
    rw [withoutSequences]
    split
    · next hbehind =>
      cases hbehind.symm.trans h
      rfl
    · next hnone => exact absurd (hnone.symm.trans h) (Option.some_ne_none behind).symm

/-- Characters that start no sequence stay. -/
theorem withoutSequences_append {front : List Char} (h : '\x1b' ∉ front) (rest : List Char) :
    withoutSequences (front ++ rest) = front ++ withoutSequences rest := by
  induction front with
  | nil => rfl
  | cons c front ih =>
    rw [List.mem_cons, not_or] at h
    have hnone : behindSequence? (c :: (front ++ rest)) = none := by
      unfold behindSequence?
      split
      · next heq => exact absurd (List.cons.inj heq).1.symm h.1
      · rfl
    rw [List.cons_append, withoutSequences]
    split
    · next hsome => exact absurd (hnone.symm.trans hsome) (Option.some_ne_none _).symm
    · rw [ih h.2, List.cons_append]

/-- The numbers of styles and the semicolons between them are characters of a sequence. -/
theorem isCode_of_mem_codes {styles : List Style} : ∀ c ∈ codes styles, isCode c = true := by
  have hstyle (style : Style) : ∀ c ∈ style.code, isCode c = true := by
    rw [← List.all_eq_true]
    cases style <;> rfl
  fun_induction codes styles with
  | case1 => simp
  | case2 style => exact hstyle style
  | case3 style rest _ ih =>
    rw [List.forall_mem_append, List.forall_mem_cons]
    exact ⟨hstyle style, by decide, ih⟩

/-- A sequence that starts styles is left out. -/
theorem withoutSequences_opening (styles : List Style) (rest : List Char) :
    withoutSequences (opening styles ++ rest) = withoutSequences rest := by
  apply withoutSequences_of_behindSequence?
  have hdrop : (codes styles ++ 'm' :: rest).dropWhile isCode = 'm' :: rest :=
    Text.dropWhile_append_stop isCode_of_mem_codes (by rintro c ⟨⟩; decide)
  simp only [opening, List.cons_append, List.append_assoc, List.nil_append, behindSequence?, hdrop]

/-- The sequence that ends all styles is left out. -/
theorem withoutSequences_closing (rest : List Char) :
    withoutSequences (closing ++ rest) = withoutSequences rest :=
  withoutSequences_of_behindSequence? rfl

/-! ### Parts -/

/-- A text holds no character that starts a sequence. -/
def Clean (text : String) : Prop := '\x1b' ∉ text.toList

instance (text : String) : Decidable (Clean text) := inferInstanceAs (Decidable (_ ∉ _))

/-- A row of parts with clean texts. -/
def IsClean (parts : List Styled) : Prop := ∀ part ∈ parts, Clean part.text

/-- No part, no text that is not clean. -/
@[simp] theorem isClean_nil : IsClean [] := List.forall_mem_nil _

/-- A row is clean where its first part and the others are. -/
@[simp] theorem isClean_cons {part : Styled} {rest : List Styled} :
    IsClean (part :: rest) ↔ Clean part.text ∧ IsClean rest :=
  List.forall_mem_cons

/-- In a clean text no style ends. -/
theorem reopen_of_clean (start : List Char) {text : List Char} (h : '\x1b' ∉ text) :
    reopen start text = text := by
  induction text with
  | nil => rfl
  | cons c rest ih =>
    rw [List.mem_cons, not_or] at h
    unfold reopen
    split
    · next heq => exact absurd (List.cons.inj heq).1.symm h.1
    · next heq =>
      obtain ⟨rfl, rfl⟩ := List.cons.inj heq
      rw [ih h.2]
    · next heq => cases heq

/-- A part with a clean text is written, sequences left out, as its text. -/
theorem withoutSequences_chars {part : Styled} (h : Clean part.text) (rest : List Char) :
    withoutSequences (part.chars true ++ rest) = part.text.toList ++ withoutSequences rest := by
  rw [chars]
  split
  · -- The text holds no end of styles behind which they would be started again.
    rw [reopen_of_clean _ h, List.append_assoc, List.append_assoc, withoutSequences_opening,
      withoutSequences_append h, withoutSequences_closing]
  · exact withoutSequences_append h rest

/-- In colour a part with styles starts with a sequence. -/
theorem mem_chars_of_styles {part : Styled} (h : part.styles ≠ []) : '\x1b' ∈ part.chars true := by
  rw [chars, if_pos ⟨rfl, h⟩]
  exact List.mem_cons_self

/-- Without colours a row of parts with clean texts holds no sequence. -/
theorem not_mem_flatMap_chars {parts : List Styled} (h : IsClean parts) :
    '\x1b' ∉ parts.flatMap (chars false) := by
  intro hmem
  obtain ⟨part, hpart, hchar⟩ := List.mem_flatMap.mp hmem
  rw [chars_false] at hchar
  exact h part hpart hchar

/-- A row of parts with clean texts is written in colour, sequences left out, as without. -/
theorem withoutSequences_flatMap_chars {parts : List Styled} (h : IsClean parts) :
    withoutSequences (parts.flatMap (chars true)) = parts.flatMap (chars false) := by
  induction parts with
  | nil => rw [List.flatMap_nil, List.flatMap_nil, withoutSequences]
  | cons part rest ih =>
    obtain ⟨hpart, hrest⟩ := List.forall_mem_cons.mp h
    rw [List.flatMap_cons, List.flatMap_cons, withoutSequences_chars hpart, ih hrest, chars_false]

end Styled

/-! ### Reports -/

/-- The texts that a hint brings into a report. -/
def HintReport.texts (report : HintReport) : List String :=
  report.hint.label :: report.hint.key.text :: report.hint.namespaces.toList ++
    report.hint.resolved.matchedNamespace.toList ++ report.hint.blockLines ++
    report.sourceLine.toList

/-- The texts that a file brings into a report. -/
def FileReport.texts (file : FileReport) : List String :=
  file.path :: file.hints.flatMap HintReport.texts

namespace Report

open Styled

variable {files : List FileReport} {file : FileReport} {report : HintReport} {width : Nat}

/-- A text is clean where its two halves are. -/
@[simp] theorem clean_append {first second : String} :
    Clean (first ++ second) ↔ Clean first ∧ Clean second := by
  simp [Clean]

/-- Blanks are clean. -/
@[simp] theorem clean_blanks (count : Nat) : Clean (blanks count) := by
  simp [Clean, blanks]

/-- A number is clean. -/
@[simp] theorem clean_toString (n : Nat) : Clean (toString n) := by
  intro h
  rw [Nat.toString_eq_ofList_toDigits, String.toList_ofList] at h
  exact absurd (Nat.isDigit_of_mem_toDigits (by decide) (by decide) h) (by decide)

/-- Clean names with commas between them are clean. -/
theorem clean_intercalate {names : List String} (h : ∀ name ∈ names, Clean name) :
    Clean (", ".intercalate names) := by
  induction names with
  | nil => decide
  | cons name rest ih =>
    obtain ⟨hname, hrest⟩ := List.forall_mem_cons.mp h
    cases rest with
    | nil => rwa [String.intercalate_singleton]
    | cons next others =>
      rw [String.intercalate_cons_cons, clean_append, clean_append]
      exact ⟨⟨hname, by decide⟩, ih hrest⟩

/-- A line below the place of a hint is clean where its mark and its rest are. -/
theorem isClean_below {mark : Styled} {rest : Line} (hmark : Clean mark.text)
    (hrest : IsClean rest) : IsClean (below width mark rest) := by
  have hblanks : Clean (blanks width ++ " ") := clean_append.mpr ⟨clean_blanks width, by decide⟩
  exact isClean_cons.mpr ⟨hblanks, isClean_cons.mpr ⟨hmark, hrest⟩⟩

/-- The headline of a hint is clean. -/
theorem isClean_headline (h : ∀ text ∈ report.texts, Clean text) : IsClean (headline report) := by
  have hlabel : Clean report.hint.label := h _ (by simp [HintReport.texts])
  have hkey : Clean report.hint.key.text := h _ (by simp [HintReport.texts])
  have hnames : Clean report.hint.namespaces.display :=
    clean_intercalate fun name hname => h name (by simp [HintReport.texts, hname])
  rw [headline]
  split
  · simp only [isClean_cons, Styled.plain, clean_append, isClean_nil, hlabel, hkey]
    decide
  · simp only [isClean_cons, Styled.plain, clean_append, isClean_nil, hkey, hnames]
    decide

/-- The line with the place of a hint is clean. -/
theorem isClean_placeLine {path : String} (hpath : Clean path) (position : Position) :
    IsClean (placeLine path position) := by
  simp only [placeLine, Position.display, isClean_cons, Styled.plain, clean_append, clean_toString,
    isClean_nil, hpath]
  decide

/-- The lines with the line of text of a hint and with the caret are clean. -/
theorem isClean_of_mem_sourceLines {source : String} (hsource : Clean source) {line : Line}
    (hline : line ∈ sourceLines width report source) : IsClean line := by
  simp only [sourceLines, List.mem_cons, List.not_mem_nil, or_false] at hline
  rcases hline with rfl | rfl | rfl
  · exact isClean_below (by decide) isClean_nil
  · simp only [isClean_cons, Styled.plain, setRight, bar, clean_append, clean_blanks,
      clean_toString, isClean_nil, hsource]
    decide
  · refine isClean_below (by decide) ?_
    simp only [isClean_cons, Styled.plain, clean_append, clean_blanks, isClean_nil]
    decide

/-- What a hint says below is clean. -/
theorem isClean_of_mem_notes (h : ∀ text ∈ report.texts, Clean text) {line : Line}
    (hline : line ∈ notes width report.hint) : IsClean line := by
  rcases List.mem_append.mp hline with hname | hrow
  · obtain ⟨name, hmem, rfl⟩ := List.mem_map.mp hname
    have hclean : Clean name := h name (by simp [HintReport.texts, hmem])
    refine isClean_below (by decide) ?_
    simp only [isClean_cons, Styled.plain, clean_append, isClean_nil, hclean]
    decide
  · obtain ⟨row, hmem, rfl⟩ := List.mem_map.mp hrow
    have hclean : Clean row := h row (by simp [HintReport.texts, hmem])
    refine isClean_below (by decide) ?_
    simp only [isClean_cons, Styled.plain, clean_append, isClean_nil, hclean]
    decide

/-- The lines of a hint are clean. -/
theorem isClean_of_mem_hintLines {path : String} (hpath : Clean path)
    (h : ∀ text ∈ report.texts, Clean text) {line : Line}
    (hline : line ∈ hintLines width path report) : IsClean line := by
  simp only [hintLines, List.mem_append, List.mem_cons, List.not_mem_nil, or_false] at hline
  rcases hline with (((rfl | rfl) | hsource) | hnote) | rfl
  · exact isClean_headline h
  · exact isClean_placeLine hpath report.hint.position
  · cases htext : report.sourceLine with
    | none =>
      rw [htext] at hsource
      cases hsource
    | some source =>
      rw [htext] at hsource
      exact isClean_of_mem_sourceLines (h source (by simp [HintReport.texts, htext])) hsource
  · exact isClean_of_mem_notes h hnote
  · exact isClean_nil

/-- The summary is clean. -/
theorem isClean_summary (files : List FileReport) : IsClean (summary files) := by
  have hword : Clean (if files.length = 1 then "file" else "files") := by
    split <;> decide
  simp only [summary]
  split
  · simp only [isClean_cons, Styled.plain, clean_append, clean_toString, isClean_nil, hword]
    decide
  · simp only [isClean_cons, Styled.plain, clean_append, clean_toString, isClean_nil, hword]
    decide

/-- All parts of a report are clean. -/
theorem isClean_parts_lines (h : ∀ file ∈ files, ∀ text ∈ file.texts, Clean text) :
    IsClean (parts (lines files)) := by
  have hlines : ∀ line ∈ lines files, IsClean line := by
    intro line hline
    rcases List.mem_append.mp hline with hshown | hlast
    · obtain ⟨file, hfile, hblocks⟩ := List.mem_flatMap.mp hshown
      obtain ⟨report, hreport, hblock⟩ := List.mem_flatMap.mp hblocks
      obtain ⟨hpath, hhints⟩ := List.forall_mem_cons.mp (h file hfile)
      exact isClean_of_mem_hintLines hpath
        (fun text htext => hhints text (List.mem_flatMap.mpr ⟨report, hreport, htext⟩)) hblock
    · rw [List.mem_singleton.mp hlast]
      exact isClean_summary files
  intro part hpart
  obtain ⟨line, hline, hmem⟩ := List.mem_flatMap.mp hpart
  rcases List.mem_append.mp hmem with hown | hbreak
  · exact hlines line hline part hown
  · rw [List.mem_singleton.mp hbreak]
    decide

/-- A text without its style sequences. -/
def withoutStyles (text : String) : String := String.ofList (withoutSequences text.toList)

/-- The summary, and with it each report in colour, holds a sequence. -/
theorem not_clean_text_true (files : List FileReport) : ¬ Clean (text true files) := by
  have hsummary : ∃ part ∈ summary files, part.styles ≠ [] := by
    simp only [summary]
    split
    · exact ⟨_, List.mem_cons_self, List.cons_ne_nil _ _⟩
    · exact ⟨_, List.mem_cons_self, List.cons_ne_nil _ _⟩
  obtain ⟨part, hpart, hstyles⟩ := hsummary
  have hlast : part ∈ parts (lines files) := by
    refine List.mem_flatMap.mpr ⟨summary files, ?_, List.mem_append_left _ hpart⟩
    exact List.mem_append_right _ List.mem_cons_self
  rw [Clean, Classical.not_not, text, textOf, render, String.toList_ofList]
  exact List.mem_flatMap.mpr ⟨part, hlast, mem_chars_of_styles hstyles⟩

/-- Where no text of the files holds an escape character, the report in colour without its style
sequences is the report without colours, and the one is written where the other is. All escape
characters of the report in colour belong to style sequences, and there are some. -/
theorem map_withoutStyles_text? (h : ∀ file ∈ files, ∀ text ∈ file.texts, Clean text) :
    (text? true files).map withoutStyles = text? false files ∧
      (∀ written, text? false files = some written → Clean written) ∧
      ∀ written, text? true files = some written → ¬ Clean written := by
  have hclean := isClean_parts_lines h
  have htext : withoutStyles (text true files) = text false files := by
    rw [withoutStyles, text, textOf, render, String.toList_ofList,
      withoutSequences_flatMap_chars hclean]
    rfl
  have hplain : Clean (text false files) := by
    rw [Clean, text, textOf, render, String.toList_ofList]
    exact not_mem_flatMap_chars hclean
  rw [text?, text?]
  split
  · refine ⟨congrArg some htext, ?_, ?_⟩
    · rintro written ⟨⟩
      exact hplain
    · rintro written ⟨⟩
      exact not_clean_text_true files
  · refine ⟨rfl, fun written hwritten => ?_, fun written hwritten => ?_⟩
    · cases hwritten
    · cases hwritten

/-- A file with a key that has a translation, behind wide characters, and with one that has none. -/
def foundAndMissing : FileReport where
  path := "src/a.ts"
  hints := [
    { hint := {
        offset := 22
        position := ⟨9, 14⟩
        key := ⟨"a"⟩
        namespaces := ⟨["pages"], by decide⟩
        language := "en"
        resolved := .found "pages" "A"
        label := "i18n[en]: A"
        blockLines := ["en: A"] }
      sourceLine := some "日本t($ => $.a)" },
    { hint := {
        offset := 40
        position := ⟨10, 12⟩
        key := ⟨"b"⟩
        namespaces := ⟨["pages", "errors"], by decide⟩
        language := "en"
        resolved := .missing
        label := "i18n[en]: <missing>"
        blockLines := [] }
      sourceLine := none }]

/-- The numbers of lines and the caret stand where they stand without colours. -/
theorem map_withoutStyles_text?_foundAndMissing :
    let rows := ["hint: i18n[en]: A  a",
      "  --> src/a.ts:9:14",
      "   |",
      " 9 | 日本t($ => $.a)",
      "   |               ^",
      "   = namespace: pages",
      "   = en: A",
      "",
      "warning: missing translation for \"b\"  pages, errors",
      "  --> src/a.ts:10:12",
      "",
      "✘ 1 of 2 translation call(s) have no translation (1 file)"]
    let written := String.join (rows.map (· ++ "\n"))
    (∀ file ∈ [foundAndMissing], ∀ text ∈ file.texts, Clean text) ∧
      (text? true [foundAndMissing]).map withoutStyles = some written ∧
      text? true [foundAndMissing] ≠ some written := by
  intro rows written
  have hclean : ∀ file ∈ [foundAndMissing], ∀ text ∈ file.texts, Clean text := by decide
  have hset : canBeSet [foundAndMissing] = true := by decide +kernel
  have hrows : (lines [foundAndMissing]).map plain = rows := by decide +kernel
  have hjoined (shown : List Line) :
      plainLines shown = String.join ((shown.map plain).map (· ++ "\n")) := by
    rw [plainLines, List.map_map]
    rfl
  have hwritten : text? false [foundAndMissing] = some written := by
    rw [text?, if_pos hset, text, textOf_false, hjoined, hrows]
  obtain ⟨hwithout, hplain, hcolored⟩ := map_withoutStyles_text? hclean
  refine ⟨hclean, hwithout.trans hwritten, fun hsame => ?_⟩
  exact hcolored written hsame (hplain written hwritten)

end Report
end KeyLens
