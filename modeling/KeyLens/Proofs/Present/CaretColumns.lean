import KeyLens.Present.Report
import KeyLens.Proofs.Source.LastCharacter
import KeyLens.Proofs.Text.Columns

/-!
# Carets in reports

A report shows the line of a call between two lines that share its bar: one above, and one below
with the caret. Without colours the bars of all these lines stand in one column, and as many columns
are free in front of the caret as the text takes that stands in front of the last character of the
call. A report with a caret too far to the right breaks off.
-/

namespace KeyLens

/-- A hint for a call that ends at an offset of a text, with a character that ends no line. -/
structure HintReport.EndsAt (report : HintReport) (source : SourceText) (stop : Nat) : Prop where
  /-- The position of the hint is that of the end. -/
  position_eq : source.position? stop = some report.hint.position
  /-- The line is the one of the position. -/
  line_eq : report.sourceLine = source.lineText? report.hint.position.line
  /-- The call has a last character. -/
  last : ∃ c, (source.preceding stop).toList.getLast? = some c ∧ c ≠ '\n' ∧ c ≠ '\r'

namespace Report

variable {files : List FileReport} {report : HintReport} {source : SourceText} {stop : Nat}

/-! ### Lines without colours -/

/-- A line without colours. -/
def plain (line : Line) : String := String.join (line.map Styled.text)

/-- Lines without colours, with a line break behind each. -/
def plainLines (lines : List Line) : String :=
  String.join (lines.map fun line => plain line ++ "\n")

/-- Without colours a text is made of its lines without colours. -/
theorem textOf_false (lines : List Line) : textOf false lines = plainLines lines := by
  have hchars : Styled.chars false = fun part => part.text.toList := funext Styled.chars_false
  rw [← String.toList_inj, textOf, Styled.render, String.toList_ofList, parts, plainLines,
    String.toList_join]
  simp [List.flatMap_assoc, List.flatMap_map, hchars, plain, String.toList_join, Styled.plain]

/-! ### The number of a line -/

/-- A row of blanks is as long as it says. -/
@[simp] theorem length_blanks (count : Nat) : (blanks count).length = count := by
  simp [blanks]

/-- A text that has room is set to its width. -/
theorem length_setRight {width : Nat} {text : String} (h : text.length ≤ width) :
    (setRight width text).length = width := by
  rw [setRight, String.length_append, length_blanks, Nat.sub_add_cancel h]

/-- All numbers of lines have room. -/
theorem length_line_le_numberWidth (h : report ∈ allHints files) :
    (toString report.hint.position.line).length ≤ numberWidth files :=
  List.le_max?_getD_of_mem (List.mem_map_of_mem h)

/-! ### Carets -/

/-- The lines around a line of text with its number: the bars stand in a column, and the caret below
what stands behind `before`. -/
def marked (column number : Nat) (line : String) (before : List Char) : List String :=
  [blanks column ++ "|",
    setRight (column - 1) (toString number) ++ " | " ++ line,
    blanks column ++ "| " ++ blanks (Text.displayWidth before) ++ "^"]

/-- A bar stands in the column that is as far to the right as the text in front of it is long. -/
theorem getElem?_bar {column : Nat} {front : String} (h : front.length = column)
    (behind : List Char) : (front.toList ++ '|' :: behind)[column]? = some '|' := by
  rw [List.getElem?_append_right (by rw [String.length_toList, h]), String.length_toList, h,
    Nat.sub_self]
  rfl

/-- Where there is room for the number, the bars stand in their column. -/
theorem getElem?_of_mem_marked {column number : Nat} (h : (toString number).length + 1 ≤ column)
    {line row : String} {before : List Char} (hrow : row ∈ marked column number line before) :
    row.toList[column]? = some '|' := by
  have hblanks : (blanks column).length = column := length_blanks column
  have hnumber : (setRight (column - 1) (toString number) ++ " ").length = column := by
    rw [String.length_append, length_setRight (by omega)]
    exact Nat.sub_add_cancel (by omega)
  simp only [marked, List.mem_cons, List.not_mem_nil, or_false] at hrow
  rcases hrow with rfl | rfl | rfl
  · simpa using getElem?_bar hblanks []
  · simpa using getElem?_bar hnumber (' ' :: line.toList)
  · simpa using getElem?_bar hblanks
      (' ' :: ((blanks (Text.displayWidth before)).toList ++ ['^']))

/-- The columns in front of the caret are those that the text in front of the last character of the
call takes, and that text and the character are on the line that is shown. -/
theorem exists_sourceLine_of_endsAt (h : report.EndsAt source stop) :
    ∃ line c behind, report.sourceLine = some line ∧
      (source.preceding stop).toList.getLast? = some c ∧
      line.toList = source.beforeLast stop ++ c :: behind ∧
      beforeLast line report.hint.position.column = source.beforeLast stop := by
  obtain ⟨c, hlast, hfeed, hreturn⟩ := h.last
  obtain ⟨line, behind, hline, hshown, hcolumn⟩ :=
    SourceText.exists_lineText?_of_getLast? h.position_eq hlast hfeed hreturn
  refine ⟨line, c, behind, h.line_eq.trans hline, hlast, hshown, ?_⟩
  rw [beforeLast, hshown, hcolumn, Nat.add_sub_cancel, List.take_left']
  rfl

/-- Without colours the lines of a hint have the line of its call between its place and its
notes. -/
theorem map_plain_hintLines {line : String} {before : List Char} (path : String)
    (width : Nat) (hline : report.sourceLine = some line)
    (hbefore : beforeLast line report.hint.position.column = before) :
    (hintLines width path report).map plain =
      [plain (headline report), plain (placeLine path report.hint.position)] ++
        marked (width + 1) report.hint.position.line line before ++
        (notes width report.hint ++ [[]]).map plain := by
  have hblanks : blanks width ++ " " = blanks (width + 1) := by
    simp [blanks, List.replicate_succ']
  have hbar (behind : String) : " |" ++ (" " ++ behind) = " | " ++ behind := by
    simp [← String.toList_inj]
  simp [hintLines, hline, sourceLines, marked, hbefore, below, bar, plain, Styled.plain, ← hblanks,
    hbar, String.join, String.append_assoc]

/-! ### Reports that break off -/

/-- A report breaks off exactly if too many columns are free in front of a caret. -/
theorem text?_eq_none_iff {colored : Bool} :
    text? colored files = none ↔ ∃ report ∈ allHints files, ∃ indent,
      caretIndent? report = some indent ∧ 65535 < indent := by
  have hset : canBeSet files = true ↔ ∀ report ∈ allHints files, ∀ indent,
      caretIndent? report = some indent → indent ≤ 65535 := by
    simp only [canBeSet, List.all_eq_true, Option.all_eq_true, decide_eq_true_eq]
    rfl
  rw [text?]
  split
  · next h =>
    refine iff_of_false (Option.some_ne_none _) ?_
    rintro ⟨report, hreport, indent, hindent, hgreater⟩
    exact absurd (hset.mp h report hreport indent hindent) (by omega)
  · next h =>
    rw [hset] at h
    push Not at h
    exact iff_of_true rfl h

/-- Without colours the bars of the lines with the texts of calls, and of the lines around them,
stand in one column for all hints of all files. Where a hint is for a call that ends at an offset of
a text, as many blanks stand in front of the caret as the text takes columns that stands on the line
in front of the last character of the call. A report breaks off exactly if more than 65535 columns
would be free in front of a caret, and otherwise it consists of the lines of its hints and the
summary. -/
theorem caret_under_last_character (files : List FileReport) :
    ∃ column,
      (∀ file ∈ files, ∀ report ∈ file.hints, ∀ source stop, report.EndsAt source stop →
        ∃ line c behind, report.sourceLine = some line ∧
          (source.preceding stop).toList.getLast? = some c ∧
          line.toList = source.beforeLast stop ++ c :: behind ∧
          (hintLines (column - 1) file.path report).map plain =
            [plain (headline report), plain (placeLine file.path report.hint.position)] ++
              marked column report.hint.position.line line (source.beforeLast stop) ++
              (notes (column - 1) report.hint ++ [[]]).map plain ∧
          (∀ row ∈ marked column report.hint.position.line line (source.beforeLast stop),
            row.toList[column]? = some '|') ∧
          caretIndent? report = some (Text.displayWidth (source.beforeLast stop))) ∧
      (text? false files = none ↔ ∃ report ∈ allHints files, ∃ indent,
        caretIndent? report = some indent ∧ 65535 < indent) ∧
      ∀ written, text? false files = some written →
        written = String.join (files.map fun file => String.join (file.hints.map fun report =>
            plainLines (hintLines (column - 1) file.path report))) ++
          plainLines [summary files] := by
  refine ⟨numberWidth files + 1, ?_, text?_eq_none_iff, fun written hwritten => ?_⟩
  · intro file hfile report hreport source stop hends
    obtain ⟨line, c, behind, hline, hlast, hshown, hbefore⟩ := exists_sourceLine_of_endsAt hends
    have hmem : report ∈ allHints files := List.mem_flatMap.mpr ⟨file, hfile, hreport⟩
    have hroom := length_line_le_numberWidth hmem
    refine ⟨line, c, behind, hline, hlast, hshown, ?_, fun row hrow => ?_, ?_⟩
    · exact map_plain_hintLines file.path (numberWidth files) hline hbefore
    · exact getElem?_of_mem_marked (by omega) hrow
    · rw [caretIndent?, hline, Option.map_some, hbefore]
  · obtain rfl : text false files = written := by
      rw [text?] at hwritten
      split at hwritten
      · exact Option.some.inj hwritten
      · cases hwritten
    rw [text, textOf_false, lines]
    simp [plainLines, ← String.toList_inj, String.toList_join, List.flatMap_map, List.flatMap_assoc]

/-! ### A call behind wide characters -/

/-- The hint for a call that ends at an offset, with a line of text. -/
def hintAt (offset : Nat) (position : Position) (line : Option String) : HintReport where
  hint := {
    offset := offset
    position := position
    key := ⟨"a"⟩
    namespaces := ⟨["common"], by decide⟩
    language := "en"
    resolved := .found "common" "A"
    label := "A"
    blockLines := [] }
  sourceLine := line

/-- Two lines with carriage returns. A call stands on the second one behind characters that take two
columns each. -/
def wideCharacters : SourceText := ⟨"é\r\n日本 t($ => $.a);\r\n"⟩

/-- The caret stands fifteen columns to the right of the bar and the blank behind it, although only
thirteen characters are in front of the last one of the call. -/
theorem caret_behind_wide_characters :
    let report := hintAt 22 ⟨2, 15⟩ (wideCharacters.lineText? 2)
    let files : List FileReport := [⟨"src/a.ts", [report]⟩]
    report.EndsAt wideCharacters 22 ∧ (wideCharacters.beforeLast 22).length = 13 ∧
      ∃ column line, report.sourceLine = some line ∧
        line.toList = wideCharacters.beforeLast 22 ++ [')', ';'] ∧
        (hintLines (column - 1) "src/a.ts" report).map plain =
          [plain (headline report), plain (placeLine "src/a.ts" ⟨2, 15⟩)] ++
            marked column 2 line (wideCharacters.beforeLast 22) ++
            (notes (column - 1) report.hint ++ [[]]).map plain ∧
        (∀ row ∈ marked column 2 line (wideCharacters.beforeLast 22),
          row.toList[column]? = some '|') ∧
        caretIndent? report = some 15 ∧
        ∃ written, text? false files = some written ∧
          written = String.join (files.map fun file => String.join (file.hints.map fun report =>
              plainLines (hintLines (column - 1) file.path report))) ++
            plainLines [summary files] := by
  intro report files
  have hends : report.EndsAt wideCharacters 22 :=
    ⟨by decide +kernel, rfl, ')', by decide +kernel, by decide, by decide⟩
  obtain ⟨column, hcarets, hnone, hwritten⟩ := caret_under_last_character files
  obtain ⟨line, c, behind, hline, -, -, hlines, hbars, hindent⟩ :=
    hcarets _ List.mem_cons_self _ List.mem_cons_self _ _ hends
  have hwidth : Text.displayWidth (wideCharacters.beforeLast 22) = 15 := by decide +kernel
  have hshown : line.toList = wideCharacters.beforeLast 22 ++ [')', ';'] := by
    have hsource : wideCharacters.lineText? 2 = some "日本 t($ => $.a);" := by decide +kernel
    obtain rfl : "日本 t($ => $.a);" = line := Option.some.inj (hsource.symm.trans hline)
    decide +kernel
  have hset : text? false files ≠ none := by
    rw [Ne, hnone]
    rintro ⟨other, hother, indent, hother', hgreater⟩
    obtain rfl : other = report := List.mem_singleton.mp hother
    rw [hindent, hwidth] at hother'
    cases hother'
    omega
  obtain ⟨written, hsome⟩ := Option.ne_none_iff_exists'.mp hset
  refine ⟨hends, ?_, column, line, hline, hshown, ?_, ?_, ?_, written, hsome, ?_⟩
  · decide +kernel
  · exact hlines
  · exact hbars
  · rw [hindent, hwidth]
  · exact hwritten written hsome

/-! ### A call far to the right -/

/-- A call behind blanks, without its last character. -/
def openCall (count : Nat) : List Char := List.replicate count ' ' ++ "t($ => $.a".toList

/-- A text of one line, with a call behind blanks. -/
def shifted (count : Nat) : SourceText := ⟨String.ofList (openCall count ++ [')'] ++ [';'])⟩

/-- The hint for the call behind blanks. -/
def shiftedHint (count : Nat) : HintReport :=
  hintAt (count + 11) ⟨1, count + 12⟩ ((shifted count).lineText? 1)

/-- The call is on the first line. -/
theorem not_mem_openCall (count : Nat) : '\n' ∉ openCall count := by
  simp [openCall]

/-- Each character of the call takes a byte. -/
theorem byteLength_openCall (count : Nat) : byteLength (openCall count) = count + 10 := by
  induction count with
  | zero => decide +kernel
  | succ count ih =>
    have hcons : openCall (count + 1) = ' ' :: openCall count := rfl
    have hsize : ' '.utf8Size = 1 := rfl
    rw [hcons, byteLength, ih, hsize]
    omega

/-- The call ends with its closing bracket. -/
theorem preceding_shifted (count : Nat) :
    ((shifted count).preceding (count + 11)).toList = openCall count ++ [')'] := by
  have hbytes : byteLength (openCall count ++ [')']) = count + 11 := by
    rw [byteLength_append, byteLength_openCall]
    rfl
  rw [SourceText.preceding, String.toList_ofList, shifted, String.toList_ofList, ← hbytes,
    SourceText.takeBytes_append]

/-- The hint is the one for the call. -/
theorem endsAt_shifted (count : Nat) : (shiftedHint count).EndsAt (shifted count) (count + 11) := by
  refine ⟨?_, rfl, ')', ?_, by decide, by decide⟩
  · have hfree : '\n' ∉ openCall count ++ [')'] := by
      rw [List.mem_append, not_or]
      exact ⟨not_mem_openCall count, by decide⟩
    have hlength : (openCall count ++ [')']).length = count + 11 := by simp [openCall]
    refine SourceText.position?_eq_some_iff.mpr ⟨openCall count ++ [')'], [';'], ?_, ?_, ?_⟩
    · rw [shifted, String.toList_ofList]
    · rw [byteLength_append, byteLength_openCall]
      rfl
    · have hposition := @SourceText.positionAfter_append [] _ hfree
      rw [List.nil_append, hlength] at hposition
      rw [hposition]
      change Position.mk 1 (1 + (count + 11)) = ⟨1, count + 12⟩
      rw [Nat.add_comm 1]
  · rw [preceding_shifted, List.getLast?_concat]

/-- All of the line is in front of the last character of the call. -/
theorem beforeLast_shifted (count : Nat) :
    (shifted count).beforeLast (count + 11) = openCall count := by
  have hline := SourceText.rtakeWhile_append (not_mem_openCall count) []
  rw [List.rtakeWhile_nil, List.nil_append] at hline
  rw [SourceText.beforeLast, preceding_shifted, List.dropLast_concat]
  exact hline

/-- A report with a call that far to the right breaks off. -/
theorem breaks_off_far_to_the_right :
    (shiftedHint 65536).EndsAt (shifted 65536) 65547 ∧
      text? false [⟨"src/a.ts", [shiftedHint 65536]⟩] = none := by
  have hends := endsAt_shifted 65536
  obtain ⟨line, c, behind, hline, -, -, hbefore⟩ := exists_sourceLine_of_endsAt hends
  have hmem (report : HintReport) : report ∈ allHints [⟨"src/a.ts", [report]⟩] :=
    List.mem_singleton_self report
  refine ⟨hends, text?_eq_none_iff.mpr ⟨shiftedHint 65536, hmem _,
    65536 + Text.displayWidth "t($ => $.a".toList, ?_, by omega⟩⟩
  rw [caretIndent?, hline, Option.map_some, hbefore, beforeLast_shifted, openCall,
    Text.displayWidth_replicate_append]

end Report
end KeyLens
