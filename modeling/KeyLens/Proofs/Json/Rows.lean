import KeyLens.Proofs.Json.Quoted
import KeyLens.Proofs.Text.Pieces

/-!
# Rows with blanks between their items

Documents are printed in one line or in many, which differ in the blanks around their parts alone.
The items of a row are read back one after the other whatever the blanks are, if each of them is.
-/

namespace KeyLens.Json

variable {c : Char} {blanks text start rest : List Char}

/-! ### Layout -/

/-- The blanks around the parts of a row or an object. -/
structure Spacing where
  /-- What stands in front of the first part. -/
  before : List Char
  /-- What follows a comma. -/
  between : List Char
  /-- What stands in front of the closing bracket. -/
  after : List Char
  /-- What follows a colon. -/
  colon : List Char
  /-- There are blanks in front of the first part. -/
  isSpace_before : ∀ c ∈ before, isSpace c = true
  /-- Blanks follow a comma. -/
  isSpace_between : ∀ c ∈ between, isSpace c = true
  /-- There are blanks in front of the closing bracket. -/
  isSpace_after : ∀ c ∈ after, isSpace c = true
  /-- Blanks follow a colon. -/
  isSpace_colon : ∀ c ∈ colon, isSpace c = true

/-- Parts behind commas, up to the closing bracket. -/
def Spacing.others (spacing : Spacing) (closing : Char) (parts : List (List Char)) : List Char :=
  parts.flatMap (fun part => ',' :: (spacing.between ++ part)) ++ (spacing.after ++ [closing])

/-- Parts between two brackets; without parts the brackets stand together. -/
def Spacing.row (spacing : Spacing) (opening closing : Char) : List (List Char) → List Char
  | [] => [opening, closing]
  | part :: parts => opening :: (spacing.before ++ (part ++ spacing.others closing parts))

/-- The first part stands alone, and each of the others behind a separator. -/
theorem separated_cons (separator part : List Char) (parts : List (List Char)) :
    separated separator (part :: parts) = part ++ parts.flatMap (separator ++ ·) := by
  induction parts generalizing part with
  | nil => simp [separated]
  | cons other parts ih =>
    rw [separated, ih, List.flatMap_cons, List.append_assoc, List.append_assoc]
    exact List.cons_ne_nil _ _

/-- No blanks at all. -/
def Spacing.none : Spacing :=
  ⟨[], [], [], [], List.forall_mem_nil _, List.forall_mem_nil _, List.forall_mem_nil _,
    List.forall_mem_nil _⟩

/-- In one line no blanks stand around the parts. -/
theorem row_none (opening closing : Char) (parts : List (List Char)) :
    Spacing.none.row opening closing parts = opening :: (separated [','] parts ++ [closing]) := by
  cases parts with
  | nil => rfl
  | cons part parts => rw [separated_cons, List.append_assoc]; rfl

/-- A line break and an indentation are blanks. -/
theorem isSpace_of_mem_newLine (level : Nat) : ∀ c ∈ newLine level, isSpace c = true := by
  intro c hc
  rcases List.mem_cons.mp hc with rfl | hblank
  · rfl
  · rw [List.eq_of_mem_replicate hblank]
    rfl

/-- A line for every part, inside of `level` others. -/
def Spacing.lines (level : Nat) : Spacing where
  before := newLine (level + 1)
  between := newLine (level + 1)
  after := newLine level
  colon := [' ']
  isSpace_before := isSpace_of_mem_newLine (level + 1)
  isSpace_between := isSpace_of_mem_newLine (level + 1)
  isSpace_after := isSpace_of_mem_newLine level
  isSpace_colon := by simp [isSpace]

/-- In lines every part stands on a line of its own, and so does the closing bracket. -/
theorem row_lines (level : Nat) (opening closing : Char) (parts : List (List Char)) :
    (Spacing.lines level).row opening closing parts = block level opening closing parts := by
  cases parts with
  | nil => rfl
  | cons part parts =>
    rw [block, if_neg (List.cons_ne_nil _ _), separated_cons]
    simp only [Spacing.row, Spacing.others, Spacing.lines, List.append_assoc, List.cons_append]

/-! ### Blanks -/

/-- Blanks in front of a text are skipped with those at its start. -/
theorem skipSpace_append (hblanks : ∀ c ∈ blanks, isSpace c = true) (text : List Char) :
    skipSpace (blanks ++ text) = skipSpace text :=
  List.dropWhile_append_of_pos hblanks

/-- Nothing is skipped at a character that is no blank. -/
theorem skipSpace_cons (hc : isSpace c = false) (rest : List Char) :
    skipSpace (c :: rest) = c :: rest :=
  List.dropWhile_cons_of_neg (by rw [hc]; exact Bool.false_ne_true)

/-- What follows the closing character of a row or an object. -/
theorem afterClosing_append (hblanks : ∀ c ∈ blanks, isSpace c = true) (hc : isSpace c = false)
    (rest : List Char) : afterClosing (blanks ++ c :: rest) = rest := by
  rw [afterClosing, skipSpace_append hblanks, skipSpace_cons hc]
  rfl

/-! ### Items -/

/-- A text at which an item of a row may start. -/
def StartsItem (text : List Char) : Prop :=
  ∃ c rest, text = c :: rest ∧ isSpace c = false ∧ c ≠ ']'

/-- An item stays one with more text behind it. -/
theorem StartsItem.append (h : StartsItem text) (rest : List Char) : StartsItem (text ++ rest) := by
  obtain ⟨c, after, rfl, hc, hclosing⟩ := h
  exact ⟨c, after ++ rest, rfl, hc, hclosing⟩

/-- The first item of a row starts behind blanks. -/
theorem nextItem_first (hblanks : ∀ c ∈ blanks, isSpace c = true) (h : StartsItem text) :
    nextItem true (blanks ++ text) = .ok (some text) := by
  obtain ⟨c, rest, rfl, hc, hclosing⟩ := h
  rw [nextItem, skipSpace_append hblanks, skipSpace_cons hc]
  exact (if_neg hclosing).trans (if_pos rfl)

/-- Every other item starts behind a comma and blanks. -/
theorem nextItem_comma (hblanks : ∀ c ∈ blanks, isSpace c = true) (h : StartsItem text) :
    nextItem false (',' :: (blanks ++ text)) = .ok (some text) := by
  obtain ⟨c, rest, rfl, hc, hclosing⟩ := h
  rw [nextItem, skipSpace_cons (by decide)]
  simp [skipSpace_append hblanks, skipSpace_cons hc, hclosing]

/-- Behind the closing bracket no item starts. -/
theorem nextItem_closing (isFirst : Bool) (hblanks : ∀ c ∈ blanks, isSpace c = true)
    (rest : List Char) : nextItem isFirst (blanks ++ ']' :: rest) = .ok none := by
  rw [nextItem, skipSpace_append hblanks, skipSpace_cons (by decide)]
  rfl

section Items

variable {α : Type} {read : List Char → Except Failure (α × List Char)} {print : α → List Char}
  {item : α} {items : List α} {isFirst : Bool} {steps : Nat}

/-- An item is read in front of the ones that follow it. -/
theorem readItems_of_nextItem (hnext : nextItem isFirst text = .ok (some start))
    (hread : read start = .ok (item, rest)) (steps : Nat) :
    readItems read isFirst (steps + 1) text =
      (readItems read false steps rest).map fun (items, rest) => (item :: items, rest) := by
  rw [readItems, hnext]
  simp only [bind, Except.bind, hread]
  cases readItems read false steps rest <;> rfl

/-- A row ends at its closing bracket. -/
theorem readItems_closing (hblanks : ∀ c ∈ blanks, isSpace c = true) (steps : Nat)
    (rest : List Char) :
    readItems read isFirst (steps + 1) (blanks ++ ']' :: rest) = .ok ([], rest) := by
  rw [readItems, nextItem_closing isFirst hblanks]
  simp only [bind, Except.bind, afterClosing_append hblanks (show isSpace ']' = false by decide)]
  rfl

/-- Items behind commas are read up to the closing bracket, in more steps than there are items. -/
theorem readItems_others (spacing : Spacing)
    (hread : ∀ item rest, read (print item ++ rest) = .ok (item, rest))
    (hstart : ∀ item, StartsItem (print item)) (hsteps : items.length < steps) (rest : List Char) :
    readItems read false steps (spacing.others ']' (items.map print) ++ rest) =
      .ok (items, rest) := by
  induction items generalizing steps with
  | nil =>
    obtain ⟨steps, rfl⟩ := Nat.exists_eq_add_one_of_ne_zero (Nat.ne_zero_of_lt hsteps)
    rw [Spacing.others, List.map_nil, List.flatMap_nil, List.nil_append, List.append_assoc]
    exact readItems_closing spacing.isSpace_after steps rest
  | cons item items ih =>
    obtain ⟨steps, rfl⟩ := Nat.exists_eq_add_one_of_ne_zero (Nat.ne_zero_of_lt hsteps)
    have hothers : spacing.others ']' ((item :: items).map print) ++ rest =
        ',' :: (spacing.between ++
          (print item ++ (spacing.others ']' (items.map print) ++ rest))) := by
      simp [Spacing.others]
    rw [hothers, readItems_of_nextItem
        (nextItem_comma spacing.isSpace_between ((hstart item).append _)) (hread item _),
      ih (Nat.lt_of_succ_lt_succ hsteps)]
    rfl

/-- There are fewer parts than characters up to the closing bracket. -/
theorem length_lt_length_others (spacing : Spacing) (closing : Char) (parts : List (List Char)) :
    parts.length < (spacing.others closing parts).length := by
  have hlength := length_le_length_flatMap
    (fun part => List.cons_ne_nil ',' (spacing.between ++ part)) parts
  rw [Spacing.others, List.length_append, List.length_append, List.length_singleton]
  omega

/-- The items of a printed row are read behind its opening bracket. -/
theorem readItems_row (spacing : Spacing)
    (hread : ∀ item rest, read (print item ++ rest) = .ok (item, rest))
    (hstart : ∀ item, StartsItem (print item)) (items : List α) (rest : List Char) :
    ∃ inside, spacing.row '[' ']' (items.map print) ++ rest = '[' :: inside ∧
      readItems read true (inside.length + 1) inside = .ok (items, rest) := by
  cases items with
  | nil => exact ⟨']' :: rest, rfl, readItems_closing (List.forall_mem_nil _) _ rest⟩
  | cons item items =>
    have hlength := length_lt_length_others spacing ']' (items.map print)
    rw [List.length_map] at hlength
    simp only [List.map_cons, Spacing.row, List.cons_append, List.append_assoc]
    refine ⟨_, rfl, ?_⟩
    rw [readItems_of_nextItem
        (nextItem_first spacing.isSpace_before ((hstart item).append _)) (hread item _),
      readItems_others spacing hread hstart]
    · rfl
    · simp only [List.length_append]
      omega

end Items

/-- A row of texts is read back, whatever the blanks around them are. -/
theorem readTexts_row (spacing : Spacing) (texts : List String) (rest : List Char) :
    readTexts (spacing.row '[' ']' (texts.map fun text => quotedText text.toList) ++ rest) =
      .ok (texts, rest) := by
  obtain ⟨inside, hinside, hread⟩ := readItems_row spacing readText_quotedText
    (fun text => ⟨'"', _, rfl, by decide, by decide⟩) texts rest
  rw [hinside, readTexts, skipSpace_cons (by decide)]
  exact hread

/-- A row of texts that is printed in one line is read back. -/
theorem readTexts_compactChars (texts : List String) (rest : List Char) :
    readTexts (compactChars (.array (texts.map .string)) ++ rest) = .ok (texts, rest) := by
  have hitems : ∀ texts : List String, compactItems (texts.map .string) =
      texts.map fun text => quotedText text.toList := by
    intro texts
    induction texts with
    | nil => rfl
    | cons text texts ih => rw [List.map_cons, compactItems, ih]; rfl
  rw [compactChars, hitems, ← row_none]
  exact readTexts_row Spacing.none texts rest

/-- A row of texts that is printed in lines is read back. -/
theorem readTexts_prettyChars (level : Nat) (texts : List String) (rest : List Char) :
    readTexts (prettyChars level (.array (texts.map .string)) ++ rest) = .ok (texts, rest) := by
  have hitems : ∀ texts : List String, prettyItems (level + 1) (texts.map .string) =
      texts.map fun text => quotedText text.toList := by
    intro texts
    induction texts with
    | nil => rfl
    | cons text texts ih => rw [List.map_cons, prettyItems, ih]; rfl
  rw [prettyChars, hitems, ← row_lines]
  exact readTexts_row (Spacing.lines level) texts rest

/-! ### Names -/

/-- The first name of an object starts behind blanks. -/
theorem nextName_first (hblanks : ∀ c ∈ blanks, isSpace c = true) (rest : List Char) :
    nextName true (blanks ++ '"' :: rest) = .ok (some rest) := by
  rw [nextName, skipSpace_append hblanks, skipSpace_cons (by decide)]
  rfl

/-- Every other name starts behind a comma and blanks. -/
theorem nextName_comma (hblanks : ∀ c ∈ blanks, isSpace c = true) (rest : List Char) :
    nextName false (',' :: (blanks ++ '"' :: rest)) = .ok (some rest) := by
  rw [nextName, skipSpace_cons (by decide)]
  simp [skipSpace_append hblanks, skipSpace_cons (show isSpace '"' = false by decide)]

/-- Behind the closing brace no name starts. -/
theorem nextName_closing (isFirst : Bool) (hblanks : ∀ c ∈ blanks, isSpace c = true)
    (rest : List Char) : nextName isFirst (blanks ++ '\x7d' :: rest) = .ok none := by
  rw [nextName, skipSpace_append hblanks, skipSpace_cons (by decide)]
  rfl

end KeyLens.Json
