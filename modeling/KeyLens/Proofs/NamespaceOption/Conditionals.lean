import KeyLens.Proofs.NamespaceOption.Rows
import KeyLens.Proofs.NamespaceOption.Strings

/-!
# Options with conditionals

A conditional holds a colon behind its second part. The search does not record whether it stands in
a key or in a value, and so a name `ns` at the end of that part counts as a key. In an object with
conditionals the search finds the first place that looks like a namespace option, and this is one of
a member of the object if no key and no value of another member holds such a place.
-/

namespace KeyLens.NamespaceOption

open KeyLens.Text
open KeyLens.Selector (isQuote)

variable {afterName grouped : Bool} {c : Char} {part row front rest content found : List Char}

/-- A key of an entry. Without quotes it may hold signs that the search counts to no name. -/
inductive IsLabel : List Char → Prop where
  /-- The key stands without quotes. -/
  | bare {key : List Char} (hkey : key ≠ [])
    (hsigns : ∀ c ∈ key, isSign c = true ∧ isBlank c = false) : IsLabel key
  /-- The key stands between quotes. -/
  | quoted {quote : Char} {content : List Char} (hquote : isQuote quote = true)
    (hfree : quote ∉ content) : IsLabel (quote :: (content ++ [quote]))

/-- A value of an entry. -/
inductive IsValue : List Char → Prop where
  /-- The value is a row in which no colon stands outside of groups. -/
  | row {text : List Char} (htext : Row false text) : IsValue text
  /-- The value is a conditional. -/
  | conditional {test first second : List Char} (htest : IsValue test) (hfirst : IsValue first)
    (hsecond : IsValue second) : IsValue (test ++ '?' :: (first ++ ':' :: second))

/-- A member of an object with the blanks around its key. -/
structure Entry extends Member where
  /-- The blanks in front of the key. -/
  before : List Char
  /-- The blanks behind the key. -/
  after : List Char
  /-- Only blanks stand in front of the key. -/
  blanksBefore : Blanks before
  /-- The key is one. -/
  isLabel : IsLabel key
  /-- Only blanks stand between the key and its colon. -/
  blanksAfter : Blanks after
  /-- The value is one. -/
  isValue : IsValue value

/-- The text of an entry. -/
def Entry.text (entry : Entry) : List Char :=
  entry.before ++ (entry.key ++ (entry.after ++ ':' :: entry.value))

/-- An object with its entries and with the blanks around them. -/
structure Object where
  /-- The blanks in front of the object. -/
  before : List Char
  /-- The entries between the braces. -/
  entries : List Entry
  /-- What stands behind a comma at the end, or in braces without entries. -/
  trailing : Option (List Char)
  /-- The blanks behind the object. -/
  after : List Char
  /-- Only blanks stand in front of the object. -/
  blanksBefore : Blanks before
  /-- Only blanks stand behind the last comma. -/
  blanksTrailing : ∀ blanks ∈ trailing, Blanks blanks
  /-- Only blanks stand behind the object. -/
  blanksAfter : Blanks after

/-- The text between the braces of an object. -/
def Object.inner (object : Object) : List Char :=
  List.intercalate [','] (object.entries.map Entry.text ++ object.trailing.toList)

/-- The text of an object. -/
def Object.text (object : Object) : List Char :=
  object.before ++ ('\x7b' :: (object.inner ++ ['\x7d']) ++ object.after)

/-- A place in a text that looks like a namespace option with the given content. A row stands in
front of it, so that it is in no string and in no group, and no name goes on there. -/
def Marked (afterName : Bool) (text front content : List Char) : Prop :=
  ∃ behind, text = front ++ behind ∧ Row true front ∧ nameBehind afterName front = false ∧
    StartsWithOption behind content

/-- The content of the first place in a text that looks like a namespace option. -/
def FirstMarked (afterName : Bool) (text content : List Char) : Prop :=
  ∃ front, Marked afterName text front content ∧
    ∀ other found, Marked afterName text other found → front.length ≤ other.length

/-- An entry that names no namespace and looks as if it did: its key only ends in `ns`, or a place
in its value looks like a namespace option. -/
def Entry.Strays (entry : Entry) (content : List Char) : Prop :=
  (entry.key ≠ "ns".toList ∧ EndsInNs entry.key ∧ content ≠ [] ∧
      StartsWithString entry.value content) ∨
    ∃ front, Marked false entry.value front content

/-! ### Options at the start of a text -/

/-- A text starts with at most one namespace option. -/
theorem StartsWithOption.unique {text : List Char} (h : StartsWithOption text content)
    (h' : StartsWithOption text found) : content = found :=
  Option.some.inj ((property?_eq_some_iff.mpr h).symm.trans (property?_eq_some_iff.mpr h'))

/-- An option starts with the first letter of its key. -/
theorem StartsWithOption.head (h : StartsWithOption (c :: rest) content) : c = 'n' := by
  obtain ⟨after, value, -, htext, -⟩ := h
  exact (List.cons.inj htext).1

/-- A row in front of the end of a member starts with an option exactly if it does so alone. -/
theorem Row.startsWithOption_append_iff (h : Row grouped row) (hrest : EndsMember rest) :
    StartsWithOption (row ++ rest) content ↔ StartsWithOption row content := by
  constructor
  · rintro ⟨after, value, hafter, htext, hne, hvalue⟩
    -- The letters of the key, the blanks and the colon stand in the row one after the other.
    have hletters : row ++ rest = [] ++ 'n' :: ('s' :: (after ++ ':' :: value)) := htext
    obtain ⟨behind, rfl, htail, hrow⟩ :=
      h.exists_of_append hrest Blanks.nil (by decide) hletters
    obtain ⟨tail, rfl, htail, hrow⟩ :=
      (hrow.behind_char rfl rfl).exists_of_append hrest Blanks.nil (by decide) htail.symm
    obtain ⟨inner, rfl, rfl, hrow⟩ :=
      (hrow.behind_char rfl rfl).exists_of_append hrest hafter (by decide) htail.symm
    have hinner := hrow.behind_char rfl rfl
    exact ⟨after, inner, hafter, rfl, hne, (hinner.startsWithString_append_iff hrest).mp hvalue⟩
  · intro hoption
    rw [← property?_eq_some_iff] at hoption ⊢
    exact property?_append hoption rest

/-! ### Marked places -/

/-- Nothing is marked in an empty text. -/
theorem not_marked_nil : ¬Marked afterName [] front content := by
  rintro ⟨behind, htext, -, -, after, value, -, rfl, -⟩
  simp at htext

/-- A name ends behind two texts where it does behind the second. -/
theorem nameBehind_append (afterName : Bool) (first second : List Char) :
    nameBehind afterName (first ++ second) = nameBehind (nameBehind afterName first) second :=
  List.foldl_append

/-- If no option starts with a part, the marked places are those behind it. -/
theorem marked_part_iff (hpart : IsPart part) (hrow : Row true part)
    (hstart : afterName = false → ∀ found, ¬StartsWithOption (part ++ rest) found) :
    Marked afterName (part ++ rest) front content ↔
      ∃ more, front = part ++ more ∧ Marked (nameBehind afterName part) rest more content := by
  constructor
  · rintro ⟨behind, htext, hfront, hname, hoption⟩
    rcases hpart true front behind rest hfront htext.symm with rfl | ⟨more, rfl, hmore, hbehind⟩
    · rw [htext] at hstart
      exact absurd hoption (hstart hname content)
    · rw [nameBehind_append] at hname
      exact ⟨more, rfl, behind, hbehind.symm, hmore, hname, hoption⟩
  · rintro ⟨more, rfl, behind, rfl, hmore, hname, hoption⟩
    rw [← nameBehind_append] at hname
    exact ⟨behind, (List.append_assoc part more behind).symm, hrow.append hmore, hname, hoption⟩

/-- If no option starts with a part, the first marked place is the first one behind it. -/
theorem firstMarked_part_iff (hpart : IsPart part) (hrow : Row true part)
    (hstart : afterName = false → ∀ found, ¬StartsWithOption (part ++ rest) found) :
    FirstMarked afterName (part ++ rest) content ↔
      FirstMarked (nameBehind afterName part) rest content := by
  have hmarked := fun front content =>
    @marked_part_iff afterName part front rest content hpart hrow hstart
  constructor
  · rintro ⟨front, hfront, hfirst⟩
    obtain ⟨more, rfl, hmore⟩ := (hmarked front content).mp hfront
    refine ⟨more, hmore, fun other found hother => ?_⟩
    have hle := hfirst (part ++ other) found ((hmarked _ _).mpr ⟨other, rfl, hother⟩)
    rw [List.length_append, List.length_append] at hle
    omega
  · rintro ⟨more, hmore, hfirst⟩
    refine ⟨part ++ more, (hmarked _ _).mpr ⟨more, rfl, hmore⟩, fun other found hother => ?_⟩
    obtain ⟨others, rfl, hothers⟩ := (hmarked other found).mp hother
    have hle := hfirst others found hothers
    rw [List.length_append, List.length_append]
    omega

/-- No option starts with a string or a group. -/
theorem not_startsWithOption (hc : isSign c = false) : ¬StartsWithOption (c :: rest) found := by
  intro h
  obtain rfl := h.head
  cases hc

/-- The first marked place of a text that starts with a string or a group is the first one behind
it. -/
theorem firstMarked_enclosed_iff {first last : Char} {inner : List Char}
    (hpart : IsPart (first :: (inner ++ [last]))) (hrow : Row true (first :: (inner ++ [last])))
    (hfirst : isSign first = false) (hlast : isSign last = false) :
    FirstMarked afterName (first :: (inner ++ last :: rest)) content ↔
      FirstMarked false rest content := by
  have hsplit : first :: (inner ++ last :: rest) = first :: (inner ++ [last]) ++ rest := by simp
  have hbehind : nameBehind afterName (first :: (inner ++ [last])) = false :=
    nameBehind_enclosed hlast afterName inner []
  rw [hsplit, firstMarked_part_iff hpart hrow fun _ _ => not_startsWithOption hfirst, hbehind]

/-- An option at the start of a text is its first one. -/
theorem firstMarked_of_startsWithOption {text : List Char} (h : StartsWithOption text found) :
    FirstMarked false text content ↔ content = found := by
  have hmarked : Marked false text [] found := ⟨text, rfl, .nil, rfl, h⟩
  constructor
  · rintro ⟨front, ⟨behind, htext, -, -, hoption⟩, hfirst⟩
    have hle : front.length ≤ 0 := hfirst [] found hmarked
    have hfront : front = [] := List.eq_nil_of_length_eq_zero (by omega)
    rw [htext, hfront, List.nil_append] at h
    exact hoption.unique h
  · rintro rfl
    exact ⟨[], hmarked, fun other _ _ => Nat.zero_le other.length⟩

/-- A marked place of a row and of what stands behind it lies in one of them. -/
theorem Marked.of_append (h : Marked afterName (row ++ rest) front content) (hrow : Row true row)
    (hrest : EndsMember rest) :
    Marked afterName row front content ∨
      ∃ more, Marked (nameBehind afterName row) rest more content := by
  obtain ⟨behind, htext, hfront, hname, hoption⟩ := h
  rcases List.append_eq_append_iff.mp htext with ⟨more, rfl, rfl⟩ | ⟨more, rfl, rfl⟩
  · right
    rw [nameBehind_append] at hname
    exact ⟨more, behind, rfl, hfront.behind_row hrow, hname, hoption⟩
  · left
    have hmore := hrow.behind_row hfront
    exact ⟨more, rfl, hfront, hname, (hmore.startsWithOption_append_iff hrest).mp hoption⟩

/-! ### The search for marked places -/

/-- A character that neither quotes nor groups is passed over, unless an option starts there. -/
theorem search?_char_eq_some_iff (hrow : Row true (c :: row)) (hopening : isOpening c = false)
    (hclosing : isClosing c = false) (hquote : isQuote c = false)
    (ih : ∀ afterName, search? 1 afterName (row ++ ['\x7d']) = some content ↔
      FirstMarked afterName row content) (afterName : Bool) :
    search? 1 afterName (c :: (row ++ ['\x7d'])) = some content ↔
      FirstMarked afterName (c :: row) content := by
  have hend : EndsMember ['\x7d'] := ⟨_, _, rfl, Or.inr rfl⟩
  by_cases hoption : afterName = false ∧ ∃ found, StartsWithOption (c :: row) found
  · obtain ⟨rfl, found, hfound⟩ := hoption
    obtain rfl := hfound.head
    have hproperty := property?_eq_some_iff.mpr ((hrow.startsWithOption_append_iff hend).mpr hfound)
    rw [List.cons_append] at hproperty
    rw [search?_property hproperty, firstMarked_of_startsWithOption hfound, Option.some_inj,
      eq_comm]
  · have hstart : afterName = false → ∀ found, ¬StartsWithOption (c :: row) found :=
      fun hname found hfound => hoption ⟨hname, found, hfound⟩
    have hnone : afterName = false → property? (c :: (row ++ ['\x7d'])) = none := by
      intro hname
      rw [Option.eq_none_iff_forall_ne_some]
      intro found hfound
      rw [property?_eq_some_iff, ← List.cons_append,
        hrow.startsWithOption_append_iff hend] at hfound
      exact hstart hname found hfound
    rw [search?_other hopening hclosing hquote fun _ _ => hnone, ih]
    have hchar := hrow.only_char hopening hquote
    exact (firstMarked_part_iff (isPart_char hopening hquote) hchar hstart).symm

/-- Where an object starts, the search finds the first marked place of a row in it. -/
theorem Row.search?_eq_some_iff (h : Row true row) (afterName : Bool) (content : List Char) :
    search? 1 afterName (row ++ ['\x7d']) = some content ↔ FirstMarked afterName row content := by
  generalize hgrouped : true = grouped at h
  induction h generalizing afterName with
  | nil =>
    rw [List.nil_append, search?_end]
    simp only [reduceCtorEq, false_iff]
    rintro ⟨front, hmarked, -⟩
    exact not_marked_nil hmarked
  | sign hc hrow ih =>
    subst hgrouped
    obtain ⟨hopening, hclosing, hquote⟩ := plain_of_isSign hc
    exact search?_char_eq_some_iff (.sign hc hrow) hopening hclosing hquote (fun _ => ih _ rfl) _
  | separator hc hrow ih =>
    have hcopy := hc
    rcases hcopy with rfl | rfl
    · exact search?_char_eq_some_iff (.separator hc hrow) rfl rfl rfl (fun _ => ih _ rfl) _
    · exact search?_char_eq_some_iff (.separator hc hrow) rfl rfl rfl (fun _ => ih _ rfl) _
  | @string grouped quote inner row hquote hfree _ ih =>
    have hstring : Row true (quote :: (inner ++ [quote])) := .string hquote hfree .nil
    have hsign : isSign quote = false := by simp [isSign, hquote]
    rw [List.cons_append, List.append_assoc, List.cons_append, search?_string hquote hfree,
      ih _ hgrouped,
      firstMarked_enclosed_iff (isPart_string hquote hfree) hstring hsign hsign]
  | @group grouped opening closing inner row hpair hinner _ _ ih =>
    obtain ⟨hopening, hclosing⟩ := hpair.opens_closes
    have hgroup : Row true (opening :: (inner ++ [closing])) := .group hpair hinner .nil
    have hfirst : isSign opening = false := by simp [isSign, hopening]
    have hlast : isSign closing = false := by simp [isSign, hclosing]
    rw [List.cons_append, List.append_assoc, List.cons_append, search?_opening hopening,
      hinner.search?_inside (by omega), search?_closing hclosing, Nat.add_sub_cancel,
      ih _ hgrouped,
      firstMarked_enclosed_iff (isPart_group hpair hinner) hgroup hfirst hlast]

/-! ### The entries of an object -/

/-- A key makes a row. -/
theorem IsLabel.toRow {key : List Char} (h : IsLabel key) : Row true key := by
  cases h with
  | bare _ hsigns => exact .of_signs fun c hc => (hsigns c hc).1
  | quoted hquote hfree => exact .string hquote hfree .nil

/-- A value makes a row in which colons may stand. -/
theorem IsValue.toRow {value : List Char} (h : IsValue value) : Row true value := by
  induction h with
  | row htext => exact htext.inside
  | conditional _ _ _ htest hfirst hsecond =>
    exact htest.append (.sign rfl (hfirst.append (.separator (Or.inr rfl) hsecond)))

/-- Blanks make a row. -/
theorem row_of_blanks {blanks : List Char} (h : Blanks blanks) : Row grouped blanks :=
  .of_signs fun c hc => isSign_of_isBlank (h c hc)

/-- An entry makes a row. -/
theorem Entry.toRow (entry : Entry) : Row true entry.text :=
  (row_of_blanks entry.blanksBefore).append (entry.isLabel.toRow.append
    ((row_of_blanks entry.blanksAfter).append (.separator (Or.inr rfl) entry.isValue.toRow)))

/-- Rows with commas between them make a row. -/
theorem row_join {rows : List (List Char)} (h : ∀ row ∈ rows, Row true row) :
    Row true (List.intercalate [','] rows) := by
  induction rows with
  | nil => exact .nil
  | cons row rows ih =>
    rw [List.forall_mem_cons] at h
    cases rows with
    | nil =>
      rw [List.intercalate_singleton]
      exact h.1
    | cons next others =>
      rw [List.intercalate_cons_cons, List.append_assoc]
      exact h.1.append (.separator (Or.inl rfl) (ih h.2))

/-- No marked place lies in front of a character that starts no option. -/
theorem Marked.behind_passed (h : Marked afterName (c :: rest) front content) (hc : IsPassed c) :
    ∃ more, Marked (isNameChar c) rest more content := by
  obtain ⟨behind, htext, hfront, hname, hoption⟩ := h
  rcases isPart_char hc.1 hc.2.2.1 true front behind rest hfront htext.symm with
    rfl | ⟨more, rfl, hmore, hbehind⟩
  · rw [List.nil_append] at htext
    rw [← htext] at hoption
    exact absurd hoption.head hc.2.2.2
  · exact ⟨more, behind, hbehind.symm, hmore, hname, hoption⟩

/-- No marked place lies in blanks. -/
theorem Marked.behind_blanks {blanks : List Char} (h : Marked false (blanks ++ rest) front content)
    (hblanks : Blanks blanks) : ∃ more, Marked false rest more content := by
  induction blanks generalizing front with
  | nil => exact ⟨front, h⟩
  | cons c blanks ih =>
    rw [Blanks, List.forall_mem_cons] at hblanks
    obtain ⟨more, hmore⟩ := h.behind_passed (isPassed_of_isBlank hblanks.1)
    rw [isNameChar_of_isBlank hblanks.1] at hmore
    exact ih hmore hblanks.2

/-- No marked place lies between a key and the value behind its colon. -/
theorem Marked.behind_colon {blanks : List Char}
    (h : Marked afterName (blanks ++ ':' :: rest) front content) (hblanks : Blanks blanks) :
    ∃ more, Marked false rest more content := by
  have hcolon : IsPassed ':' := ⟨rfl, rfl, rfl, by decide⟩
  have hname : isNameChar ':' = false := isNameChar_of_isSign rfl
  induction blanks generalizing afterName front with
  | nil =>
    obtain ⟨more, hmore⟩ := h.behind_passed hcolon
    rw [hname] at hmore
    exact ⟨more, hmore⟩
  | cons c blanks ih =>
    rw [Blanks, List.forall_mem_cons] at hblanks
    obtain ⟨more, hmore⟩ := h.behind_passed (isPassed_of_isBlank hblanks.1)
    exact ih hmore hblanks.2

/-- A marked place in a bare key and its value is the end `ns` of the key, or lies in the value. -/
theorem Marked.in_key {key after value : List Char}
    (h : Marked afterName (key ++ (after ++ ':' :: value)) front content)
    (hkey : ∀ c ∈ key, isSign c = true ∧ isBlank c = false) (hafter : Blanks after) :
    (∃ start, key = start ++ "ns".toList ∧ nameBehind afterName start = false ∧ content ≠ [] ∧
        StartsWithString value content) ∨
      ∃ more, Marked false value more content := by
  induction key generalizing afterName front with
  | nil => exact Or.inr (h.behind_colon hafter)
  | cons c key ih =>
    have hsigns := List.forall_mem_cons.mp hkey
    obtain ⟨hopening, -, hquote⟩ := plain_of_isSign hsigns.1.1
    obtain ⟨behind, htext, hfront, hname, hoption⟩ := h
    rcases isPart_char hopening hquote true front behind _ hfront htext.symm with
      rfl | ⟨more, rfl, hmore, hbehind⟩
    · rw [List.nil_append] at htext
      rw [← htext, startsWithOption_key_iff hkey hafter] at hoption
      obtain ⟨hsame, hvalue⟩ := hoption
      exact Or.inl ⟨[], hsame, hname, hvalue⟩
    · have hrest : Marked (isNameChar c) (key ++ (after ++ ':' :: value)) more content :=
        ⟨behind, hbehind.symm, hmore, hname, hoption⟩
      refine (ih hrest hsigns.2).imp_left ?_
      rintro ⟨start, rfl, hstart, hvalue⟩
      exact ⟨c :: start, rfl, hstart, hvalue⟩

/-- An entry with a marked place names the namespace or only looks as if it did. -/
theorem Entry.names_or_strays {entry : Entry} (h : Marked false entry.text front content) :
    entry.Names content ∨ entry.Strays content := by
  obtain ⟨more, hmore⟩ := h.behind_blanks entry.blanksBefore
  have hlabel := entry.isLabel
  generalize hkey : entry.key = key at hlabel hmore
  cases hlabel with
  | bare _ hsigns =>
    rcases hmore.in_key hsigns entry.blanksAfter with ⟨start, hstart, hname, hvalue⟩ | hvalue
    · by_cases hns : entry.key = "ns".toList
      · exact Or.inl ⟨hns, hvalue⟩
      · exact Or.inr (Or.inl ⟨hns, ⟨start, hkey.trans hstart, hname⟩, hvalue⟩)
    · exact Or.inr (Or.inr hvalue)
  | @quoted quote inner hquote hfree =>
    have hstring : Row true (quote :: (inner ++ [quote])) := .string hquote hfree .nil
    have hsign : isSign quote = false := by simp [isSign, hquote]
    obtain ⟨behind, -, hbehind⟩ := (marked_part_iff (isPart_string hquote hfree) hstring
      fun _ _ => not_startsWithOption hsign).mp hmore
    exact Or.inr (Or.inr (hbehind.behind_colon entry.blanksAfter))

/-- A marked place in rows with commas between them lies in one of the rows. -/
theorem Marked.in_join {rows : List (List Char)}
    (h : Marked false (List.intercalate [','] rows) front content)
    (hrows : ∀ row ∈ rows, Row true row) :
    ∃ row ∈ rows, ∃ place, Marked false row place content := by
  induction rows generalizing front with
  | nil => exact absurd h not_marked_nil
  | cons row rows ih =>
    rw [List.forall_mem_cons] at hrows
    cases rows with
    | nil =>
      rw [List.intercalate_singleton] at h
      exact ⟨row, by simp, front, h⟩
    | cons next others =>
      rw [List.intercalate_cons_cons, List.append_assoc, List.singleton_append] at h
      have hcomma : EndsMember (',' :: List.intercalate [','] (next :: others)) :=
        ⟨_, _, rfl, Or.inl rfl⟩
      rcases h.of_append hrows.1 hcomma with hrow | ⟨more, hmore⟩
      · exact ⟨row, by simp, front, hrow⟩
      · obtain ⟨place, hplace⟩ := hmore.behind_passed ⟨rfl, rfl, rfl, by decide⟩
        have hname : isNameChar ',' = false := isNameChar_of_isSign rfl
        rw [hname] at hplace
        obtain ⟨other, hother, hmarked⟩ := ih hplace hrows.2
        exact ⟨other, List.mem_cons_of_mem row hother, hmarked⟩

/-- What stands between the commas of an object makes rows. -/
theorem Object.rows (object : Object) :
    ∀ row ∈ object.entries.map Entry.text ++ object.trailing.toList, Row true row := by
  intro row hrow
  rcases List.mem_append.mp hrow with hentry | hblanks
  · obtain ⟨entry, -, rfl⟩ := List.mem_map.mp hentry
    exact entry.toRow
  · exact row_of_blanks (object.blanksTrailing row (Option.mem_toList.mp hblanks))

/-- A marked place between the braces of an object lies in an entry. -/
theorem Object.exists_entry {object : Object} (h : Marked false object.inner front content) :
    ∃ entry ∈ object.entries, ∃ place, Marked false entry.text place content := by
  obtain ⟨row, hrow, place, hplace⟩ := h.in_join object.rows
  rcases List.mem_append.mp hrow with hentry | hblanks
  · obtain ⟨entry, hmem, rfl⟩ := List.mem_map.mp hentry
    exact ⟨entry, hmem, place, hplace⟩
  · rw [← List.append_nil row] at hplace
    have htrailing := object.blanksTrailing row (Option.mem_toList.mp hblanks)
    obtain ⟨more, hmore⟩ := hplace.behind_blanks htrailing
    exact absurd hmore not_marked_nil

/-- The search of an object finds the first marked place between its braces. -/
theorem Object.read_eq_some_iff (object : Object) (name : String) :
    read (String.ofList object.text) = some name ↔
      FirstMarked false object.inner name.toList := by
  have hrow : Row true object.inner := row_join object.rows
  have htext : (String.ofList object.text).toList =
      object.before ++ ('\x7b' :: (object.inner ++ ['\x7d']) ++ object.after) :=
    String.toList_ofList
  rw [read_braces object.blanksBefore object.blanksAfter htext, Option.map_eq_some_iff,
    ← hrow.search?_eq_some_iff]
  constructor
  · rintro ⟨found, hfound, rfl⟩
    rw [String.toList_ofList]
    exact hfound
  · exact fun hfound => ⟨name.toList, hfound, String.ofList_toList⟩

/-- No place in a row without colons looks like a namespace option. -/
theorem Row.not_marked (h : Row false row) : ¬Marked afterName row front content := by
  rintro ⟨behind, rfl, hfront, -, hoption⟩
  have hend : EndsMember ['\x7d'] := ⟨_, _, rfl, Or.inr rfl⟩
  have hbehind := h.behind_row hfront
  cases behind with
  | nil =>
    obtain ⟨after, value, -, htext, -⟩ := hoption
    cases htext
  | cons c tail =>
    obtain rfl := hoption.head
    have hfound := property?_append (property?_eq_some_iff.mpr hoption) ['\x7d']
    have hnone := (hbehind.behind_char rfl rfl).property?_eq_none hend
    rw [List.cons_append, hnone] at hfound
    cases hfound

/-- A name or a quoted text that ends in `ns` like a key is the bare name `ns`. -/
theorem IsKey.eq_of_endsInNs {key : List Char} (h : IsKey key) (hns : EndsInNs key) :
    key = "ns".toList := by
  cases h with
  | name _ hchars => exact (endsInNs_iff hchars).mp hns
  | @quoted quote content hquote _ =>
    obtain ⟨start, hkey, -⟩ := hns
    have hlast := congrArg List.getLast? hkey
    rw [← List.cons_append, List.getLast?_append, List.getLast?_append] at hlast
    cases hlast
    cases hquote

/-- An entry without a conditional does not look as if it named a namespace. -/
theorem Entry.not_strays {entry : Entry} (hkey : IsKey entry.key) (hvalue : Row false entry.value) :
    ¬entry.Strays content := by
  rintro (⟨hne, hns, -⟩ | ⟨front, hmarked⟩)
  · exact hne (hkey.eq_of_endsInNs hns)
  · exact hvalue.not_marked hmarked

/-- The namespace read from an object stands at the first place between its braces that looks like a
namespace option. It is the one that an entry with the key `ns` names if no other key and no value
of an entry holds a place with this name that looks like an option, and none does whose key is a
name or quoted and whose value holds no colon outside of groups. -/
theorem namespace_of_first_marked (object : Object) (name : String) :
    (read (String.ofList object.text) = some name ↔ FirstMarked false object.inner name.toList) ∧
    ((∀ entry ∈ object.entries, ¬entry.Strays name.toList) →
      read (String.ofList object.text) = some name →
      ∃ entry ∈ object.entries, entry.Names name.toList) ∧
    ∀ entry ∈ object.entries, IsKey entry.key → Row false entry.value →
      ¬entry.Strays name.toList := by
  refine ⟨object.read_eq_some_iff name, fun hstrays hread => ?_, fun entry _ => Entry.not_strays⟩
  obtain ⟨front, hmarked, -⟩ := (object.read_eq_some_iff name).mp hread
  obtain ⟨entry, hentry, place, hplace⟩ := Object.exists_entry hmarked
  have hnot := hstrays entry hentry
  exact ⟨entry, hentry, (Entry.names_or_strays hplace).resolve_right hnot⟩

/-- A marked place is found in what is left of the text there. -/
theorem Marked.exists_drop {text : List Char} (h : Marked afterName text front content) :
    ∃ start < text.length, property? (text.drop start) = some content := by
  obtain ⟨behind, rfl, -, -, hoption⟩ := h
  have hbehind : behind ≠ [] := by
    rintro rfl
    obtain ⟨after, value, -, htext, -⟩ := hoption
    cases htext
  have hlength := List.length_pos_iff.mpr hbehind
  refine ⟨front.length, by rw [List.length_append]; omega, ?_⟩
  rw [List.drop_left, property?_eq_some_iff]
  exact hoption

/-- An entry behind one blank. -/
def Entry.behindBlank (key value : List Char) (isLabel : IsLabel key) (isValue : IsValue value) :
    Entry :=
  { key, value, isLabel, isValue
    before := [' ']
    after := []
    blanksBefore := Blanks.nil.cons rfl
    blanksAfter := Blanks.nil }

/-- An object without blanks around it. -/
def Object.ofEntries (entries : List Entry) : Object :=
  { entries
    before := []
    trailing := none
    after := []
    blanksBefore := Blanks.nil
    blanksTrailing := by simp
    blanksAfter := Blanks.nil }

/-- A name `ns` in the arguments of a call within a conditional is passed over, and the namespace is
that of the entry behind it. -/
theorem read_behind_conditional :
    ∃ object : Object, String.ofList object.text = "\x7b a: c ? f(ns) : 'x', ns: 'y' \x7d" ∧
      (∀ entry ∈ object.entries, ¬entry.Strays "y".toList) ∧
      read (String.ofList object.text) = some "y" ∧
      ∃ entry ∈ object.entries, entry.Names "y".toList := by
  have ha : IsKey "a".toList := .name (by decide) (List.all_eq_true.mp (by decide +kernel))
  have hns : IsKey "ns".toList := .name (by decide) (List.all_eq_true.mp (by decide +kernel))
  have hcall : Row false " f(ns) ".toList :=
    .sign rfl (.sign rfl (@Row.group false '(' ')' "ns".toList [' '] .round
      (.of_all rfl) (.of_all rfl)))
  have hx : Row false " 'x'".toList :=
    .sign rfl (@Row.string false '\'' ['x'] [] rfl (by decide) .nil)
  have hy : Row false " 'y' ".toList :=
    .sign rfl (@Row.string false '\'' ['y'] [' '] rfl (by decide) (.of_all rfl))
  have hconditional : IsValue (" c ".toList ++ '?' :: (" f(ns) ".toList ++ ':' :: " 'x'".toList)) :=
    .conditional (.row (.of_all rfl)) (.row hcall) (.row hx)
  let first := Entry.behindBlank "a".toList _ (.bare (by decide) (signs_of_all rfl)) hconditional
  let second := Entry.behindBlank "ns".toList _ (.bare (by decide) (signs_of_all rfl)) (.row hy)
  let object := Object.ofEntries [first, second]
  have hstrays : ∀ entry ∈ object.entries, ¬entry.Strays "y".toList := by
    refine List.forall_mem_cons.mpr ⟨?_, List.forall_mem_singleton.mpr (Entry.not_strays hns hy)⟩
    rintro (⟨hne, hends, -⟩ | ⟨front, hmarked⟩)
    · exact hne (ha.eq_of_endsInNs hends)
    · have hvalue : first.value = " c ? f(ns) : 'x'".toList := rfl
      have hnone : ∀ start < first.value.length, property? (first.value.drop start) = none := by
        rw [hvalue]
        decide +kernel
      obtain ⟨start, hstart, hfound⟩ := hmarked.exists_drop
      rw [hnone start hstart] at hfound
      cases hfound
  have htext : String.ofList object.text = "\x7b a: c ? f(ns) : 'x', ns: 'y' \x7d" := rfl
  have hread : read (String.ofList object.text) = some "y" := by
    rw [htext]
    decide +kernel
  exact ⟨object, htext, hstrays, hread,
    (namespace_of_first_marked object "y").2.1 hstrays hread⟩

/-- A name `ns` in front of the colon of a conditional is taken for the key of an option. -/
theorem read_of_conditional_alone :
    ∃ object : Object, String.ofList object.text = "\x7b a: c ? ns : 'x' \x7d" ∧
      read (String.ofList object.text) = some "x" ∧
      ∀ entry ∈ object.entries, ∀ name, ¬entry.Names name := by
  have hx : Row false " 'x' ".toList :=
    .sign rfl (@Row.string false '\'' ['x'] [' '] rfl (by decide) (.of_all rfl))
  have hconditional : IsValue (" c ".toList ++ '?' :: (" ns ".toList ++ ':' :: " 'x' ".toList)) :=
    .conditional (.row (.of_all rfl)) (.row (.of_all rfl)) (.row hx)
  let entry := Entry.behindBlank "a".toList _ (.bare (by decide) (signs_of_all rfl)) hconditional
  have htext : String.ofList (Object.ofEntries [entry]).text = "\x7b a: c ? ns : 'x' \x7d" := rfl
  refine ⟨Object.ofEntries [entry], htext, by rw [htext]; decide +kernel, ?_⟩
  rw [Object.ofEntries, List.forall_mem_singleton]
  rintro name ⟨hkey, -⟩
  cases hkey

end KeyLens.NamespaceOption
