import KeyLens.Proofs.NamespaceOption.Grammar
import KeyLens.Proofs.Selector.Chains

/-!
# Reading the namespace of an options text

The search for a namespace passes over rows: over one inside of a group because it stands deeper,
over one of the object itself because no colon follows the name `ns` in it. What is left to be
found are the keys of the object's own members.
-/

namespace KeyLens.NamespaceOption

open KeyLens.Text
open KeyLens.Selector (isQuote dropWord? dropWord?_eq_some_iff)

variable {depth : Nat} {afterName grouped : Bool} {c : Char} {row rest : List Char}

/-! ### Steps of the search -/

/-- Behind an opening bracket the search goes on one level deeper. -/
theorem search?_opening (h : isOpening c = true) (afterName : Bool) (rest : List Char) :
    search? depth afterName (c :: rest) = search? (depth + 1) false rest := by
  rw [search?, if_pos h]

/-- Behind a closing bracket the search goes on one level higher. -/
theorem search?_closing (h : isClosing c = true) (afterName : Bool) (rest : List Char) :
    search? depth afterName (c :: rest) = search? (depth - 1) false rest := by
  rw [search?, if_neg (by simp [isOpening_of_isClosing h]), if_pos h]

/-- A string is passed over. -/
theorem search?_string {quote : Char} {content : List Char} (hquote : isQuote quote = true)
    (hfree : quote ∉ content) (afterName : Bool) (rest : List Char) :
    search? depth afterName (quote :: (content ++ quote :: rest)) = search? depth false rest := by
  obtain ⟨hopening, hclosing⟩ := not_bracket_of_isQuote hquote
  rw [search?, if_neg (by simp [hopening]), if_neg (by simp [hclosing]), if_pos hquote, afterQuote,
    dropWhile_ne_append hfree, List.drop_one, List.tail_cons]

/-- A character that neither quotes nor groups is passed over, unless a property that names a
namespace starts there. -/
theorem search?_other (hopening : isOpening c = false) (hclosing : isClosing c = false)
    (hquote : isQuote c = false)
    (hproperty : c = 'n' → depth = 1 → afterName = false → property? (c :: rest) = none) :
    search? depth afterName (c :: rest) = search? depth (isNameChar c) rest := by
  rw [search?, if_neg (by simp [hopening]), if_neg (by simp [hclosing]), if_neg (by simp [hquote])]
  split
  · next hstart =>
    simp only [Bool.and_eq_true, beq_iff_eq, Bool.not_eq_true'] at hstart
    obtain ⟨⟨rfl, hdepth⟩, hafter⟩ := hstart
    rw [hproperty rfl hdepth hafter]
    have hname : isNameChar 'n' = true := by decide +kernel
    rw [hname]
  · rfl

/-- A property that names a namespace ends the search. -/
theorem search?_property {found : List Char} (h : property? ('n' :: rest) = some found) :
    search? 1 false ('n' :: rest) = some found := by
  rw [search?, if_neg (by decide), if_neg (by decide), if_neg (by decide), if_pos (by decide), h]

/-- Whether a name ends where a text does, if one does in front of it where `afterName` says so. -/
def nameBehind (afterName : Bool) (text : List Char) : Bool :=
  text.foldl (fun _ c => isNameChar c) afterName

/-- The last character of a text tells whether a name ends there. -/
theorem nameBehind_append_cons (afterName : Bool) (front : List Char) (c : Char)
    (rest : List Char) :
    nameBehind afterName (front ++ c :: rest) = nameBehind (isNameChar c) rest := by
  rw [nameBehind, List.foldl_append, List.foldl_cons]
  rfl

/-- No name ends behind a string or a group. -/
theorem nameBehind_enclosed {first last : Char} (hlast : isSign last = false) (afterName : Bool)
    (content rest : List Char) :
    nameBehind afterName (first :: (content ++ last :: rest)) = nameBehind false rest := by
  rw [← List.cons_append, nameBehind_append_cons, isNameChar_of_isSign hlast]

/-! ### Rows inside of groups -/

/-- A row is passed over where it stands inside of a group of the object. -/
theorem Row.search?_inside (h : Row grouped row) (hdepth : 2 ≤ depth) (afterName : Bool)
    (rest : List Char) :
    search? depth afterName (row ++ rest) = search? depth (nameBehind afterName row) rest := by
  induction h generalizing depth afterName rest with
  | nil => rfl
  | sign hc _ ih =>
    obtain ⟨hopening, hclosing, hquote⟩ := plain_of_isSign hc
    rw [List.cons_append, search?_other hopening hclosing hquote (by omega), ih hdepth]
    rfl
  | separator hc _ ih =>
    rcases hc with rfl | rfl
    · rw [List.cons_append, search?_other rfl rfl rfl (by omega), ih hdepth]
      rfl
    · rw [List.cons_append, search?_other rfl rfl rfl (by omega), ih hdepth]
      rfl
  | string hquote hfree _ ih =>
    rw [List.cons_append, List.append_assoc, List.cons_append, search?_string hquote hfree,
      ih hdepth, nameBehind_enclosed (by simp [isSign, hquote])]
  | group hpair _ _ ihcontent ihrest =>
    obtain ⟨hopening, hclosing⟩ := hpair.opens_closes
    rw [List.cons_append, List.append_assoc, List.cons_append, search?_opening hopening,
      ihcontent (by omega), search?_closing hclosing, Nat.add_sub_cancel, ihrest hdepth,
      nameBehind_enclosed (by simp [isSign, hclosing])]

/-! ### Rows of the object itself -/

/-- A text that starts with a comma or with the closing brace of the object. -/
def EndsMember (text : List Char) : Prop :=
  ∃ c rest, text = c :: rest ∧ (c = ',' ∨ c = '\x7d')

/-- Behind the blanks at the start of a row stands a part of the row, or the end of the member. -/
theorem Row.exists_of_append {before tail : List Char} (h : Row grouped row)
    (hrest : EndsMember rest) (hbefore : Blanks before) (hc : c ≠ ',' ∧ c ≠ '\x7d')
    (htext : row ++ rest = before ++ c :: tail) :
    ∃ inner, row = before ++ c :: inner ∧ tail = inner ++ rest ∧ Row grouped (c :: inner) := by
  obtain ⟨d, following, rfl, hd⟩ := hrest
  rcases List.append_eq_append_iff.mp htext with ⟨blanks, rfl, hrow⟩ | ⟨inner, rfl, hrow⟩
  · -- The row holds blanks only, and the end of the member is neither a blank nor `c`.
    cases blanks with
    | nil =>
      cases hrow
      exact (hd.elim hc.1 hc.2).elim
    | cons blank blanks =>
      cases hrow
      have hblank := hbefore d (by simp)
      rcases hd with rfl | rfl <;> cases hblank
  · cases inner with
    | nil =>
      cases hrow
      exact (hd.elim hc.1 hc.2).elim
    | cons first inner =>
      cases hrow
      exact ⟨inner, rfl, rfl, h.of_append hbefore⟩

/-- What is found between quotes at the start of a text is a string that is not empty. -/
theorem quoted?_eq_some_iff {text content : List Char} :
    quoted? text = some content ↔
      content ≠ [] ∧ ∃ quote rest, isQuote quote = true ∧ quote ∉ content ∧
        text = quote :: (content ++ quote :: rest) := by
  cases text with
  | nil => simp [quoted?]
  | cons quote text =>
    simp only [quoted?, Option.ite_none_right_eq_some, Bool.and_eq_true, bne_iff_ne,
      List.contains_iff_mem, Option.some_inj]
    constructor
    · rintro ⟨⟨⟨hquote, hcontent⟩, hmem⟩, rfl⟩
      refine ⟨hcontent, quote, (text.dropWhile (· != quote)).drop 1, hquote,
        not_mem_takeWhile_ne quote text, ?_⟩
      have hclosed : text.dropWhile (· != quote) =
          quote :: (text.dropWhile (· != quote)).drop 1 := by
        cases hdrop : text.dropWhile (· != quote) with
        | nil =>
          rw [List.dropWhile_eq_nil_iff] at hdrop
          have hne := hdrop quote hmem
          simp at hne
        | cons d rest => rw [eq_of_dropWhile_ne hdrop]; rfl
      rw [← hclosed, List.takeWhile_append_dropWhile]
    · rintro ⟨hcontent, other, rest, hquote, hfree, htext⟩
      obtain ⟨rfl, rfl⟩ := List.cons.inj htext
      rw [takeWhile_ne_append hfree]
      exact ⟨⟨⟨hquote, hcontent⟩, by simp⟩, rfl⟩

/-- A string that is not empty and stands behind blanks is found between its quotes. -/
theorem quoted?_skipBlank_eq_some_iff {text content : List Char} :
    quoted? (skipBlank text) = some content ↔ content ≠ [] ∧ StartsWithString text content := by
  rw [quoted?_eq_some_iff]
  constructor
  · rintro ⟨hcontent, quote, rest, hquote, hfree, hskip⟩
    obtain ⟨-, before, hbefore, htext⟩ := skipBlank_eq_cons_iff.mp hskip
    exact ⟨hcontent, before, quote, rest, hbefore, hquote, hfree, htext⟩
  · rintro ⟨hcontent, before, quote, rest, hbefore, hquote, hfree, rfl⟩
    refine ⟨hcontent, quote, rest, hquote, hfree, ?_⟩
    rw [skipBlank_append hbefore, skipBlank_cons (Selector.isBlank_of_isQuote hquote)]

/-- A property names a namespace where a string that is not empty follows `ns` and a colon. -/
theorem property?_eq_some_iff {text content : List Char} :
    property? text = some content ↔ StartsWithOption text content := by
  rw [property?, Option.bind_eq_some_iff]
  constructor
  · rintro ⟨rest, hword, hvalue⟩
    rw [dropWord?_eq_some_iff] at hword
    split at hvalue
    · next value hskip =>
      obtain ⟨-, after, hafter, rfl⟩ := skipBlank_eq_cons_iff.mp hskip
      exact ⟨after, value, hafter, hword, quoted?_skipBlank_eq_some_iff.mp hvalue⟩
    · cases hvalue
  · rintro ⟨after, value, hafter, rfl, hvalue⟩
    refine ⟨after ++ ':' :: value, dropWord?_eq_some_iff.mpr rfl, ?_⟩
    rw [skipBlank_append hafter, skipBlank_cons rfl]
    exact quoted?_skipBlank_eq_some_iff.mpr hvalue

/-- No property that names a namespace starts within a row of the object itself. -/
theorem Row.property?_eq_none (h : Row false row) (hrest : EndsMember rest) :
    property? ('n' :: (row ++ rest)) = none := by
  rw [Option.eq_none_iff_forall_ne_some]
  intro content hproperty
  obtain ⟨after, value, hafter, htext, -⟩ := property?_eq_some_iff.mp hproperty
  -- The letter `s`, the blanks and the colon would all have to stand in the row.
  obtain ⟨inner, -, htail, hrow⟩ :=
    h.exists_of_append hrest Blanks.nil (by decide) (List.cons.inj htext).2
  have hinner := hrow.behind_char rfl rfl
  obtain ⟨behind, -, -, hcolon⟩ := hinner.exists_of_append hrest hafter (by decide) htail.symm
  exact hcolon.ne_separator.2 rfl

/-- A row of the object itself is passed over. -/
theorem Row.search?_direct (h : Row false row) (hrest : EndsMember rest) (afterName : Bool) :
    search? 1 afterName (row ++ rest) = search? 1 (nameBehind afterName row) rest := by
  generalize hgrouped : false = grouped at h
  induction h generalizing afterName with
  | nil => rfl
  | sign hc hrow ih =>
    subst hgrouped
    obtain ⟨hopening, hclosing, hquote⟩ := plain_of_isSign hc
    rw [List.cons_append, search?_other hopening hclosing hquote, ih _ rfl]
    · rfl
    · rintro rfl - -
      exact hrow.property?_eq_none hrest
  | separator => cases hgrouped
  | string hquote hfree _ ih =>
    rw [List.cons_append, List.append_assoc, List.cons_append, search?_string hquote hfree,
      ih _ hgrouped, nameBehind_enclosed (by simp [isSign, hquote])]
  | group hpair hcontent _ _ ih =>
    obtain ⟨hopening, hclosing⟩ := hpair.opens_closes
    rw [List.cons_append, List.append_assoc, List.cons_append, search?_opening hopening,
      hcontent.search?_inside (by omega), search?_closing hclosing, Nat.add_sub_cancel,
      ih _ hgrouped, nameBehind_enclosed (by simp [isSign, hclosing])]

/-! ### Members -/

/-- Blanks are passed over. -/
theorem search?_blanks {blanks : List Char} (h : Blanks blanks) (rest : List Char) :
    search? depth false (blanks ++ rest) = search? depth false rest := by
  induction blanks with
  | nil => rfl
  | cons c blanks ih =>
    rw [Blanks, List.forall_mem_cons] at h
    obtain ⟨hopening, hclosing, hquote⟩ := plain_of_isSign (isSign_of_isBlank h.1)
    have hstart : c ≠ 'n' := by rintro rfl; cases h.1
    rw [List.cons_append, search?_other hopening hclosing hquote (fun hc => absurd hc hstart),
      isNameChar_of_isBlank h.1]
    exact ih h.2

/-- Behind the colon of a member the search starts at its value. -/
theorem search?_colon {blanks : List Char} (h : Blanks blanks) (afterName : Bool)
    (rest : List Char) :
    search? depth afterName (blanks ++ ':' :: rest) = search? depth false rest := by
  have hcolon : isNameChar ':' = false := isNameChar_of_isSign rfl
  cases blanks with
  | nil =>
    rw [List.nil_append, search?_other rfl rfl rfl (by simp), hcolon]
  | cons c blanks =>
    rw [Blanks, List.forall_mem_cons] at h
    obtain ⟨hopening, hclosing, hquote⟩ := plain_of_isSign (isSign_of_isBlank h.1)
    have hstart : c ≠ 'n' := by rintro rfl; cases h.1
    rw [List.cons_append, search?_other hopening hclosing hquote (fun hc => absurd hc hstart),
      isNameChar_of_isBlank h.1, search?_blanks h.2, search?_other rfl rfl rfl (by simp), hcolon]

/-- No property starts within a name. -/
theorem search?_name {name : List Char} (h : ∀ c ∈ name, isNameChar c = true) (rest : List Char) :
    search? depth true (name ++ rest) = search? depth true rest := by
  induction name with
  | nil => rfl
  | cons c name ih =>
    rw [List.forall_mem_cons] at h
    obtain ⟨hopening, hclosing, hquote⟩ := plain_of_isSign (isSign_of_isNameChar h.1)
    rw [List.cons_append, search?_other hopening hclosing hquote (by simp), h.1]
    exact ih h.2

/-- A value starts with a string exactly if it does so in front of the end of its member. -/
theorem Row.startsWithString_append_iff {content : List Char} (h : Row grouped row)
    (hrest : EndsMember rest) :
    StartsWithString (row ++ rest) content ↔ StartsWithString row content := by
  constructor
  · rintro ⟨before, quote, tail, hbefore, hquote, hfree, htext⟩
    have hends : quote ≠ ',' ∧ quote ≠ '\x7d' := by
      constructor <;> rintro rfl <;> cases hquote
    obtain ⟨inner, rfl, htail, hrow⟩ := h.exists_of_append hrest hbefore hends htext
    obtain ⟨found, behind, rfl, hfound, -⟩ := hrow.behind_string hquote
    have hsame : content = found := by
      rw [← takeWhile_ne_append hfree tail, htail, List.append_assoc, List.cons_append,
        takeWhile_ne_append hfound]
    exact ⟨before, quote, behind, hbefore, hquote, hfree, by rw [hsame]⟩
  · rintro ⟨before, quote, tail, hbefore, hquote, hfree, rfl⟩
    exact ⟨before, quote, tail ++ rest, hbefore, hquote, hfree, by simp⟩

/-- A property at the start of a key names a namespace if the key is `ns` and its value does. -/
theorem startsWithOption_key_iff {key after value content : List Char}
    (hkey : ∀ c ∈ key, isSign c = true ∧ isBlank c = false) (hafter : Blanks after) :
    StartsWithOption (key ++ (after ++ ':' :: value)) content ↔
      key = "ns".toList ∧ content ≠ [] ∧ StartsWithString value content := by
  have hmem : ∀ {key : List Char}, (∀ c ∈ key, isSign c = true ∧ isBlank c = false) →
      ∀ c ∈ key, (isSign c && !isBlank c) = true := by
    intro key h c hc
    rw [(h c hc).1, (h c hc).2]
    rfl
  have hstop : ∀ {blanks : List Char} (tail : List Char), Blanks blanks →
      ∀ c ∈ (blanks ++ ':' :: tail).head?, (isSign c && !isBlank c) = false := by
    intro blanks tail hblanks
    cases blanks with
    | nil => rintro c ⟨⟩; rfl
    | cons blank blanks => rintro c ⟨⟩; rw [hblanks blank (by simp), Bool.not_true, Bool.and_false]
  constructor
  · rintro ⟨blanks, behind, hblanks, htext, hvalue⟩
    have hns : ∀ c ∈ "ns".toList, isSign c = true ∧ isBlank c = false := signs_of_all rfl
    have hsame : key = "ns".toList := by
      rw [← takeWhile_append_stop (hmem hkey) (hstop value hafter), htext,
        takeWhile_append_stop (hmem hns) (hstop behind hblanks)]
    rw [hsame, List.append_cancel_left_eq] at htext
    have hskip := congrArg skipBlank htext
    rw [skipBlank_append hafter, skipBlank_append hblanks, skipBlank_cons rfl,
      skipBlank_cons rfl] at hskip
    rw [(List.cons.inj hskip).2]
    exact ⟨hsame, hvalue⟩
  · rintro ⟨rfl, hvalue⟩
    exact ⟨after, value, hafter, rfl, hvalue⟩

/-- The search finds the namespace that a member names. -/
theorem Member.Spelled.search?_of_names {text name : List Char} {member : Member}
    (h : member.Spelled text) (hrest : EndsMember rest) (hname : member.Names name) :
    search? 1 false (text ++ rest) = some name := by
  obtain @⟨before, key, after, value, hbefore, -, hafter, hvalue⟩ := h
  obtain ⟨rfl, hne, hstring⟩ := hname
  have hoption : StartsWithOption ("ns".toList ++ (after ++ ':' :: (value ++ rest))) name :=
    ⟨after, value ++ rest, hafter, rfl, hne,
      (hvalue.startsWithString_append_iff hrest).mpr hstring⟩
  simp only [List.append_assoc, List.cons_append]
  rw [search?_blanks hbefore]
  exact search?_property (property?_eq_some_iff.mpr hoption)

/-- A member that names no namespace is passed over. -/
theorem Member.Spelled.search?_of_not_names {text : List Char} {member : Member}
    (h : member.Spelled text) (hrest : EndsMember rest) (hname : ∀ name, ¬member.Names name) :
    ∃ afterName, search? 1 false (text ++ rest) = search? 1 afterName rest := by
  obtain @⟨before, key, after, value, hbefore, hkey, hafter, hvalue⟩ := h
  refine ⟨nameBehind false value, ?_⟩
  simp only [List.append_assoc, List.cons_append]
  rw [search?_blanks hbefore]
  suffices hbehind : ∃ afterName, search? 1 false (key ++ (after ++ ':' :: (value ++ rest))) =
      search? 1 afterName (after ++ ':' :: (value ++ rest)) by
    obtain ⟨afterName, hbehind⟩ := hbehind
    rw [hbehind, search?_colon hafter, hvalue.search?_direct hrest]
  cases hkey with
  | quoted hquote hfree =>
    exact ⟨false, by
      rw [List.cons_append, List.append_assoc, List.singleton_append, search?_string hquote hfree]⟩
  | name hne hchars =>
    obtain ⟨c, name, rfl⟩ := List.exists_cons_of_ne_nil hne
    have hc := hchars c (by simp)
    obtain ⟨hopening, hclosing, hquote⟩ := plain_of_isSign (isSign_of_isNameChar hc)
    have hproperty : property? (c :: (name ++ (after ++ ':' :: (value ++ rest)))) = none := by
      rw [Option.eq_none_iff_forall_ne_some]
      intro content hfound
      rw [property?_eq_some_iff, ← List.cons_append,
        startsWithOption_key_iff (fun d hd => sign_of_isNameChar (hchars d hd)) hafter,
        hvalue.startsWithString_append_iff hrest] at hfound
      exact hname content hfound
    refine ⟨true, ?_⟩
    rw [List.cons_append, search?_other hopening hclosing hquote (fun _ _ _ => hproperty), hc,
      search?_name fun d hd => hchars d (List.mem_cons_of_mem c hd)]

/-- A member names at most one namespace. -/
theorem Member.Names.unique {member : Member} {first second : List Char}
    (hfirst : member.Names first) (hsecond : member.Names second) : first = second :=
  Option.some.inj ((quoted?_skipBlank_eq_some_iff.mpr hfirst.2).symm.trans
    (quoted?_skipBlank_eq_some_iff.mpr hsecond.2))

/-! ### Objects -/

/-- Among the members behind a first one that names a namespace, none counts. -/
theorem firstNamed_cons_of_names {member : Member} {members : List Member} {found : List Char}
    (h : member.Names found) (name : List Char) :
    FirstNamed (member :: members) name ↔ name = found := by
  constructor
  · rintro ⟨earlier, other, later, hmembers, hother, hearlier⟩
    cases earlier with
    | nil =>
      cases hmembers
      exact hother.unique h
    | cons first earlier =>
      cases hmembers
      exact absurd h (hearlier member (by simp) found)
  · rintro rfl
    exact ⟨[], member, members, rfl, h, by simp⟩

/-- A first member that names no namespace does not count. -/
theorem firstNamed_cons_of_not_names {member : Member} {members : List Member}
    (h : ∀ name, ¬member.Names name) (name : List Char) :
    FirstNamed (member :: members) name ↔ FirstNamed members name := by
  constructor
  · rintro ⟨earlier, other, later, hmembers, hother, hearlier⟩
    cases earlier with
    | nil =>
      cases hmembers
      exact absurd hother (h name)
    | cons first earlier =>
      cases hmembers
      exact ⟨earlier, other, later, rfl, hother, fun x hx => hearlier x (by simp [hx])⟩
  · rintro ⟨earlier, other, later, rfl, hother, hearlier⟩
    refine ⟨member :: earlier, other, later, rfl, hother, ?_⟩
    rw [List.forall_mem_cons]
    exact ⟨h, hearlier⟩

/-- No member names a namespace where there is none. -/
theorem not_firstNamed_nil (name : List Char) : ¬FirstNamed [] name := by
  rintro ⟨earlier, member, later, hmembers, -⟩
  simp at hmembers

/-- There is a first member to name a namespace unless none of them does. -/
theorem exists_firstNamed_iff {members : List Member} :
    (∃ name, FirstNamed members name) ↔ ∃ member ∈ members, ∃ name, member.Names name := by
  induction members with
  | nil => simp [not_firstNamed_nil]
  | cons member members ih =>
    by_cases hnames : ∃ found, member.Names found
    · obtain ⟨found, hfound⟩ := hnames
      simp only [firstNamed_cons_of_names hfound, exists_eq, true_iff]
      exact ⟨member, by simp, found, hfound⟩
    · simp only [firstNamed_cons_of_not_names (not_exists.mp hnames), ih, List.mem_cons,
        exists_eq_or_imp, hnames, false_or]

/-- Behind the closing brace nothing is found. -/
theorem search?_end (afterName : Bool) : search? 1 afterName ['\x7d'] = none := by
  rw [search?_closing rfl, search?]

/-- Within the braces of an object the search finds the namespace that the first of the members to
name one names. -/
theorem MembersSpelled.search?_eq_some_iff {text : List Char} {members : List Member}
    (h : MembersSpelled text members) (name : List Char) :
    search? 1 false (text ++ ['\x7d']) = some name ↔ FirstNamed members name := by
  have hend : EndsMember ['\x7d'] := ⟨_, _, rfl, Or.inr rfl⟩
  induction h with
  | nil hblanks =>
    rw [search?_blanks hblanks, search?_end]
    simp [not_firstNamed_nil]
  | @last text member htext =>
    by_cases hnames : ∃ found, member.Names found
    · obtain ⟨found, hfound⟩ := hnames
      rw [htext.search?_of_names hend hfound, firstNamed_cons_of_names hfound, Option.some_inj,
        eq_comm]
    · rw [not_exists] at hnames
      obtain ⟨afterName, hpassed⟩ := htext.search?_of_not_names hend hnames
      rw [hpassed, search?_end, firstNamed_cons_of_not_names hnames]
      simp [not_firstNamed_nil]
  | @cons text rest member members htext _ ih =>
    have hcomma : EndsMember (',' :: (rest ++ ['\x7d'])) := ⟨_, _, rfl, Or.inl rfl⟩
    rw [List.append_assoc, List.cons_append]
    by_cases hnames : ∃ found, member.Names found
    · obtain ⟨found, hfound⟩ := hnames
      rw [htext.search?_of_names hcomma hfound, firstNamed_cons_of_names hfound, Option.some_inj,
        eq_comm]
    · rw [not_exists] at hnames
      obtain ⟨afterName, hpassed⟩ := htext.search?_of_not_names hcomma hnames
      have hnext : isNameChar ',' = false := isNameChar_of_isSign rfl
      rw [hpassed, search?_other rfl rfl rfl (by simp), hnext,
        firstNamed_cons_of_not_names hnames]
      exact ih

/-- Behind blanks and an opening brace the search starts within the braces. -/
theorem read_braces {before inner after : List Char} {text : String} (hbefore : Blanks before)
    (hafter : Blanks after)
    (htext : text.toList = before ++ ('\x7b' :: (inner ++ ['\x7d']) ++ after)) :
    read text = (search? 1 false (inner ++ ['\x7d'])).map String.ofList := by
  have hsolid : Solid ('\x7b' :: (inner ++ ['\x7d'])) :=
    ⟨⟨'\x7b', rfl, rfl⟩, '\x7d', by simp [List.getLast?_cons, List.getLast?_append], rfl⟩
  have htrim : trim text.toList = '\x7b' :: (inner ++ ['\x7d']) := by
    rw [htext, hsolid.trim_eq hbefore hafter]
  rw [read, htrim, List.head?_cons, if_pos rfl, search?_opening rfl]

/-- The search of an object starts with its members. -/
theorem ObjectSpelled.read_eq {text : String} {members : List Member}
    (h : ObjectSpelled text.toList members) :
    ∃ inner, MembersSpelled inner members ∧
      read text = (search? 1 false (inner ++ ['\x7d'])).map String.ofList := by
  generalize htext : text.toList = chars at h
  obtain @⟨before, inner, after, members, hbefore, hinner, hafter⟩ := h
  exact ⟨inner, hinner, read_braces hbefore hafter htext⟩

/-- The namespace that an object names is the one that the first of its own members to name one
names; it names none if none of them does. Members of objects further inside and texts in strings
do not count. -/
theorem read_eq_some_iff_firstNamed {text : String} {members : List Member}
    (h : ObjectSpelled text.toList members) :
    (∀ name, read text = some name ↔ FirstNamed members name.toList) ∧
      (read text = none ↔ ∀ member ∈ members, ∀ name, ¬member.Names name) := by
  obtain ⟨inner, hinner, hread⟩ := h.read_eq
  rw [hread]
  refine ⟨fun name => ?_, ?_⟩
  · rw [← hinner.search?_eq_some_iff, Option.map_eq_some_iff]
    constructor
    · rintro ⟨found, hfound, rfl⟩
      rw [hfound, String.toList_ofList]
    · exact fun hfound => ⟨name.toList, hfound, String.ofList_toList⟩
  · rw [Option.map_eq_none_iff, Option.eq_none_iff_forall_ne_some]
    simp only [ne_eq, hinner.search?_eq_some_iff]
    rw [← not_exists, exists_firstNamed_iff]
    simp only [not_exists, not_and]

/-- An object in which a deeper object and an empty string come before the member that counts. -/
theorem read_behind_deeper_object :
    let text := "\x7bb: \x7bns: 'y'\x7d, ns: '', ns: `c` + d\x7d"
    let members : List Member :=
      [⟨"b".toList, " \x7bns: 'y'\x7d".toList⟩, ⟨"ns".toList, " ''".toList⟩,
        ⟨"ns".toList, " `c` + d".toList⟩]
    ObjectSpelled text.toList members ∧ read text = some "c" := by
  intro text members
  have hspace : Blanks [' '] := Blanks.nil.cons rfl
  have hb : IsKey "b".toList := .name (by decide) (List.all_eq_true.mp (by decide +kernel))
  have hns : IsKey "ns".toList := .name (by decide) (List.all_eq_true.mp (by decide +kernel))
  have hinner : Row true "ns: 'y'".toList :=
    .sign rfl (.sign rfl (.separator (Or.inr rfl) (.sign rfl
      (@Row.string true '\'' ['y'] [] rfl (by decide) .nil))))
  have hdeeper : Row false " \x7bns: 'y'\x7d".toList := .sign rfl (.group .curly hinner .nil)
  have hempty : Row false " ''".toList :=
    .sign rfl (@Row.string false '\'' [] [] rfl (by decide) .nil)
  have hcounted : Row false " `c` + d".toList :=
    .sign rfl (@Row.string false '`' ['c'] " + d".toList rfl (by decide)
      (.sign rfl (.sign rfl (.sign rfl (.sign rfl .nil)))))
  have hmembers := MembersSpelled.cons (.mk Blanks.nil hb Blanks.nil hdeeper)
    (.cons (.mk hspace hns Blanks.nil hempty) (.last (.mk hspace hns Blanks.nil hcounted)))
  have hobject : ObjectSpelled text.toList members :=
    Eq.mpr (congrArg (ObjectSpelled · members) (by decide +kernel))
      (ObjectSpelled.mk Blanks.nil hmembers Blanks.nil)
  refine ⟨hobject, ((read_eq_some_iff_firstNamed hobject).1 "c").mpr ?_⟩
  refine ⟨members.take 2, ⟨"ns".toList, " `c` + d".toList⟩, [], rfl,
    ⟨rfl, by decide, [' '], '`', " + d".toList, hspace, rfl, by decide, by decide⟩, ?_⟩
  intro other hother name hname
  have hfound := quoted?_skipBlank_eq_some_iff.mpr hname.2
  have hnone : ∀ member ∈ members.take 2, member.key = "ns".toList →
      quoted? (skipBlank member.value) = none := by
    decide +kernel
  rw [hnone other hother hname.1] at hfound
  cases hfound

end KeyLens.NamespaceOption
