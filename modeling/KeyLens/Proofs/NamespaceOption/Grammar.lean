import KeyLens.NamespaceOption
import KeyLens.Proofs.Selector.Grammar

/-!
# The grammar of options

An options text is an object literal: members with commas between them, in braces. The value of a
member is a row of signs, strings and groups in brackets. Groups hold such rows too, with commas
and colons among them; a value of the object itself holds no colon outside of its groups.
-/

namespace KeyLens.NamespaceOption

open KeyLens.Text
open KeyLens.Selector (isQuote)

/-- A character of a name, of a number or of an operator, or a blank: one that neither quotes nor
groups nor separates anything. -/
def isSign (c : Char) : Bool :=
  !(isOpening c || isClosing c || isQuote c || c == ',' || c == ':')

/-- Two brackets that belong together. -/
inductive IsPair : Char → Char → Prop where
  /-- Parentheses. -/
  | round : IsPair '(' ')'
  /-- Square brackets. -/
  | square : IsPair '[' ']'
  /-- Braces. -/
  | curly : IsPair '\x7b' '\x7d'

/-- A row of signs, strings and groups. Commas and colons stand in it only if it is `grouped`. A
string runs up to the next quote of its kind. -/
inductive Row : (grouped : Bool) → List Char → Prop where
  /-- Nothing stands in the row. -/
  | nil {grouped : Bool} : Row grouped []
  /-- A sign stands first. -/
  | sign {grouped : Bool} {c : Char} {rest : List Char} (hc : isSign c = true)
    (hrest : Row grouped rest) : Row grouped (c :: rest)
  /-- A comma or a colon stands first. -/
  | separator {c : Char} {rest : List Char} (hc : c = ',' ∨ c = ':') (hrest : Row true rest) :
    Row true (c :: rest)
  /-- A string stands first. -/
  | string {grouped : Bool} {quote : Char} {content rest : List Char}
    (hquote : isQuote quote = true) (hfree : quote ∉ content) (hrest : Row grouped rest) :
    Row grouped (quote :: (content ++ quote :: rest))
  /-- A group stands first. -/
  | group {grouped : Bool} {opening closing : Char} {content rest : List Char}
    (hpair : IsPair opening closing) (hcontent : Row true content) (hrest : Row grouped rest) :
    Row grouped (opening :: (content ++ closing :: rest))

/-- A key of a member: a name, or a quoted text. -/
inductive IsKey : List Char → Prop where
  /-- The key is a name. -/
  | name {key : List Char} (hkey : key ≠ []) (hchars : ∀ c ∈ key, isNameChar c = true) : IsKey key
  /-- The key stands between quotes. -/
  | quoted {quote : Char} {content : List Char} (hquote : isQuote quote = true)
    (hfree : quote ∉ content) : IsKey (quote :: (content ++ [quote]))

/-- A member of an object, as it is written. -/
structure Member where
  /-- The key, with its quotes if it has any. -/
  key : List Char
  /-- All that stands behind the colon. -/
  value : List Char
  deriving Repr, DecidableEq

/-- A text that spells a member. -/
inductive Member.Spelled : List Char → Member → Prop where
  /-- Blanks may stand around the key. -/
  | mk {before key after value : List Char} (hbefore : Blanks before) (hkey : IsKey key)
    (hafter : Blanks after) (hvalue : Row false value) :
    Spelled (before ++ (key ++ (after ++ ':' :: value))) ⟨key, value⟩

/-- A text that spells members with commas between them, and possibly one after the last. -/
inductive MembersSpelled : List Char → List Member → Prop where
  /-- No member follows. -/
  | nil {blanks : List Char} (hblanks : Blanks blanks) : MembersSpelled blanks []
  /-- One member stands alone. -/
  | last {text : List Char} {member : Member} (htext : member.Spelled text) :
    MembersSpelled text [member]
  /-- A comma stands behind the first member. -/
  | cons {text rest : List Char} {member : Member} {members : List Member}
    (htext : member.Spelled text) (hrest : MembersSpelled rest members) :
    MembersSpelled (text ++ ',' :: rest) (member :: members)

/-- A text that spells an object with the given members. -/
inductive ObjectSpelled : List Char → List Member → Prop where
  /-- Blanks may stand around the braces. -/
  | mk {before text after : List Char} {members : List Member} (hbefore : Blanks before)
    (htext : MembersSpelled text members) (hafter : Blanks after) :
    ObjectSpelled (before ++ ('\x7b' :: (text ++ ['\x7d']) ++ after)) members

/-- A text whose first part, behind blanks, is a string with the given content. -/
def StartsWithString (text content : List Char) : Prop :=
  ∃ before quote rest, Blanks before ∧ isQuote quote = true ∧ quote ∉ content ∧
    text = before ++ quote :: (content ++ quote :: rest)

/-- A text that starts with `ns`, a colon and a string, not empty, with the given content. -/
def StartsWithOption (text content : List Char) : Prop :=
  ∃ after value, Blanks after ∧ text = "ns".toList ++ (after ++ ':' :: value) ∧ content ≠ [] ∧
    StartsWithString value content

/-- A member that names a namespace: its key is the bare name `ns`, and its value starts with a
string that is not empty. -/
def Member.Names (member : Member) (namespaceName : List Char) : Prop :=
  member.key = "ns".toList ∧ namespaceName ≠ [] ∧ StartsWithString member.value namespaceName

/-- The namespace that the first of the members to name one names. -/
def FirstNamed (members : List Member) (namespaceName : List Char) : Prop :=
  ∃ earlier member later, members = earlier ++ member :: later ∧ member.Names namespaceName ∧
    ∀ other ∈ earlier, ∀ name, ¬other.Names name

/-! ### The kinds of characters -/

/-- The characters that quote, group or separate. -/
def specials : List Char :=
  ['\x7b', '(', '[', '\x7d', ')', ']', '"', '\'', '\x60', ',', ':']

/-- A character is a sign unless it is special. -/
theorem isSign_eq_true_iff {c : Char} : isSign c = true ↔ c ∉ specials := by
  simp [isSign, isOpening, isClosing, isQuote, specials, and_assoc]

/-- A character of a name is a sign. -/
theorem isSign_of_isNameChar {c : Char} (h : isNameChar c = true) : isSign c = true := by
  have hspecials : (specials.all fun d => !isNameChar d) = true := by decide +kernel
  rw [isSign_eq_true_iff]
  intro hc
  have hname := List.all_eq_true.mp hspecials c hc
  rw [h] at hname
  cases hname

/-- A blank is no character of a name. -/
theorem isNameChar_of_isBlank {c : Char} (h : isBlank c = true) : isNameChar c = false := by
  cases hname : isNameChar c with
  | false => rfl
  | true =>
    simp only [isNameChar, Bool.or_eq_true, beq_iff_eq] at hname
    rcases hname with (halphanumeric | rfl) | rfl
    · rw [isBlank_of_isAlphanumeric halphanumeric] at h
      cases h
    · cases h
    · cases h

/-- A character of a name is a sign and no blank. -/
theorem sign_of_isNameChar {c : Char} (h : isNameChar c = true) :
    isSign c = true ∧ isBlank c = false := by
  refine ⟨isSign_of_isNameChar h, ?_⟩
  cases hblank : isBlank c with
  | false => rfl
  | true => rw [isNameChar_of_isBlank hblank] at h; cases h

/-- Whether all characters of a text are signs and no blanks can be computed. -/
theorem signs_of_all {text : List Char} (h : (text.all fun c => isSign c && !isBlank c) = true) :
    ∀ c ∈ text, isSign c = true ∧ isBlank c = false := by
  intro c hc
  have hsign := List.all_eq_true.mp h c hc
  rwa [Bool.and_eq_true, Bool.not_eq_true'] at hsign

/-- A character that is no sign belongs to no name. -/
theorem isNameChar_of_isSign {c : Char} (h : isSign c = false) : isNameChar c = false := by
  cases hname : isNameChar c with
  | false => rfl
  | true => rw [isSign_of_isNameChar hname] at h; cases h

/-- A blank is a sign. -/
theorem isSign_of_isBlank {c : Char} (h : isBlank c = true) : isSign c = true := by
  have hspecials : (specials.all fun d => !isBlank d) = true := by decide
  rw [isSign_eq_true_iff]
  intro hc
  have hblank := List.all_eq_true.mp hspecials c hc
  rw [h] at hblank
  cases hblank

/-- A sign neither opens nor closes a group, and it does not quote. -/
theorem plain_of_isSign {c : Char} (h : isSign c = true) :
    isOpening c = false ∧ isClosing c = false ∧ isQuote c = false := by
  simp only [isSign, Bool.not_eq_true', Bool.or_eq_false_iff] at h
  exact ⟨h.1.1.1.1, h.1.1.1.2, h.1.1.2⟩

/-- A closing bracket does not open. -/
theorem isOpening_of_isClosing {c : Char} (h : isClosing c = true) : isOpening c = false := by
  simp only [isClosing, Bool.or_eq_true, beq_iff_eq] at h
  rcases h with (rfl | rfl) | rfl <;> rfl

/-- Two brackets that belong together open and close. -/
theorem IsPair.opens_closes {opening closing : Char} (h : IsPair opening closing) :
    isOpening opening = true ∧ isClosing closing = true := by
  cases h <;> exact ⟨rfl, rfl⟩

/-- A quote neither opens nor closes a group. -/
theorem not_bracket_of_isQuote {c : Char} (h : isQuote c = true) :
    isOpening c = false ∧ isClosing c = false := by
  simp only [isQuote, Bool.or_eq_true, beq_iff_eq] at h
  rcases h with (rfl | rfl) | rfl <;> exact ⟨rfl, rfl⟩

/-! ### Rows -/

/-- A row of the object itself starts with no comma and no colon. -/
theorem Row.ne_separator {c : Char} {rest : List Char} (h : Row false (c :: rest)) :
    c ≠ ',' ∧ c ≠ ':' := by
  cases h with
  | sign hc => constructor <;> rintro rfl <;> cases hc
  | string hquote => constructor <;> rintro rfl <;> cases hquote
  | group hpair => cases hpair <;> decide

/-- Behind a character that neither quotes nor groups a row goes on. -/
theorem Row.behind_char {grouped : Bool} {c : Char} {rest : List Char}
    (h : Row grouped (c :: rest)) (hopening : isOpening c = false) (hquote : isQuote c = false) :
    Row grouped rest := by
  cases h with
  | sign _ hrest => exact hrest
  | separator _ hrest => exact hrest
  | string hc => rw [hc] at hquote; cases hquote
  | group hpair => rw [hpair.opens_closes.1] at hopening; cases hopening

/-- Behind the string at its start a row goes on. -/
theorem Row.behind_string {grouped : Bool} {quote : Char} {rest : List Char}
    (h : Row grouped (quote :: rest)) (hquote : isQuote quote = true) :
    ∃ content tail, rest = content ++ quote :: tail ∧ quote ∉ content ∧ Row grouped tail := by
  cases h with
  | sign hc => rw [(plain_of_isSign hc).2.2] at hquote; cases hquote
  | separator hc => rcases hc with rfl | rfl <;> cases hquote
  | string _ hfree htail => exact ⟨_, _, rfl, hfree, htail⟩
  | group hpair =>
    have hopening := hpair.opens_closes.1
    rw [(not_bracket_of_isQuote hquote).1] at hopening
    cases hopening

/-- What stands behind blanks at the start of a row is a row. -/
theorem Row.of_append {grouped : Bool} {blanks row : List Char} (h : Row grouped (blanks ++ row))
    (hblanks : Blanks blanks) : Row grouped row := by
  induction blanks with
  | nil => exact h
  | cons c rest ih =>
    rw [Blanks, List.forall_mem_cons] at hblanks
    have hsign := isSign_of_isBlank hblanks.1
    obtain ⟨hopening, -, hquote⟩ := plain_of_isSign hsign
    rw [List.cons_append] at h
    exact ih (h.behind_char hopening hquote) hblanks.2

end KeyLens.NamespaceOption
