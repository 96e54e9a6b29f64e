import KeyLens.Declaration
import KeyLens.Proofs.Selector.Chains

/-!
# The grammar of namespace declarations

A destructuring of `useTranslation` takes `t` out of what the call gives, and its arguments reach up
to the first closing parenthesis. A type of `t` lists names up to the first closing bracket. Reading
a declaration finds exactly what this grammar spells at the start of a text.
-/

namespace KeyLens.Declaration

open KeyLens.Text
open KeyLens.Selector (dropWord? dropWord?_eq_some_iff)

/-- One of the three words that start a variable declaration. -/
inductive Binder : List Char → Prop where
  /-- A constant. -/
  | const : Binder "const".toList
  /-- A variable of a block. -/
  | block : Binder "let".toList
  /-- A variable of a function. -/
  | function : Binder "var".toList

/-- A text in which `t` stands as a word of its own. -/
inductive BindsT : List Char → Prop where
  /-- No word goes on in front of the `t` or behind it. -/
  | mk {before after : List Char} (hbefore : ∀ c ∈ before.getLast?, isWord c = false)
    (hafter : ∀ c ∈ after.head?, isWord c = false) : BindsT (before ++ 't' :: after)

/-- A text that is a call of `useTranslation` on the right side of a declaration, and its
arguments. -/
inductive Call : List Char → List Char → Prop where
  /-- Blanks may stand between the tokens. -/
  | mk {before between gap arguments : List Char} (hbefore : Blanks before)
    (hbetween : Blanks between) (hgap : Blanks gap) (hfree : ')' ∉ arguments) :
    Call (before ++ '=' :: (between ++ ("useTranslation".toList ++
      (gap ++ '(' :: (arguments ++ [')']))))) arguments

/-- A text that is a destructuring of `useTranslation` which binds `t`, and the arguments. -/
inductive Hook : List Char → List Char → Prop where
  /-- The names stand between braces. -/
  | mk {binder gap names call arguments : List Char} (hbinder : Binder binder) (hgap : Blanks gap)
    (hfree : '\x7d' ∉ names) (hnames : BindsT names) (hcall : Call call arguments) :
    Hook (binder ++ (gap ++ '\x7b' :: (names ++ '\x7d' :: call))) arguments

/-- A text that binds `t` to the type `TFunction`, and the list of names that the type has. -/
inductive Typed : List Char → List Char → Prop where
  /-- The name of the type may stand in any case. -/
  | mk {before between name gap inside names : List Char} (hbefore : Blanks before)
    (hbetween : Blanks between) (hname : name.map Char.toLower = "tfunction".toList)
    (hgap : Blanks gap) (hinside : Blanks inside) (hfree : ']' ∉ names) (hne : names ≠ []) :
    Typed ('t' :: (before ++ ':' :: (between ++ (name ++ (gap ++ '<' :: (inside ++
      '[' :: (names ++ [']']))))))) names

/-! ### Reading tokens -/

variable {text rest inner names : List Char}

/-- A token is read behind blanks. -/
theorem token?_eq_some_iff {word : String}
    (h : ∃ c, word.toList.head? = some c ∧ isBlank c = false) :
    token? word text = some rest ↔
      ∃ before, Blanks before ∧ text = before ++ (word.toList ++ rest) := by
  rw [token?, dropWord?_eq_some_iff]
  constructor
  · intro hskip
    obtain ⟨before, hbefore, htext⟩ := exists_blanks_skipBlank text
    exact ⟨before, hbefore, by rw [← hskip]; exact htext⟩
  · rintro ⟨before, hbefore, rfl⟩
    obtain ⟨c, hhead, hc⟩ := h
    obtain ⟨tail, hword⟩ := List.head?_eq_some_iff.mp hhead
    rw [skipBlank_append hbefore, hword, List.cons_append, skipBlank_cons hc]

/-- What is enclosed reaches up to the first closing bracket. -/
theorem enclosed?_eq_some_iff {close : Char} :
    enclosed? close text = some (inner, rest) ↔ text = inner ++ close :: rest ∧ close ∉ inner := by
  unfold enclosed?
  constructor
  · intro h
    split at h
    · cases h
    · next c tail htail =>
      cases h
      have hclose : c = close := eq_of_dropWhile_ne htail
      refine ⟨?_, not_mem_takeWhile_ne close text⟩
      rw [← hclose, ← htail, hclose, List.takeWhile_append_dropWhile]
  · rintro ⟨rfl, hfree⟩
    rw [dropWhile_ne_append hfree, takeWhile_ne_append hfree]

/-- One of the three binders is read. -/
theorem afterBinder?_eq_some_iff :
    afterBinder? text = some rest ↔ ∃ binder, Binder binder ∧ text = binder ++ rest := by
  constructor
  · intro h
    simp only [afterBinder?, Option.orElse_eq_orElse, Option.orElse_eq_or, Option.or_eq_some_iff,
      dropWord?_eq_some_iff] at h
    rcases h with (h | ⟨-, h⟩) | ⟨-, h⟩
    · exact ⟨_, .const, h⟩
    · exact ⟨_, .block, h⟩
    · exact ⟨_, .function, h⟩
  · rintro ⟨_, hbinder, rfl⟩
    cases hbinder <;> rfl

/-- A word ends in front of a text that does not start with one of its characters. -/
theorem endsWord_eq_true_iff : endsWord text = true ↔ ∀ c ∈ text.head?, isWord c = false := by
  cases text <;> simp [endsWord]

/-- The word `t` is found where it stands, unless a word goes on into the text. -/
theorem namesT_eq_true_iff {inWord : Bool} :
    namesT inWord text = true ↔ ∃ before after, text = before ++ 't' :: after ∧
      (before = [] → inWord = false) ∧ (∀ c ∈ before.getLast?, isWord c = false) ∧
      ∀ c ∈ after.head?, isWord c = false := by
  induction text generalizing inWord with
  | nil => simp [namesT]
  | cons c rest ih =>
    rw [namesT, Bool.or_eq_true, ih, Bool.and_eq_true, Bool.and_eq_true, beq_iff_eq,
      Bool.not_eq_true', endsWord_eq_true_iff]
    constructor
    · rintro (⟨⟨rfl, hinWord⟩, hafter⟩ | ⟨before, after, rfl, hfirst, hbefore, hafter⟩)
      · exact ⟨[], rest, rfl, fun _ => hinWord, nofun, hafter⟩
      · refine ⟨c :: before, after, rfl, nofun, fun d hd => ?_, hafter⟩
        cases before with
        | nil =>
          cases hd
          exact hfirst rfl
        | cons next before => exact hbefore d (by simpa [List.getLast?_cons_cons] using hd)
    · rintro ⟨before, after, htext, hfirst, hbefore, hafter⟩
      cases before with
      | nil =>
        cases htext
        exact Or.inl ⟨⟨rfl, hfirst rfl⟩, hafter⟩
      | cons d before =>
        cases htext
        refine Or.inr ⟨before, after, rfl, ?_, fun e he => hbefore e ?_, hafter⟩
        · rintro rfl
          exact hbefore c rfl
        · cases before with
          | nil => cases he
          | cons next before => simpa [List.getLast?_cons_cons] using he

/-- A text binds `t` if the word is found in it. -/
theorem namesT_false_eq_true_iff : namesT false text = true ↔ BindsT text := by
  rw [namesT_eq_true_iff]
  constructor
  · rintro ⟨before, after, rfl, -, hbefore, hafter⟩
    exact .mk hbefore hafter
  · rintro ⟨hbefore, hafter⟩
    exact ⟨_, _, rfl, fun _ => rfl, hbefore, hafter⟩

/-- A name is read in any case. -/
theorem dropName_eq_some_iff {word : List Char} :
    afterTypeName?.dropName word text = some rest ↔
      ∃ name, name.map Char.toLower = word ∧ text = name ++ rest := by
  induction word generalizing text with
  | nil => simp [afterTypeName?.dropName, eq_comm]
  | cons w word ih =>
    cases text with
    | nil =>
      refine ⟨nofun, ?_⟩
      rintro ⟨name, hname, htext⟩
      obtain ⟨rfl, -⟩ := List.append_eq_nil_iff.mp htext.symm
      cases hname
    | cons c text =>
      rw [afterTypeName?.dropName, Option.ite_none_right_eq_some, ih]
      constructor
      · rintro ⟨hc, name, rfl, rfl⟩
        exact ⟨c :: name, by rw [List.map_cons, hc], rfl⟩
      · rintro ⟨name, hname, htext⟩
        cases name with
        | nil => cases hname
        | cons d name =>
          obtain ⟨rfl, rfl⟩ := List.cons.inj htext
          obtain ⟨hd, hname⟩ := List.cons.inj hname
          exact ⟨hd, name, hname, rfl⟩

/-- The name of the type does not start with a blank, in any case. -/
theorem isBlank_of_toLower {c : Char} (h : c.toLower = 't') : isBlank c = false := by
  unfold Char.toLower at h
  split at h
  · next hupper =>
    have hfrom : 65 ≤ c.toNat := hupper.1
    have hto : c.toNat ≤ 90 := hupper.2
    simp only [isBlank, Bool.or_eq_false_iff, Bool.and_eq_false_iff, decide_eq_false_iff_not,
      beq_eq_false_iff_ne]
    omega
  · rw [h]
    rfl

/-- The name of the type is read behind blanks. -/
theorem afterTypeName?_skipBlank_eq_some_iff :
    afterTypeName? (skipBlank text) = some rest ↔
      ∃ between name, Blanks between ∧ name.map Char.toLower = "tfunction".toList ∧
        text = between ++ (name ++ rest) := by
  rw [afterTypeName?, dropName_eq_some_iff]
  constructor
  · rintro ⟨name, hname, hskip⟩
    obtain ⟨between, hbetween, htext⟩ := exists_blanks_skipBlank text
    exact ⟨between, name, hbetween, hname, by rw [← hskip]; exact htext⟩
  · rintro ⟨between, name, hbetween, hname, rfl⟩
    refine ⟨name, hname, ?_⟩
    cases name with
    | nil => cases hname
    | cons c name =>
      obtain ⟨hc, -⟩ := List.cons.inj hname
      rw [skipBlank_append hbetween, List.cons_append, skipBlank_cons (isBlank_of_toLower hc)]

/-! ### Reading declarations -/

/-- The arguments of a call on the right side of a declaration, and the text after them. -/
def call? (text : List Char) : Option (List Char × List Char) :=
  (token? "=" text).bind fun rest =>
    (token? "useTranslation" rest).bind fun rest =>
      (token? "(" rest).bind fun rest => enclosed? ')' rest

/-- A call on the right side of a declaration is read up to its end. -/
theorem call?_eq_some_iff {arguments : List Char} :
    call? text = some (arguments, rest) ↔ ∃ call, Call call arguments ∧ text = call ++ rest := by
  have hequals : ∃ c, "=".toList.head? = some c ∧ isBlank c = false := ⟨'=', rfl, rfl⟩
  have hname : ∃ c, "useTranslation".toList.head? = some c ∧ isBlank c = false := ⟨'u', rfl, rfl⟩
  have hopen : ∃ c, "(".toList.head? = some c ∧ isBlank c = false := ⟨'(', rfl, rfl⟩
  simp only [call?, Option.bind_eq_some_iff, token?_eq_some_iff hequals, token?_eq_some_iff hname,
    token?_eq_some_iff hopen, enclosed?_eq_some_iff]
  constructor
  · rintro ⟨_, ⟨before, hbefore, rfl⟩, _, ⟨between, hbetween, rfl⟩, _, ⟨gap, hgap, rfl⟩, rfl, hfree⟩
    exact ⟨_, .mk hbefore hbetween hgap hfree, by simp⟩
  · rintro ⟨_, ⟨hbefore, hbetween, hgap, hfree⟩, rfl⟩
    exact ⟨_, ⟨_, hbefore, by simp⟩, _, ⟨_, hbetween, rfl⟩, _, ⟨_, hgap, rfl⟩, rfl, hfree⟩

/-- A destructuring is read up to its end. -/
theorem hook?_eq_some_iff {arguments : List Char} :
    hook? text = some (arguments, rest) ↔ ∃ front, Hook front arguments ∧ text = front ++ rest := by
  have hopen : ∃ c, "\x7b".toList.head? = some c ∧ isBlank c = false := ⟨'\x7b', rfl, rfl⟩
  change (afterBinder? text).bind (fun rest => (token? "\x7b" rest).bind fun rest =>
    (enclosed? '\x7d' rest).bind fun found =>
      if namesT false found.1 then call? found.2 else none) = some (arguments, rest) ↔ _
  simp only [Option.bind_eq_some_iff, afterBinder?_eq_some_iff, token?_eq_some_iff hopen,
    Prod.exists, enclosed?_eq_some_iff, Option.ite_none_right_eq_some, namesT_false_eq_true_iff,
    call?_eq_some_iff]
  constructor
  · rintro ⟨_, ⟨binder, hbinder, rfl⟩, _, ⟨gap, hgap, rfl⟩, names, _, ⟨rfl, hfree⟩, hnames, call,
      hcall, rfl⟩
    exact ⟨_, .mk hbinder hgap hfree hnames hcall, by simp⟩
  · rintro ⟨_, ⟨hbinder, hgap, hfree, hnames, hcall⟩, rfl⟩
    exact ⟨_, ⟨_, hbinder, by simp⟩, _, ⟨_, hgap, rfl⟩, _, _, ⟨rfl, hfree⟩, hnames, _, hcall, rfl⟩

/-- A typed binding is read up to the end of its list. -/
theorem typed?_eq_some_iff :
    typed? text = some (names, rest) ↔ ∃ front, Typed front names ∧ text = front ++ rest := by
  have hcolon : ∃ c, ":".toList.head? = some c ∧ isBlank c = false := ⟨':', rfl, rfl⟩
  have hopen : ∃ c, "<".toList.head? = some c ∧ isBlank c = false := ⟨'<', rfl, rfl⟩
  have hbracket : ∃ c, "[".toList.head? = some c ∧ isBlank c = false := ⟨'[', rfl, rfl⟩
  simp only [typed?, Option.bind_eq_some_iff, dropWord?_eq_some_iff, token?_eq_some_iff hcolon,
    afterTypeName?_skipBlank_eq_some_iff, token?_eq_some_iff hopen, token?_eq_some_iff hbracket,
    Prod.exists, enclosed?_eq_some_iff, Option.ite_none_left_eq_some, Option.some.injEq,
    Prod.mk.injEq]
  constructor
  · rintro ⟨_, rfl, _, ⟨before, hbefore, rfl⟩, _, ⟨between, name, hbetween, hname, rfl⟩, _,
      ⟨gap, hgap, rfl⟩, _, ⟨inside, hinside, rfl⟩, _, _, ⟨rfl, hfree⟩, hne, rfl, rfl⟩
    exact ⟨_, .mk hbefore hbetween hname hgap hinside hfree hne, by simp⟩
  · rintro ⟨_, ⟨hbefore, hbetween, hname, hgap, hinside, hfree, hne⟩, rfl⟩
    exact ⟨_, rfl, _, ⟨_, hbefore, by simp⟩, _, ⟨_, _, hbetween, hname, rfl⟩, _,
      ⟨_, hgap, rfl⟩, _, ⟨_, hinside, rfl⟩, _, _, ⟨rfl, hfree⟩, hne, rfl, rfl⟩

end KeyLens.Declaration
