import KeyLens.Proofs.Declaration.Lists

/-!
# The nearest declaration

Behind any text in which the arguments of each call of `useTranslation` are closed, a destructuring
that lists names is the one that counts, as long as no call of `useTranslation` follows it. A
declaration that starts in the text in front of it either ends there, or takes its braces to be its
own and so has its arguments.
-/

namespace KeyLens.Declaration

open KeyLens.Text
open KeyLens.Selector (isQuote)

/-- A name that may stand between quotes of any kind in a list of arguments. -/
structure Plain (name : List Char) : Prop where
  /-- It is not empty. -/
  ne_nil : name ≠ []
  /-- It holds no quotes. -/
  unquoted : Unquoted name
  /-- It does not end the list. -/
  bracket : ']' ∉ name
  /-- It does not end the arguments. -/
  parenthesis : ')' ∉ name

/-- A text that is a destructuring of `useTranslation` which binds `t` and has a list of names as
its only argument. -/
inductive Declares : List Char → List (List Char) → Prop where
  /-- Blanks may stand around the list. -/
  | mk {before list after front : List Char} {names : List (List Char)} (hbefore : Blanks before)
    (hlist : Lists (fun _ => Plain) list names) (hne : names ≠ []) (hafter : Blanks after)
    (hhook : Hook front (before ++ '[' :: (list ++ ']' :: after))) : Declares front names

/-- The arguments of each call of `useTranslation` in a text are closed. -/
def ClosesCalls (text : List Char) : Prop :=
  ∀ front gap back, text = front ++ ("useTranslation".toList ++ (gap ++ '(' :: back)) →
    Blanks gap → ')' ∈ back

/-! ### Where a declaration may start -/

/-- One of the letters with which a declaration starts. -/
def isInitial (c : Char) : Bool :=
  c == 'c' || c == 'l' || c == 'v'

/-- Within a text no declaration starts: each initial behind its first character goes on with a
word. -/
def Unbroken (text : List Char) : Prop :=
  ∀ front c back, text = front ++ c :: back → front ≠ [] → isInitial c = true →
    ∃ d ∈ front.getLast?, isWord d = true

variable {text front rest back found arguments : List Char} {names : List (List Char)}

/-- A text without initials is unbroken. -/
theorem Unbroken.of_forall (h : ∀ c ∈ text, isInitial c = false) : Unbroken text := by
  rintro front c back rfl - hc
  rw [h c (by simp)] at hc
  cases hc

/-- A word is unbroken. -/
theorem Unbroken.of_word (h : ∀ c ∈ text, isWord c = true) : Unbroken text := by
  rintro front c back rfl hfront -
  have hlast := List.getLast_mem hfront
  exact ⟨_, List.getLast?_eq_some_getLast hfront, h _ (List.mem_append_left _ hlast)⟩

/-- Unbroken texts make up an unbroken one if no initial stands at the start of the second. -/
theorem Unbroken.append (hfront : Unbroken front) (hback : Unbroken back)
    (hhead : ∀ c ∈ back.head?, isInitial c = false) : Unbroken (front ++ back) := by
  intro before c after htext hbefore hc
  rcases List.append_eq_append_iff.mp htext with ⟨middle, rfl, hrest⟩ | ⟨middle, rfl, hrest⟩
  · -- The character stands in the second text.
    by_cases hmiddle : middle = []
    · subst hmiddle hrest
      rw [hhead c rfl] at hc
      cases hc
    · obtain ⟨d, hd, hword⟩ := hback middle c after hrest hmiddle hc
      refine ⟨d, ?_, hword⟩
      rw [List.getLast?_append, hd, Option.some_or]
      rfl
  · cases middle with
    | nil =>
      rw [List.nil_append] at hrest
      rw [← hrest] at hhead
      rw [hhead c rfl] at hc
      cases hc
    | cons d middle =>
      obtain ⟨rfl, -⟩ := List.cons.inj hrest
      exact hfront before c middle rfl hbefore hc

/-- A declaration that stands behind a text starts behind the unbroken beginning of both. -/
theorem Unbroken.exists_append (h : Unbroken text) (hne : front ≠ [])
    (hlast : ∀ c ∈ front.getLast?, isWord c = false)
    (hinitial : ∃ c ∈ back.head?, isInitial c = true) (heq : text ++ rest = front ++ back) :
    ∃ middle, front = text ++ middle ∧ rest = middle ++ back := by
  rcases List.append_eq_append_iff.mp heq with ⟨middle, hmiddle, hrest⟩ | ⟨middle, rfl, hback⟩
  · exact ⟨middle, hmiddle, hrest⟩
  · cases middle with
    | nil => exact ⟨[], by simp, by simpa using hback.symm⟩
    | cons c middle =>
      obtain ⟨d, hd, hdinitial⟩ := hinitial
      rw [hback] at hd
      cases hd
      obtain ⟨e, he, hword⟩ := h front c middle rfl hne hdinitial
      rw [hlast e he] at hword
      cases hword

/-- A binder is a word. -/
theorem Binder.isWord_of_mem (h : Binder text) : ∀ c ∈ text, isWord c = true := by
  have hall : text.all isWord = true := by cases h <;> decide +kernel
  exact List.all_eq_true.mp hall

/-- Blanks hold no initials. -/
theorem isInitial_of_blanks (h : Blanks text) : ∀ c ∈ text, isInitial c = false := by
  intro c hc
  cases hinitial : isInitial c with
  | false => rfl
  | true =>
    simp only [isInitial, Bool.or_eq_true, beq_iff_eq] at hinitial
    rcases hinitial with (rfl | rfl) | rfl <;> cases h _ hc

/-- Blanks and a sign behind them hold no initials. -/
theorem isInitial_of_blanks_sign {sign : Char} (h : Blanks text) (hsign : isInitial sign = false) :
    ∀ c ∈ text ++ [sign], isInitial c = false := by
  intro c hc
  rcases List.mem_append.mp hc with hc | hc
  · exact isInitial_of_blanks h c hc
  · rw [List.mem_singleton.mp hc]
    exact hsign

/-- A destructuring starts with an initial. -/
theorem Hook.head (h : Hook front arguments) (rest : List Char) :
    ∃ c ∈ (front ++ rest).head?, isInitial c = true := by
  cases h with
  | mk hbinder => cases hbinder <;> exact ⟨_, rfl, rfl⟩

/-- A destructuring is not empty. -/
theorem Hook.ne_nil (h : Hook front arguments) : front ≠ [] := by
  rintro rfl
  obtain ⟨c, hc, -⟩ := h.head []
  cases hc

/-! ### Declarations that reach into another one -/

/-- If a sign stands in a text twice in the same place, the parts in front of it and behind it are
the same. -/
theorem eq_of_append_sign {sign : Char} {before before' after after' : List Char}
    (hfree : sign ∉ before) (hfree' : sign ∉ before')
    (heq : before ++ sign :: after = before' ++ sign :: after') :
    before = before' ∧ after = after' := by
  have hread : enclosed? sign (before ++ sign :: after) = some (before, after) :=
    enclosed?_eq_some_iff.mpr ⟨rfl, hfree⟩
  have hread' : enclosed? sign (before' ++ sign :: after') = some (before', after') :=
    enclosed?_eq_some_iff.mpr ⟨rfl, hfree'⟩
  rw [heq, hread'] at hread
  cases hread
  exact ⟨rfl, rfl⟩

/-- A text starts with one call at most. -/
theorem Call.eq_of_append {call call' arguments' rest' : List Char} (h : Call call arguments)
    (h' : Call call' arguments') (heq : call ++ rest = call' ++ rest') :
    arguments = arguments' ∧ rest = rest' := by
  have hread : call? (call ++ rest) = some (arguments, rest) :=
    call?_eq_some_iff.mpr ⟨call, h, rfl⟩
  have hread' : call? (call' ++ rest') = some (arguments', rest') :=
    call?_eq_some_iff.mpr ⟨call', h', rfl⟩
  rw [heq, hread'] at hread
  cases hread
  exact ⟨rfl, rfl⟩

/-- No call starts with an initial. -/
theorem Call.head {call : List Char} (h : Call call arguments) (rest : List Char) :
    ∀ c ∈ (call ++ rest).head?, isInitial c = false := by
  cases h with
  | @mk before between gap _ hbefore hbetween hgap hfree =>
    intro c hc
    cases before with
    | nil =>
      cases hc
      rfl
    | cons d before =>
      cases hc
      exact isInitial_of_blanks hbefore c List.mem_cons_self

/-- Up to its brace a destructuring is unbroken. -/
theorem Binder.unbroken {binder gap : List Char} (hbinder : Binder binder) (hgap : Blanks gap) :
    Unbroken (binder ++ (gap ++ ['\x7b'])) := by
  have hfree := isInitial_of_blanks_sign hgap (show isInitial '\x7b' = false from rfl)
  exact (Unbroken.of_word hbinder.isWord_of_mem).append (.of_forall hfree)
    fun c hc => hfree c (List.mem_of_mem_head? hc)

/-- Up to its parenthesis a call is unbroken. -/
theorem unbroken_call {before between gap : List Char} (hbefore : Blanks before)
    (hbetween : Blanks between) (hgap : Blanks gap) :
    Unbroken (before ++ '=' :: (between ++ ("useTranslation".toList ++ (gap ++ ['('])))) := by
  have hfree := isInitial_of_blanks_sign hgap (show isInitial '(' = false from rfl)
  have hfree' : ∀ c ∈ before ++ '=' :: between, isInitial c = false := by
    intro c hc
    rcases List.mem_append.mp hc with hc | hc
    · exact isInitial_of_blanks hbefore c hc
    · rcases List.mem_cons.mp hc with rfl | hc
      · rfl
      · exact isInitial_of_blanks hbetween c hc
  have hname : Unbroken ("useTranslation".toList ++ (gap ++ ['('])) :=
    (Unbroken.of_word (List.all_eq_true.mp (by decide +kernel))).append (.of_forall hfree)
      fun c hc => hfree c (List.mem_of_mem_head? hc)
  have hcall := (Unbroken.of_forall hfree').append hname (by rintro c ⟨⟩; rfl)
  rwa [List.append_assoc, List.cons_append] at hcall

/-- What stands at the end of a text closes its calls if the text does. -/
theorem ClosesCalls.of_append (h : ClosesCalls (front ++ back)) : ClosesCalls back := by
  rintro before gap after rfl hgap
  exact h (front ++ before) gap after (by simp) hgap

/-- What stands at the end of a text ends outside of a word if the text does. -/
theorem isWord_getLast?_of_append (h : ∀ c ∈ (front ++ back).getLast?, isWord c = false) :
    ∀ c ∈ back.getLast?, isWord c = false := by
  intro c hc
  refine h c ?_
  rw [List.getLast?_append, hc, Option.some_or]
  rfl

/-- A call that starts in front of a declaration ends there as well. -/
theorem Call.exists_append {call : List Char} (h : Call call arguments)
    (hlast : ∀ c ∈ front.getLast?, isWord c = false) (hcalls : ClosesCalls front)
    (hinitial : ∃ c ∈ back.head?, isInitial c = true) (heq : call ++ rest = front ++ back) :
    ∃ middle, front = call ++ middle ∧ rest = middle ++ back := by
  have hne : front ≠ [] := by
    rintro rfl
    obtain ⟨c, hc, htrue⟩ := hinitial
    rw [← List.nil_append back, ← heq] at hc
    rw [h.head rest c hc] at htrue
    cases htrue
  cases h with
  | @mk before between gap _ hbefore hbetween hgap hfree =>
    have hsplit : (before ++ '=' :: (between ++ ("useTranslation".toList ++ (gap ++ ['('])))) ++
        (arguments ++ ')' :: rest) = front ++ back := by
      rw [← heq]
      simp
    obtain ⟨inside, rfl, hinside⟩ :=
      (unbroken_call hbefore hbetween hgap).exists_append hne hlast hinitial hsplit
    -- The parenthesis of the call is the first one behind its arguments.
    have hclosed : ')' ∈ inside :=
      hcalls (before ++ '=' :: between) gap inside (by simp) hgap
    obtain ⟨arguments', middle, rfl, hfree'⟩ := List.eq_append_cons_of_mem hclosed
    rw [List.append_assoc, List.cons_append] at hinside
    obtain ⟨rfl, rfl⟩ := eq_of_append_sign hfree hfree' hinside
    exact ⟨middle, by simp, rfl⟩

/-- In front of its closing brace a destructuring holds none. -/
theorem not_mem_opening {binder gap : List Char} (hbinder : Binder binder) (hgap : Blanks gap)
    (hfree : '\x7d' ∉ rest) : '\x7d' ∉ binder ++ (gap ++ '\x7b' :: rest) := by
  intro hmem
  rcases List.mem_append.mp hmem with hmem | hmem
  · have hword := hbinder.isWord_of_mem _ hmem
    revert hword
    decide +kernel
  rcases List.mem_append.mp hmem with hmem | hmem
  · cases hgap _ hmem
  rcases List.mem_cons.mp hmem with hmem | hmem
  · cases hmem
  · exact hfree hmem

/-- A destructuring that starts in front of another one ends there as well, or it is closed by the
braces of the other one, whose arguments are then its own. -/
theorem Hook.exists_append_or_eq {other rest' arguments' : List Char}
    (hfront : Hook front arguments) (hother : Hook other arguments') (hne : text ≠ [])
    (hlast : ∀ c ∈ text.getLast?, isWord c = false) (hcalls : ClosesCalls text)
    (heq : front ++ rest = text ++ (other ++ rest')) :
    (∃ middle, text = front ++ middle ∧ rest = middle ++ (other ++ rest')) ∨
      (arguments = arguments' ∧ rest = rest') := by
  have hinitial := hother.head rest'
  cases hfront with
  | @mk binder gap names call _ hbinder hgap hfree _ hcall =>
    have hsplit : (binder ++ (gap ++ ['\x7b'])) ++ (names ++ '\x7d' :: (call ++ rest)) =
        text ++ (other ++ rest') := by
      rw [← heq]
      simp
    obtain ⟨inside, rfl, hinside⟩ :=
      (hbinder.unbroken hgap).exists_append hne hlast hinitial hsplit
    by_cases hbrace : '\x7d' ∈ inside
    · left
      obtain ⟨names', behind, rfl, hfree'⟩ := List.eq_append_cons_of_mem hbrace
      have hbraces : names ++ '\x7d' :: (call ++ rest) =
          names' ++ '\x7d' :: (behind ++ (other ++ rest')) := by
        rw [hinside]
        simp
      obtain ⟨rfl, hbehind⟩ := eq_of_append_sign hfree hfree' hbraces
      have htext : binder ++ (gap ++ ['\x7b']) ++ (names ++ '\x7d' :: behind) =
          (binder ++ (gap ++ '\x7b' :: (names ++ ['\x7d']))) ++ behind := by simp
      rw [htext] at hlast hcalls
      obtain ⟨middle, rfl, hrest⟩ := hcall.exists_append (isWord_getLast?_of_append hlast)
        hcalls.of_append hinitial hbehind
      exact ⟨middle, by simp, hrest⟩
    · right
      cases hother with
      | @mk binder' gap' names' call' _ hbinder' hgap' hfree' _ hcall' =>
        have hbraces : names ++ '\x7d' :: (call ++ rest) =
            (inside ++ (binder' ++ (gap' ++ '\x7b' :: names'))) ++ '\x7d' :: (call' ++ rest') := by
          rw [hinside]
          simp
        have hclosed : '\x7d' ∉ inside ++ (binder' ++ (gap' ++ '\x7b' :: names')) := by
          intro hmem
          rcases List.mem_append.mp hmem with hmem | hmem
          · exact hbrace hmem
          · exact not_mem_opening hbinder' hgap' hfree' hmem
        obtain ⟨-, hcalls'⟩ := eq_of_append_sign hfree hclosed hbraces
        exact hcall.eq_of_append hcall' hcalls'

/-! ### The last declaration of a text -/

/-- Where `useTranslation` does not stand, no destructuring of it is found. -/
theorem lastOf_hook?_of_free (hfree : ¬ "useTranslation".toList <:+: rest) (inWord : Bool)
    (found : Option (List Char)) : lastOf hook? inWord 0 found rest = found := by
  refine lastOf_eq_found_of_free (fun suffix ⟨arguments, after⟩ hreading => ?_) hfree inWord found
  obtain ⟨front, hfront, rfl⟩ := hook?_eq_some_iff.mp hreading
  cases hfront with
  | @mk binder gap names _ _ _ _ _ _ hcall =>
    cases hcall with
    | @mk before between gap' _ =>
      refine ⟨binder ++ (gap ++ '\x7b' :: (names ++ '\x7d' :: (before ++ '=' :: between))),
        gap' ++ '(' :: (arguments ++ [')']) ++ after, ?_⟩
      simp only [List.append_assoc, List.cons_append]

/-- No word goes on behind a text that ends outside of a word. -/
theorem inWordBehind_eq_false (h : ∀ c ∈ text.getLast?, isWord c = false) :
    inWordBehind false text = false := by
  unfold inWordBehind
  cases hlast : text.getLast? with
  | none => rfl
  | some c => exact h c hlast

/-- Behind a text with closed calls, the last destructuring is found. -/
theorem lastOf_hook?_append {other : List Char} (hother : Hook other arguments)
    (hfree : ¬ "useTranslation".toList <:+: rest)
    (hlast : ∀ c ∈ text.getLast?, isWord c = false) (hcalls : ClosesCalls text) {inWord : Bool}
    (hinWord : text = [] → inWord = false) (found : Option (List Char)) :
    lastOf hook? inWord 0 found (text ++ (other ++ rest)) = some arguments := by
  induction hlength : text.length using Nat.strong_induction_on generalizing text inWord found with
  | _ length ih =>
  subst hlength
  cases text with
  | nil =>
    obtain rfl := hinWord rfl
    have hread : hook? (other ++ rest) = some (arguments, rest) :=
      hook?_eq_some_iff.mpr ⟨other, hother, rfl⟩
    rw [List.nil_append, lastOf_found hother.ne_nil hread, lastOf_hook?_of_free hfree]
  | cons c text =>
    have hpass : (inWord = false → hook? (c :: (text ++ (other ++ rest))) = none) →
        lastOf hook? inWord 0 found (c :: text ++ (other ++ rest)) = some arguments := by
      intro hnone
      rw [List.cons_append, lastOf_cons_of_none hnone]
      have hlast' := @isWord_getLast?_of_append [c] text hlast
      refine ih text.length (Nat.lt_succ_self _) hlast' (@ClosesCalls.of_append [c] text hcalls) ?_
        found rfl
      rintro rfl
      exact hlast c rfl
    cases inWord with
    | true => exact hpass nofun
    | false =>
      cases hread : hook? (c :: (text ++ (other ++ rest))) with
      | none => exact hpass fun _ => hread
      | some reading =>
        obtain ⟨inner, after⟩ := reading
        obtain ⟨front, hfront, hsplit⟩ := hook?_eq_some_iff.mp hread
        rw [hsplit] at hread
        rw [List.cons_append, hsplit, lastOf_found hfront.ne_nil hread]
        rcases hfront.exists_append_or_eq hother (List.cons_ne_nil c text) hlast hcalls hsplit.symm
          with ⟨middle, htext, rfl⟩ | ⟨rfl, rfl⟩
        · rw [htext] at hlast hcalls ih
          have hshorter : middle.length < (front ++ middle).length := by
            have hpos := List.length_pos_iff.mpr hfront.ne_nil
            rw [List.length_append]
            omega
          refine ih middle.length hshorter (isWord_getLast?_of_append hlast) hcalls.of_append ?_
            (some inner) rfl
          rintro rfl
          rw [List.append_nil] at hlast
          exact inWordBehind_eq_false hlast
        · exact lastOf_hook?_of_free hfree _ _

/-- A text closes its calls if no parenthesis is opened behind the last one that it closes. -/
theorem ClosesCalls.of_last (h : '(' ∉ back) : ClosesCalls (front ++ ')' :: back) := by
  intro before gap after heq _
  have hopen : '(' :: after <:+ front ++ ')' :: back :=
    ⟨before ++ ("useTranslation".toList ++ gap), by rw [heq]; simp⟩
  have hclose : ')' :: back <:+ front ++ ')' :: back := List.suffix_append _ _
  rcases List.suffix_or_suffix_of_suffix hopen hclose with hsuffix | hsuffix
  · have hmem : '(' ∈ ')' :: back := hsuffix.subset List.mem_cons_self
    exact absurd (List.mem_of_ne_of_mem (by decide) hmem) h
  · have hmem : ')' ∈ '(' :: after := hsuffix.subset List.mem_cons_self
    exact List.mem_of_ne_of_mem (by decide) hmem

/-- A destructuring of `useTranslation` that lists names gives them as the candidates, each where it
first stands, whatever stands in front of it and behind it: in front of it the calls must be closed
and no word may go on into it, and no call of `useTranslation` may follow it. -/
theorem ambient_of_nearest {declaration : List Char} (h : Declares declaration names)
    (hlast : ∀ c ∈ front.getLast?, isWord c = false) (hcalls : ClosesCalls front)
    (hfree : ¬ "useTranslation".toList <:+: back) :
    (ambient? (String.ofList (front ++ (declaration ++ back)))).map Namespaces.toList =
      some (names.map String.ofList).eraseDups := by
  cases h with
  | @mk before list after _ _ hbefore hlist hne hafter hhook =>
    have hplain : ∀ name ∈ names, Plain name := fun name hname => by
      obtain ⟨quote, hfits⟩ := hlist.exists_fits hname
      exact hfits
    have hfound := lastOf_hook?_append hhook hfree hlast hcalls (fun _ => rfl) none
    have hclosed : ']' ∉ list :=
      hlist.not_mem (by decide) fun name hname => (hplain name hname).bracket
    have hstrings := hlist.strings_eq (fun name hname => (hplain name hname).unquoted)
      fun name hname => (hplain name (List.dropLast_subset names hname)).ne_nil
    have hcandidates := map_toList_candidates? hstrings
    rw [distinct?_of_ne_nil hne fun name hname => (hplain name hname).ne_nil] at hcandidates
    obtain ⟨namespaces, hsome, hnames⟩ := Option.map_eq_some_iff.mp hcandidates
    have harguments : ofArguments? (before ++ '[' :: (list ++ ']' :: after)) = candidates? list :=
      ofArguments?_list hbefore hclosed
    simp only [ambient?, String.toList_ofList, hfound, Option.bind_some, harguments, hsome]
    rw [← hnames]
    rfl

/-- A brace that stays open in front of a declaration is closed by the declaration, and a type
behind it does not count. -/
theorem ambient_behind_open_brace :
    (ambient? (String.ofList ("useTranslation('x'); let \x7b ".toList ++
      ("var \x7bt\x7d = useTranslation( ['a', \"b\", 'a'])".toList ++
        "; (t: TFunction<['z']>)".toList)))).map Namespaces.toList = some ["a", "b"] := by
  have ha : Plain ['a'] := ⟨by decide, by decide, by decide, by decide⟩
  have hb : Plain ['b'] := ⟨by decide, by decide, by decide, by decide⟩
  have hlist : Lists (fun _ => Plain) "'a', \"b\", 'a'".toList [['a'], ['b'], ['a']] :=
    @Lists.cons _ [] ['a'] _ '\'' _ (by decide) rfl ha
      (@Lists.cons _ [',', ' '] ['b'] _ '"' _ (by decide) rfl hb
        (@Lists.cons _ [',', ' '] ['a'] _ '\'' _ (by decide) rfl ha
          (@Lists.nil _ [] (by decide))))
  have hread : hook? "var \x7bt\x7d = useTranslation( ['a', \"b\", 'a'])".toList =
      some ([' '] ++ '[' :: ("'a', \"b\", 'a'".toList ++ ']' :: []), []) := by
    decide +kernel
  obtain ⟨front, hhook, hfront⟩ := hook?_eq_some_iff.mp hread
  rw [List.append_nil] at hfront
  have hdeclares : Declares "var \x7bt\x7d = useTranslation( ['a', \"b\", 'a'])".toList
      [['a'], ['b'], ['a']] := by
    rw [hfront]
    exact .mk (Blanks.nil.cons rfl) hlist (by decide) Blanks.nil hhook
  have hcalls : ClosesCalls "useTranslation('x'); let \x7b ".toList :=
    @ClosesCalls.of_last "useTranslation('x'".toList "; let \x7b ".toList (by decide +kernel)
  have hspace : "useTranslation('x'); let \x7b ".toList.getLast? = some ' ' := by decide +kernel
  have hlast : ∀ c ∈ "useTranslation('x'); let \x7b ".toList.getLast?, isWord c = false := by
    intro c hc
    rw [hspace] at hc
    cases hc
    decide +kernel
  have hfree : ¬ "useTranslation".toList <:+: "; (t: TFunction<['z']>)".toList := by
    decide +kernel
  have hkept : ([['a'], ['b'], ['a']].map String.ofList).eraseDups = ["a", "b"] := by
    decide +kernel
  rw [← hkept]
  exact ambient_of_nearest hdeclares hlast hcalls hfree

end KeyLens.Declaration
