import KeyLens.Proofs.Selector.Reading

/-!
# Text behind a selector

If any text may follow, an expression is read from a beginning of it that would be read strictly.
The text behind the beginning neither goes on with its last name nor starts another access, so there
is one such beginning up to blanks, and the longest. What starts an access and is none spoils the
expression, whatever may follow.
-/

namespace KeyLens.Selector

open KeyLens.Text

/-- A text that is an arrow function, and the expression that the function gives. -/
inductive Yields (parameter : List Char) : List Char → List Char → Prop where
  /-- The body is the expression. -/
  | plain {head before expression after : List Char} (hhead : Head parameter head)
    (hbefore : Blanks before) (hsolid : Solid expression) (hbrace : expression.head? ≠ some '\x7b')
    (hafter : Blanks after) :
    Yields parameter (head ++ (before ++ (expression ++ after))) expression
  /-- The body is a block that returns the expression. -/
  | block {head before inner between expression gap behind after : List Char}
    (hhead : Head parameter head) (hbefore : Blanks before) (hinner : Blanks inner)
    (hbetween : Blanks between) (hapart : between ≠ []) (hsolid : Solid expression)
    (hclosed : ';' ∉ expression) (hgap : Blanks gap) (hbehind : Blanks behind)
    (hafter : Blanks after) :
    Yields parameter (head ++ (before ++ ('\x7b' :: (inner ++ ("return".toList ++ (between ++
      (expression ++ (gap ++ ';' :: (behind ++ ['\x7d'])))))) ++ after))) expression

/-- The arrow function of a parameter with the given body. -/
def arrowTo (parameter body : List Char) : List Char :=
  parameter ++ " => ".toList ++ body

/-- A text that ends in the access to a property behind a dot. -/
def EndsInName (text : List Char) : Prop :=
  ∃ front name, Access ('.' :: name) name ∧ text = front ++ '.' :: name

/-- Where an expression may be cut: the text behind neither goes on with the name at the end of the
text before, nor starts another access. -/
structure Cut (front rest : List Char) : Prop where
  /-- No access stands behind blanks. -/
  access : ∀ c ∈ (skipBlank rest).head?, c ≠ '.' ∧ c ≠ '['
  /-- A name behind a dot has ended. -/
  name : EndsInName front → ∀ c ∈ rest.head?, isSegmentChar c = false

/-- A text that starts an access and spells none. -/
inductive Malformed : List Char → Prop where
  /-- No name stands behind the dot. -/
  | unnamed {rest : List Char} (h : ∀ c ∈ rest.head?, isSegmentChar c = false) :
    Malformed ('.' :: rest)
  /-- The name in brackets is not quoted. -/
  | unquoted {before rest : List Char} (hbefore : Blanks before)
    (h : ∀ c ∈ rest.head?, isBlank c = false ∧ isQuote c = false) :
    Malformed ('[' :: (before ++ rest))
  /-- The name between the quotes is empty. -/
  | empty {before rest : List Char} {quote : Char} (hbefore : Blanks before)
    (hquote : isQuote quote = true) : Malformed ('[' :: (before ++ quote :: quote :: rest))
  /-- No second quote ends the name. -/
  | openName {before rest : List Char} {quote : Char} (hbefore : Blanks before)
    (hquote : isQuote quote = true) (hfree : quote ∉ rest) :
    Malformed ('[' :: (before ++ quote :: rest))
  /-- No bracket closes the access behind the name. -/
  | openBracket {before name after rest : List Char} {quote : Char} (hbefore : Blanks before)
    (hquote : isQuote quote = true) (hfree : quote ∉ name) (hafter : Blanks after)
    (h : ∀ c ∈ rest.head?, isBlank c = false ∧ c ≠ ']') :
    Malformed ('[' :: (before ++ quote :: (name ++ quote :: (after ++ rest))))

/-! ### The expression of an arrow function -/

variable {parameter text expression front rest : List Char} {names : List (List Char)}

/-- The expression that an arrow function gives is the one that is read. -/
theorem yields_iff (hsolid : Solid expression) :
    Yields parameter text expression ↔
      ∃ body, arrow? text = some (parameter, body) ∧ bodyExpression? body = some expression := by
  constructor
  · intro h
    cases h with
    | plain hhead hbefore _ hbrace hafter =>
      refine ⟨expression, arrow?_eq_some_iff.mpr ⟨_, _, hhead, rfl, ?_⟩, ?_⟩
      · exact hsolid.trim_eq hbefore hafter
      · rw [bodyExpression?, if_neg hbrace]
    | @block head before inner between _ gap behind after hhead hbefore hinner hbetween hapart _
        hclosed hgap hbehind hafter =>
      have hreturned := returned?_block hsolid hclosed hinner hbetween hapart hgap hbehind
      have hblock : Solid ('\x7b' :: (inner ++ ("return".toList ++ (between ++
          (expression ++ (gap ++ ';' :: (behind ++ ['\x7d']))))))) :=
        ⟨⟨'\x7b', rfl, rfl⟩, '\x7d', by simp [List.getLast?_cons, List.getLast?_append], rfl⟩
      refine ⟨_, arrow?_eq_some_iff.mpr ⟨_, _, hhead, rfl, hblock.trim_eq hbefore hafter⟩, ?_⟩
      rw [bodyExpression?, List.head?_cons, if_pos rfl, hreturned]
  · rintro ⟨body, harrow, hbody⟩
    obtain ⟨head, tail, hhead, rfl, rfl⟩ := arrow?_eq_some_iff.mp harrow
    obtain ⟨before, after, hbefore, hafter, htail⟩ := exists_blanks_trim tail
    rw [htail]
    unfold bodyExpression? at hbody
    split at hbody
    · obtain ⟨inner, c, returned, behind, hinner, hc, hfree, hbehind, hblock, hexpression⟩ :=
        returned?_eq_some_iff.mp hbody
      obtain ⟨between, gap, hbetween, hgap, hreturned⟩ := exists_blanks_trim returned
      rw [hexpression] at hreturned
      have hclosed : ';' ∉ expression := by
        intro hmem
        apply hfree
        rw [hreturned]
        simp [hmem]
      have hyields := Yields.block hhead hbefore hinner (hbetween.cons hc)
        (List.cons_ne_nil c between) hsolid hclosed hgap hbehind hafter
      rw [hblock, hreturned]
      simpa using hyields
    · next hbrace =>
      rw [Option.some.injEq] at hbody
      rw [hbody] at hbrace ⊢
      exact .plain hhead hbefore hsolid hbrace hafter

/-- The expression that is read from an arrow function is solid, if there is any. -/
theorem solid_of_bodyExpression? {body : List Char} (harrow : arrow? text = some (parameter, body))
    (hbody : bodyExpression? body = some expression) (hne : expression ≠ []) :
    Solid expression := by
  obtain ⟨head, tail, -, -, rfl⟩ := arrow?_eq_some_iff.mp harrow
  unfold bodyExpression? at hbody
  split at hbody
  · obtain ⟨inner, c, returned, behind, -, -, -, -, -, rfl⟩ := returned?_eq_some_iff.mp hbody
    exact solid_trim hne
  · cases hbody
    exact solid_trim hne

/-- A block that gives an expression closes it with the first semicolon. -/
theorem Yields.closed (h : Yields parameter text expression)
    (hbrace : expression.head? = some '\x7b') : ';' ∉ expression := by
  cases h with
  | plain _ _ _ hplain => exact absurd hbrace hplain
  | block _ _ _ _ _ _ hclosed => exact hclosed

/-- An arrow function names a parameter and gives an expression that is solid. -/
theorem Yields.isParameter (h : Yields parameter text expression) :
    IsParameter parameter ∧ Solid expression := by
  cases h with
  | plain hhead _ hsolid => exact ⟨hhead.isParameter, hsolid⟩
  | block hhead _ _ _ _ hsolid => exact ⟨hhead.isParameter, hsolid⟩

/-- The names of a selector are read from its expression. -/
theorem Yields.segments? (h : Yields parameter text expression) (tolerance : Tolerance) :
    segments? tolerance text = path? tolerance parameter expression := by
  obtain ⟨body, harrow, hbody⟩ := (yields_iff h.isParameter.2).mp h
  simp only [Selector.segments?, harrow, Option.bind_some, hbody]

/-- The arrow function of a parameter gives its trimmed body. -/
theorem arrow?_arrowTo (hparameter : IsParameter parameter) (body : List Char) :
    arrow? (arrowTo parameter body) = some (parameter, trim body) := by
  have hspace : Blanks [' '] := Blanks.nil.cons rfl
  have hhead := Head.mk hparameter Blanks.nil (Or.inl rfl) Blanks.nil Blanks.nil (Or.inl rfl) hspace
  refine arrow?_eq_some_iff.mpr ⟨_, ' ' :: body, hhead, by simp [arrowTo], ?_⟩
  simp only [trim, skipBlank, List.dropWhile_cons_of_pos (show isBlank ' ' = true from rfl)]

/-! ### Where an expression is cut -/

/-- A chain that ends in a character of a name ends in the access to the name. -/
theorem Chain.endsInName {chain : List Char} (h : Chain chain names) {c : Char}
    (hlast : chain.getLast? = some c) (hc : isSegmentChar c = true) : EndsInName chain := by
  induction h with
  | nil => cases hlast
  | @cons blanks access others name names hblanks haccess hothers ih =>
    cases hmore : others.getLast? with
    | some d =>
      have hsame : d = c := by simpa [List.getLast?_append, hmore] using hlast
      obtain ⟨front, last, hname, rfl⟩ := ih (by rw [hmore, hsame])
      exact ⟨blanks ++ (access ++ front), last, hname, by simp⟩
    | none =>
      rw [List.getLast?_eq_none_iff] at hmore
      subst hmore
      cases haccess with
      | dot hname hchars => exact ⟨blanks, name, .dot hname hchars, by simp⟩
      | bracket =>
        have hbracket : ']' = c := by
          simpa [List.getLast?_append, List.getLast?_cons] using hlast
        rw [← hbracket] at hc
        exact absurd hc (by decide +kernel)

/-- A text that ends in a name ends in a character of the name. -/
theorem EndsInName.exists_last (h : EndsInName text) :
    ∃ c, text.getLast? = some c ∧ isSegmentChar c = true := by
  obtain ⟨front, name, haccess, rfl⟩ := h
  cases haccess with
  | dot hname hchars =>
    refine ⟨name.getLast hname, ?_, hchars _ (List.getLast_mem hname)⟩
    rw [List.getLast?_append, List.getLast?_cons_of_ne_nil hname,
      List.getLast?_eq_some_getLast hname, Option.some_or]

/-- Text that is tolerated stands behind a beginning from which the names are read strictly. -/
theorem path?_lenient_eq_some_iff :
    path? .lenient parameter text = some names ↔
      ∃ front rest, text = front ++ rest ∧ path? .strict parameter front = some names ∧
        Cut front rest := by
  constructor
  · intro h
    obtain ⟨behind, hword, h⟩ := Option.bind_eq_some_iff.mp h
    obtain ⟨⟨found, tail⟩, hmembers, h⟩ := Option.bind_eq_some_iff.mp h
    simp only [reduceCtorEq, false_and, or_false] at h
    split at h
    · cases h
    · next hfound =>
      cases h
      rw [dropWord?_eq_some_iff] at hword
      obtain ⟨chain, rest, rfl, hchain, hstops, -⟩ := chain_of_members? hmembers
      have hspelled : Expression parameter (parameter ++ chain) names :=
        ⟨hfound, chain, hchain, rfl⟩
      refine ⟨parameter ++ chain, rest, by rw [hword, List.append_assoc],
        path?_strict_eq_some_iff.mpr ⟨_, [], hspelled, Blanks.nil, by simp⟩, hstops.access, ?_⟩
      intro hends
      obtain ⟨c, hlast, hc⟩ := hends.exists_last
      obtain ⟨d, hend, -⟩ := hchain.exists_last hfound
      have hsame : d = c := by simpa [List.getLast?_append, hend] using hlast
      exact hstops.name c (by rw [← hsame]; exact hend) hc
  · rintro ⟨front, rest, rfl, hstrict, hcut⟩
    obtain ⟨spelled, after, ⟨hfound, chain, hchain, rfl⟩, hafter, rfl⟩ :=
      path?_strict_eq_some_iff.mp hstrict
    have hstops : Stops chain (after ++ rest) := by
      refine ⟨fun c hlast hc d hd => ?_, by rw [skipBlank_append hafter]; exact hcut.access⟩
      cases after with
      | cons blank after =>
        cases hd
        exact isSegmentChar_of_isBlank (hafter d List.mem_cons_self)
      | nil =>
        obtain ⟨before, name, haccess, rfl⟩ := hchain.endsInName hlast hc
        exact hcut.name ⟨parameter ++ before, name, haccess, by simp⟩ d hd
    have hword : dropWord? parameter (parameter ++ chain ++ after ++ rest) =
        some (chain ++ (after ++ rest)) := by
      rw [dropWord?_eq_some_iff]
      simp
    rw [path?, hword, Option.bind_some, hchain.members?_append hstops]
    simp [hfound]

/-- Blanks behind an expression make no difference when it is read strictly. -/
theorem path?_strict_append_blanks {after : List Char} (hparameter : IsParameter parameter)
    (hafter : Blanks after) :
    path? .strict parameter (text ++ after) = path? .strict parameter text := by
  refine Option.ext fun names => ?_
  rw [path?_strict_eq_some_iff, path?_strict_eq_some_iff]
  constructor
  · rintro ⟨spelled, behind, hspelled, hbehind, hsplit⟩
    rcases List.append_eq_append_iff.mp hsplit with ⟨more, rfl, hmore⟩ | ⟨less, rfl, hless⟩
    · -- The end of what is spelled is no blank, so it does not reach behind the text.
      have hnil : more = [] := by
        by_contra hne
        obtain ⟨c, hlast, hc⟩ := (hspelled.solid hparameter).last
        rw [List.getLast?_append, List.getLast?_eq_some_getLast hne, Option.some_or] at hlast
        have hmem : c ∈ after := by
          rw [hmore]
          rw [← Option.some.inj hlast]
          exact List.mem_append_left behind (List.getLast_mem hne)
        rw [hafter c hmem] at hc
        cases hc
      subst hnil
      rw [List.append_nil] at hspelled
      exact ⟨text, [], hspelled, Blanks.nil, by rw [List.append_nil]⟩
    · refine ⟨spelled, less, hspelled, fun c hc => hbehind c ?_, rfl⟩
      rw [hless]
      exact List.mem_append_left after hc
  · rintro ⟨spelled, behind, hspelled, hbehind, rfl⟩
    exact ⟨spelled, behind ++ after, hspelled, hbehind.append hafter, List.append_assoc _ _ _⟩

/-- Trimming a beginning of the expression of an arrow function takes blanks from its end only. -/
theorem Yields.exists_trim_append (h : Yields parameter text expression)
    (hsplit : expression = front ++ rest) : ∃ after, Blanks after ∧ front = trim front ++ after := by
  obtain ⟨before, after, hbefore, hafter, hfront⟩ := exists_blanks_trim front
  refine ⟨after, hafter, ?_⟩
  cases before with
  | nil => exact hfront
  | cons c more =>
    obtain ⟨d, hfirst, hd⟩ := h.isParameter.2.first
    rw [hsplit, hfront] at hfirst
    cases hfirst
    rw [hbefore c List.mem_cons_self] at hd
    cases hd

/-- What starts with a brace is not read as an expression. -/
theorem path?_strict_eq_none_of_brace (hparameter : IsParameter parameter)
    (hbrace : text.head? = some '\x7b') : path? .strict parameter text = none := by
  rw [Option.eq_none_iff_forall_ne_some]
  intro names hnames
  obtain ⟨spelled, behind, ⟨-, chain, -, rfl⟩, -, rfl⟩ := path?_strict_eq_some_iff.mp hnames
  obtain ⟨c, more, rfl, hstart, -⟩ := hparameter
  cases hbrace
  cases hstart

/-- Strictly, a beginning of the expression of an arrow function is read as the body of another
arrow function of the same parameter. -/
theorem Yields.segments?_arrowTo (h : Yields parameter text expression)
    (hsplit : expression = front ++ rest) :
    Selector.segments? .strict (arrowTo parameter front) = path? .strict parameter front := by
  obtain ⟨hparameter, -⟩ := h.isParameter
  obtain ⟨after, hafter, hfront⟩ := h.exists_trim_append hsplit
  have hread : path? .strict parameter front = path? .strict parameter (trim front) := by
    have happend := @path?_strict_append_blanks parameter (trim front) after hparameter hafter
    rwa [← hfront] at happend
  simp only [Selector.segments?, arrow?_arrowTo hparameter, Option.bind_some, hread]
  by_cases hbrace : (trim front).head? = some '\x7b'
  · -- The whole expression starts with the brace, so no semicolon closes a block in it.
    have hclosed : ';' ∉ expression := by
      apply h.closed
      rw [hsplit, hfront, List.head?_append, List.head?_append, hbrace]
      rfl
    have hnone : returned? (trim front) = none := by
      rw [Option.eq_none_iff_forall_ne_some]
      intro found hfound
      obtain ⟨inner, c, returned, behind, -, -, -, -, hblock, -⟩ := returned?_eq_some_iff.mp hfound
      apply hclosed
      rw [hsplit, hfront, hblock]
      simp
    rw [bodyExpression?, if_pos hbrace, hnone, Option.bind_none,
      path?_strict_eq_none_of_brace hparameter hbrace]
  · rw [bodyExpression?, if_neg hbrace, Option.bind_some]

/-! ### What spoils an expression -/

/-- What starts an access does not go on with a name, and neither do blanks in front of it. -/
theorem Malformed.head_stop {blanks bad : List Char} (hblanks : Blanks blanks) (h : Malformed bad) :
    ∀ c ∈ (blanks ++ bad).head?, isSegmentChar c = false := by
  cases blanks with
  | cons blank blanks =>
    rintro c ⟨⟩
    exact isSegmentChar_of_isBlank (hblanks blank List.mem_cons_self)
  | nil =>
    cases h with
    | unnamed => rintro c ⟨⟩; decide +kernel
    | unquoted => rintro c ⟨⟩; decide +kernel
    | empty => rintro c ⟨⟩; decide +kernel
    | openName => rintro c ⟨⟩; decide +kernel
    | openBracket => rintro c ⟨⟩; decide +kernel

/-- Nothing is skipped in front of a text that does not start with a blank. -/
theorem skipBlank_of_head {text : List Char} (h : ∀ c ∈ text.head?, isBlank c = false) :
    skipBlank text = text := by
  cases text with
  | nil => rfl
  | cons c rest => exact skipBlank_cons (h c rfl) rest

/-- What starts an access and spells none is not read. -/
theorem Malformed.members?_eq_none {blanks bad : List Char} (hblanks : Blanks blanks)
    (h : Malformed bad) : members? (blanks ++ bad) = none := by
  -- In brackets it is the name that is not read.
  have hbracket : ∀ {inner : List Char}, bracketSegment? inner = none →
      members? (blanks ++ '[' :: inner) = none := by
    intro inner hinner
    have hskip : skipBlank (blanks ++ '[' :: inner) = '[' :: inner := by
      rw [skipBlank_append hblanks, skipBlank_cons rfl]
    rw [members?_bracket hskip, hinner, Option.bind_none]
  cases h with
  | @unnamed rest hhead =>
    have hskip : skipBlank (blanks ++ '.' :: rest) = '.' :: rest := by
      rw [skipBlank_append hblanks, skipBlank_cons rfl]
    have hname : dotSegment? rest = none := by
      cases rest with
      | nil => rfl
      | cons c rest => simp [dotSegment?, hhead c rfl]
    rw [members?_dot hskip, hname, Option.bind_none]
  | @unquoted before rest hbefore hhead =>
    apply hbracket
    rw [bracketSegment?, skipBlank_append hbefore, skipBlank_of_head fun c hc => (hhead c hc).1]
    cases rest with
    | nil => rfl
    | cons c rest => simp [(hhead c rfl).2]
  | @empty before rest quote hbefore hquote =>
    apply hbracket
    rw [bracketSegment?, skipBlank_append hbefore, skipBlank_cons (isBlank_of_isQuote hquote)]
    simp
  | @openName before rest quote hbefore hquote hfree =>
    apply hbracket
    have hrest : rest.dropWhile (· != quote) = [] := by
      rw [List.dropWhile_eq_nil_iff]
      intro c hc
      rw [bne_iff_ne]
      rintro rfl
      exact hfree hc
    rw [bracketSegment?, skipBlank_append hbefore, skipBlank_cons (isBlank_of_isQuote hquote)]
    simp [hrest]
  | @openBracket before name after rest quote hbefore hquote hfree hafter hhead =>
    apply hbracket
    have hclose : afterBracket? (after ++ rest) = none := by
      rw [afterBracket?, skipBlank_append hafter, skipBlank_of_head fun c hc => (hhead c hc).1]
      cases rest with
      | nil => rfl
      | cons c rest =>
        have hne := (hhead c rfl).2
        simp [hne]
    rw [bracketSegment?, skipBlank_append hbefore, skipBlank_cons (isBlank_of_isQuote hquote)]
    simp [dropWhile_ne_append hfree, hclose]

/-- What starts an access and spells none spoils the whole expression behind accesses that are well
spelled, whatever may follow. -/
theorem path?_eq_none_of_malformed {chain blanks bad : List Char} (hchain : Chain chain names)
    (hblanks : Blanks blanks) (hbad : Malformed bad) (tolerance : Tolerance) :
    path? tolerance parameter (parameter ++ (chain ++ (blanks ++ bad))) = none := by
  have hword : dropWord? parameter (parameter ++ (chain ++ (blanks ++ bad))) =
      some (chain ++ (blanks ++ bad)) := dropWord?_eq_some_iff.mpr rfl
  rw [path?, hword, Option.bind_some,
    hchain.members?_append_eq fun _ _ _ => hbad.head_stop hblanks,
    hbad.members?_eq_none hblanks, Option.map_none, Option.bind_none]

/-! ### Reading selectors -/

/-- A key is read strictly from an arrow function exactly if its names are. -/
theorem read_ofList_eq_some_iff {tolerance : Tolerance} {key : Key} :
    read tolerance (String.ofList text) = some key ↔
      ∃ names, segments? tolerance text = some names ∧
        Key.ofSegments? (names.map String.ofList) = some key := by
  rw [read_eq_segments?, String.toList_ofList, Option.bind_eq_some_iff]

/-- What is read strictly is read the same way if any text may follow. If any text may follow, a
key is read exactly if the expression of the arrow function has a beginning from which the key is
read strictly and behind which it may be cut. What starts an access and spells none, behind accesses
to the parameter that are well spelled, makes that no key is read, whatever may follow. -/
theorem read_lenient_eq_some_iff (text : String) :
    (∀ key, read .strict text = some key → read .lenient text = some key) ∧
    (∀ key, read .lenient text = some key ↔
      ∃ parameter expression front rest, Yields parameter text.toList expression ∧
        expression = front ++ rest ∧
        read .strict (String.ofList (arrowTo parameter front)) = some key ∧ Cut front rest) ∧
    ∀ parameter expression chain names blanks bad, Yields parameter text.toList expression →
      expression = parameter ++ (chain ++ (blanks ++ bad)) → Chain chain names → Blanks blanks →
      Malformed bad → ∀ tolerance, read tolerance text = none := by
  refine ⟨fun key => read_lenient_of_strict, fun key => ⟨fun h => ?_, ?_⟩, ?_⟩
  · rw [read_eq_segments?] at h
    obtain ⟨names, hnames, hkey⟩ := Option.bind_eq_some_iff.mp h
    obtain ⟨⟨parameter, body⟩, harrow, hbody⟩ := Option.bind_eq_some_iff.mp hnames
    obtain ⟨expression, hexpression, hpath⟩ := Option.bind_eq_some_iff.mp hbody
    obtain ⟨front, rest, hsplit, hstrict, hcut⟩ := path?_lenient_eq_some_iff.mp hpath
    have hne : expression ≠ [] := by
      rintro rfl
      obtain ⟨head, tail, hhead, -, -⟩ := arrow?_eq_some_iff.mp harrow
      obtain ⟨c, part, rfl, -, -⟩ := hhead.isParameter
      cases hpath
    have hyields : Yields parameter text.toList expression :=
      (yields_iff (solid_of_bodyExpression? harrow hexpression hne)).mpr
        ⟨body, harrow, hexpression⟩
    refine ⟨parameter, expression, front, rest, hyields, hsplit, ?_, hcut⟩
    rw [← hyields.segments?_arrowTo hsplit] at hstrict
    exact read_ofList_eq_some_iff.mpr ⟨names, hstrict, hkey⟩
  · rintro ⟨parameter, expression, front, rest, hyields, hsplit, hread, hcut⟩
    obtain ⟨names, hnames, hkey⟩ := read_ofList_eq_some_iff.mp hread
    rw [hyields.segments?_arrowTo hsplit] at hnames
    have hpath : path? .lenient parameter expression = some names :=
      path?_lenient_eq_some_iff.mpr ⟨front, rest, hsplit, hnames, hcut⟩
    rw [read_eq_segments?, hyields.segments?, hpath, Option.bind_some, hkey]
  · intro parameter expression chain names blanks bad hyields hsplit hchain hblanks hbad tolerance
    rw [read_eq_segments?, hyields.segments?, hsplit,
      path?_eq_none_of_malformed hchain hblanks hbad tolerance, Option.bind_none]

/-- A selector whose last access is optional is read up to that access if any text may follow, and
one with two dots in a row is never read. -/
theorem read_of_optional_access :
    (read .strict "p => p.a" = some ⟨"a"⟩ ∧ read .lenient "p => p.a" = some ⟨"a"⟩) ∧
    (Yields ['p'] "p => p.a?.b".toList "p.a?.b".toList ∧ Cut "p.a".toList "?.b".toList ∧
      read .lenient "p => p.a?.b" = some ⟨"a"⟩) ∧
    Yields ['p'] "p => p.a..b".toList "p.a..b".toList ∧ Malformed "..b".toList ∧
      ∀ tolerance, read tolerance "p => p.a..b" = none := by
  have hspace : Blanks [' '] := Blanks.nil.cons rfl
  have hparameter : IsParameter ['p'] := ⟨'p', [], rfl, rfl, by simp⟩
  have hhead := Head.mk hparameter Blanks.nil (Or.inl rfl) Blanks.nil Blanks.nil (Or.inl rfl) hspace
  have hyields : ∀ expression : List Char, Solid expression → expression.head? ≠ some '\x7b' →
      Yields ['p'] ("p => ".toList ++ expression) expression := by
    intro expression hsolid hbrace
    have hplain := Yields.plain hhead hspace hsolid hbrace Blanks.nil
    simpa using hplain
  have hname : IsParameter ['a'] := ⟨'a', [], rfl, rfl, by simp⟩
  have hdot : Access ['.', 'a'] ['a'] := .dot (by decide) fun _ hc => hname.isSegmentChar hc
  have hchain : Chain ['.', 'a'] [['a']] := .cons Blanks.nil hdot .nil
  have hplain := hyields "p.a".toList ⟨⟨'p', rfl, rfl⟩, 'a', rfl, rfl⟩ (by decide)
  have hoptional := hyields "p.a?.b".toList ⟨⟨'p', rfl, rfl⟩, 'b', rfl, rfl⟩ (by decide)
  have hdouble := hyields "p.a..b".toList ⟨⟨'p', rfl, rfl⟩, 'b', rfl, rfl⟩ (by decide)
  have hstrict : read .strict "p => p.a" = some ⟨"a"⟩ := by
    have hpath : path? .strict ['p'] "p.a".toList = some [['a']] :=
      path?_strict_eq_some_iff.mpr
        ⟨_, [], ⟨by decide, _, hchain, rfl⟩, Blanks.nil, (List.append_nil _).symm⟩
    have hread := read_eq_segments? .strict "p => p.a"
    rw [show "p => p.a".toList = "p => ".toList ++ "p.a".toList by decide, hplain.segments?,
      hpath] at hread
    rw [hread]
    decide
  have hcut : Cut "p.a".toList "?.b".toList :=
    ⟨fun c hc => by cases hc; decide, fun _ c hc => by cases hc; decide +kernel⟩
  have hbad : Malformed "..b".toList := .unnamed fun c hc => by cases hc; decide +kernel
  refine ⟨⟨hstrict, (read_lenient_eq_some_iff _).1 _ hstrict⟩,
    ⟨hoptional, hcut, (read_lenient_eq_some_iff _).2.1 _ |>.mpr ?_⟩, hdouble, hbad,
    (read_lenient_eq_some_iff _).2.2 _ _ _ _ [] _ hdouble (by decide) hchain Blanks.nil hbad⟩
  exact ⟨_, _, "p.a".toList, "?.b".toList, hoptional, by decide, hstrict, hcut⟩

end KeyLens.Selector
