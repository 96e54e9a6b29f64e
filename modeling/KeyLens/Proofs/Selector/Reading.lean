import KeyLens.Proofs.Selector.Chains

/-!
# Reading selectors strictly

What is read strictly is exactly what the grammar of selectors spells. As reading gives one result,
no text spells two selectors.
-/

namespace KeyLens.Selector

open KeyLens.Text

/-- What is skipped around an optional character is that character and blanks. -/
theorem exists_skip_optional (c : Char) (text : List Char) :
    ∃ before middle after, Blanks before ∧ Optional c middle ∧ Blanks after ∧
      text = before ++ (middle ++ (after ++ skipBlank (dropOptional c (skipBlank text)))) := by
  obtain ⟨before, hbefore, htext⟩ := exists_blanks_skipBlank text
  obtain ⟨after, hafter, hrest⟩ := exists_blanks_skipBlank (dropOptional c (skipBlank text))
  have hmiddle : ∃ middle, Optional c middle ∧
      skipBlank text = middle ++ dropOptional c (skipBlank text) := by
    cases hskip : skipBlank text with
    | nil => exact ⟨[], Or.inl rfl, rfl⟩
    | cons d rest =>
      by_cases hd : d = c
      · exact ⟨[c], Or.inr rfl, by rw [hd, dropOptional, if_pos rfl]; rfl⟩
      · exact ⟨[], Or.inl rfl, by rw [dropOptional, if_neg hd]; rfl⟩
  obtain ⟨middle, hoptional, hmiddle⟩ := hmiddle
  refine ⟨before, middle, after, hbefore, hoptional, hafter, ?_⟩
  rw [← hrest, ← hmiddle]
  exact htext

/-- An optional character and blanks around it are skipped up to another character. -/
theorem skip_optional {c d : Char} {before middle after : List Char} (hbefore : Blanks before)
    (hmiddle : Optional c middle) (hafter : Blanks after) (hc : isBlank c = false)
    (hd : isBlank d = false) (hne : d ≠ c) (rest : List Char) :
    skipBlank (dropOptional c (skipBlank (before ++ (middle ++ (after ++ d :: rest))))) =
      d :: rest := by
  rw [skipBlank_append hbefore]
  rcases hmiddle with rfl | rfl
  · rw [List.nil_append, skipBlank_append hafter, skipBlank_cons hd, dropOptional, if_neg hne,
      skipBlank_cons hd]
  · rw [List.singleton_append, skipBlank_cons hc, dropOptional, if_pos rfl, skipBlank_append hafter,
      skipBlank_cons hd]

/-- An arrow is read up to its end. -/
theorem afterArrow?_eq_some_iff {text rest : List Char} :
    afterArrow? text = some rest ↔ text = '=' :: '>' :: rest := by
  unfold afterArrow?
  split
  · simp
  · next hne =>
    refine ⟨fun h => ?_, fun h => absurd h (hne rest)⟩
    cases h

/-- No character of a parameter stands between its name and the arrow. -/
theorem isParameterPart_behind {after closing behind : List Char} (hafter : Blanks after)
    (hclosing : Optional ')' closing) (hbehind : Blanks behind) (rest : List Char) :
    ∀ c ∈ (after ++ (closing ++ (behind ++ '=' :: rest))).head?, isParameterPart c = false := by
  cases after with
  | cons c after =>
    rintro d ⟨⟩
    exact isParameterPart_of_isBlank (hafter c List.mem_cons_self)
  | nil =>
    rcases hclosing with rfl | rfl
    · cases behind with
      | cons c behind =>
        rintro d ⟨⟩
        exact isParameterPart_of_isBlank (hbehind c List.mem_cons_self)
      | nil => rintro d ⟨⟩; rfl
    · rintro d ⟨⟩; rfl

/-- An arrow function is read as its parameter and what stands between blanks behind the arrow. -/
theorem arrow?_eq_some_iff {text parameter body : List Char} :
    arrow? text = some (parameter, body) ↔
      ∃ head rest, Head parameter head ∧ text = head ++ rest ∧ trim rest = body := by
  unfold arrow?
  constructor
  · intro h
    split at h
    · cases h
    · next c rest hskip =>
      split at h
      · next hstart =>
        obtain ⟨tail, harrow, hpair⟩ := Option.map_eq_some_iff.mp h
        cases hpair
        rw [afterArrow?_eq_some_iff] at harrow
        obtain ⟨leading, opening, before, hleading, hopening, hbefore, htext⟩ :=
          exists_skip_optional '(' text
        obtain ⟨after, closing, behind, hafter, hclosing, hbehind, hrest⟩ :=
          exists_skip_optional ')' (rest.dropWhile isParameterPart)
        have hparameter : IsParameter (c :: rest.takeWhile isParameterPart) :=
          ⟨c, _, rfl, hstart, fun _ hd => List.mem_takeWhile_imp hd⟩
        refine ⟨_, tail, .mk hparameter hleading hopening hbefore hafter hclosing hbehind, ?_, rfl⟩
        have hsplit : rest = rest.takeWhile isParameterPart ++
            (after ++ (closing ++ (behind ++ '=' :: '>' :: tail))) := by
          rw [← harrow, ← hrest, List.takeWhile_append_dropWhile]
        rw [hskip] at htext
        simp only [List.append_assoc, List.cons_append, List.nil_append]
        rw [← hsplit]
        exact htext
      · cases h
  · rintro ⟨_, rest, ⟨⟨c, part, rfl, hstart, hpart⟩, hleading, hopening, hbefore, hafter, hclosing,
      hbehind⟩, rfl, rfl⟩
    have hblank : isBlank c = false := isBlank_of_isSegmentChar
      (isSegmentChar_of_isParameterPart (isParameterPart_of_isParameterStart hstart))
    have hne : c ≠ '(' := by
      rintro rfl
      cases hstart
    have hstop := isParameterPart_behind hafter hclosing hbehind ('>' :: rest)
    simp only [List.append_assoc, List.cons_append, List.nil_append]
    rw [skip_optional hleading hopening hbefore rfl hblank hne]
    simp only [hstart, if_true]
    rw [dropWhile_append_stop hpart hstop, takeWhile_append_stop hpart hstop,
      skip_optional hafter hclosing hbehind rfl rfl (by decide)]
    rfl

/-- A block is read as what stands between the gap behind `return` and the first semicolon. -/
theorem returned?_eq_some_iff {body expression : List Char} :
    returned? body = some expression ↔
      ∃ before c inner behind, Blanks before ∧ isBlank c = true ∧ ';' ∉ inner ∧ Blanks behind ∧
        body = '\x7b' :: (before ++
          ("return".toList ++ c :: (inner ++ ';' :: (behind ++ ['\x7d'])))) ∧
        trim inner = expression := by
  constructor
  · intro h
    unfold returned? at h
    split at h
    · next block =>
      obtain ⟨rest, hword, h⟩ := Option.bind_eq_some_iff.mp h
      obtain ⟨before, hbefore, hblock⟩ := exists_blanks_skipBlank block
      rw [dropWord?_eq_some_iff] at hword
      split at h
      · cases h
      · next c text =>
        split at h
        · next hclosed =>
          cases h
          rw [Bool.and_eq_true, beq_iff_eq, skipBlank_eq_cons_iff] at hclosed
          obtain ⟨hc, -, behind, hbehind, hdrop⟩ := hclosed
          have hsemicolon : text.dropWhile (· != ';') = ';' :: (behind ++ ['\x7d']) := by
            cases hrest : text.dropWhile (· != ';') with
            | nil => rw [hrest] at hdrop; simp at hdrop
            | cons d tail =>
              rw [hrest, List.drop_one, List.tail_cons] at hdrop
              rw [hdrop, eq_of_dropWhile_ne hrest]
          refine ⟨before, c, text.takeWhile (· != ';'), behind, hbefore, hc,
            not_mem_takeWhile_ne ';' text, hbehind, ?_, rfl⟩
          rw [← hsemicolon, List.takeWhile_append_dropWhile, ← hword, ← hblock]
        · cases h
    · cases h
  · rintro ⟨before, c, inner, behind, hbefore, hc, hfree, hbehind, rfl, rfl⟩
    have hword : dropWord? "return".toList
        (skipBlank (before ++ ("return".toList ++ c :: (inner ++ ';' :: (behind ++ ['\x7d']))))) =
          some (c :: (inner ++ ';' :: (behind ++ ['\x7d']))) := by
      rw [dropWord?_eq_some_iff, skipBlank_append hbefore]
      exact skipBlank_cons rfl _
    have hclosed : skipBlank (behind ++ ['\x7d']) = ['\x7d'] := by
      rw [skipBlank_append hbehind, skipBlank_cons rfl]
    simp only [returned?, hword, Option.bind_some, takeWhile_ne_append hfree,
      dropWhile_ne_append hfree, List.drop_one, List.tail_cons, hclosed, hc, beq_self_eq_true,
      Bool.and_self, if_true]

/-- What a body stands for is read strictly from a body and blanks behind it. -/
theorem body_of_path? {parameter text expression : List Char} {names : List (List Char)}
    (hparameter : IsParameter parameter) (hexpression : bodyExpression? text = some expression)
    (hpath : path? .strict parameter expression = some names) :
    ∃ body after, Body parameter body names ∧ Blanks after ∧ text = body ++ after := by
  obtain ⟨spelled, after, hspelled, hafter, rfl⟩ := path?_strict_eq_some_iff.mp hpath
  unfold bodyExpression? at hexpression
  split at hexpression
  · obtain ⟨before, c, inner, behind, hbefore, hc, hfree, hbehind, rfl, htrim⟩ :=
      returned?_eq_some_iff.mp hexpression
    obtain ⟨between, tail, hbetween, htail, hinner⟩ := exists_blanks_trim inner
    rw [htrim] at hinner
    have hclosed : ';' ∉ spelled := by
      intro hmem
      apply hfree
      rw [hinner]
      simp [hmem]
    refine ⟨_, [], .block hspelled hclosed hbefore (hbetween.cons hc) (List.cons_ne_nil c between)
      (hafter.append htail) hbehind, Blanks.nil, ?_⟩
    simp [hinner]
  · next hbrace =>
    cases hexpression
    refine ⟨spelled, after, .plain hspelled ?_, hafter, rfl⟩
    obtain ⟨c, hfirst, -⟩ := (hspelled.solid hparameter).first
    simpa [List.head?_append, hfirst] using hbrace

/-- A block that returns an expression is read as the expression. -/
theorem returned?_block {before between expression after behind : List Char}
    (hsolid : Solid expression) (hclosed : ';' ∉ expression) (hbefore : Blanks before)
    (hbetween : Blanks between) (hgap : between ≠ []) (hafter : Blanks after)
    (hbehind : Blanks behind) :
    returned? ('\x7b' :: (before ++ ("return".toList ++
      (between ++ (expression ++ (after ++ ';' :: (behind ++ ['\x7d']))))))) =
        some expression := by
  obtain ⟨c, gap, rfl⟩ := List.exists_cons_of_ne_nil hgap
  have hsemicolon : ∀ {blanks : List Char}, Blanks blanks → ';' ∉ blanks := by
    intro blanks hblanks hmem
    cases hblanks ';' hmem
  have hgap : Blanks gap := fun d hd => hbetween d (List.mem_cons_of_mem c hd)
  refine returned?_eq_some_iff.mpr ⟨before, c, gap ++ (expression ++ after), behind, hbefore,
    hbetween c List.mem_cons_self, ?_, hbehind, by simp, hsolid.trim_eq hgap hafter⟩
  simp [hsemicolon hgap, hsemicolon hafter, hclosed]

/-- The names that a body spells are read strictly from it. -/
theorem Body.path? {parameter text : List Char} {names : List (List Char)}
    (h : Body parameter text names) (hparameter : IsParameter parameter) :
    (bodyExpression? text).bind (path? .strict parameter) = some names := by
  cases h with
  | plain htext hbrace =>
    rw [bodyExpression?, if_neg hbrace, Option.bind_some, path?_strict_eq_some_iff]
    exact ⟨text, [], htext, Blanks.nil, (List.append_nil text).symm⟩
  | @block before between expression after behind _ hspelled hclosed hbefore hbetween hgap hafter
      hbehind =>
    rw [bodyExpression?, List.head?_cons, if_pos rfl, returned?_block (hspelled.solid hparameter)
      hclosed hbefore hbetween hgap hafter hbehind, Option.bind_some, path?_strict_eq_some_iff]
    exact ⟨expression, [], hspelled, Blanks.nil, (List.append_nil expression).symm⟩

/-- The names that a text spells, if it is a selector. -/
def segments? (tolerance : Tolerance) (text : List Char) : Option (List (List Char)) :=
  (arrow? text).bind fun (parameter, body) =>
    (bodyExpression? body).bind (path? tolerance parameter)

/-- A key is read from the names that a text spells. -/
theorem read_eq_segments? (tolerance : Tolerance) (text : String) :
    read tolerance text = (segments? tolerance text.toList).bind fun segments =>
      Key.ofSegments? (segments.map String.ofList) := by
  simp only [read, segments?, Option.bind_assoc]

/-- A key that is read strictly is read the same way if any text may follow. -/
theorem read_lenient_of_strict {text : String} {key : Key} (h : read .strict text = some key) :
    read .lenient text = some key := by
  obtain ⟨⟨parameter, body⟩, harrow, h⟩ := Option.bind_eq_some_iff.mp h
  obtain ⟨expression, hexpression, h⟩ := Option.bind_eq_some_iff.mp h
  obtain ⟨segments, hpath, hkey⟩ := Option.bind_eq_some_iff.mp h
  simp only [read, harrow, hexpression, path?_lenient_of_strict hpath, Option.bind_some, hkey]

/-- Strictly read are exactly the names that a text spells. -/
theorem segments?_strict_eq_some_iff {text : List Char} {names : List (List Char)} :
    segments? .strict text = some names ↔ Spells text names := by
  constructor
  · intro h
    obtain ⟨⟨parameter, body⟩, harrow, h⟩ := Option.bind_eq_some_iff.mp h
    obtain ⟨expression, hexpression, hpath⟩ := Option.bind_eq_some_iff.mp h
    obtain ⟨head, rest, hhead, rfl, rfl⟩ := arrow?_eq_some_iff.mp harrow
    obtain ⟨body, after, hbody, hafter, htrim⟩ :=
      body_of_path? hhead.isParameter hexpression hpath
    obtain ⟨leading, behind, hleading, hbehind, hrest⟩ := exists_blanks_trim rest
    rw [hrest, htrim, List.append_assoc]
    exact .mk hhead hleading hbody (hafter.append hbehind)
  · rintro ⟨hhead, hbefore, hbody, hafter⟩
    have harrow := arrow?_eq_some_iff.mpr
      ⟨_, _, hhead, rfl, (hbody.solid hhead.isParameter).trim_eq hbefore hafter⟩
    rw [segments?, harrow, Option.bind_some]
    exact hbody.path? hhead.isParameter

/-- No text spells two rows of names. -/
theorem Spells.unique {text : List Char} {first second : List (List Char)}
    (hfirst : Spells text first) (hsecond : Spells text second) : first = second := by
  rw [← segments?_strict_eq_some_iff] at hfirst hsecond
  exact Option.some.inj (hfirst.symm.trans hsecond)

/-- A selector reads at least one name. -/
theorem Spells.ne_nil {text : List Char} {names : List (List Char)} (h : Spells text names) :
    names ≠ [] := by
  cases h with
  | mk _ _ hbody _ =>
    cases hbody with
    | plain htext => exact htext.1
    | block htext => exact htext.1

/-- The key of names that a text spells is the names with dots between them. -/
theorem ofSegments?_map_ofList {names : List (List Char)} (h : names ≠ []) :
    Key.ofSegments? (names.map String.ofList) =
      some ⟨String.ofList (List.intercalate ['.'] names)⟩ := by
  have hnames : (names.map String.ofList).map String.toList = names := by
    simp [List.map_map, Function.comp_def]
  rw [Key.ofSegments?, if_neg (by simpa using h), hnames]

/-- A text is read strictly as a key exactly if it spells a selector, and the key is the names that
the selector reads, with dots between them. No text spells two rows of names. -/
theorem read_strict_eq_some_iff (text : String) :
    (∀ key, read .strict text = some key ↔
      ∃ names, Spells text.toList names ∧ key = ⟨String.ofList (List.intercalate ['.'] names)⟩) ∧
    ∀ first second, Spells text.toList first → Spells text.toList second → first = second := by
  refine ⟨fun key => ?_, fun first second hfirst hsecond => hfirst.unique hsecond⟩
  rw [read_eq_segments?, Option.bind_eq_some_iff]
  constructor
  · rintro ⟨names, hnames, hkey⟩
    rw [segments?_strict_eq_some_iff] at hnames
    rw [ofSegments?_map_ofList hnames.ne_nil] at hkey
    exact ⟨names, hnames, (Option.some.inj hkey).symm⟩
  · rintro ⟨names, hnames, rfl⟩
    exact ⟨names, segments?_strict_eq_some_iff.mpr hnames, ofSegments?_map_ofList hnames.ne_nil⟩

/-- A selector with parentheses, a block, a dot and a bracket spells its two names and no others. -/
theorem read_of_returned_names :
    let text := "(p) => \x7b return p.a['b c']; \x7d"
    let names := [['a'], ['b', ' ', 'c']]
    Spells text.toList names ∧ read .strict text = some ⟨"a.b c"⟩ ∧
      ∀ others, Spells text.toList others → others = names := by
  intro text names
  have hspace : Blanks [' '] := Blanks.nil.cons rfl
  have hname : IsParameter ['a'] := ⟨'a', [], rfl, rfl, by simp⟩
  have hdot : Access ['.', 'a'] ['a'] := .dot (by decide) fun _ hc => hname.isSegmentChar hc
  have hbracket := @Access.bracket [] ['b', ' ', 'c'] [] '\'' Blanks.nil rfl (by decide) (by decide)
    Blanks.nil
  have hchain := Chain.cons Blanks.nil hdot (.cons Blanks.nil hbracket .nil)
  have hexpression : Expression ['p'] (['p'] ++ _) names := ⟨by decide, _, hchain, rfl⟩
  have hparameter : IsParameter ['p'] := ⟨'p', [], rfl, rfl, by simp⟩
  have hhead := Head.mk hparameter Blanks.nil (Or.inr rfl) Blanks.nil Blanks.nil (Or.inr rfl) hspace
  have hbody := Body.block hexpression (by decide) hspace hspace (by decide) Blanks.nil hspace
  have hspells : Spells text.toList names := by
    have happend := Spells.mk hhead hspace hbody Blanks.nil
    exact Eq.mpr (congrArg (Spells · names) (by decide +kernel)) happend
  have hread := read_strict_eq_some_iff text
  exact ⟨hspells, (hread.1 _).mpr ⟨names, hspells, by decide⟩,
    fun others hothers => hread.2 others names hothers hspells⟩

end KeyLens.Selector
