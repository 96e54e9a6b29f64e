import KeyLens.Proofs.Files.Joining

/-!
# Steps of joined paths

What is followed from a path comes behind the steps of the path, however the path is written: it
may be absolute or relative, end in a slash or not, and be empty.
-/

namespace KeyLens

namespace Path

/-- The head of a path is no step of its text. -/
theorem components_eq (path : Path) :
    path.components =
      (headComponent? (splitHead path.text.toList).1).toList ++ stepsOf path.text.toList := by
  have hmap : ∀ pieces : List (List Char),
      pieces.filterMap Component.ofPiece? = (pieces.filter isStep).filterMap Component.ofPiece? := by
    intro pieces
    rw [List.filterMap_filter]
    congr 1
    funext piece
    cases hpiece : Component.ofPiece? piece <;> simp [isStep, hpiece]
  rw [components, stepsOf, hmap path.pieces, ← filter_isStep_split, ← hmap]

/-- The head of a text that goes on behind a slash does not depend on how it goes on. -/
theorem splitHead_append_fst {front : List Char} (hfront : front ≠ []) (rest : List Char) :
    (splitHead (front ++ '/' :: rest)).1 = (splitHead front).1 := by
  obtain ⟨c, front, rfl⟩ := List.exists_cons_of_ne_nil hfront
  by_cases hslash : c = '/'
  · subst hslash
    simp [splitHead]
  · by_cases hdot : c = '.'
    · subst hdot
      cases front with
      | nil => rfl
      | cons d front => by_cases hd : d = '/' <;> simp [splitHead, hd]
    · simp [splitHead, hslash, hdot]

/-- A slash at the end of a text adds no step. -/
theorem stepsOf_slash (text : List Char) : stepsOf (text ++ ['/']) = stepsOf text := by
  rw [stepsOf_append]
  exact List.append_nil _

/-- A relative text followed from a path that is not empty leads along the path and then along the
text. -/
theorem components_join_of_ne_nil {base : Path} (hbase : base.text.toList ≠ []) {text : String}
    (htext : text.toList.head? ≠ some '/') :
    (base.join text).components = base.components ++ stepsOf text.toList := by
  rw [components_eq, components_eq base]
  simp only [join, if_neg htext]
  split
  · next hends =>
    obtain ⟨front, hfront⟩ := List.getLast?_eq_some_iff.mp (hends.resolve_left hbase)
    have hhead : (splitHead (front ++ '/' :: text.toList)).1 = (splitHead (front ++ ['/'])).1 := by
      by_cases hnil : front = []
      · rw [hnil]
        rfl
      · rw [splitHead_append_fst hnil, splitHead_append_fst hnil]
    rw [String.toList_append, hfront, List.append_assoc, List.singleton_append, hhead,
      stepsOf_append, stepsOf_slash, List.append_assoc]
  · have hjoined : (base.text ++ "/" ++ text).toList = base.text.toList ++ '/' :: text.toList := by
      simp [String.toList_append]
    rw [hjoined, splitHead_append_fst hbase, stepsOf_append, List.append_assoc]

/-- A relative text followed from a path starts where the path does. -/
theorem isAbsolute_join_of_relative (base : Path) {text : String}
    (htext : text.toList.head? ≠ some '/') : (base.join text).isAbsolute = base.isAbsolute := by
  simp only [join, if_neg htext]
  by_cases hbase : base.text.toList = []
  · have hrelative : (text.toList.head? == some '/') = false := beq_eq_false_iff_ne.mpr htext
    simp [isAbsolute, String.toList_append, hbase, hrelative]
  · obtain ⟨c, rest, hchars⟩ := List.exists_cons_of_ne_nil hbase
    split <;> simp [isAbsolute, String.toList_append, hchars]

/-- What is followed from a path that is not empty is not empty. -/
theorem join_ne_nil {base : Path} (hbase : base.text.toList ≠ []) {text : String}
    (htext : text.toList.head? ≠ some '/') : (base.join text).text.toList ≠ [] := by
  simp only [join, if_neg htext]
  split <;> simp [String.toList_append, hbase]

/-- The pieces of a text that is followed from a path are pieces of the path or of the text. -/
theorem mem_split_join {base : Path} {text : String} {piece : List Char}
    (h : piece ∈ List.splitOn '/' (base.join text).text.toList) :
    piece ∈ List.splitOn '/' base.text.toList ∨ piece ∈ List.splitOn '/' text.toList := by
  unfold join at h
  simp only at h
  split at h
  · exact Or.inr h
  · split at h
    · next hends =>
      rcases hends with hnil | hlast
      · rw [String.toList_append, hnil] at h
        exact Or.inr h
      · obtain ⟨front, hfront⟩ := List.getLast?_eq_some_iff.mp hlast
        rw [String.toList_append, hfront, List.append_assoc, List.singleton_append,
          List.splitOn_append_cons_self, List.mem_append] at h
        refine h.imp_left fun hpiece => ?_
        rw [hfront, List.splitOn_append_cons_self]
        exact List.mem_append_left _ hpiece
    · have hjoined : (base.text ++ "/" ++ text).toList =
          base.text.toList ++ '/' :: text.toList := by
        simp [String.toList_append]
      rwa [hjoined, List.splitOn_append_cons_self, List.mem_append] at h

/-! ### Names -/

/-- A piece that is neither a dot nor two of them is one step. -/
theorem stepsOf_name {name : String} (hslash : '/' ∉ name.toList)
    (hstep : ¬(name.toList = [] ∨ name.toList = ['.'])) (hparent : name.toList ≠ ['.', '.']) :
    stepsOf name.toList = [.name name] := by
  have hpiece : Component.ofPiece? name.toList = some (.name name) := by
    rw [Component.ofPiece?, if_neg hstep, if_neg hparent, String.ofList_toList]
  rw [stepsOf, List.splitOn_eq_singleton hslash, List.filterMap_cons_some hpiece,
    List.filterMap_nil]

/-- A piece that is neither a dot nor two of them is a path of one step. -/
theorem components_name {name : String} (hslash : '/' ∉ name.toList)
    (hstep : ¬(name.toList = [] ∨ name.toList = ['.'])) (hparent : name.toList ≠ ['.', '.']) :
    (Path.mk name).components = [.name name] := by
  have hhead : headComponent? (splitHead name.toList).1 = none := by
    unfold splitHead
    split
    · next rest htext => exact absurd (by rw [htext]; exact List.mem_cons_self) hslash
    · next htext => exact absurd (Or.inr htext) hstep
    · next rest htext =>
      exact absurd (by rw [htext]; exact List.mem_cons_of_mem _ List.mem_cons_self) hslash
    · rfl
  rw [components_eq, hhead, stepsOf_name hslash hstep hparent]
  rfl

/-- A name that is followed from a path is a step behind those of the path. -/
theorem components_join_name {name : String} (h : FileTree.IsName name) (path : Path) :
    (path.join name).components = path.components ++ [.name name] := by
  have hhead : name.toList.head? ≠ some '/' := fun hhead => h.no_slash (List.mem_of_head? hhead)
  by_cases hpath : path.text.toList = []
  · have htext : path.text = "" := String.toList_eq_nil_iff.mp hpath
    have hjoin : path.join name = ⟨name⟩ := by
      rw [join, if_neg hhead, if_pos (Or.inl hpath), htext]
      simp
    have hcomponents : path.components = [] := by
      rw [components_eq, hpath]
      rfl
    rw [hjoin, components_name h.no_slash h.not_skipped h.not_parent, hcomponents,
      List.nil_append]
  · rw [components_join_of_ne_nil hpath hhead, stepsOf_name h.no_slash h.not_skipped h.not_parent]

/-- Names that are followed from a path are steps behind those of the path. -/
theorem components_foldl_join {names : List String} (h : ∀ name ∈ names, FileTree.IsName name)
    (path : Path) :
    (names.foldl Path.join path).components = path.components ++ names.map .name := by
  induction names generalizing path with
  | nil => exact (List.append_nil _).symm
  | cons name rest ih =>
    rw [List.foldl_cons, ih (fun other hother => h other (List.mem_cons_of_mem name hother)),
      components_join_name (h name List.mem_cons_self), List.append_assoc]
    rfl

/-! ### Paths without dots -/

/-- A path without steps that are dots: it leads from where it starts along names alone. -/
structure Dotless (path : Path) : Prop where
  /-- There is no leading dot. -/
  no_current : .current ∉ path.components
  /-- No step leads upwards. -/
  no_parent : .parent ∉ path.components

instance (path : Path) : Decidable (Dotless path) :=
  decidable_of_iff (.current ∉ path.components ∧ .parent ∉ path.components)
    ⟨fun ⟨hcurrent, hparent⟩ => ⟨hcurrent, hparent⟩, fun h => ⟨h.no_current, h.no_parent⟩⟩

/-- A piece between slashes is no leading dot. -/
theorem current_not_mem_stepsOf (text : List Char) : .current ∉ stepsOf text := by
  intro hmem
  obtain ⟨piece, -, hpiece⟩ := List.mem_filterMap.mp hmem
  exact Component.headComponent?_ne_ofPiece? (show headComponent? ['.'] = _ from rfl) hpiece

/-- A text leads upwards if one of its pieces is two dots. -/
theorem parent_mem_stepsOf_iff {text : List Char} :
    .parent ∈ stepsOf text ↔ ['.', '.'] ∈ List.splitOn '/' text := by
  rw [stepsOf, List.mem_filterMap]
  constructor
  · rintro ⟨piece, hmem, hpiece⟩
    rwa [← Component.spelling_of_ofPiece? hpiece] at hmem
  · exact fun hmem => ⟨_, hmem, rfl⟩

/-- No piece of a path without dots is two dots. -/
theorem Dotless.parent_not_mem_split {path : Path} (h : Dotless path) :
    ['.', '.'] ∉ List.splitOn '/' path.text.toList := by
  rw [← parent_mem_stepsOf_iff]
  intro hmem
  refine h.no_parent ?_
  rw [components_eq]
  exact List.mem_append_right _ hmem

/-- A text without dots that is followed from a path without dots. -/
theorem Dotless.join_of_ne_nil {base : Path} (h : Dotless base) (hbase : base.text.toList ≠ [])
    {text : String} (htext : text.toList.head? ≠ some '/')
    (hparent : ['.', '.'] ∉ List.splitOn '/' text.toList) : Dotless (base.join text) where
  no_current := by
    rw [components_join_of_ne_nil hbase htext, List.mem_append, not_or]
    exact ⟨h.no_current, current_not_mem_stepsOf _⟩
  no_parent := by
    rw [components_join_of_ne_nil hbase htext, List.mem_append, not_or]
    exact ⟨h.no_parent, mt parent_mem_stepsOf_iff.mp hparent⟩

/-- A path without dots that is followed from another one. -/
theorem Dotless.join {base : Path} (h : Dotless base) {text : String} (htext : Dotless ⟨text⟩) :
    Dotless (base.join text) := by
  by_cases hslash : text.toList.head? = some '/'
  · rwa [join_of_absolute hslash]
  · by_cases hbase : base.text.toList = []
    · have hempty : base.text = "" := String.toList_eq_nil_iff.mp hbase
      rw [Path.join, if_neg hslash, if_pos (Or.inl hbase), hempty]
      simpa using htext
    · exact h.join_of_ne_nil hbase hslash htext.parent_not_mem_split

/-- A path without dots leads from where it starts along names. -/
theorem Dotless.exists_names {path : Path} (h : Dotless path) :
    ∃ names : List String, stepsOf path.text.toList = names.map .name ∧
      path.components = (if path.isAbsolute then [.root] else []) ++ names.map .name := by
  have hnames : ∀ pieces : List (List Char), ['.', '.'] ∉ pieces →
      ∃ names : List String, pieces.filterMap Component.ofPiece? = names.map .name := by
    intro pieces hparent
    induction pieces with
    | nil => exact ⟨[], rfl⟩
    | cons piece rest ih =>
      obtain ⟨hpiece, hrest⟩ := not_or.mp (mt List.mem_cons.mpr hparent)
      obtain ⟨names, hnames⟩ := ih hrest
      by_cases hstep : piece = [] ∨ piece = ['.']
      · exact ⟨names, by rw [List.filterMap_cons, Component.ofPiece?, if_pos hstep]; exact hnames⟩
      · refine ⟨String.ofList piece :: names, ?_⟩
        rw [List.filterMap_cons, Component.ofPiece?, if_neg hstep, if_neg (Ne.symm hpiece), hnames]
        rfl
  obtain ⟨names, hsteps⟩ := hnames _ h.parent_not_mem_split
  refine ⟨names, hsteps, ?_⟩
  have hcurrent := h.no_current
  rw [components_eq] at hcurrent ⊢
  rw [show stepsOf path.text.toList = names.map .name from hsteps] at hcurrent ⊢
  congr 1
  by_cases habsolute : path.isAbsolute = true
  · rw [if_pos habsolute, (isAbsolute_iff path).mp habsolute]
    rfl
  · rw [if_neg habsolute]
    rw [isAbsolute_iff] at habsolute
    cases hhead : headComponent? (splitHead path.text.toList).1 with
    | none => rfl
    | some step =>
      exfalso
      rw [hhead] at hcurrent habsolute
      unfold headComponent? at hhead
      split at hhead
      · exact habsolute hhead.symm
      · exact hcurrent (by rw [← hhead]; exact List.mem_cons_self)
      · cases hhead

end Path

namespace FileTree

variable {place names rest : List String} {name : String}

/-! ### Spellings of names -/

/-- The pieces that are names stand for them. -/
theorem filterMap_ofPiece? (h : ∀ name ∈ names, IsName name) :
    (names.map String.toList).filterMap Component.ofPiece? = names.map .name := by
  induction names with
  | nil => rfl
  | cons name rest ih =>
    obtain ⟨hname, hrest⟩ := List.forall_mem_cons.mp h
    have hpiece : Component.ofPiece? name.toList = some (.name name) := by
      rw [Component.ofPiece?, if_neg hname.not_skipped, if_neg hname.not_parent,
        String.ofList_toList]
    rw [List.map_cons, List.filterMap_cons_some hpiece, ih hrest, List.map_cons]

/-- The steps of the spelling of some names are the names, from the root. -/
theorem components_pathOf (h : ∀ name ∈ names, IsName name) :
    (pathOf names).components = .root :: names.map .name := by
  rw [Path.components_of_isAbsolute (isAbsolute_pathOf names), Path.stepsOf]
  by_cases hnames : names = []
  · subst hnames
    rfl
  · rw [split_pathOf hnames h, List.filterMap_cons, filterMap_ofPiece? h]
    rfl

/-- Spellings of names with the same steps are the same. -/
theorem pathOf_eq_of_components (h : ∀ name ∈ names, IsName name)
    (hrest : ∀ name ∈ rest, IsName name)
    (hsame : (pathOf names).components = (pathOf rest).components) :
    pathOf names = pathOf rest := by
  rw [components_pathOf h, components_pathOf hrest, List.cons.injEq] at hsame
  rw [(List.map_inj_right fun _ _ => Component.name.inj).mp hsame.2]

/-- The spelling of a name behind others ends in a slash and the name. -/
theorem exists_toList_pathOf_concat (place : List String) (name : String) :
    ∃ front, (pathOf (place ++ [name])).text.toList = front ++ '/' :: name.toList := by
  rw [toList_pathOf, List.map_append, List.map_cons, List.map_nil]
  by_cases hnil : place = []
  · exact ⟨[], by simp [hnil]⟩
  · have hpieces : place.map String.toList ≠ [] := by simpa using hnil
    refine ⟨'/' :: List.intercalate ['/'] (place.map String.toList), ?_⟩
    rw [Text.intercalate_concat hpieces, List.cons_append]

/-- The spelling of some names does not end in a slash. -/
theorem getLast?_pathOf (hplace : ∀ name ∈ place, IsName name) (hne : place ≠ []) :
    (pathOf place).text.toList.getLast? ≠ some '/' := by
  obtain ⟨above, name, rfl⟩ : ∃ above name, place = above ++ [name] :=
    ⟨_, _, (List.dropLast_concat_getLast hne).symm⟩
  have hname := hplace name (by simp)
  have hchars : name.toList ≠ [] := fun hnil => hname.not_skipped (Or.inl hnil)
  obtain ⟨front, htext⟩ := exists_toList_pathOf_concat above name
  rw [htext, List.getLast?_append, List.getLast?_cons_of_ne_nil hchars,
    List.getLast?_eq_some_getLast hchars, Option.some_or]
  intro hlast
  refine hname.no_slash ?_
  rw [← Option.some.inj hlast]
  exact List.getLast_mem hchars

/-- A name that is followed from the spelling of some names is spelled behind them. -/
theorem join_pathOf (hplace : ∀ other ∈ place, IsName other) (hname : IsName name) :
    (pathOf place).join name = pathOf (place ++ [name]) := by
  have hhead : name.toList.head? ≠ some '/' := fun hhead =>
    hname.no_slash (List.mem_of_mem_head? hhead)
  have htext : ((pathOf place).join name).text.toList = (pathOf (place ++ [name])).text.toList := by
    by_cases hnil : place = []
    · subst hnil
      have hroot : (pathOf []).text.toList = ['/'] := rfl
      simp only [Path.join, if_neg hhead, hroot, List.getLast?_singleton, or_true, if_true,
        String.toList_append, toList_pathOf]
      simp
    · have hfirst : (pathOf place).text.toList ≠ [] := by simp [toList_pathOf]
      have hpieces : place.map String.toList ≠ [] := by simpa using hnil
      have hopen := not_or.mpr ⟨hfirst, getLast?_pathOf hplace hnil⟩
      have hslash : "/".toList = ['/'] := rfl
      simp only [Path.join, if_neg hhead, if_neg hopen]
      rw [String.toList_append, String.toList_append, toList_pathOf, toList_pathOf,
        List.map_append, List.map_cons, List.map_nil, Text.intercalate_concat hpieces, hslash]
      simp
  exact congrArg Path.mk (String.toList_inj.mp htext)

/-- Names that are followed one after the other are spelled behind those in front of them. -/
theorem foldl_join_pathOf (hplace : ∀ name ∈ place, IsName name)
    (hnames : ∀ name ∈ names, IsName name) :
    names.foldl Path.join (pathOf place) = pathOf (place ++ names) := by
  induction names generalizing place with
  | nil => rw [List.foldl_nil, List.append_nil]
  | cons name rest ih =>
    have hname := hnames name List.mem_cons_self
    rw [List.foldl_cons, join_pathOf hplace hname, List.append_cons place name rest]
    refine ih (fun other hother => ?_) fun other hother =>
      hnames other (List.mem_cons_of_mem name hother)
    rcases List.mem_append.mp hother with hother | hother
    · exact hplace other hother
    · rw [List.mem_singleton.mp hother]
      exact hname

end FileTree

end KeyLens
