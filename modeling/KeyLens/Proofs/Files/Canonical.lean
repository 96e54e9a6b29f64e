import KeyLens.Proofs.Files.Spelling

/-!
# Canonical paths

A path that leads to an entry has a canonical spelling: the names of the directories above the
entry and its own name. As long as the entry stays where it is, this spelling leads to it and is
its own canonical spelling.
-/

namespace KeyLens

namespace FileTree

/-- A name that leads from a directory to one of its entries when it stands between slashes. -/
structure IsName (name : String) : Prop where
  /-- It holds no slash. -/
  no_slash : '/' ∉ name.toList
  /-- It is a step. -/
  isStep : isStep name.toList = true
  /-- It does not lead upwards. -/
  not_parent : name.toList ≠ ['.', '.']
  /-- It is not too long. -/
  length_le : byteLength name.toList ≤ greatestName

/-- A name is not skipped. -/
theorem IsName.not_skipped {name : String} (h : IsName name) :
    ¬(name.toList = [] ∨ name.toList = ['.']) := by
  rw [← isStep_eq_false_iff, h.isStep]
  exact Bool.false_ne_true.symm

instance (name : String) : Decidable (IsName name) :=
  decidable_of_iff ('/' ∉ name.toList ∧ KeyLens.isStep name.toList = true ∧
      name.toList ≠ ['.', '.'] ∧ byteLength name.toList ≤ greatestName)
    ⟨fun ⟨hslash, hstep, hparent, hlength⟩ => ⟨hslash, hstep, hparent, hlength⟩,
      fun h => ⟨h.no_slash, h.isStep, h.not_parent, h.length_le⟩⟩

/-- An entry at the end of a row of names, below directories only. -/
structure Stands (tree : FileTree) (names : List String) (entry : Entry) : Prop where
  /-- The entry is at the end of the names. -/
  get?_eq : tree.get? names = some entry
  /-- Each of the names leads to an entry. -/
  isName : ∀ name ∈ names, IsName name
  /-- There is a directory at the end of each shorter row. -/
  above : ∀ front, front <+: names → front ≠ names → tree.get? front = some .directory

variable {tree : FileTree} {place names : List String} {entry : Entry} {name : String}

/-- What stands at the end of names is an entry. -/
theorem mem_entries_of_get? (hnames : names ≠ []) (h : tree.get? names = some entry) :
    (names, entry) ∈ tree.entries := by
  rw [get?, if_neg hnames, List.lookup_eq_some_iff] at h
  obtain ⟨front, back, hentries, -⟩ := h
  rw [hentries]
  exact List.mem_append_right front List.mem_cons_self

/-- The root is a directory. -/
theorem Stands.root (tree : FileTree) : tree.Stands [] .directory where
  get?_eq := rfl
  isName := by simp
  above := fun front hfront hne => absurd (List.prefix_nil.mp hfront) hne

/-- There is a directory at each shorter beginning of the names of an entry. -/
theorem Stands.of_shorter (h : tree.Stands names entry) (hplace : place <+: names)
    (hne : place ≠ names) : tree.Stands place .directory where
  get?_eq := h.above place hplace hne
  isName := fun name hname => h.isName name (hplace.subset hname)
  above := by
    intro front hfront hfront'
    refine h.above front (hfront.trans hplace) ?_
    rintro rfl
    exact hfront' (hfront.eq_of_length_le hplace.length_le)

/-- There is a directory at each beginning of the names of a directory. -/
theorem Stands.of_prefix (h : tree.Stands names .directory) (hplace : place <+: names) :
    tree.Stands place .directory := by
  by_cases hsame : place = names
  · rw [hsame]
    exact h
  · exact h.of_shorter hplace hsame

/-- An entry of a directory. -/
theorem Stands.concat (h : tree.Stands place .directory) (hname : IsName name)
    (hentry : tree.get? (place ++ [name]) = some entry) : tree.Stands (place ++ [name]) entry where
  get?_eq := hentry
  isName := by
    intro other hother
    rcases List.mem_append.mp hother with hplace | hlast
    · exact h.isName other hplace
    · rw [List.mem_singleton.mp hlast]
      exact hname
  above := by
    intro front hfront hne
    rcases List.prefix_concat_iff.mp hfront with hsame | hplace
    · exact absurd hsame hne
    · exact (h.of_prefix hplace).get?_eq

/-! ### Ways -/

/-- A piece without slashes that is neither a dot nor two of them is a name. -/
theorem isName_ofList {piece : List Char} (hslash : '/' ∉ piece)
    (hstep : ¬(piece = [] ∨ piece = ['.'])) (hparent : piece ≠ ['.', '.'])
    (hlength : ¬byteLength piece > greatestName) : IsName (String.ofList piece) where
  no_slash := by rwa [String.toList_ofList]
  isStep := by
    rw [String.toList_ofList]
    exact isStep_of_not hstep
  not_parent := by rwa [String.toList_ofList]
  length_le := by
    rw [String.toList_ofList]
    exact Nat.le_of_not_gt hlength

/-- A way from a directory ends below directories. -/
theorem stands_of_walk {follow : Bool} {links : Nat} {pieces : List (List Char)}
    (hplace : tree.Stands place .directory) (hpieces : ∀ piece ∈ pieces, '/' ∉ piece)
    (h : tree.walk follow links place pieces = .ok (names, entry)) : tree.Stands names entry := by
  -- The pieces of a link's target stand in front of the pieces that are left.
  have hbehind : ∀ {target : String} {piece : List Char} {rest : List (List Char)},
      (∀ other ∈ piece :: rest, '/' ∉ other) →
        ∀ other ∈ List.splitOn '/' target.toList ++ rest, '/' ∉ other := by
    intro target piece rest hrest other hother
    rcases List.mem_append.mp hother with htarget | hother
    · exact Text.not_mem_of_mem_splitOn htarget
    · exact hrest other (List.mem_cons_of_mem piece hother)
  fun_induction walk tree follow links place pieces with
  | case1 =>
    cases h
    exact hplace
  | case2 links place piece rest _ ih =>
    exact ih hplace (fun other hother => hpieces other (List.mem_cons_of_mem piece hother)) h
  | case3 links place rest _ ih =>
    exact ih (hplace.of_prefix place.dropLast_prefix)
      (fun other hother => hpieces other (List.mem_cons_of_mem _ hother)) h
  | case4 => cases h
  | case5 => cases h
  | case6 links place piece rest hstep hparent hlength names hget ih =>
    have hname := isName_ofList (hpieces piece List.mem_cons_self) hstep hparent hlength
    exact ih (hplace.concat hname hget)
      (fun other hother => hpieces other (List.mem_cons_of_mem piece hother)) h
  | case7 links place piece hstep hparent hlength way content modified hget =>
    obtain ⟨rfl, rfl⟩ := Prod.mk.inj (Except.ok.inj h)
    exact hplace.concat
      (isName_ofList (hpieces piece List.mem_cons_self) hstep hparent hlength) hget
  | case8 => cases h
  | case9 links place piece rest hstep hparent hlength way target hget _ =>
    obtain ⟨rfl, rfl⟩ := Prod.mk.inj (Except.ok.inj h)
    exact hplace.concat
      (isName_ofList (hpieces piece List.mem_cons_self) hstep hparent hlength) hget
  | case10 => cases h
  | case11 place piece rest hstep _ _ _ target _ _ links _ ih =>
    exact ih (Stands.root tree) (hbehind hpieces) h
  | case12 place piece rest hstep _ _ _ target _ _ links _ ih =>
    exact ih hplace (hbehind hpieces) h

/-- A way on which links are followed does not end at a link. -/
theorem ne_link_of_walk {links : Nat} {pieces : List (List Char)}
    (h : tree.walk true links place pieces = .ok (names, entry)) (target : String) :
    entry ≠ .link target := by
  generalize hfollow : true = follow at h
  fun_induction walk tree follow links place pieces with
  | case1 =>
    cases h
    simp
  | case2 links place piece rest _ ih => exact ih h
  | case3 links place rest _ ih => exact ih h
  | case4 => cases h
  | case5 => cases h
  | case6 links place piece rest hpiece _ _ _ _ ih => exact ih h
  | case7 links place piece hpiece _ _ _ _ _ hget =>
    rw [← (Prod.mk.inj (Except.ok.inj h)).2]
    simp
  | case8 => cases h
  | case9 links place piece rest _ _ _ _ _ _ hnot =>
    rw [← hfollow] at hnot
    exact absurd hnot.2 Bool.false_ne_true
  | case10 => cases h
  | case11 place piece rest hpiece _ _ _ target _ _ links _ ih => exact ih h
  | case12 place piece rest hpiece _ _ _ target _ _ links _ ih => exact ih h

/-- What stands at the end of a way along names, as long as no link stands on it. -/
def descend? (tree : FileTree) (place : List String) :
    List String → Option (Except FileError Place)
  | [] => some (.ok (place, .directory))
  | name :: rest =>
    match tree.get? (place ++ [name]) with
    | none => some (.error .notFound)
    | some .directory => descend? tree (place ++ [name]) rest
    | some (.file content modified) =>
      some (if rest = [] then .ok (place ++ [name], .file content modified) else .error .notDirectory)
    | some (.link _) => none

/-- A way along names on which no link stands. -/
theorem walk_of_descend? {follow : Bool} {links : Nat} {found : Except FileError Place}
    (hnames : ∀ name ∈ names, IsName name) (h : tree.descend? place names = some found) :
    tree.walk follow links place (names.map String.toList) = found := by
  induction names generalizing place with
  | nil =>
    rw [List.map_nil, walk]
    exact Option.some.inj h
  | cons name rest ih =>
    have hname := hnames name List.mem_cons_self
    have hrest : ∀ other ∈ rest, IsName other :=
      fun other hother => hnames other (List.mem_cons_of_mem name hother)
    rw [List.map_cons, walk, if_neg hname.not_skipped, if_neg hname.not_parent,
      if_neg (Nat.not_lt.mpr hname.length_le)]
    simp only [String.ofList_toList, List.map_eq_nil_iff]
    rw [descend?] at h
    cases hentry : tree.get? (place ++ [name]) with
    | none =>
      rw [hentry] at h
      exact Option.some.inj h
    | some entry =>
      rw [hentry] at h
      cases entry with
      | file content modified => exact Option.some.inj h
      | directory => exact ih hrest h
      | link target => cases h

/-- Names lead along directories to an entry that is no link. -/
theorem descend?_of_stands (hplace : tree.get? place = some .directory)
    (h : tree.Stands (place ++ names) entry) (hlink : ∀ target, entry ≠ .link target) :
    tree.descend? place names = some (.ok (place ++ names, entry)) := by
  induction names generalizing place with
  | nil =>
    rw [List.append_nil] at h ⊢
    rw [descend?, ← Option.some.inj (hplace.symm.trans h.get?_eq)]
  | cons name rest ih =>
    rw [List.append_cons] at h ⊢
    rw [descend?]
    by_cases hrest : rest = []
    · subst hrest
      rw [List.append_nil] at h ⊢
      rw [h.get?_eq]
      cases entry with
      | file content modified => rfl
      | directory => rfl
      | link target => exact absurd rfl (hlink target)
    · have hentry : tree.get? (place ++ [name]) = some .directory :=
        h.above _ (List.prefix_append _ rest) (by simpa using hrest)
      rw [hentry]
      exact ih hentry h

/-! ### Spellings -/

/-- The spelling of some names is a slash and the names with slashes between them. -/
theorem toList_pathOf (names : List String) :
    (pathOf names).text.toList = '/' :: List.intercalate ['/'] (names.map String.toList) := by
  rw [pathOf, String.toList_append, String.toList_intercalate]
  rfl

/-- The pieces of the spelling of some names are the names, behind an empty piece. -/
theorem split_pathOf (hnames : names ≠ []) (h : ∀ name ∈ names, IsName name) :
    List.splitOn '/' (pathOf names).text.toList = [] :: names.map String.toList := by
  have hslash : ∀ piece ∈ names.map String.toList, '/' ∉ piece := by
    simpa using fun name hname => (h name hname).no_slash
  rw [toList_pathOf, Text.splitOn_cons_self,
    List.splitOn_intercalate '/' hslash (by simpa using hnames)]

/-- The spelling of some names is absolute. -/
theorem isAbsolute_pathOf (names : List String) : (pathOf names).isAbsolute = true := by
  rw [Path.isAbsolute, toList_pathOf]
  rfl

/-- A spelling that some path may have: no character ends it and it is not too long. -/
structure IsSpelling (path : Path) : Prop where
  /-- No character ends the path. -/
  not_ended : path.text.toList.contains (Char.ofNat 0) = false
  /-- The path is not too long. -/
  length_le : byteLength path.text.toList ≤ greatestPath

instance (path : Path) : Decidable (IsSpelling path) :=
  decidable_of_iff (path.text.toList.contains (Char.ofNat 0) = false ∧
      byteLength path.text.toList ≤ greatestPath)
    ⟨fun ⟨hended, hlength⟩ => ⟨hended, hlength⟩, fun h => ⟨h.not_ended, h.length_le⟩⟩

/-- A path that leads somewhere is a spelling. -/
theorem isSpelling_of_resolve {path : Path} {found : Place} (h : tree.resolve path = .ok found) :
    IsSpelling path := by
  obtain ⟨-, hended, hlength, -⟩ := walk_of_resolve h
  exact ⟨hended, hlength⟩

/-- An absolute path leads from the root along its pieces. -/
theorem reach_of_isAbsolute (tree : FileTree) (follow : Bool) {path : Path}
    (hspelling : IsSpelling path) (h : path.isAbsolute = true) :
    tree.reach follow path =
      tree.walk follow greatestLinks [] (List.splitOn '/' path.text.toList) := by
  have hnil : ¬path.text.toList = [] := by
    intro hnil
    rw [Path.isAbsolute, hnil] at h
    cases h
  simp only [reach, h, if_true]
  rw [if_neg hnil, if_neg (by rw [hspelling.not_ended]; exact Bool.false_ne_true),
    if_neg (Nat.not_lt.mpr hspelling.length_le)]

/-- The spelling of some names leads from the root along the names, whether links are followed or
not. -/
theorem reach_pathOf (tree : FileTree) (follow : Bool) (hspelling : IsSpelling (pathOf names))
    (h : ∀ name ∈ names, IsName name) :
    tree.reach follow (pathOf names) =
      tree.walk follow greatestLinks [] (names.map String.toList) := by
  rw [reach_of_isAbsolute tree follow hspelling (isAbsolute_pathOf names)]
  by_cases hnames : names = []
  · subst hnames
    have hpieces : List.splitOn '/' (pathOf []).text.toList = [[], []] := rfl
    simp only [hpieces, List.map_nil, walk, true_or, if_true]
  · rw [split_pathOf hnames h, walk, if_pos (Or.inl rfl)]

/-- A path that spells names on whose way no link stands leads to what stands at their end, whether
links are followed or not. -/
theorem reach_of_descend? {path : Path} {follow : Bool} {found : Except FileError Place}
    (hpath : pathOf names = path) (hspelling : IsSpelling path)
    (hnames : ∀ name ∈ names, IsName name) (h : tree.descend? [] names = some found) :
    tree.reach follow path = found := by
  subst hpath
  rw [reach_pathOf tree follow hspelling hnames, walk_of_descend? hnames h]

/-- A path that spells names on whose way no link stands leads to what stands at their end. -/
theorem resolve_of_descend? {path : Path} {found : Except FileError Place}
    (hpath : pathOf names = path) (hspelling : IsSpelling path)
    (hnames : ∀ name ∈ names, IsName name) (h : tree.descend? [] names = some found) :
    tree.resolve path = found :=
  reach_of_descend? hpath hspelling hnames h

/-! ### Canonical spellings -/

/-- What a path leads to stands below directories, if the directory from which relative paths start
does. -/
theorem stands_of_resolve {path : Path} (hstart : tree.Stands tree.directory .directory)
    (h : tree.resolve path = .ok (names, entry)) :
    tree.Stands names entry ∧ ∀ target, entry ≠ .link target := by
  obtain ⟨-, -, -, hwalk⟩ := walk_of_resolve h
  have hplace : tree.Stands (if path.isAbsolute then [] else tree.directory) .directory := by
    split
    · exact Stands.root tree
    · exact hstart
  exact ⟨stands_of_walk hplace (fun piece hpiece => Text.not_mem_of_mem_splitOn hpiece) hwalk,
    ne_link_of_walk hwalk⟩

/-- A canonical spelling is that of the names to which the path leads. -/
theorem resolve_of_canonical {path other : Path} (h : tree.canonical path = .ok other) :
    ∃ names entry, tree.resolve path = .ok (names, entry) ∧ pathOf names = other := by
  unfold canonical at h
  cases hresolve : tree.resolve path with
  | error failure =>
    rw [hresolve] at h
    cases h
  | ok found =>
    rw [hresolve] at h
    exact ⟨found.1, found.2, rfl, Except.ok.inj h⟩

/-- The path that spells the names of an entry is its own canonical spelling. -/
theorem Stands.canonical_eq (h : tree.Stands names entry) (hlink : ∀ target, entry ≠ .link target)
    (hspelling : IsSpelling (pathOf names)) :
    tree.canonical (pathOf names) = .ok (pathOf names) := by
  rw [canonical, resolve_of_descend? rfl hspelling h.isName (descend?_of_stands rfl h hlink)]
  rfl

/-- A canonical spelling that a path may have is its own canonical spelling. -/
theorem canonical_canonical {path other : Path} (hstart : tree.Stands tree.directory .directory)
    (h : tree.canonical path = .ok other) (hspelling : IsSpelling other) :
    tree.canonical other = .ok other := by
  obtain ⟨names, entry, hresolve, rfl⟩ := resolve_of_canonical h
  obtain ⟨hstands, hlink⟩ := stands_of_resolve hstart hresolve
  exact hstands.canonical_eq hlink hspelling

end FileTree

end KeyLens
