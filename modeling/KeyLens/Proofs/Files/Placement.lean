import KeyLens.Proofs.Files.Steps
import Mathlib.Data.List.Infix

/-!
# Trees that stand in other trees

A tree of files may stand below any directory of another one. As long as no link leads out of it,
ways inside it do not depend on where it stands: a path leads to the same entry, or fails alike,
below whatever directory it is read.
-/

namespace KeyLens

namespace FileTree

variable {below tree : FileTree} {here place names : List String} {follow : Bool}
  {links : Nat} {pieces rest : List (List Char)} {entry : Entry} {name : String}

/-! ### Ways that stay inside -/

/-- The way along pieces from a place of a tree does not lead out of it: it never leads above the
root, and all links on it are relative. -/
inductive Inside (tree : FileTree) : Nat → List String → List (List Char) → Prop
  /-- The way ends. -/
  | done {links : Nat} {place : List String} : Inside tree links place []
  /-- A piece that is no step leads nowhere. -/
  | skip {links : Nat} {place : List String} {piece : List Char} {rest : List (List Char)}
      (idle : piece = [] ∨ piece = ['.']) (onward : Inside tree links place rest) :
      Inside tree links place (piece :: rest)
  /-- Two dots lead upwards, which the root does not allow. -/
  | parent {links : Nat} {place : List String} {rest : List (List Char)} (deep : place ≠ [])
      (onward : Inside tree links place.dropLast rest) :
      Inside tree links place (['.', '.'] :: rest)
  /-- A name leads to a directory or, through a link, to where its target does. -/
  | name {links : Nat} {place : List String} {piece : List Char} {rest : List (List Char)}
      (step : ¬(piece = [] ∨ piece = ['.'])) (down : piece ≠ ['.', '.'])
      (directory : tree.get? (place ++ [String.ofList piece]) = some .directory →
        Inside tree links (place ++ [String.ofList piece]) rest)
      (relative : ∀ target, tree.get? (place ++ [String.ofList piece]) = some (.link target) →
        target.toList.head? ≠ some '/')
      (link : ∀ target fewer, tree.get? (place ++ [String.ofList piece]) = some (.link target) →
        links = fewer + 1 → Inside tree fewer place (List.splitOn '/' target.toList ++ rest)) :
      Inside tree links place (piece :: rest)

/-- A tree whose entries stand below directories and out of which no link leads. -/
structure Portable (below : FileTree) : Prop where
  /-- Each entry stands at the end of its names. -/
  stands : ∀ names entry, (names, entry) ∈ below.entries → below.Stands names entry
  /-- What does not lead upwards itself stays inside, whatever links it leads through. -/
  inside : ∀ pieces, ['.', '.'] ∉ pieces → below.Inside greatestLinks [] pieces

/-- A tree that stands below a directory of another one. -/
structure StandsIn (below tree : FileTree) (here : List String) : Prop where
  /-- The directory stands below directories. -/
  start : tree.Stands here .directory
  /-- The same entries stand at the ends of the same names. -/
  get?_append : ∀ names, tree.get? (here ++ names) = below.get? names

/-- What a way inside a tree leads to, seen from the root of the tree in which it stands. -/
def placed (here : List String) (found : Except FileError Place) : Except FileError Place :=
  found.map fun (names, entry) => (here ++ names, entry)

/-- Ways that stay inside a tree do not depend on where it stands. -/
theorem StandsIn.walk_append (h : below.StandsIn tree here)
    (hinside : below.Inside links place pieces) :
    tree.walk follow links (here ++ place) pieces =
      placed here (below.walk follow links place pieces) := by
  induction hinside with
  | done =>
    rw [walk, walk]
    rfl
  | skip idle _ ih => rw [walk, walk, if_pos idle, if_pos idle, ih]
  | parent deep _ ih =>
    have hstep : ¬(['.', '.'] = ([] : List Char) ∨ ['.', '.'] = ['.']) := by decide
    rw [walk, walk, if_neg hstep, if_neg hstep, if_pos rfl, if_pos rfl,
      List.dropLast_append_of_ne_nil deep, ih]
  | @name links place piece rest step down directory relative link ihDirectory ihLink =>
    rw [walk, walk, if_neg step, if_neg step, if_neg down, if_neg down]
    by_cases hlong : byteLength piece > greatestName
    · rw [if_pos hlong, if_pos hlong]
      rfl
    · rw [if_neg hlong, if_neg hlong]
      simp only [List.append_assoc, h.get?_append]
      cases hentry : below.get? (place ++ [String.ofList piece]) with
      | none => rfl
      | some entry =>
        cases entry with
        | directory => exact ihDirectory hentry
        | file content modified =>
          simp only
          split <;> rfl
        | link target =>
          simp only [if_neg (relative target hentry)]
          split
          · rfl
          · cases links with
            | zero => rfl
            | succ fewer => exact ihLink target fewer hentry rfl

/-- Names lead along directories to the last of them, whatever follows. -/
theorem walk_of_stands (h : tree.Stands (place ++ names) .directory) :
    tree.walk follow links place (names.map String.toList ++ rest) =
      tree.walk follow links (place ++ names) rest := by
  induction names generalizing place with
  | nil => rw [List.append_nil]; rfl
  | cons name others ih =>
    rw [List.append_cons] at h ⊢
    have hname := h.isName name (by simp)
    have hentry := (h.of_prefix (List.prefix_append (place ++ [name]) others)).get?_eq
    rw [List.map_cons, List.cons_append, walk, if_neg hname.not_skipped, if_neg hname.not_parent,
      if_neg (Nat.not_lt.mpr hname.length_le)]
    simp only [String.ofList_toList, hentry]
    exact ih h

/-! ### Paths below a place -/

/-- The text in front of the slash behind a place. -/
def stem (here : List String) : String :=
  if here = [] then "" else (pathOf here).text

/-- A path that is read from a place. -/
def under (here : List String) (path : Path) : Path :=
  ⟨stem here ++ "/" ++ path.text⟩

/-- The text of a path below a place. -/
theorem toList_under (here : List String) (path : Path) :
    (under here path).text.toList = (stem here).toList ++ '/' :: path.text.toList := by
  simp [under, String.toList_append]

/-- The text of a place holds its names. -/
theorem split_stem (h : ∀ name ∈ here, IsName name) :
    List.splitOn '/' (stem here).toList = [] :: here.map String.toList := by
  unfold stem
  split
  · next hnil => rw [hnil]; rfl
  · next hne => exact split_pathOf hne h

/-- A path below a place is absolute. -/
theorem isAbsolute_under (here : List String) (path : Path) :
    (under here path).isAbsolute = true := by
  rw [Path.isAbsolute, toList_under]
  unfold stem
  split
  · rfl
  · rw [toList_pathOf]
    rfl

/-- The steps of a path below a place are those of the place and its own. -/
theorem components_under (h : ∀ name ∈ here, IsName name) (path : Path) :
    (under here path).components = .root :: here.map .name ++ Path.stepsOf path.text.toList := by
  have hstem : Path.stepsOf (stem here).toList = here.map .name := by
    rw [Path.stepsOf, split_stem h, List.filterMap_cons, filterMap_ofPiece? h]
    rfl
  rw [Path.components_of_isAbsolute (isAbsolute_under here path), toList_under,
    Path.stepsOf_append, hstem, List.cons_append]

/-- A relative text that is followed from a place is a path below it. -/
theorem join_pathOf_eq_under (h : ∀ name ∈ here, IsName name) {text : String}
    (htext : text.toList.head? ≠ some '/') : (pathOf here).join text = under here ⟨text⟩ := by
  unfold under stem
  by_cases hnil : here = []
  · subst hnil
    have hroot : (pathOf []).text.toList = ['/'] := rfl
    rw [Path.join, if_neg htext, if_pos (Or.inr (by rw [hroot]; rfl)), if_pos rfl]
    rfl
  · have hopen : ¬((pathOf here).text.toList = [] ∨
        (pathOf here).text.toList.getLast? = some '/') :=
      not_or.mpr ⟨by simp [toList_pathOf], getLast?_pathOf h hnil⟩
    rw [Path.join, if_neg htext, if_neg hopen, if_neg hnil]

/-- A relative text that is followed from a path below a place stays below it. -/
theorem join_under (here : List String) (path : Path) {text : String}
    (htext : text.toList.head? ≠ some '/') :
    (under here path).join text = under here (path.join text) := by
  have hlast : ((under here path).text.toList = [] ∨
      (under here path).text.toList.getLast? = some '/') ↔
        (path.text.toList = [] ∨ path.text.toList.getLast? = some '/') := by
    rw [toList_under, List.getLast?_append, List.getLast?_cons]
    cases hchars : path.text.toList with
    | nil => simp
    | cons c rest => simp [List.getLast?_cons]
  unfold Path.join
  simp only [if_neg htext, hlast]
  split <;> simp [under, String.append_assoc]

/-- Names that are followed from a path below a place stay below it. -/
theorem foldl_join_under (h : ∀ name ∈ names, IsName name) (here : List String) (path : Path) :
    names.foldl Path.join (under here path) = under here (names.foldl Path.join path) := by
  induction names generalizing path with
  | nil => rfl
  | cons name rest ih =>
    have hname := h name List.mem_cons_self
    have hhead : name.toList.head? ≠ some '/' :=
      fun hhead => hname.no_slash (List.mem_of_head? hhead)
    rw [List.foldl_cons, List.foldl_cons, join_under here path hhead,
      ih fun other hother => h other (List.mem_cons_of_mem name hother)]

/-- A path below a place leads to what its pieces lead to in the tree that stands there. -/
theorem StandsIn.reach_under (h : below.StandsIn tree here) (hbelow : below.Portable) {path : Path}
    (hspelling : IsSpelling (under here path))
    (hpath : ['.', '.'] ∉ List.splitOn '/' path.text.toList) :
    tree.reach follow (under here path) =
      placed here (below.walk follow greatestLinks [] (List.splitOn '/' path.text.toList)) := by
  have hnames := h.start.isName
  rw [reach_of_isAbsolute tree follow hspelling (isAbsolute_under here path), toList_under,
    List.splitOn_append_cons_self, split_stem hnames, List.cons_append, walk, if_pos (Or.inl rfl),
    walk_of_stands h.start, List.nil_append, ← h.walk_append (hbelow.inside _ hpath),
    List.append_nil]

/-- The spelling of a place leads to it. -/
theorem StandsIn.reach_pathOf (h : below.StandsIn tree here)
    (hspelling : IsSpelling (pathOf here)) :
    tree.reach follow (pathOf here) = .ok (here, .directory) :=
  reach_of_descend? rfl hspelling h.start.isName (descend?_of_stands rfl h.start nofun)

/-! ### Lengths -/

/-- The number of bytes that pieces take with a slash each. -/
def cost : List (List Char) → Nat
  | [] => 0
  | piece :: rest => byteLength piece + 1 + cost rest

/-- The cost of pieces is that of the ones in front and of those behind. -/
theorem cost_append (front rest : List (List Char)) :
    cost (front ++ rest) = cost front + cost rest := by
  induction front with
  | nil => simp [cost]
  | cons piece others ih => simp [cost, ih, Nat.add_assoc]

/-- The pieces of a text cost one byte more than the text has. -/
theorem cost_split (text : List Char) : cost (List.splitOn '/' text) = byteLength text + 1 := by
  induction text with
  | nil => rfl
  | cons c rest ih =>
    by_cases hslash : c = '/'
    · rw [hslash, Text.splitOn_cons_self, cost, ih, byteLength, byteLength]
      rw [show Char.utf8Size '/' = 1 from rfl]
      omega
    · obtain ⟨piece, pieces, hsplit⟩ := List.exists_cons_of_ne_nil (List.splitOn_ne_nil '/' rest)
      rw [Text.splitOn_cons_of_ne hslash, hsplit, List.modifyHead_cons]
      rw [hsplit] at ih
      simp only [cost, byteLength] at ih ⊢
      omega

/-- The cost of the pieces of a path that are no steps. -/
def idleCost (pieces : List (List Char)) : Nat :=
  cost (pieces.filter fun piece => !isStep piece)

/-- Pieces cost what their steps and the others cost. -/
theorem cost_eq (pieces : List (List Char)) :
    cost pieces = cost (pieces.filter isStep) + idleCost pieces := by
  induction pieces with
  | nil => rfl
  | cons piece rest ih =>
    simp only [idleCost] at ih ⊢
    cases hstep : isStep piece <;> simp [hstep, cost, ih] <;> omega

/-- Idle pieces cost no more than all pieces. -/
theorem idleCost_le (pieces : List (List Char)) : idleCost pieces ≤ cost pieces := by
  rw [cost_eq]
  exact Nat.le_add_left _ _

/-- Idle pieces are those in front and those behind. -/
theorem idleCost_append (front rest : List (List Char)) :
    idleCost (front ++ rest) = idleCost front + idleCost rest := by
  rw [idleCost, List.filter_append, cost_append]
  rfl

/-- A piece that is followed from a path adds no more than itself to the idle pieces. -/
theorem idleCost_join (path : Path) {name : String} (hslash : '/' ∉ name.toList) :
    idleCost (List.splitOn '/' (path.join name).text.toList) ≤
      idleCost (List.splitOn '/' path.text.toList) + idleCost [name.toList] := by
  have hhead : name.toList.head? ≠ some '/' := fun hhead => hslash (List.mem_of_head? hhead)
  simp only [Path.join, if_neg hhead]
  split
  · next hends =>
    rcases hends with hnil | hlast
    · rw [String.toList_append, hnil, List.nil_append, List.splitOn_eq_singleton hslash]
      exact Nat.le_add_left _ _
    · obtain ⟨front, hfront⟩ := List.getLast?_eq_some_iff.mp hlast
      rw [String.toList_append, hfront, List.append_assoc, List.singleton_append,
        List.splitOn_append_cons_self, List.splitOn_append_cons_self,
        List.splitOn_eq_singleton hslash,
        idleCost_append, idleCost_append]
      omega
  · have hjoined : (path.text ++ "/" ++ name).toList = path.text.toList ++ '/' :: name.toList := by
      simp [String.toList_append]
    rw [hjoined, List.splitOn_append_cons_self, List.splitOn_eq_singleton hslash, idleCost_append]

/-- The paths of a tree are so short at a place that a text can be written into each of them without
making it too long. -/
def Roomy (below : FileTree) (here : List String) (text : String) : Prop :=
  ∀ path : Path, ['.', '.'] ∉ List.splitOn '/' path.text.toList →
    (below.walk true greatestLinks [] (List.splitOn '/' path.text.toList)).isOk = true →
      byteLength (stem here).toList + cost ((List.splitOn '/' path.text.toList).filter isStep) +
        byteLength text.toList + 1 ≤ greatestPath

/-- A path that leads somewhere in a tree may be written at a place where there is room, if its idle
pieces cost no more than those of the text. -/
theorem Roomy.isSpelling_under {text : String} (h : below.Roomy here text) {path : Path}
    (hhere : IsSpelling (pathOf here)) (hended : Char.ofNat 0 ∉ path.text.toList)
    (hpath : ['.', '.'] ∉ List.splitOn '/' path.text.toList)
    (hidle : idleCost (List.splitOn '/' path.text.toList) ≤ byteLength text.toList + 1)
    (hleads : (below.walk true greatestLinks [] (List.splitOn '/' path.text.toList)).isOk = true) :
    IsSpelling (under here path) where
  not_ended := by
    have hstem : Char.ofNat 0 ∉ (stem here).toList := by
      unfold stem
      split
      · exact List.not_mem_nil
      · simpa using hhere.not_ended
    rw [toList_under]
    simp [hstem, hended]
  length_le := by
    have hroom := h path hpath hleads
    have hcost := cost_eq (List.splitOn '/' path.text.toList)
    rw [cost_split] at hcost
    rw [toList_under, byteLength_append, byteLength, show Char.utf8Size '/' = 1 from rfl]
    omega

/-! ### Two places -/

/-- A tree stands at a place of another one whose entries stand below directories, and the place can
be spelled. -/
structure Placement (below tree : FileTree) (here : List String) : Prop extends
    below.StandsIn tree here where
  /-- Each entry of the tree around stands at the end of its names. -/
  stands : ∀ names entry, (names, entry) ∈ tree.entries → tree.Stands names entry
  /-- The place has a path. -/
  spelling : IsSpelling (pathOf here)

/-- The names of the entries of a directory are those at the ends of which something stands. -/
theorem mem_children_iff
    (h : ∀ names entry, (names, entry) ∈ tree.entries → tree.Stands names entry) :
    name ∈ tree.children place ↔ ∃ entry, tree.get? (place ++ [name]) = some entry := by
  rw [children, List.mem_mergeSort, List.mem_filterMap]
  constructor
  · rintro ⟨⟨names, entry⟩, hmem, hlast⟩
    obtain ⟨⟨-, hplace⟩, hlast⟩ := Option.ite_none_right_eq_some.mp hlast
    obtain ⟨front, rfl⟩ := List.getLast?_eq_some_iff.mp hlast
    rw [List.dropLast_concat] at hplace
    rw [← hplace]
    exact ⟨entry, (h _ _ hmem).get?_eq⟩
  · rintro ⟨entry, hentry⟩
    refine ⟨_, mem_entries_of_get? (by simp) hentry, ?_⟩
    simp

/-- A tree at a place, with nothing but directories above it. -/
def placedAt (below : FileTree) (here : List String) : FileTree where
  entries := here.inits.map (fun place => (place, Entry.directory)) ++
    below.entries.map fun (names, entry) => (here ++ names, entry)
  directory := []

/-- There are directories above a place. -/
theorem get?_placedAt_above (h : place <+: here) :
    (below.placedAt here).get? place = some .directory := by
  have hfound : ∀ places : List (List String), place ∈ places →
      (places.map fun place => (place, Entry.directory)).lookup place = some .directory := by
    intro places hmem
    induction places with
    | nil => cases hmem
    | cons first rest ih =>
      rw [List.map_cons, List.lookup_cons]
      split
      · rfl
      · next hne =>
        rw [beq_eq_false_iff_ne] at hne
        exact ih ((List.mem_cons.mp hmem).resolve_left hne)
  by_cases hnil : place = []
  · exact if_pos hnil
  · rw [get?, if_neg hnil, placedAt, List.lookup_append, hfound _ ((List.mem_inits _ _).mpr h),
      Option.some_or]

/-- The entries of a tree stand below its place. -/
theorem get?_placedAt_append (names : List String) :
    (below.placedAt here).get? (here ++ names) = below.get? names := by
  by_cases hnil : names = []
  · subst hnil
    rw [List.append_nil, get?_placedAt_above List.prefix_rfl]
    rfl
  · have habove : (here.inits.map fun place => (place, Entry.directory)).lookup (here ++ names) =
        none := by
      rw [List.lookup_eq_none_iff]
      intro item hitem
      obtain ⟨place, hplace, rfl⟩ := List.mem_map.mp hitem
      rw [bne_iff_ne]
      rintro rfl
      have hlength := ((List.mem_inits _ _).mp hplace).length_le
      have hpositive := List.length_pos_iff.mpr hnil
      rw [List.length_append] at hlength
      omega
    have hbelow : ∀ entries : List (List String × Entry),
        (entries.map fun (names, entry) => (here ++ names, entry)).lookup (here ++ names) =
          entries.lookup names := by
      intro entries
      induction entries with
      | nil => rfl
      | cons first rest ih =>
        have hsame : (here ++ names == here ++ first.1) = (names == first.1) := by
          rw [Bool.eq_iff_iff, beq_iff_eq, beq_iff_eq, List.append_cancel_left_eq]
        rw [List.map_cons, List.lookup_cons, List.lookup_cons, ih, hsame]
    rw [get?, get?, if_neg (by simp [hnil]), if_neg hnil, placedAt, List.lookup_append, habove,
      Option.none_or, hbelow]

/-- A tree whose entries stand below directories may stand at each place that can be spelled. -/
theorem placement_placedAt (h : ∀ names entry, (names, entry) ∈ below.entries →
      below.Stands names entry) (hhere : ∀ name ∈ here, IsName name)
    (hspelling : IsSpelling (pathOf here)) : below.Placement (below.placedAt here) here where
  start := ⟨get?_placedAt_above List.prefix_rfl, hhere,
    fun front hfront _ => get?_placedAt_above hfront⟩
  get?_append := get?_placedAt_append
  stands := by
    intro names entry hmem
    rcases List.mem_append.mp hmem with habove | hbelow
    · obtain ⟨place, hplace, hitem⟩ := List.mem_map.mp habove
      obtain ⟨rfl, rfl⟩ := Prod.mk.inj hitem
      have hbegins := (List.mem_inits _ _).mp hplace
      exact ⟨get?_placedAt_above hbegins, fun name hname => hhere name (hbegins.subset hname),
        fun front hfront _ => get?_placedAt_above (hfront.trans hbegins)⟩
    · obtain ⟨⟨own, _⟩, hown, hitem⟩ := List.mem_map.mp hbelow
      obtain ⟨rfl, rfl⟩ := Prod.mk.inj hitem
      have hstands := h own _ hown
      refine ⟨by rw [get?_placedAt_append]; exact hstands.get?_eq,
        List.forall_mem_append.mpr ⟨hhere, hstands.isName⟩, fun front hfront hne => ?_⟩
      rcases List.prefix_or_prefix_of_prefix hfront (List.prefix_append here own) with
        habove | ⟨rest, rfl⟩
      · exact get?_placedAt_above habove
      · rw [get?_placedAt_append]
        exact hstands.above rest ((List.prefix_append_right_inj here).mp hfront)
          fun hsame => hne (by rw [hsame])
  spelling := hspelling

/-- A tree out of which no link leads stands at places of two others. -/
structure StandsTwice (below tree other : FileTree) (here there : List String) : Prop where
  /-- No link leads out of the tree. -/
  portable : below.Portable
  /-- It stands at the one place. -/
  first : below.Placement tree here
  /-- It stands at the other place. -/
  second : below.Placement other there

/-- Two places may be swapped. -/
theorem StandsTwice.symm {other : FileTree} {there : List String}
    (h : below.StandsTwice tree other here there) : below.StandsTwice other tree there here :=
  ⟨h.portable, h.second, h.first⟩

/-- Paths that are written alike at two places, with idle pieces of at most some cost. -/
inductive Twins (here there : List String) (budget : Nat) : Path → Path → Prop
  /-- The places themselves. -/
  | base : Twins here there budget (pathOf here) (pathOf there)
  /-- A path that does not lead upwards, read from both places. -/
  | under (path : Path) (descends : ['.', '.'] ∉ List.splitOn '/' path.text.toList)
      (cheap : idleCost (List.splitOn '/' path.text.toList) ≤ budget) :
      Twins here there budget (under here path) (under there path)

variable {other : FileTree} {there : List String} {budget : Nat} {first second : Path}
  {text : String}

/-- Twins may cost more. -/
theorem Twins.mono {more : Nat} (h : Twins here there budget first second) (hle : budget ≤ more) :
    Twins here there more first second := by
  cases h with
  | base => exact .base
  | under path descends cheap => exact .under path descends (Nat.le_trans cheap hle)

/-- Twins are absolute. -/
theorem Twins.isAbsolute (h : Twins here there budget first second) :
    first.isAbsolute = true ∧ second.isAbsolute = true := by
  cases h with
  | base => exact ⟨isAbsolute_pathOf here, isAbsolute_pathOf there⟩
  | under path => exact ⟨isAbsolute_under here path, isAbsolute_under there path⟩

/-- A path that has a twin has the steps of its place and its own. -/
theorem Twins.exists_steps (h : Twins here there budget first second)
    (hhere : ∀ name ∈ here, IsName name) :
    ∃ steps, first.components = .root :: here.map .name ++ steps := by
  cases h with
  | base => exact ⟨[], by rw [components_pathOf hhere, List.append_nil]⟩
  | under path => exact ⟨_, components_under hhere path⟩

/-- The same piece is followed from twins. -/
theorem Twins.join (h : Twins here there budget first second)
    (hhere : ∀ name ∈ here, IsName name) (hthere : ∀ name ∈ there, IsName name)
    (hslash : '/' ∉ name.toList) (hparent : name.toList ≠ ['.', '.']) :
    Twins here there (budget + idleCost [name.toList]) (first.join name) (second.join name) := by
  have hhead : name.toList.head? ≠ some '/' := fun hhead => hslash (List.mem_of_head? hhead)
  have hpiece : ['.', '.'] ∉ List.splitOn '/' name.toList := by
    rw [List.splitOn_eq_singleton hslash, List.mem_singleton]
    exact Ne.symm hparent
  cases h with
  | base =>
    rw [join_pathOf_eq_under hhere hhead, join_pathOf_eq_under hthere hhead]
    refine .under ⟨name⟩ hpiece ?_
    rw [List.splitOn_eq_singleton hslash]
    exact Nat.le_add_left _ _
  | under path descends cheap =>
    rw [join_under here path hhead, join_under there path hhead]
    refine .under (path.join name) ?_ ?_
    · intro hmem
      exact (Path.mem_split_join hmem).elim descends hpiece
    · exact Nat.le_trans (idleCost_join path hslash) (Nat.add_le_add_right cheap _)

/-- If one of two twins leads somewhere, the other one is a path too as long as there is room. -/
theorem Twins.isSpelling (h : Twins here there budget first second)
    (hboth : below.StandsTwice tree other here there)
    (hroom : below.Roomy there text) (hbudget : budget ≤ byteLength text.toList + 1)
    (hleads : tree.exists? first = true) : IsSpelling first ∧ IsSpelling second := by
  unfold exists? at hleads
  cases hresolve : tree.resolve first with
  | error failure =>
    rw [hresolve] at hleads
    cases hleads
  | ok found =>
    have hspelling := isSpelling_of_resolve hresolve
    refine ⟨hspelling, ?_⟩
    cases h with
    | base => exact hboth.second.spelling
    | under path descends cheap =>
      have hreach : tree.resolve (FileTree.under here path) = _ :=
        hboth.first.toStandsIn.reach_under hboth.portable hspelling descends
      have hended : Char.ofNat 0 ∉ path.text.toList := by
        have hwhole := hspelling.not_ended
        rw [toList_under] at hwhole
        simp only [List.contains_eq_mem, List.mem_append, List.mem_cons, decide_eq_false_iff_not,
          not_or] at hwhole
        exact hwhole.2.2
      refine hroom.isSpelling_under hboth.second.spelling hended descends
        (Nat.le_trans cheap hbudget) ?_
      rw [hresolve] at hreach
      cases hwalk : below.walk true greatestLinks [] (List.splitOn '/' path.text.toList) with
      | error failure =>
        rw [hwalk] at hreach
        cases hreach
      | ok found => rfl

/-- Twins lead to the same entry or fail alike. -/
theorem Twins.reach (h : Twins here there budget first second)
    (hboth : below.StandsTwice tree other here there)
    (hfirst : IsSpelling first) (hsecond : IsSpelling second) (follow : Bool) :
    ∃ found : Except FileError Place, tree.reach follow first = placed here found ∧
      other.reach follow second = placed there found := by
  cases h with
  | base =>
    refine ⟨.ok ([], .directory), ?_, ?_⟩
    · rw [hboth.first.toStandsIn.reach_pathOf hfirst, placed]
      simp [Except.map]
    · rw [hboth.second.toStandsIn.reach_pathOf hsecond, placed]
      simp [Except.map]
  | under path descends cheap =>
    exact ⟨_, hboth.first.toStandsIn.reach_under hboth.portable hfirst descends,
      hboth.second.toStandsIn.reach_under hboth.portable hsecond descends⟩

/-- Twins lead to the same entry if one of them leads to an entry. -/
theorem Twins.resolve (h : Twins here there budget first second)
    (hboth : below.StandsTwice tree other here there)
    (hroom : below.Roomy there text) (hbudget : budget ≤ byteLength text.toList + 1)
    (hresolve : tree.resolve first = .ok (place, entry)) :
    ∃ names, place = here ++ names ∧ other.resolve second = .ok (there ++ names, entry) := by
  have hleads : tree.exists? first = true := by
    rw [exists?, hresolve]
    rfl
  obtain ⟨hfirst, hsecond⟩ := h.isSpelling hboth hroom hbudget hleads
  obtain ⟨found, hfound, hfound'⟩ := h.reach hboth hfirst hsecond true
  have hfound : tree.resolve first = placed here found := hfound
  rw [hresolve] at hfound
  cases found with
  | error failure => cases hfound
  | ok found =>
    obtain ⟨rfl, rfl⟩ := Prod.mk.inj (Except.ok.inj hfound)
    exact ⟨found.1, rfl, hfound'⟩

/-- A directory has the same entries at two places. -/
theorem StandsTwice.mem_children (hboth : below.StandsTwice tree other here there)
    (h : name ∈ tree.children (here ++ names)) :
    name ∈ other.children (there ++ names) ∧ IsName name := by
  obtain ⟨entry, hentry⟩ := (mem_children_iff hboth.first.stands).mp h
  have hstands := hboth.first.stands _ _ (mem_entries_of_get? (by simp) hentry)
  refine ⟨(mem_children_iff hboth.second.stands).mpr ⟨entry, ?_⟩, hstands.isName name (by simp)⟩
  rwa [List.append_assoc, hboth.second.get?_append, ← hboth.first.get?_append, ← List.append_assoc]

end FileTree

end KeyLens
