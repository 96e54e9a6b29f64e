import KeyLens.FileTree
import KeyLens.Proofs.Text.Pieces

/-!
# Spellings of a path

Two paths with the same steps may be spelled differently. A spelling that ends in a slash leads to
no file, and one that is too long leads nowhere, but two spellings that both lead to a file lead
to the same one, in every tree.
-/

namespace KeyLens

/-- Whether a piece between slashes is a step. -/
def isStep (piece : List Char) : Bool :=
  (Component.ofPiece? piece).isSome

/-- The last piece is a step. -/
def EndsInStep (pieces : List (List Char)) : Prop :=
  ∃ last, pieces.getLast? = some last ∧ isStep last = true

/-- All pieces are steps but the empty one and the single dot. -/
theorem isStep_eq_false_iff {piece : List Char} :
    isStep piece = false ↔ piece = [] ∨ piece = ['.'] := by
  unfold isStep Component.ofPiece?
  split
  · next h => simpa using h
  · next h =>
    simp only [h, iff_false]
    split <;> simp

/-- A piece that is neither empty nor a single dot is a step. -/
theorem isStep_of_not {piece : List Char} (h : ¬(piece = [] ∨ piece = ['.'])) :
    isStep piece = true := by
  rw [← Bool.not_eq_false]
  exact fun hstep => h (isStep_eq_false_iff.mp hstep)

/-- Pieces that end in a step end in one behind a first piece that is none. -/
theorem EndsInStep.tail {piece : List Char} {rest : List (List Char)}
    (h : EndsInStep (piece :: rest)) (hpiece : isStep piece = false) : EndsInStep rest := by
  obtain ⟨last, hlast, hstep⟩ := h
  by_cases hrest : rest = []
  · rw [hrest, List.getLast?_singleton, Option.some_inj] at hlast
    rw [hlast, hstep] at hpiece
    cases hpiece
  · rw [List.getLast?_cons_of_ne_nil hrest] at hlast
    exact ⟨last, hlast, hstep⟩

/-- More pieces in front do not change how pieces end. -/
theorem endsInStep_append_iff (front : List (List Char)) {rest : List (List Char)}
    (hrest : rest ≠ []) : EndsInStep (front ++ rest) ↔ EndsInStep rest := by
  obtain ⟨last, hlast⟩ := Option.ne_none_iff_exists'.mp (mt List.getLast?_eq_none_iff.mp hrest)
  simp [EndsInStep, List.getLast?_append, hlast]

/-- Pieces that end in a step are not empty. -/
theorem EndsInStep.ne_nil {pieces : List (List Char)} (h : EndsInStep pieces) : pieces ≠ [] := by
  rintro rfl
  obtain ⟨last, hlast, -⟩ := h
  cases hlast

/-- Pieces that end in a step end in it without those that are no steps. -/
theorem EndsInStep.filter {pieces : List (List Char)} (h : EndsInStep pieces) :
    EndsInStep (pieces.filter isStep) := by
  obtain ⟨last, hlast, hstep⟩ := h
  obtain ⟨front, rfl⟩ := List.getLast?_eq_some_iff.mp hlast
  refine ⟨last, ?_, hstep⟩
  rw [List.filter_append, List.filter_cons_of_pos hstep, List.filter_nil, List.getLast?_concat]

namespace Component

/-- The piece between slashes that spells a step. -/
def spelling : Component → List Char
  | name text => text.toList
  | parent => ['.', '.']
  | root | current => []

/-- A piece spells the step that it stands for. -/
theorem spelling_of_ofPiece? {piece : List Char} {step : Component}
    (h : ofPiece? piece = some step) : step.spelling = piece := by
  unfold ofPiece? at h
  split at h
  · cases h
  · split at h
    · next hparent =>
      cases h
      exact hparent.symm
    · cases h
      exact String.toList_ofList

/-- No piece stands for a root or for a leading dot. -/
theorem headComponent?_ne_ofPiece? {head piece : List Char} {step : Component}
    (h : Path.headComponent? head = some step) : ofPiece? piece ≠ some step := by
  have hstep : step = root ∨ step = current := by
    unfold Path.headComponent? at h
    split at h
    · exact Or.inl (Option.some.inj h).symm
    · exact Or.inr (Option.some.inj h).symm
    · cases h
  unfold ofPiece?
  rcases hstep with rfl | rfl <;> (repeat' split) <;> simp

end Component

namespace Path

/-- The pieces that are steps are spelled by the steps that they stand for. -/
theorem filter_isStep_eq_map (pieces : List (List Char)) :
    pieces.filter isStep = (pieces.filterMap Component.ofPiece?).map Component.spelling := by
  induction pieces with
  | nil => rfl
  | cons piece rest ih =>
    cases hpiece : Component.ofPiece? piece with
    | none => simp [isStep, hpiece, ih]
    | some step => simp [isStep, hpiece, ih, Component.spelling_of_ofPiece? hpiece]

/-- What stands in front of the pieces of a path holds no step. -/
theorem filter_isStep_split (path : Path) :
    (List.splitOn '/' path.text.toList).filter isStep = path.pieces.filter isStep := by
  unfold pieces splitHead
  split
  · next rest htext => rw [htext]; rfl
  · next htext => rw [htext]; rfl
  · next rest htext => rw [htext]; rfl
  · rfl

/-- A path is absolute if a root stands in front of its pieces. -/
theorem isAbsolute_iff (path : Path) :
    path.isAbsolute = true ↔ headComponent? (splitHead path.text.toList).1 = some .root := by
  unfold isAbsolute splitHead
  split
  · next rest htext => simp [htext, headComponent?]
  · next htext => simp [htext, headComponent?]
  · next rest htext => simp [htext, headComponent?]
  · next hslash _ _ =>
    cases htext : path.text.toList with
    | nil => simp [headComponent?]
    | cons c rest =>
      have hc : c ≠ '/' := by
        rintro rfl
        exact hslash rest htext
      simp [headComponent?, hc]

/-- Paths with the same steps start at the same directory and have the same pieces that are
steps. -/
theorem steps_eq_of_components_eq {first second : Path}
    (h : first.components = second.components) :
    first.isAbsolute = second.isAbsolute ∧
      (List.splitOn '/' first.text.toList).filter isStep =
        (List.splitOn '/' second.text.toList).filter isStep := by
  have hparts : headComponent? (splitHead first.text.toList).1 =
        headComponent? (splitHead second.text.toList).1 ∧
      first.pieces.filterMap Component.ofPiece? = second.pieces.filterMap Component.ofPiece? := by
    have hne : ∀ {path other : Path} {step : Component} {steps : List Component},
        headComponent? (splitHead path.text.toList).1 = some step →
          step :: steps ≠ other.pieces.filterMap Component.ofPiece? := by
      intro path other step steps hhead heq
      have hmem : step ∈ other.pieces.filterMap Component.ofPiece? := by
        rw [← heq]
        exact List.mem_cons_self
      obtain ⟨piece, -, hpiece⟩ := List.mem_filterMap.mp hmem
      exact Component.headComponent?_ne_ofPiece? hhead hpiece
    unfold components at h
    cases hfirst : headComponent? (splitHead first.text.toList).1 with
    | none =>
      cases hsecond : headComponent? (splitHead second.text.toList).1 with
      | none => exact ⟨rfl, by simpa [hfirst, hsecond] using h⟩
      | some step =>
        rw [hfirst, hsecond] at h
        exact absurd h.symm (hne hsecond)
    | some step =>
      cases hsecond : headComponent? (splitHead second.text.toList).1 with
      | none =>
        rw [hfirst, hsecond] at h
        exact absurd h (hne hfirst)
      | some other =>
        rw [hfirst, hsecond] at h
        obtain ⟨rfl, hsteps⟩ := List.cons.inj h
        exact ⟨rfl, hsteps⟩
  refine ⟨?_, ?_⟩
  · rw [Bool.eq_iff_iff, isAbsolute_iff, isAbsolute_iff, hparts.1]
  · rw [filter_isStep_split, filter_isStep_split, filter_isStep_eq_map, filter_isStep_eq_map,
      hparts.2]

end Path

namespace FileTree

/-- Only pieces that end in a step lead to a file. -/
theorem endsInStep_of_walk {tree : FileTree} {follow : Bool} {links : Nat}
    {place names : List String} {pieces : List (List Char)} {content : Content} {modified : Nat}
    (h : tree.walk follow links place pieces = .ok (names, .file content modified)) :
    EndsInStep pieces := by
  -- A piece that is a step ends the pieces, or the way goes on and the rest ends in a step.
  have hcons : ∀ {piece : List Char} {rest : List (List Char)}, isStep piece = true →
      (rest ≠ [] → EndsInStep rest) → EndsInStep (piece :: rest) := by
    intro piece rest hpiece hrest
    by_cases hnil : rest = []
    · exact ⟨piece, by rw [hnil]; rfl, hpiece⟩
    · exact (endsInStep_append_iff [piece] hnil).mpr (hrest hnil)
  fun_induction walk tree follow links place pieces with
  | case1 => cases h
  | case2 links place piece rest _ ih =>
    exact (endsInStep_append_iff [piece] (ih h).ne_nil).mpr (ih h)
  | case3 links place rest _ ih => exact hcons rfl fun _ => ih h
  | case4 => cases h
  | case5 => cases h
  | case6 links place piece rest hpiece _ _ _ _ ih =>
    exact hcons (isStep_of_not hpiece) fun _ => ih h
  | case7 links place piece hpiece =>
    exact hcons (isStep_of_not hpiece) fun hnil => absurd rfl hnil
  | case8 => cases h
  | case9 => simp only [Except.ok.injEq, Prod.mk.injEq, reduceCtorEq, and_false] at h
  | case10 => cases h
  | case11 place piece rest hpiece _ _ _ target _ _ links _ ih =>
    exact hcons (isStep_of_not hpiece) fun hnil => (endsInStep_append_iff _ hnil).mp (ih h)
  | case12 place piece rest hpiece _ _ _ target _ _ links _ ih =>
    exact hcons (isStep_of_not hpiece) fun hnil => (endsInStep_append_iff _ hnil).mp (ih h)

/-- A file at the end of a way is the entry at the end of its names. -/
theorem get?_of_walk {tree : FileTree} {follow : Bool} {links : Nat} {place names : List String}
    {pieces : List (List Char)} {content : Content} {modified : Nat}
    (h : tree.walk follow links place pieces = .ok (names, .file content modified)) :
    tree.get? names = some (.file content modified) := by
  fun_induction walk tree follow links place pieces with
  | case1 => cases h
  | case2 links place piece rest _ ih => exact ih h
  | case3 links place rest _ ih => exact ih h
  | case4 => cases h
  | case5 => cases h
  | case6 links place piece rest hpiece _ _ _ _ ih => exact ih h
  | case7 links place piece hpiece _ _ _ _ _ hget =>
    simp only [Except.ok.injEq, Prod.mk.injEq] at h
    obtain ⟨rfl, hentry⟩ := h
    rw [hget, hentry]
  | case8 => cases h
  | case9 => simp only [Except.ok.injEq, Prod.mk.injEq, reduceCtorEq, and_false] at h
  | case10 => cases h
  | case11 place piece rest hpiece _ _ _ target _ _ links _ ih => exact ih h
  | case12 place piece rest hpiece _ _ _ target _ _ links _ ih => exact ih h

/-- Pieces that end in a step lead the same way without those among them that are no steps. -/
theorem walk_filter_isStep (tree : FileTree) (follow : Bool) {links : Nat} {place : List String}
    {pieces : List (List Char)} (h : EndsInStep pieces) :
    tree.walk follow links place (pieces.filter isStep) = tree.walk follow links place pieces := by
  induction links using Nat.strongRecOn generalizing place pieces with
  | ind links ihLinks =>
  induction pieces generalizing place with
  | nil => rfl
  | cons piece rest ih =>
    by_cases hpiece : piece = [] ∨ piece = ['.']
    · have hnone := isStep_eq_false_iff.mpr hpiece
      rw [List.filter_cons_of_neg (by rw [hnone]; exact Bool.false_ne_true),
        ih (h.tail hnone), walk, if_pos hpiece]
    · rw [List.filter_cons_of_pos (isStep_of_not hpiece)]
      by_cases hnil : rest = []
      · rw [hnil, List.filter_nil]
      · have hrest : EndsInStep rest := (endsInStep_append_iff [piece] hnil).mp h
        have hfilter := hrest.filter.ne_nil
        -- Behind a link the pieces of its target stand before the rest.
        have hlink : ∀ fewer < links, ∀ (target : List (List Char)) (place : List String),
            tree.walk follow fewer place (target ++ rest.filter isStep) =
              tree.walk follow fewer place (target ++ rest) := by
          intro fewer hfewer target place
          rw [← ihLinks fewer hfewer ((endsInStep_append_iff _ hnil).mpr hrest),
            ← ihLinks fewer hfewer ((endsInStep_append_iff _ hfilter).mpr hrest.filter)]
          simp only [List.filter_append, List.filter_filter, Bool.and_self]
        rw [walk, walk]
        simp only [ih hrest, hnil, hfilter, false_and, if_false]
        cases links with
        | zero => rfl
        | succ fewer => simp only [hlink fewer (Nat.lt_succ_self fewer)]

/-- A spelling that can lead to a file: it is neither empty nor too long, holds no character that
ends it, and ends in a step. -/
structure WellSpelled (path : Path) : Prop where
  /-- There is a character. -/
  ne_nil : path.text.toList ≠ []
  /-- No character ends the path. -/
  not_ended : path.text.toList.contains (Char.ofNat 0) = false
  /-- The path is not too long. -/
  length_le : byteLength path.text.toList ≤ greatestPath
  /-- The last piece is a step. -/
  endsInStep : EndsInStep (List.splitOn '/' path.text.toList)

/-- A path that leads to a place is not empty or too long or ended, and its pieces lead there. -/
theorem walk_of_resolve {tree : FileTree} {path : Path} {place : Place}
    (h : tree.resolve path = .ok place) :
    path.text.toList ≠ [] ∧ path.text.toList.contains (Char.ofNat 0) = false ∧
      byteLength path.text.toList ≤ greatestPath ∧
      tree.walk true greatestLinks (if path.isAbsolute then [] else tree.directory)
        (List.splitOn '/' path.text.toList) = .ok place := by
  simp only [resolve, reach] at h
  split at h
  · cases h
  · next hnil =>
    split at h
    · cases h
    · next hended =>
      split at h
      · cases h
      · next hlong => exact ⟨hnil, by simpa using hended, Nat.le_of_not_gt hlong, h⟩

/-- A path that leads to a file in some tree is well spelled. -/
theorem wellSpelled_of_resolve {tree : FileTree} {path : Path} {names : List String}
    {content : Content} {modified : Nat}
    (h : tree.resolve path = .ok (names, .file content modified)) : WellSpelled path := by
  obtain ⟨hnil, hended, hlength, hwalk⟩ := walk_of_resolve h
  exact ⟨hnil, hended, hlength, endsInStep_of_walk hwalk⟩

/-- A file to which a path leads is the entry at the end of its names. -/
theorem get?_of_resolve {tree : FileTree} {path : Path} {names : List String} {content : Content}
    {modified : Nat} (h : tree.resolve path = .ok (names, .file content modified)) :
    tree.get? names = some (.file content modified) := by
  obtain ⟨-, -, -, hwalk⟩ := walk_of_resolve h
  exact get?_of_walk hwalk

/-- Well-spelled paths with the same steps lead the same way. -/
theorem resolve_eq_of_wellSpelled (tree : FileTree) {first second : Path}
    (hsteps : first.components = second.components) (hfirst : WellSpelled first)
    (hsecond : WellSpelled second) : tree.resolve first = tree.resolve second := by
  obtain ⟨habsolute, hpieces⟩ := Path.steps_eq_of_components_eq hsteps
  have hreach : ∀ {path : Path}, WellSpelled path → tree.resolve path =
      tree.walk true greatestLinks (if path.isAbsolute then [] else tree.directory)
        ((List.splitOn '/' path.text.toList).filter isStep) := by
    intro path hpath
    simp only [resolve, reach]
    rw [if_neg hpath.ne_nil, if_neg (by rw [hpath.not_ended]; exact Bool.false_ne_true),
      if_neg (Nat.not_lt.mpr hpath.length_le), walk_filter_isStep tree true hpath.endsInStep]
  rw [hreach hfirst, hreach hsecond, habsolute, hpieces]

end FileTree

end KeyLens
