import KeyLens.Proofs.Files.Steps
import Mathlib.Data.List.DropRight

/-!
# Paths above a path

The path above an absolute one leads along all of its steps but the last, however the path is
written. So the paths above an absolute path lead along the first of its steps, down to the root
alone, and the list of them leaves none out.
-/

namespace KeyLens.Path

variable {path start dir : Path} {pieces : List (List Char)}

/-! ### One step up -/

/-- Pieces are trimmed from the right, up to the last one that is a step. -/
theorem trimPieces_eq (pieces : List (List Char)) :
    trimPieces pieces = pieces.rdropWhile fun piece => (Component.ofPiece? piece).isNone :=
  rfl

/-- Pieces without those at their end stand for the same steps. -/
theorem filterMap_trimPieces (pieces : List (List Char)) :
    (trimPieces pieces).filterMap Component.ofPiece? = pieces.filterMap Component.ofPiece? := by
  rw [trimPieces_eq]
  induction pieces using List.reverseRecOn with
  | nil => rfl
  | append_singleton front last ih =>
    cases hlast : Component.ofPiece? last with
    | none =>
      rw [List.rdropWhile_concat_pos _ _ _ (by rw [hlast]; rfl), ih, List.filterMap_append]
      simp [hlast]
    | some step => rw [List.rdropWhile_concat_neg _ _ _ (by rw [hlast]; exact Bool.false_ne_true)]

/-- Pieces that end in a step stand for it and, without it, for the steps in front of it. -/
theorem dropLast_filterMap_trimPieces (pieces : List (List Char)) :
    (trimPieces pieces).dropLast.filterMap Component.ofPiece? =
      (pieces.filterMap Component.ofPiece?).dropLast := by
  rw [← filterMap_trimPieces pieces]
  rcases List.eq_nil_or_concat (trimPieces pieces) with hnil | ⟨front, last, hconcat⟩
  · rw [hnil]
    rfl
  · obtain ⟨step, hstep⟩ : ∃ step, Component.ofPiece? last = some step := by
      have hlast := List.rdropWhile_last_not (fun piece => (Component.ofPiece? piece).isNone)
        pieces (by rw [← trimPieces_eq, hconcat]; simp)
      rw [← Option.ne_none_iff_exists']
      simpa [← trimPieces_eq, hconcat] using hlast
    rw [hconcat, List.concat_eq_append, List.dropLast_concat, List.filterMap_append]
    simp [hstep]

/-- Pieces are left of a text exactly if it has steps. -/
theorem trimPieces_eq_nil_iff :
    trimPieces pieces = [] ↔ pieces.filterMap Component.ofPiece? = [] := by
  rw [trimPieces_eq, List.rdropWhile_eq_nil_iff, List.filterMap_eq_nil_iff]
  simp only [Option.isNone_iff_eq_none]

/-- Pieces behind a slash stand for their steps when slashes stand between them. -/
theorem stepsOf_join (h : ∀ piece ∈ pieces, '/' ∉ piece) :
    stepsOf ('/' :: List.intercalate ['/'] pieces) = pieces.filterMap Component.ofPiece? := by
  have hslash := stepsOf_append [] (List.intercalate ['/'] pieces)
  rw [List.nil_append] at hslash
  rw [hslash]
  by_cases hpieces : pieces = []
  · rw [hpieces]
    rfl
  · rw [show stepsOf ([] : List Char) = [] from rfl, List.nil_append, stepsOf,
      List.splitOn_intercalate '/' h hpieces]

/-- An absolute path leads from the root along its pieces. -/
theorem components_eq_pieces (h : path.isAbsolute = true) :
    path.components = .root :: path.pieces.filterMap Component.ofPiece? := by
  obtain ⟨rest, htext⟩ := exists_of_isAbsolute h
  rw [components, htext]
  rfl

/-- Above the root is nothing, and above another absolute path is one that leads along all of its
steps but the last. -/
theorem parent?_of_isAbsolute (h : path.isAbsolute = true) :
    path.parent?.map components =
      if path.components.length = 1 then none else some path.components.dropLast := by
  obtain ⟨rest, htext⟩ := exists_of_isAbsolute h
  have hhead : (splitHead path.text.toList).1 = ['/'] := by rw [htext]; rfl
  have hcomponents := components_eq_pieces h
  rw [parent?, hhead]
  by_cases hsteps : path.pieces.filterMap Component.ofPiece? = []
  · have htrim := trimPieces_eq_nil_iff.mpr hsteps
    rw [if_pos htrim, if_neg (by decide), hcomponents, hsteps]
    rfl
  · have htrim := mt trimPieces_eq_nil_iff.mp hsteps
    -- The pieces that are left are pieces of the path, so that no slash is in them.
    have hfree : ∀ piece ∈ trimPieces (trimPieces path.pieces).dropLast, '/' ∉ piece := by
      intro piece hpiece
      have hkept := (List.rdropWhile_prefix _ _).subset hpiece
      exact Text.not_mem_of_mem_splitOn
        ((List.rdropWhile_prefix _ _).subset (List.dropLast_subset _ hkept))
    have habsolute : (Path.mk (String.ofList (['/'] ++
        List.intercalate ['/'] (trimPieces (trimPieces path.pieces).dropLast)))).isAbsolute := by
      simp [isAbsolute]
    rw [if_neg htrim, Option.map_some, components_of_isAbsolute habsolute, String.toList_ofList,
      List.singleton_append, stepsOf_join hfree, filterMap_trimPieces,
      dropLast_filterMap_trimPieces, hcomponents,
      if_neg (by simpa [List.length_eq_zero_iff] using hsteps)]
    rw [List.dropLast_cons_of_ne_nil hsteps]

/-! ### Several steps up -/

/-- The path that is some steps above a path; none if it has not as many. -/
def above? : Nat → Path → Option Path
  | 0, path => some path
  | steps + 1, path => path.parent?.bind (above? steps)

/-- What is above an absolute path leads along the first of its steps: the path one step above leads
along all but the last of them, and so on to the root. -/
theorem above?_of_isAbsolute (h : start.isAbsolute = true) (steps : Nat) :
    (start.above? steps).map components =
      if steps < start.components.length then
        some (start.components.take (start.components.length - steps))
      else none := by
  induction steps generalizing start with
  | zero =>
    have hcomponents := components_eq_pieces h
    rw [above?, if_pos (by rw [hcomponents]; exact Nat.succ_pos _), Nat.sub_zero, List.take_length]
    rfl
  | succ steps ih =>
    have hparent := parent?_of_isAbsolute h
    have hcomponents := components_eq_pieces h
    cases habove : start.parent? with
    | none =>
      rw [habove] at hparent
      split at hparent
      · next hlength => rw [above?, habove, if_neg (by omega)]; rfl
      · cases hparent
    | some parent =>
      rw [habove] at hparent
      split at hparent
      · cases hparent
      · next hlength =>
        have hlast : parent.components = start.components.dropLast := Option.some.inj hparent
        have hpos : 0 < start.components.length := by rw [hcomponents]; exact Nat.succ_pos _
        rw [above?, habove, Option.bind_some, ih (isAbsolute_parent? h habove), hlast,
          List.length_dropLast]
        by_cases hsteps : steps + 1 < start.components.length
        · rw [if_pos hsteps, if_pos (by omega), List.dropLast_eq_take, List.take_take]
          congr 2
          omega
        · rw [if_neg hsteps, if_neg (by omega)]

/-- What is above an absolute path is absolute. -/
theorem isAbsolute_of_above? {steps : Nat} (h : start.isAbsolute = true)
    (habove : start.above? steps = some dir) : dir.isAbsolute = true := by
  induction steps generalizing start with
  | zero => rwa [← Option.some.inj habove]
  | succ steps ih =>
    obtain ⟨parent, hparent, hdir⟩ := Option.bind_eq_some_iff.mp habove
    exact ih (isAbsolute_parent? h hparent) hdir

/-- Among a path and those above it, up to `count` steps, are those above it in their order. -/
theorem getElem?_upwardsIn {count steps : Nat} (h : steps ≤ count) :
    (upwardsIn count start)[steps]? = start.above? steps := by
  induction count generalizing start steps with
  | zero =>
    obtain rfl : steps = 0 := by omega
    rfl
  | succ count ih =>
    cases steps with
    | zero => rfl
    | succ steps =>
      rw [upwardsIn, List.getElem?_cons_succ, above?]
      cases start.parent? with
      | none => rfl
      | some parent => exact ih (by omega)

/-- There are no more paths above one than are listed. -/
theorem length_upwardsIn_le (count : Nat) (start : Path) :
    (upwardsIn count start).length ≤ count + 1 := by
  induction count generalizing start with
  | zero => exact Nat.le_refl 1
  | succ count ih =>
    rw [upwardsIn, List.length_cons]
    cases start.parent? with
    | none => exact Nat.succ_le_succ (Nat.zero_le _)
    | some parent => exact Nat.succ_le_succ (ih parent)

/-- The paths above an absolute path are listed in their order, and none is left out. -/
theorem getElem?_upwards (h : start.isAbsolute = true) (steps : Nat) :
    start.upwards[steps]? = start.above? steps := by
  by_cases hsteps : steps ≤ start.components.length
  · exact getElem?_upwardsIn hsteps
  · have hnone : start.above? steps = none := by
      have hspec := above?_of_isAbsolute h steps
      rw [if_neg (by omega)] at hspec
      exact Option.map_eq_none_iff.mp hspec
    have hlength := length_upwardsIn_le start.components.length start
    rw [hnone, List.getElem?_eq_none_iff, upwards]
    omega

end KeyLens.Path
