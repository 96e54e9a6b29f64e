import KeyLens.Proofs.Files.Steps

/-!
# Directories above a place

The path that spells some names has above it the paths that spell the first of them, down to the
root.
-/

namespace KeyLens.FileTree

variable {tree : FileTree} {place names : List String} {name : String} {entry : Entry} {path : Path}

/-- The path of the first of some names is a spelling if theirs is. -/
theorem isSpelling_of_append (h : IsSpelling (pathOf (place ++ names))) :
    IsSpelling (pathOf place) := by
  obtain ⟨back, hback⟩ : (pathOf place).text.toList <+: (pathOf (place ++ names)).text.toList := by
    rw [toList_pathOf, toList_pathOf, List.map_append, List.cons_prefix_cons]
    exact ⟨rfl, Text.intercalate_prefix_append _ _⟩
  obtain ⟨hended, hlength⟩ := h
  rw [← hback] at hended hlength
  rw [byteLength_append] at hlength
  refine ⟨?_, Nat.le_trans (Nat.le_add_right _ _) hlength⟩
  simp only [List.contains_eq_mem, List.mem_append, decide_eq_false_iff_not, not_or] at hended ⊢
  exact hended.1

/-- The path that spells the first names of an entry is its own canonical spelling too. -/
theorem Stands.canonical_of_prefix (h : tree.Stands names entry)
    (hlink : ∀ target, entry ≠ .link target) (hspelling : IsSpelling (pathOf names))
    (hplace : place <+: names) : tree.canonical (pathOf place) = .ok (pathOf place) := by
  by_cases hsame : place = names
  · rw [hsame]
    exact h.canonical_eq hlink hspelling
  · obtain ⟨rest, rfl⟩ := hplace
    exact (h.of_shorter (List.prefix_append place rest) hsame).canonical_eq (by simp)
      (isSpelling_of_append hspelling)

/-- The pieces of a path that spells some names are the names. -/
theorem pieces_pathOf (hnames : names ≠ []) (h : ∀ name ∈ names, IsName name) :
    (pathOf names).pieces = names.map String.toList := by
  have hsplit := split_pathOf hnames h
  rw [toList_pathOf, Text.splitOn_cons_self, List.cons.injEq] at hsplit
  rw [Path.pieces, toList_pathOf]
  exact hsplit.2

/-- All pieces that are names are kept. -/
theorem trimPieces_map (h : ∀ name ∈ names, IsName name) :
    Path.trimPieces (names.map String.toList) = names.map String.toList := by
  rcases List.eq_nil_or_concat names with rfl | ⟨front, last, rfl⟩
  · rfl
  · have hlast : IsName last := h last (by simp)
    have hstep : (Component.ofPiece? last.toList).isNone = false := by
      rw [Component.ofPiece?, if_neg hlast.not_skipped, if_neg hlast.not_parent]
      rfl
    rw [Path.trimPieces, List.concat_eq_append, List.map_append, List.reverse_append]
    simp [hstep]

/-- Above the path that spells some names is the path of all but the last of them. -/
theorem parent?_pathOf_concat (hplace : ∀ other ∈ place, IsName other) (hname : IsName name) :
    (pathOf (place ++ [name])).parent? = some (pathOf place) := by
  have hnames : ∀ other ∈ place ++ [name], IsName other := by
    simpa [or_imp, forall_and] using ⟨hplace, hname⟩
  have hhead : (Path.splitHead (pathOf (place ++ [name])).text.toList).1 = ['/'] := by
    rw [toList_pathOf]
    rfl
  have htrim : Path.trimPieces (pathOf (place ++ [name])).pieces =
      (place ++ [name]).map String.toList := by
    rw [pieces_pathOf (by simp) hnames, trimPieces_map hnames]
  have htext : String.ofList ('/' :: List.intercalate ['/'] (place.map String.toList)) =
      (pathOf place).text := by
    rw [← toList_pathOf, String.ofList_toList]
  have hdrop : ((place ++ [name]).map String.toList).dropLast = place.map String.toList := by simp
  rw [Path.parent?, htrim, hhead, if_neg (by simp), hdrop, trimPieces_map hplace]
  exact congrArg some (congrArg Path.mk htext)

/-- Nothing is above the root. -/
theorem parent?_pathOf_nil : (pathOf []).parent? = none := by
  decide

/-- A path above the one that spells some names spells the first of them. -/
theorem exists_of_mem_upwards (h : ∀ name ∈ names, IsName name)
    (hpath : path ∈ (pathOf names).upwards) : ∃ place, place <+: names ∧ path = pathOf place := by
  rw [Path.upwards] at hpath
  generalize (pathOf names).components.length = count at hpath
  induction count generalizing names with
  | zero => exact ⟨names, List.prefix_rfl, List.mem_singleton.mp hpath⟩
  | succ count ih =>
    rcases List.mem_cons.mp hpath with rfl | habove
    · exact ⟨names, List.prefix_rfl, rfl⟩
    · rcases List.eq_nil_or_concat names with rfl | ⟨front, last, rfl⟩
      · rw [parent?_pathOf_nil] at habove
        cases habove
      · rw [List.concat_eq_append] at h habove ⊢
        have hfront : ∀ name ∈ front, IsName name := fun name hname =>
          h name (List.mem_append_left _ hname)
        rw [parent?_pathOf_concat hfront (h last (by simp))] at habove
        obtain ⟨place, hplace, hsame⟩ := ih hfront habove
        exact ⟨place, hplace.trans (List.prefix_append _ _), hsame⟩

end KeyLens.FileTree
