import KeyLens.Scan

/-!
# Paths in order

Paths are ordered by their steps: a path comes before those below it, and otherwise the first step
in which two paths differ decides. Paths in order hold each row of steps once, so that they depend
on which paths there are and on nothing else, as long as no path has two spellings.
-/

namespace KeyLens

/-! ### The order of steps -/

namespace Component

/-- The text of a name; other steps have none. -/
def label : Component → String
  | name text => text
  | root | current | parent => ""

/-- Steps are compared by their kinds, and then by their texts. -/
theorem compare_eq_compareLex :
    Component.compare = compareLex (compareOn rank) (compareOn label) := by
  funext left right
  cases left <;> cases right <;> rfl

/-- A step is known by its kind and its text. -/
theorem eq_of_rank_label {left right : Component} (hrank : left.rank = right.rank)
    (hlabel : left.label = right.label) : left = right := by
  cases left with
  | name text =>
    cases right with
    | name other => exact congrArg name hlabel
    | root | current | parent => cases hrank
  | root | current | parent => cases right <;> first | rfl | cases hrank

instance : Std.TransCmp Component.compare := by
  rw [compare_eq_compareLex]
  infer_instance

instance : Std.LawfulEqCmp Component.compare where
  compare_self := Std.ReflCmp.compare_self
  eq_of_compare := by
    intro left right h
    rw [compare_eq_compareLex, compareLex_eq_eq] at h
    exact eq_of_rank_label (Std.LawfulEqCmp.eq_of_compare h.1) (Std.LawfulEqCmp.eq_of_compare h.2)

end Component

/-! ### The order of paths -/

namespace Path

/-- The steps of paths are compared in turn. -/
theorem compareComponents_eq_compareLex (left right : List Component) :
    compareComponents left right = List.compareLex Component.compare left right := by
  induction left generalizing right with
  | nil => cases right <;> rfl
  | cons step left ih =>
    cases right with
    | nil => rfl
    | cons other right =>
      rw [compareComponents, List.compareLex_cons_cons, ih]

instance : Std.TransCmp compareComponents := by
  rw [show compareComponents = List.compareLex Component.compare from
    funext fun left => funext (compareComponents_eq_compareLex left)]
  infer_instance

instance : Std.TransCmp Path.compare where
  eq_swap := by
    intro left right
    simp only [compare, compareComponents_eq_compareLex]
    exact Std.OrientedCmp.eq_swap
  isLE_trans := by
    intro first second third
    simp only [compare, compareComponents_eq_compareLex]
    exact Std.TransCmp.isLE_trans

/-- Steps in front of both of two rows do not change their order. -/
theorem compareComponents_append (front left right : List Component) :
    compareComponents (front ++ left) (front ++ right) = compareComponents left right := by
  induction front with
  | nil => rfl
  | cons step rest ih =>
    have hsame : step.compare step = .eq := Std.ReflCmp.compare_self
    rw [List.cons_append, List.cons_append, compareComponents, hsame, ih]
    rfl

/-- Two paths stand in one place of the order exactly if they have the same steps. -/
theorem compare_eq_eq_iff {left right : Path} :
    left.compare right = .eq ↔ left.components = right.components := by
  rw [compare, compareComponents_eq_compareLex]
  constructor
  · exact Std.LawfulEqCmp.eq_of_compare
  · intro h
    rw [h]
    exact Std.ReflCmp.compare_self

/-- A path may stand before another one if it is not greater. -/
theorem le_eq_isLE (left right : Path) : left.le right = (left.compare right).isLE := by
  rw [le]
  cases left.compare right <;> rfl

/-- A path that may stand before one with other steps is less. -/
theorem compare_eq_lt {left right : Path} (hle : left.le right = true)
    (hne : left.components ≠ right.components) : left.compare right = .lt := by
  rw [le_eq_isLE] at hle
  cases hcompare : left.compare right with
  | lt => rfl
  | eq => exact absurd (compare_eq_eq_iff.mp hcompare) hne
  | gt =>
    rw [hcompare] at hle
    cases hle

end Path

/-! ### Each row of steps once -/

namespace Scan

variable {path : Path} {paths others rest : List Path}

/-- A path in front of others, in place of the first of them if that has the same steps. -/
def once (path : Path) (rest : List Path) : List Path :=
  path :: match rest with
    | next :: others => if next.components = path.components then others else rest
    | [] => []

/-- Paths in order are sorted, and each is put once in front of those behind it. -/
theorem inOrder_eq_foldr (paths : List Path) :
    inOrder paths = (paths.mergeSort Path.le).foldr once [] :=
  rfl

/-- Nothing new stands behind a path that is put in front. -/
theorem mem_of_mem_once {first : Path} (h : path ∈ once first rest) : path = first ∨ path ∈ rest := by
  rcases List.mem_cons.mp h with h | h
  · exact Or.inl h
  · right
    split at h
    · split at h
      · exact List.mem_cons_of_mem _ h
      · exact h
    · cases h

/-- Each row of steps stays. -/
theorem exists_mem_once {first : Path} (h : path = first ∨ path ∈ rest) :
    ∃ other ∈ once first rest, other.components = path.components := by
  rcases h with rfl | h
  · exact ⟨path, List.mem_cons_self, rfl⟩
  · cases rest with
    | nil => cases h
    | cons next others =>
      unfold once
      by_cases hsame : next.components = first.components
      · simp only [if_pos hsame]
        rcases List.mem_cons.mp h with rfl | h
        · exact ⟨first, List.mem_cons_self, hsame.symm⟩
        · exact ⟨path, List.mem_cons_of_mem first h, rfl⟩
      · simp only [if_neg hsame]
        exact ⟨path, List.mem_cons_of_mem first h, rfl⟩

/-- A path that is not greater may be put once in front of a row in order. -/
theorem pairwise_once {first : Path}
    (hrest : rest.Pairwise fun left right => left.compare right = .lt)
    (hfirst : ∀ other ∈ rest, first.le other = true) :
    (once first rest).Pairwise fun left right => left.compare right = .lt := by
  cases rest with
  | nil => exact List.pairwise_singleton _ first
  | cons next others =>
    obtain ⟨hnext, hothers⟩ := List.pairwise_cons.mp hrest
    have hle := hfirst next List.mem_cons_self
    rw [Path.le_eq_isLE] at hle
    have hbehind : ∀ other ∈ others, first.compare other = .lt :=
      fun other hother => Std.TransCmp.lt_of_isLE_of_lt hle (hnext other hother)
    unfold once
    by_cases hsame : next.components = first.components
    · simp only [if_pos hsame]
      exact List.pairwise_cons.mpr ⟨hbehind, hothers⟩
    · simp only [if_neg hsame]
      refine List.pairwise_cons.mpr ⟨fun other hother => ?_, hrest⟩
      rcases List.mem_cons.mp hother with rfl | hother
      · exact Path.compare_eq_lt (hfirst other List.mem_cons_self) (Ne.symm hsame)
      · exact hbehind other hother

/-- Nothing new stands in a row in which each path is put once. -/
theorem mem_of_mem_foldr_once (h : path ∈ rest.foldr once []) : path ∈ rest := by
  induction rest with
  | nil => cases h
  | cons first rest ih =>
    rcases mem_of_mem_once h with rfl | h
    · exact List.mem_cons_self
    · exact List.mem_cons_of_mem first (ih h)

/-- What stands in order was there before. -/
theorem mem_of_mem_inOrder (h : path ∈ inOrder paths) : path ∈ paths :=
  List.mem_mergeSort.mp (mem_of_mem_foldr_once h)

/-- What was there before stands in order with the same steps. -/
theorem exists_mem_inOrder (h : path ∈ paths) :
    ∃ other ∈ inOrder paths, other.components = path.components := by
  have h : path ∈ paths.mergeSort Path.le := List.mem_mergeSort.mpr h
  rw [inOrder_eq_foldr]
  generalize paths.mergeSort Path.le = row at h ⊢
  induction row with
  | nil => cases h
  | cons first rest ih =>
    rw [List.foldr_cons]
    rcases List.mem_cons.mp h with rfl | h
    · exact exists_mem_once (Or.inl rfl)
    · obtain ⟨other, hother, hsame⟩ := ih h
      obtain ⟨kept, hkept, hagain⟩ := exists_mem_once (Or.inr hother)
      exact ⟨kept, hkept, hagain.trans hsame⟩

/-- Paths in order are ordered strictly. -/
theorem pairwise_inOrder (paths : List Path) :
    (inOrder paths).Pairwise fun left right => left.compare right = .lt := by
  have hsorted : (paths.mergeSort Path.le).Pairwise fun left right => left.le right = true := by
    refine List.pairwise_mergeSort (fun first second third => ?_) (fun left right => ?_) paths
    · simp only [Path.le_eq_isLE]
      exact Std.TransCmp.isLE_trans
    · rw [Path.le_eq_isLE, Path.le_eq_isLE, @Std.OrientedCmp.eq_swap _ Path.compare _ right left]
      cases left.compare right <;> rfl
  rw [inOrder_eq_foldr]
  generalize paths.mergeSort Path.le = row at hsorted ⊢
  induction row with
  | nil => exact List.Pairwise.nil
  | cons first rest ih =>
    obtain ⟨hfirst, hrest⟩ := List.pairwise_cons.mp hsorted
    exact pairwise_once (ih hrest) fun other hother => hfirst other (mem_of_mem_foldr_once hother)

/-- Values that are ordered strictly do not repeat. -/
theorem nodup_of_pairwise {α : Type} {order : α → α → Ordering} [Std.TransCmp order]
    {row : List α} (h : row.Pairwise fun left right => order left right = .lt) : row.Nodup := by
  refine h.imp ?_
  rintro left _ hlt rfl
  have heq : order left left = .eq := Std.ReflCmp.compare_self
  rw [heq] at hlt
  cases hlt

/-- Rows that are ordered strictly are equal if they hold the same values. -/
theorem eq_of_mem_iff {α : Type} {order : α → α → Ordering} [Std.TransCmp order]
    {row other : List α} (h : row.Pairwise fun left right => order left right = .lt)
    (hother : other.Pairwise fun left right => order left right = .lt)
    (hmem : ∀ value, value ∈ row ↔ value ∈ other) : row = other := by
  refine List.Perm.eq_of_pairwise (fun left right _ _ hlt hgt => ?_) h hother
    ((List.perm_ext_iff_of_nodup (nodup_of_pairwise h) (nodup_of_pairwise hother)).mpr hmem)
  have hswap : order left right = (order right left).swap := Std.OrientedCmp.eq_swap
  rw [hlt, hgt] at hswap
  cases hswap

/-- If no path has two spellings, all of them stand in order. -/
theorem mem_inOrder_iff
    (h : ∀ left ∈ paths, ∀ right ∈ paths, left.components = right.components → left = right) :
    path ∈ inOrder paths ↔ path ∈ paths := by
  refine ⟨mem_of_mem_inOrder, fun hpath => ?_⟩
  obtain ⟨other, hother, hsame⟩ := exists_mem_inOrder hpath
  rwa [← h other (mem_of_mem_inOrder hother) path hpath hsame]

end Scan

end KeyLens
