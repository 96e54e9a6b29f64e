import KeyLens.Glob.Expand
import KeyLens.Proofs.Text.Pieces

/-!
# Ways along the steps of a pattern

Each path that a pattern describes lies at the end of a way along the steps of the pattern. What
holds at the start of every way and is kept by each step holds for all these paths.
-/

namespace KeyLens.Glob

open FileTree (Place)

/-- A way along the steps of a pattern from a path to another one, at most `depth` directories deep
where any depth is asked for. -/
inductive Way (tree : FileTree) : Nat → Path → List Step → Path → Prop
  /-- No step is left. -/
  | done {depth : Nat} {base : Path} : Way tree depth base [] base
  /-- A name is followed as it is written. -/
  | plain {depth : Nat} {base path : Path} {name : String} {rest : List Step}
      (leads : (if isSpecial name then tree.isDirectory base
        else tree.exists? (follow base name)) = true)
      (onward : Way tree depth (follow base name) rest path) :
      Way tree depth base (.plain name :: rest) path
  /-- A special name that the pattern describes. -/
  | special {depth : Nat} {base path : Path} {pattern : Pattern} {name : String} {rest : List Step}
      (directory : tree.isDirectory base = true) (admitted : name ∈ specials pattern)
      (onward : Way tree depth (base.join name) rest path) :
      Way tree depth base (.wild pattern :: rest) path
  /-- An entry of a directory that the pattern describes. -/
  | wild {depth : Nat} {base path : Path} {pattern : Pattern} {name : String} {rest : List Step}
      {place : List String} (directory : tree.resolve base = .ok (place, .directory))
      (entry : name ∈ tree.children place) (admitted : pattern.matches? name = true)
      (onward : Way tree depth (follow base name) rest path) :
      Way tree depth base (.wild pattern :: rest) path
  /-- A directory at the end of a pattern that leads to any depth. -/
  | last {depth : Nat} {base : Path} {name : String} {place : List String}
      (directory : tree.resolve base = .ok (place, .directory))
      (entry : name ∈ tree.children place)
      (below : tree.isDirectory (follow base name) = true) :
      Way tree depth base [.anywhere] (follow base name)
  /-- An entry from which the way goes on with the step behind. -/
  | here {depth : Nat} {base path : Path} {step : Step} {name : String} {rest : List Step}
      {place : List String} (directory : tree.resolve base = .ok (place, .directory))
      (entry : name ∈ tree.children place) (admitted : step.admits name = true)
      (onward : Way tree depth (follow base name) rest path) :
      Way tree depth base (.anywhere :: step :: rest) path
  /-- An entry below which the way goes deeper. -/
  | deeper {depth : Nat} {base path : Path} {name : String} {rest : List Step}
      {place : List String} (directory : tree.resolve base = .ok (place, .directory))
      (entry : name ∈ tree.children place)
      (onward : Way tree depth (follow base name) (.anywhere :: rest) path) :
      Way tree (depth + 1) base (.anywhere :: rest) path

variable {tree : FileTree} {depth : Nat} {base path : Path} {row : List Step} {name : String}

/-- A path that leads to a directory leads to the place of the directory. -/
theorem isDirectory_iff : tree.isDirectory base = true ↔
    ∃ place, tree.resolve base = .ok (place, .directory) := by
  unfold FileTree.isDirectory
  split
  · next place h => simp [h]
  · next h =>
    simp only [Bool.false_eq_true, false_iff]
    rintro ⟨place, hplace⟩
    exact h place hplace

/-- What is listed below a path are the entries of the directory to which it leads. -/
theorem mem_list_iff : name ∈ ((tree.list base).toOption.getD []) ↔
    ∃ place, tree.resolve base = .ok (place, .directory) ∧ name ∈ tree.children place := by
  unfold FileTree.list
  split
  · next h => simp [h, Except.toOption]
  · next place h => simp [h, Except.toOption]
  · next found hdirectory h =>
    simp only [h, Except.toOption, Option.getD_none, List.not_mem_nil, Except.ok.injEq, false_iff]
    rintro ⟨place, rfl, -⟩
    exact hdirectory place rfl

/-- A name without wildcards is followed if it leads somewhere. -/
theorem mem_expand_plain {rest : List Step} : path ∈ expand tree depth base (.plain name :: rest) ↔
    (if isSpecial name then tree.isDirectory base else tree.exists? (follow base name)) = true ∧
      path ∈ expand tree depth (follow base name) rest := by
  rw [expand]
  generalize (if isSpecial name then tree.isDirectory base
    else tree.exists? (follow base name)) = leads
  cases leads <;> simp

/-- Names that a pattern describes are followed, special ones and those of entries. -/
theorem mem_expand_wild {pattern : Pattern} {rest : List Step} :
    path ∈ expand tree depth base (.wild pattern :: rest) ↔
      (tree.isDirectory base = true ∧
        ∃ name ∈ specials pattern, path ∈ expand tree depth (base.join name) rest) ∨
      ∃ place name, tree.resolve base = .ok (place, .directory) ∧ name ∈ tree.children place ∧
        pattern.matches? name = true ∧ path ∈ expand tree depth (follow base name) rest := by
  rw [expand]
  by_cases hdirectory : tree.isDirectory base = true
  · simp only [hdirectory, if_true, List.mem_append, List.mem_flatMap, mem_list_iff, true_and]
    refine or_congr_right ⟨?_, ?_⟩
    · rintro ⟨name, ⟨place, hplace, hname⟩, hpath⟩
      split at hpath
      · next hmatches => exact ⟨place, name, hplace, hname, hmatches, hpath⟩
      · cases hpath
    · rintro ⟨place, name, hplace, hname, hmatches, hpath⟩
      exact ⟨name, ⟨place, hplace, hname⟩, by rwa [if_pos hmatches]⟩
  · have hnone : ∀ place, tree.resolve base ≠ .ok (place, .directory) :=
      fun place hplace => hdirectory (isDirectory_iff.mpr ⟨place, hplace⟩)
    simp [hdirectory, hnone]

/-- Entries are followed to their own entries, to the step behind or to the end. -/
theorem mem_expand_anywhere {rest : List Step} :
    path ∈ expand tree depth base (.anywhere :: rest) ↔
      ∃ place name, tree.resolve base = .ok (place, .directory) ∧ name ∈ tree.children place ∧
        ((rest = [] ∧ tree.isDirectory (follow base name) = true ∧ path = follow base name) ∨
          (∃ step more, rest = step :: more ∧ step.admits name = true ∧
            path ∈ expand tree depth (follow base name) more) ∨
          ∃ less, depth = less + 1 ∧
            path ∈ expand tree less (follow base name) (.anywhere :: rest)) := by
  rw [expand]
  by_cases hdirectory : tree.isDirectory base = true
  · simp only [hdirectory, if_true, List.mem_flatMap, mem_list_iff, List.mem_append]
    constructor
    · rintro ⟨name, ⟨place, hplace, hname⟩, hpath⟩
      refine ⟨place, name, hplace, hname, ?_⟩
      rcases hpath with hpath | hpath
      · cases rest with
        | nil =>
          rw [List.mem_ite_nil_right, List.mem_singleton] at hpath
          exact Or.inl ⟨rfl, hpath⟩
        | cons step more =>
          rw [List.mem_ite_nil_right] at hpath
          exact Or.inr (Or.inl ⟨step, more, rfl, hpath⟩)
      · cases depth with
        | zero => cases hpath
        | succ less => exact Or.inr (Or.inr ⟨less, rfl, hpath⟩)
    · rintro ⟨place, name, hplace, hname, hpath⟩
      refine ⟨name, ⟨place, hplace, hname⟩, ?_⟩
      rcases hpath with ⟨rfl, hbelow, rfl⟩ | ⟨step, more, rfl, hadmits, hpath⟩ | ⟨less, rfl, hpath⟩
      · simp [hbelow]
      · simp [hadmits, hpath]
      · exact Or.inr hpath
  · have hnone : ∀ place, tree.resolve base ≠ .ok (place, .directory) :=
      fun place hplace => hdirectory (isDirectory_iff.mpr ⟨place, hplace⟩)
    simp [hdirectory, hnone]

/-- The paths to which steps lead are those at the end of a way along them. -/
theorem mem_expand_iff : path ∈ expand tree depth base row ↔ Way tree depth base row path := by
  constructor
  · intro h
    induction depth, base, row using expand.induct tree with
    | case1 =>
      rw [expand, List.mem_singleton] at h
      rw [h]
      exact .done
    | case2 depth base name rest next leads hleads ih =>
      obtain ⟨hleads, hpath⟩ := mem_expand_plain.mp h
      exact .plain hleads (ih hpath)
    | case3 depth base name rest next leads hleads =>
      exact absurd (mem_expand_plain.mp h).1 hleads
    | case4 depth base pattern rest hdirectory ihSpecial ihWild =>
      rcases mem_expand_wild.mp h with ⟨_, name, hname, hpath⟩ |
        ⟨place, name, hplace, hname, hmatches, hpath⟩
      · exact .special hdirectory hname (ihSpecial name hpath)
      · exact .wild hplace hname hmatches (ihWild name hpath)
    | case5 depth base pattern rest hdirectory =>
      rw [expand, if_neg hdirectory] at h
      cases h
    | case6 depth base rest hdirectory ihHere ihDeeper =>
      obtain ⟨place, name, hplace, hname, hpath⟩ := mem_expand_anywhere.mp h
      rcases hpath with ⟨rfl, hbelow, rfl⟩ | ⟨step, more, rfl, hadmits, hpath⟩ | ⟨less, rfl, hpath⟩
      · exact .last hplace hname hbelow
      · exact .here hplace hname hadmits (ihHere name hpath)
      · exact .deeper hplace hname (ihDeeper name hpath)
    | case7 depth base rest hdirectory =>
      rw [expand, if_neg hdirectory] at h
      cases h
  · intro h
    induction h with
    | done => rw [expand]; exact List.mem_singleton_self _
    | plain leads _ ih => exact mem_expand_plain.mpr ⟨leads, ih⟩
    | special directory admitted _ ih =>
      exact mem_expand_wild.mpr (Or.inl ⟨directory, _, admitted, ih⟩)
    | wild directory entry admitted _ ih =>
      exact mem_expand_wild.mpr (Or.inr ⟨_, _, directory, entry, admitted, ih⟩)
    | last directory entry below =>
      exact mem_expand_anywhere.mpr ⟨_, _, directory, entry, Or.inl ⟨rfl, below, rfl⟩⟩
    | here directory entry admitted _ ih =>
      exact mem_expand_anywhere.mpr
        ⟨_, _, directory, entry, Or.inr (Or.inl ⟨_, _, rfl, admitted, ih⟩)⟩
    | deeper directory entry _ ih =>
      exact mem_expand_anywhere.mpr ⟨_, _, directory, entry, Or.inr (Or.inr ⟨_, rfl, ih⟩)⟩

/-- The path from which the steps of a pattern lead. -/
def startOf (text : List Char) : Path :=
  if text.head? = some '/' then ⟨"/"⟩ else ⟨"."⟩

/-- A path that a pattern describes lies at the end of a way along the steps of the pattern. -/
theorem exists_way_of_mem_paths {pattern : String} {found : List Path}
    (h : paths tree pattern = .ok found) (hpath : path ∈ found) :
    ∃ row, steps pattern.toList = .ok row ∧ row ≠ [] ∧
      Way tree FileTree.greatestPath (startOf pattern.toList) row path := by
  unfold paths at h
  cases htokens : tokens 0 none pattern.toList with
  | error fault => simp [htokens, Except.bind] at h
  | ok parts =>
    cases hsteps : steps pattern.toList with
    | error fault => simp [htokens, hsteps, Except.bind, Except.map] at h
    | ok row =>
      simp only [htokens, hsteps, Except.bind, Except.map, Except.ok.injEq] at h
      by_cases hrow : row = []
      · rw [← h, if_pos hrow] at hpath
        cases hpath
      · rw [← h, if_neg hrow] at hpath
        exact ⟨row, rfl, hrow, mem_expand_iff.mp hpath⟩

end KeyLens.Glob
