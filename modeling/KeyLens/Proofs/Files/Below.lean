import KeyLens.Proofs.Files.Steps

/-!
# Paths below a directory

A path lies below a directory if it leads on from it without a step back to the root or upwards. A
text that is followed from such a path stays below the directory unless it is absolute or one of its
pieces is two dots: nothing else in a text leads out of a directory.
-/

namespace KeyLens.Path

variable {dir base path : Path} {steps : List Component} {text language file : String}

/-- A path starts with the steps of a directory, and none of those behind them leads to the root or
upwards. -/
def LiesBelow (path dir : Path) : Prop :=
  ∃ steps, path.components = dir.components ++ steps ∧ .root ∉ steps ∧ .parent ∉ steps

/-- A text that leads on from wherever it is followed. -/
structure LeadsOn (text : String) : Prop where
  /-- It is relative. -/
  relative : text.toList.head? ≠ some '/'
  /-- None of its pieces leads upwards. -/
  no_parent : ['.', '.'] ∉ List.splitOn '/' text.toList

instance (text : String) : Decidable (LeadsOn text) :=
  decidable_of_iff (text.toList.head? ≠ some '/' ∧ ['.', '.'] ∉ List.splitOn '/' text.toList)
    ⟨fun ⟨hrelative, hparent⟩ => ⟨hrelative, hparent⟩, fun h => ⟨h.relative, h.no_parent⟩⟩

/-- The steps behind those of a directory tell whether a path lies below it. -/
theorem liesBelow_iff (h : path.components = dir.components ++ steps) :
    path.LiesBelow dir ↔ .root ∉ steps ∧ .parent ∉ steps := by
  constructor
  · rintro ⟨others, hothers, hroot, hparent⟩
    obtain rfl : others = steps := List.append_cancel_left (hothers.symm.trans h)
    exact ⟨hroot, hparent⟩
  · rintro ⟨hroot, hparent⟩
    exact ⟨steps, h, hroot, hparent⟩

/-- A piece between slashes is no root. -/
theorem root_not_mem_stepsOf (text : List Char) : .root ∉ stepsOf text := by
  intro hmem
  obtain ⟨piece, -, hpiece⟩ := List.mem_filterMap.mp hmem
  exact Component.headComponent?_ne_ofPiece? (show headComponent? ['/'] = _ from rfl) hpiece

/-- A relative text that is followed from a path leads along the path, then past a single dot at
most, and then along its own steps. -/
theorem exists_components_join (base : Path) (h : text.toList.head? ≠ some '/') :
    ∃ lead, (base.join text).components = base.components ++ (lead ++ stepsOf text.toList) ∧
      .root ∉ lead ∧ .parent ∉ lead := by
  by_cases hbase : base.text.toList = []
  · have hjoin : base.join text = ⟨text⟩ := by
      simp [join, h, String.toList_eq_nil_iff.mp hbase]
    have hnone : base.components = [] := by
      rw [components_eq, hbase]
      rfl
    refine ⟨(headComponent? (splitHead text.toList).1).toList, ?_, ?_, ?_⟩
    · rw [hjoin, hnone, components_eq, List.nil_append]
    · rw [Option.mem_toList]
      intro hroot
      exact h (beq_iff_eq.mp ((isAbsolute_iff ⟨text⟩).mpr hroot))
    · unfold headComponent?
      split <;> simp
  · exact ⟨[], components_join_of_ne_nil hbase h, List.not_mem_nil, List.not_mem_nil⟩

/-- Where a language and a file lead if they are followed from a directory one after the other: an
absolute file stands for itself, a relative one is followed from an absolute language, and relative
ones stay below the directory as long as none of their pieces leads upwards. -/
def LeadsBelow (dir : Path) (language file : String) : Prop :=
  if file.toList.head? = some '/' then LiesBelow ⟨file⟩ dir
  else if language.toList.head? = some '/' then LiesBelow (join ⟨language⟩ file) dir
  else ['.', '.'] ∉ List.splitOn '/' language.toList ∧ ['.', '.'] ∉ List.splitOn '/' file.toList

/-- What is followed from a directory lies below it exactly if it leads there. -/
theorem liesBelow_join_join_iff (dir : Path) (language file : String) :
    ((dir.join language).join file).LiesBelow dir ↔ LeadsBelow dir language file := by
  unfold LeadsBelow
  split
  · next hfile => rw [join_of_absolute hfile]
  · next hfile =>
    split
    · next hlanguage => rw [join_of_absolute hlanguage]
    · next hlanguage =>
      obtain ⟨lead, hjoin, hroot, hparent⟩ := exists_components_join dir hlanguage
      obtain ⟨lead', hjoin', hroot', hparent'⟩ := exists_components_join (dir.join language) hfile
      rw [hjoin, List.append_assoc] at hjoin'
      rw [liesBelow_iff hjoin', ← parent_mem_stepsOf_iff, ← parent_mem_stepsOf_iff]
      simp only [List.mem_append, not_or]
      exact ⟨fun ⟨_, ⟨_, hsteps⟩, _, hsteps'⟩ => ⟨hsteps, hsteps'⟩, fun ⟨hsteps, hsteps'⟩ =>
        ⟨⟨⟨hroot, root_not_mem_stepsOf _⟩, hroot', root_not_mem_stepsOf _⟩,
          ⟨hparent, hsteps⟩, hparent', hsteps'⟩⟩

/-- A language and a file that lead on lead below every directory. -/
theorem LeadsOn.leadsBelow (hlanguage : LeadsOn language) (hfile : LeadsOn file) (dir : Path) :
    LeadsBelow dir language file := by
  rw [LeadsBelow, if_neg hfile.relative, if_neg hlanguage.relative]
  exact ⟨hlanguage.no_parent, hfile.no_parent⟩

/-- Below an absolute directory a path leads along names alone. -/
theorem LiesBelow.exists_names (h : path.LiesBelow dir) (hdir : dir.isAbsolute = true) :
    ∃ names : List String, path.components = dir.components ++ names.map .name := by
  obtain ⟨steps, hsteps, hroot, hparent⟩ := h
  have habsolute : path.isAbsolute = true :=
    isAbsolute_of_startsWith hdir (startsWith_iff.mpr (hsteps ▸ List.prefix_append _ _))
  have hcurrent : .current ∉ steps := by
    intro hmem
    have htail : stepsOf path.text.toList = stepsOf dir.text.toList ++ steps := by
      rw [components_of_isAbsolute habsolute, components_of_isAbsolute hdir] at hsteps
      exact (List.cons.inj hsteps).2
    exact current_not_mem_stepsOf path.text.toList (htail ▸ List.mem_append_right _ hmem)
  suffices hnames : ∃ names : List String, steps = names.map .name by
    obtain ⟨names, rfl⟩ := hnames
    exact ⟨names, hsteps⟩
  clear hsteps
  induction steps with
  | nil => exact ⟨[], rfl⟩
  | cons step rest ih =>
    rw [List.mem_cons, not_or] at hroot hparent hcurrent
    obtain ⟨names, rfl⟩ := ih hroot.2 hparent.2 hcurrent.2
    cases step with
    | root => exact absurd rfl hroot.1
    | current => exact absurd rfl hcurrent.1
    | parent => exact absurd rfl hparent.1
    | name text => exact ⟨text :: names, rfl⟩

end KeyLens.Path
