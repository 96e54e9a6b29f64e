import KeyLens.Project
import KeyLens.Proofs.Files.Canonical

/-!
# Joined paths

A path that is followed from an absolute one has the steps of that path and then its own. The paths
above an absolute path are absolute, and so is the root of every project.
-/

namespace KeyLens

namespace Path

/-- The steps for which the pieces of a text between slashes stand. -/
def stepsOf (text : List Char) : List Component :=
  (List.splitOn '/' text).filterMap Component.ofPiece?

/-- The steps of two texts with a slash between them are those of the one and of the other. -/
theorem stepsOf_append (front rest : List Char) :
    stepsOf (front ++ '/' :: rest) = stepsOf front ++ stepsOf rest := by
  rw [stepsOf, List.splitOn_append_cons_self, List.filterMap_append]
  rfl

/-- The text of an absolute path starts with a slash. -/
theorem exists_of_isAbsolute {path : Path} (h : path.isAbsolute = true) :
    ∃ rest, path.text.toList = '/' :: rest :=
  List.head?_eq_some_iff.mp (beq_iff_eq.mp h)

/-- An absolute path leads from the root along the steps of its text. -/
theorem components_of_isAbsolute {path : Path} (h : path.isAbsolute = true) :
    path.components = .root :: stepsOf path.text.toList := by
  obtain ⟨rest, htext⟩ := exists_of_isAbsolute h
  rw [components, pieces, stepsOf, htext, Text.splitOn_cons_self]
  rfl

/-- What is followed from an absolute path is absolute. -/
theorem isAbsolute_join {base : Path} (h : base.isAbsolute = true) (text : String) :
    (base.join text).isAbsolute = true := by
  obtain ⟨rest, htext⟩ := exists_of_isAbsolute h
  simp only [join]
  split
  · next hslash => exact beq_iff_eq.mpr hslash
  · split <;> simp [isAbsolute, String.toList_append, htext]

/-- A relative text stands behind a slash when it is followed from an absolute path, and no step
stands between them. -/
theorem exists_join_eq {base : Path} (h : base.isAbsolute = true) {text : String}
    (htext : text.toList.head? ≠ some '/') :
    ∃ front, (base.join text).text.toList = front ++ '/' :: text.toList ∧
      stepsOf front = stepsOf base.text.toList := by
  obtain ⟨rest, hbase⟩ := exists_of_isAbsolute h
  simp only [join, if_neg htext]
  split
  · next hends =>
    obtain ⟨front, hfront⟩ := List.getLast?_eq_some_iff.mp
      (hends.resolve_left (by rw [hbase]; exact List.cons_ne_nil _ _))
    refine ⟨front, by simp [String.toList_append, hfront], ?_⟩
    rw [hfront, stepsOf_append]
    exact (List.append_nil _).symm
  · exact ⟨base.text.toList, by simp [String.toList_append], rfl⟩

/-- A relative text followed from an absolute path leads along the path and then along the text. -/
theorem components_join {base : Path} (h : base.isAbsolute = true) {text : String}
    (htext : text.toList.head? ≠ some '/') :
    (base.join text).components = base.components ++ stepsOf text.toList := by
  obtain ⟨front, hjoin, hsteps⟩ := exists_join_eq h htext
  rw [components_of_isAbsolute (isAbsolute_join h text), components_of_isAbsolute h, hjoin,
    stepsOf_append, hsteps, List.cons_append]

/-- One path lies below another one if it starts with its steps. -/
theorem startsWith_iff {path base : Path} :
    path.startsWith base = true ↔ base.components <+: path.components :=
  List.isPrefixOf_iff_prefix

/-- What lies below a path lies below all that the path lies below. -/
theorem startsWith_trans {path middle base : Path} (h : path.startsWith middle = true)
    (hmiddle : middle.startsWith base = true) : path.startsWith base = true := by
  rw [startsWith_iff] at h hmiddle ⊢
  exact hmiddle.trans h

/-- A relative text followed from an absolute path leads below the path. -/
theorem startsWith_join {base : Path} (h : base.isAbsolute = true) {text : String}
    (htext : text.toList.head? ≠ some '/') : (base.join text).startsWith base = true := by
  rw [startsWith_iff, components_join h htext]
  exact List.prefix_append _ _

/-- A path that starts at the root is absolute. -/
theorem isAbsolute_of_mem_components {path : Path} (h : .root ∈ path.components) :
    path.isAbsolute = true := by
  rw [isAbsolute_iff]
  rcases List.mem_append.mp h with hhead | hpieces
  · exact Option.mem_toList.mp hhead
  · obtain ⟨piece, -, hpiece⟩ := List.mem_filterMap.mp hpieces
    exact absurd hpiece (@Component.headComponent?_ne_ofPiece? ['/'] piece .root rfl)

/-- What lies below an absolute path is absolute. -/
theorem isAbsolute_of_startsWith {path base : Path} (h : base.isAbsolute = true)
    (hbelow : path.startsWith base = true) : path.isAbsolute = true := by
  refine isAbsolute_of_mem_components ((startsWith_iff.mp hbelow).subset ?_)
  rw [components_of_isAbsolute h]
  exact List.mem_cons_self

/-- The path above an absolute one is absolute. -/
theorem isAbsolute_parent? {path parent : Path} (h : path.isAbsolute = true)
    (hparent : path.parent? = some parent) : parent.isAbsolute = true := by
  obtain ⟨rest, htext⟩ := exists_of_isAbsolute h
  have hhead : (splitHead path.text.toList).1 = ['/'] := by rw [htext]; rfl
  simp only [parent?, hhead] at hparent
  split at hparent
  · simp at hparent
  · rw [← Option.some.inj hparent]
    simp [isAbsolute]

/-- The paths above an absolute one are absolute. -/
theorem isAbsolute_of_mem_upwards {start path : Path} (h : start.isAbsolute = true)
    (hpath : path ∈ start.upwards) : path.isAbsolute = true := by
  unfold upwards at hpath
  generalize start.components.length = count at hpath
  induction count generalizing start with
  | zero => rwa [List.mem_singleton.mp hpath]
  | succ count ih =>
    rcases List.mem_cons.mp hpath with rfl | habove
    · exact h
    · cases hparent : start.parent? with
      | none => simp [hparent] at habove
      | some parent =>
        rw [hparent] at habove
        exact ih (isAbsolute_parent? h hparent) habove

end Path

/-- A configuration file that is found below absolute directories has an absolute path. -/
theorem Config.isAbsolute_of_findIn {tree : FileTree} {dirs : List Path} {path : Path}
    (hdirs : ∀ dir ∈ dirs, dir.isAbsolute = true) (h : findIn tree dirs = some path) :
    path.isAbsolute = true := by
  induction dirs with
  | nil => cases h
  | cons dir rest ih =>
    have hdir := hdirs dir List.mem_cons_self
    rw [findIn] at h
    split at h
    · cases h
      exact Path.isAbsolute_join hdir fileName
    · split at h
      · cases h
      · exact ih (fun other hother => hdirs other (List.mem_cons_of_mem dir hother)) h

namespace FileTree

variable {tree : FileTree} {start : Path}

/-- A canonical path is absolute. -/
theorem isAbsolute_of_canonical {path : Path} (h : tree.canonical start = .ok path) :
    path.isAbsolute = true := by
  obtain ⟨names, entry, -, rfl⟩ := resolve_of_canonical h
  exact isAbsolute_pathOf names

/-- The root of a configuration that counts for an absolute directory is absolute. -/
theorem isAbsolute_of_load {loaded : Config.Loaded} (hstart : start.isAbsolute = true)
    (h : Config.load tree start = .ok loaded) : loaded.root.isAbsolute = true := by
  unfold Config.load at h
  cases hfind : Config.find? tree start with
  | none =>
    rw [hfind] at h
    cases h
    exact hstart
  | some path =>
    rw [hfind] at h
    have hpath : path.isAbsolute = true :=
      Config.isAbsolute_of_findIn (fun dir hdir => Path.isAbsolute_of_mem_upwards hstart hdir) hfind
    cases hread : Config.readFile tree path with
    | error failure => simp [hread, Except.map] at h
    | ok config =>
      simp only [hread, Except.map, Except.ok.injEq] at h
      subst h
      cases hparent : path.parent? with
      | none => exact hstart
      | some parent => exact Path.isAbsolute_parent? hpath hparent

/-- The root of a project is absolute. -/
theorem isAbsolute_of_project {overrides : Overrides} {project : Project}
    (h : tree.project start overrides = .ok project) : project.root.isAbsolute = true := by
  cases hstart : tree.canonical start with
  | error failure => simp [FileTree.project, hstart, Except.mapError, bind, Except.bind] at h
  | ok path =>
    cases hload : Config.load tree path with
    | error failure =>
      simp [FileTree.project, hstart, hload, Except.mapError, bind, Except.bind] at h
    | ok loaded =>
      have hroot := isAbsolute_of_load (isAbsolute_of_canonical hstart) hload
      cases hcheck : (loaded.config.withOverrides overrides).check with
      | error failure =>
        simp [FileTree.project, hstart, hload, hcheck, Except.mapError, bind, Except.bind] at h
      | ok value =>
        simp only [FileTree.project, hstart, hload, hcheck, Except.mapError, bind, Except.bind,
          pure, Except.pure, Except.ok.injEq] at h
        subst h
        exact hroot

end FileTree

end KeyLens
