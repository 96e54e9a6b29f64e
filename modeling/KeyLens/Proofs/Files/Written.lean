import KeyLens.Proofs.Files.Canonical

/-!
# Trees around a file that is written

When a file is written where there was a file or nothing, every path that led somewhere leads to the
same place as before, and only the text at that one place is another. If there was a file before,
the paths that led nowhere still lead nowhere.
-/

namespace KeyLens

namespace FileTree

/-- Two trees that differ in the file at the end of a row of names, where there may have been
nothing before. -/
structure Written (earlier later : FileTree) (names : List String) : Prop where
  /-- Relative paths start at the same directory. -/
  directory_eq : later.directory = earlier.directory
  /-- All other entries are the same. -/
  get?_eq : ∀ other, other ≠ names → later.get? other = earlier.get? other
  /-- There was a file or nothing. -/
  before : earlier.get? names = none ∨
    ∃ content modified, earlier.get? names = some (.file content modified)
  /-- There is a file. -/
  after : ∃ content modified, later.get? names = some (.file content modified)

variable {earlier later tree : FileTree} {names found place : List String} {entry : Entry}
  {path : Path}

/-- An entry stays as it is when another one is put. -/
theorem get?_put_of_ne {other : List String} (h : other ≠ names) :
    (tree.put names entry).get? other = tree.get? other := by
  have hfilter : ∀ entries : List (List String × Entry),
      (entries.filter fun x => x.1 != names).lookup other = entries.lookup other := by
    intro entries
    induction entries with
    | nil => rfl
    | cons head rest ih =>
      by_cases hhead : head.1 = names
      · have hne : (other == head.1) = false := by simpa [hhead] using h
        rw [List.filter_cons_of_neg (by simp [hhead]), ih, List.lookup_cons, hne]
      · rw [List.filter_cons_of_pos (by simpa using hhead), List.lookup_cons, List.lookup_cons, ih]
  have hother : (other == names) = false := by simpa using h
  simp only [get?, put, List.lookup_append, hfilter, List.lookup_cons, hother, List.lookup_nil,
    Option.or_none]

/-- A file that is put where there was a file or nothing is written. -/
theorem written_put {content : Content} {modified : Nat}
    (h : tree.get? names = none ∨
      ∃ content modified, tree.get? names = some (.file content modified)) :
    Written tree (tree.put names (.file content modified)) names where
  directory_eq := rfl
  get?_eq := fun _ hother => get?_put_of_ne hother
  before := h
  after := by
    refine ⟨content, modified, get?_put_self tree _ ?_⟩
    rintro rfl
    rcases h with hnone | ⟨content, modified, hfile⟩
    · cases hnone
    · cases hfile

/-- Where there was a file before, it may have been written just as well. -/
theorem Written.symm (h : Written earlier later names)
    (hfile : ∃ content modified, earlier.get? names = some (.file content modified)) :
    Written later earlier names where
  directory_eq := h.directory_eq.symm
  get?_eq := fun other hother => (h.get?_eq other hother).symm
  before := Or.inr h.after
  after := hfile

/-- Directories and links stay as they are. -/
theorem Written.get?_of_no_file (h : Written earlier later names) {other : List String}
    (hentry : earlier.get? other = some entry) (hfile : ∀ content modified,
      entry ≠ .file content modified) : later.get? other = some entry := by
  rw [h.get?_eq other, hentry]
  rintro rfl
  rcases h.before with hnone | ⟨content, modified, hbefore⟩
  · rw [hnone] at hentry
    cases hentry
  · rw [hbefore] at hentry
    exact hfile content modified (Option.some.inj hentry).symm

/-- A way that led to a place leads there; only the file that is written is another one. -/
theorem Written.walk_eq_ok (h : Written earlier later names) {follow : Bool} {links : Nat}
    {pieces : List (List Char)}
    (hwalk : earlier.walk follow links place pieces = .ok (found, entry)) :
    ∃ other, later.walk follow links place pieces = .ok (found, other) ∧
      (other = entry ∨
        found = names ∧ earlier.get? names = some entry ∧ later.get? names = some other) := by
  fun_induction walk earlier follow links place pieces with
  | case1 =>
    cases hwalk
    exact ⟨.directory, by rw [walk], Or.inl rfl⟩
  | case2 links place piece rest hskip ih =>
    obtain ⟨other, hother, hsame⟩ := ih hwalk
    exact ⟨other, by rw [walk, if_pos hskip, hother], hsame⟩
  | case3 links place rest hskip ih =>
    obtain ⟨other, hother, hsame⟩ := ih hwalk
    exact ⟨other, by rw [walk, if_neg hskip, if_pos rfl, hother], hsame⟩
  | case4 | case5 | case8 | case10 => cases hwalk
  | case6 links place piece rest hskip hparent hlength way hget ih =>
    obtain ⟨other, hother, hsame⟩ := ih hwalk
    have hdirectory := h.get?_of_no_file hget (by simp)
    refine ⟨other, ?_, hsame⟩
    rw [walk, if_neg hskip, if_neg hparent, if_neg hlength]
    simp only [way] at hdirectory
    simp only [hdirectory]
    exact hother
  | case7 links place piece hskip hparent hlength way content modified hget =>
    obtain ⟨rfl, rfl⟩ := Prod.mk.inj (Except.ok.inj hwalk)
    by_cases hnames : way = names
    · obtain ⟨content', modified', hafter⟩ := h.after
      refine ⟨.file content' modified', ?_, Or.inr ⟨hnames, hnames ▸ hget, hafter⟩⟩
      rw [walk, if_neg hskip, if_neg hparent, if_neg hlength]
      rw [← hnames] at hafter
      simp only [way] at hafter
      simp only [hafter, if_pos, way]
    · have hfile := (h.get?_eq way hnames).trans hget
      refine ⟨.file content modified, ?_, Or.inl rfl⟩
      rw [walk, if_neg hskip, if_neg hparent, if_neg hlength]
      simp only [way] at hfile
      simp only [hfile, if_pos, way]
  | case9 links place piece rest hskip hparent hlength way target hget hlast =>
    obtain ⟨rfl, rfl⟩ := Prod.mk.inj (Except.ok.inj hwalk)
    have hlink := h.get?_of_no_file hget (by simp)
    refine ⟨.link target, ?_, Or.inl rfl⟩
    rw [walk, if_neg hskip, if_neg hparent, if_neg hlength]
    simp only [way] at hlink
    simp only [hlink, if_pos hlast, way]
  | case11 place piece rest hskip hparent hlength way target hget hlast links habsolute ih =>
    obtain ⟨other, hother, hsame⟩ := ih hwalk
    have hlink := h.get?_of_no_file hget (by simp)
    refine ⟨other, ?_, hsame⟩
    rw [walk, if_neg hskip, if_neg hparent, if_neg hlength]
    simp only [way] at hlink
    simp only [hlink, if_neg hlast, if_pos habsolute]
    exact hother
  | case12 place piece rest hskip hparent hlength way target hget hlast links hrelative ih =>
    obtain ⟨other, hother, hsame⟩ := ih hwalk
    have hlink := h.get?_of_no_file hget (by simp)
    refine ⟨other, ?_, hsame⟩
    rw [walk, if_neg hskip, if_neg hparent, if_neg hlength]
    simp only [way] at hlink
    simp only [hlink, if_neg hlast, if_neg hrelative]
    exact hother

/-- A path that led to a place leads there; only the file that is written is another one. -/
theorem Written.resolve_eq_ok (h : Written earlier later names)
    (hresolve : earlier.resolve path = .ok (found, entry)) :
    ∃ other, later.resolve path = .ok (found, other) ∧
      (other = entry ∨
        found = names ∧ earlier.get? names = some entry ∧ later.get? names = some other) := by
  obtain ⟨hne, hended, hlength, hwalk⟩ := walk_of_resolve hresolve
  rw [← h.directory_eq] at hwalk
  obtain ⟨other, hother, hsame⟩ := h.walk_eq_ok hwalk
  refine ⟨other, ?_, hsame⟩
  simp only [resolve, reach]
  rwa [if_neg hne, if_neg (by rw [hended]; exact Bool.false_ne_true),
    if_neg (Nat.not_lt.mpr hlength)]

/-- A path that led to the file that is written leads to what it is now. -/
theorem Written.resolve_self (h : Written earlier later names) {content : Content} {modified : Nat}
    (hresolve : earlier.resolve path = .ok (names, .file content modified))
    (hentry : later.get? names = some entry) : later.resolve path = .ok (names, entry) := by
  obtain ⟨other, hresolve', hsame⟩ := h.resolve_eq_ok hresolve
  rw [hresolve']
  rcases hsame with rfl | ⟨-, -, hother⟩
  · rw [Option.some.inj (hentry.symm.trans (get?_of_resolve hresolve'))]
  · rw [Option.some.inj (hentry.symm.trans hother)]

/-- A path that was spelled without links and dots is spelled alike. -/
theorem Written.canonical_eq_ok (h : Written earlier later names) {other : Path}
    (hcanonical : earlier.canonical path = .ok other) : later.canonical path = .ok other := by
  obtain ⟨found, entry, hresolve, rfl⟩ := resolve_of_canonical hcanonical
  obtain ⟨entry', hresolve', -⟩ := h.resolve_eq_ok hresolve
  rw [canonical, hresolve']
  rfl

/-- A path that led somewhere does. -/
theorem Written.exists?_eq_true (h : Written earlier later names)
    (hexists : earlier.exists? path = true) : later.exists? path = true := by
  rw [exists?] at hexists ⊢
  cases hresolve : earlier.resolve path with
  | error error =>
    rw [hresolve] at hexists
    cases hexists
  | ok place =>
    obtain ⟨entry, hresolve', -⟩ := h.resolve_eq_ok hresolve
    rw [hresolve']
    rfl

/-- A path that led to a directory does. -/
theorem Written.isDirectory_eq_true (h : Written earlier later names)
    (hdirectory : earlier.isDirectory path = true) : later.isDirectory path = true := by
  rw [isDirectory] at hdirectory
  split at hdirectory
  · next found hresolve =>
    obtain ⟨other, hresolve', hsame⟩ := h.resolve_eq_ok hresolve
    rw [isDirectory, hresolve']
    rcases hsame with rfl | ⟨-, hbefore, -⟩
    · rfl
    · rcases h.before with hnone | ⟨content, modified, hfile⟩
      · rw [hnone] at hbefore
        cases hbefore
      · rw [hfile] at hbefore
        cases hbefore
  · cases hdirectory

/-- Where there was a file before, the same paths lead somewhere. -/
theorem Written.exists?_eq (h : Written earlier later names)
    (hfile : ∃ content modified, earlier.get? names = some (.file content modified))
    (path : Path) : later.exists? path = earlier.exists? path := by
  rw [Bool.eq_iff_iff]
  exact ⟨(h.symm hfile).exists?_eq_true, h.exists?_eq_true⟩

/-- Where there was a file before, the same paths lead to directories. -/
theorem Written.isDirectory_eq (h : Written earlier later names)
    (hfile : ∃ content modified, earlier.get? names = some (.file content modified))
    (path : Path) : later.isDirectory path = earlier.isDirectory path := by
  rw [Bool.eq_iff_iff]
  exact ⟨(h.symm hfile).isDirectory_eq_true, h.isDirectory_eq_true⟩

end FileTree

end KeyLens
