import KeyLens.Proofs.Scan.Ignores
import Mathlib.Data.List.Pairwise

/-!
# Where a scan starts

A scan starts at its base, or at the paths to include that exist and at the directories that
patterns to include describe. It finds the source files at its starts and below them that no entry
excludes, in strict order, and nothing else.
-/

namespace KeyLens

namespace Scan

variable {tree : FileTree} {base path : Path} {includes ignores : List String}

/-- A path where a scan starts. -/
inductive StartsAt (tree : FileTree) (base : Path) (includes : List String) : Path → Prop
  /-- Nothing is included in particular. -/
  | base (all : includes = []) : StartsAt tree base includes base
  /-- A path to include that leads somewhere. -/
  | path {text : String} (included : text ∈ includes) (plain : Glob.Pattern.isWild text = false)
      (leads : tree.exists? (base.join text) = true) : StartsAt tree base includes (base.join text)
  /-- A directory that a pattern to include describes. -/
  | pattern {text : String} {paths : List Path} {start : Path} (included : text ∈ includes)
      (wild : Glob.Pattern.isWild text = true)
      (described : Glob.paths tree (base.join text).text = .ok paths) (among : start ∈ paths)
      (directory : tree.isDirectory start = true) : StartsAt tree base includes start

/-- A path of a file that lies at a start of a scan or below it. -/
def Reaches (tree : FileTree) (base : Path) (includes : List String) (path : Path) : Prop :=
  ∃ start, StartsAt tree base includes start ∧
    ∃ paths, filesAt tree start = .ok paths ∧ path ∈ paths

/-- A path lies at or below one that is to be ignored. -/
def PathExcludes (base : Path) (ignores : List String) (path : Path) : Prop :=
  ∃ entry ∈ ignores, Glob.Pattern.isWild entry = false ∧ path.startsWith (base.join entry) = true

/-- A pattern to ignore describes a path as a whole. -/
def PatternExcludes (ignores : List String) (path : Path) : Prop :=
  ∃ entry ∈ ignores, Glob.Pattern.isWild entry = true ∧
    ∃ pattern, Glob.Pattern.parse entry = .ok pattern ∧ pattern.matches? path.text = true

/-- Entries to ignore exclude a path because of where it lies or because of how it is written. -/
theorem excludes_iff : Excludes base ignores path ↔
    PathExcludes base ignores path ∨ PatternExcludes ignores path := by
  constructor
  · rintro ⟨entry, hentry, ignore, hread, hcovers⟩
    unfold Ignore.ofText at hread
    split at hread
    · next hwild =>
      split at hread
      · next pattern hpattern =>
        cases hread
        exact Or.inr ⟨entry, hentry, hwild, pattern, hpattern, hcovers⟩
      · cases hread
    · next hplain =>
      cases hread
      exact Or.inl ⟨entry, hentry, Bool.eq_false_iff.mpr hplain, hcovers⟩
  · rintro (⟨entry, hentry, hplain, hcovers⟩ | ⟨entry, hentry, hwild, pattern, hpattern, hmatches⟩)
    · exact ⟨entry, hentry, .path (base.join entry), by simp [Ignore.ofText, hplain], hcovers⟩
    · exact ⟨entry, hentry, .pattern pattern, by simp [Ignore.ofText, hwild, hpattern], hmatches⟩

/-- The results without a warning are those that are successes. -/
theorem mem_kept_iff {α : Type} {results : List (Except Warning α)} {value : α} :
    value ∈ kept results ↔ .ok value ∈ results := by
  rw [kept, List.mem_filterMap]
  constructor
  · rintro ⟨result, hresult, hvalue⟩
    cases result with
    | error warning => cases hvalue
    | ok found => rwa [Option.some.inj hvalue] at hresult
  · exact fun h => ⟨_, h, rfl⟩

/-- There is a warning for each result that is none. -/
theorem mem_warned_iff {α : Type} {results : List (Except Warning α)} {warning : Warning} :
    warning ∈ warned results ↔ .error warning ∈ results := by
  rw [warned, List.mem_filterMap]
  constructor
  · rintro ⟨result, hresult, hwarning⟩
    cases result with
    | error found => rwa [Option.some.inj hwarning] at hresult
    | ok value => cases hwarning
  · exact fun h => ⟨_, h, rfl⟩

/-- The starts of a scan. -/
def starts (tree : FileTree) (base : Path) (includes : List String) :
    List (Except Warning (List Path)) :=
  if includes = [] then [.ok [base]] else includes.map (startsOf tree base)

/-- The starts of a scan are those of its entries. -/
theorem mem_starts_iff {start : Path} :
    start ∈ (kept (starts tree base includes)).flatten ↔ StartsAt tree base includes start := by
  rw [List.mem_flatten]
  simp only [mem_kept_iff, starts]
  constructor
  · rintro ⟨paths, hpaths, hstart⟩
    split at hpaths
    · next hall =>
      cases List.mem_singleton.mp hpaths
      rw [List.mem_singleton.mp hstart]
      exact .base hall
    · obtain ⟨text, htext, hread⟩ := List.mem_map.mp hpaths
      unfold startsOf at hread
      split at hread
      · next hwild =>
        split at hread
        · next found hfound =>
          cases hread
          obtain ⟨hfound', hdirectory⟩ := List.mem_filter.mp hstart
          exact .pattern htext hwild hfound hfound' hdirectory
        · cases hread
      · next hplain =>
        simp only at hread
        split at hread
        · next hleads =>
          cases hread
          rw [List.mem_singleton.mp hstart]
          exact .path htext (Bool.eq_false_iff.mpr hplain) hleads
        · cases hread
  · intro hstart
    cases hstart with
    | base all =>
      refine ⟨[base], ?_, List.mem_singleton_self _⟩
      rw [if_pos all]
      exact List.mem_singleton_self _
    | path included plain leads =>
      refine ⟨_, ?_, List.mem_singleton_self _⟩
      rw [if_neg (List.ne_nil_of_mem included)]
      refine List.mem_map.mpr ⟨_, included, ?_⟩
      simp [startsOf, plain, leads]
    | pattern included wild described among directory =>
      refine ⟨_, ?_, List.mem_filter.mpr ⟨among, directory⟩⟩
      rw [if_neg (List.ne_nil_of_mem included)]
      refine List.mem_map.mpr ⟨_, included, ?_⟩
      simp [startsOf, wild, described]

/-- The files below a place are those whose names start with the names of the place. -/
theorem mem_filesBelow_iff {start : Path} {place : List String} :
    path ∈ filesBelow tree start place ↔
    ∃ rest content modified, rest ≠ [] ∧ (place ++ rest, .file content modified) ∈ tree.entries ∧
      path = rest.foldl Path.join start := by
  rw [filesBelow, List.mem_filterMap]
  constructor
  · rintro ⟨⟨names, entry⟩, hmem, hpath⟩
    cases entry with
    | directory => cases hpath
    | link target => cases hpath
    | file content modified =>
      obtain ⟨⟨hlength, hprefix⟩, hpath⟩ := Option.ite_none_right_eq_some.mp hpath
      obtain ⟨rest, rfl⟩ := List.isPrefixOf_iff_prefix.mp hprefix
      rw [List.drop_left] at hpath
      refine ⟨rest, content, modified, ?_, hmem, (Option.some.inj hpath).symm⟩
      rintro rfl
      simp at hlength
  · rintro ⟨rest, content, modified, hrest, hmem, rfl⟩
    have hlength := List.length_pos_iff.mpr hrest
    refine ⟨_, hmem, ?_⟩
    simp only [List.drop_left]
    exact if_pos ⟨by rw [List.length_append]; omega, List.isPrefixOf_iff_prefix.mpr ⟨rest, rfl⟩⟩

/-- The source files that a scan reaches and does not exclude, as they are found. -/
def found (tree : FileTree) (base : Path) (includes ignores : List String) : List Path :=
  (kept ((kept (starts tree base includes)).flatten.map (filesAt tree))).flatten.filter fun path =>
    isSourceFile path && !(kept (ignores.map (Ignore.ofText base))).any (·.covers path)

/-- A scan gives what it finds in order. -/
theorem files_scan (tree : FileTree) (base : Path) (includes ignores : List String) :
    (tree.scan base includes ignores).files = inOrder (found tree base includes ignores) :=
  rfl

/-- A scan finds the source files that it reaches and does not exclude. -/
theorem mem_found_iff : path ∈ found tree base includes ignores ↔
    Reaches tree base includes path ∧ isSourceFile path = true ∧ ¬Excludes base ignores path := by
  rw [found, List.mem_filter, Bool.and_eq_true, Bool.not_eq_true', ← any_kept_iff,
    Bool.not_eq_true, List.mem_flatten]
  simp only [mem_kept_iff, List.mem_map, mem_starts_iff, Reaches]
  refine and_congr_left fun _ => ⟨?_, ?_⟩
  · rintro ⟨paths, ⟨start, hstart, hpaths⟩, hpath⟩
    exact ⟨start, hstart, paths, hpaths, hpath⟩
  · rintro ⟨start, hstart, paths, hpaths, hpath⟩
    exact ⟨paths, ⟨start, hstart, hpaths⟩, hpath⟩

/-- Each file of a scan is a source file that the scan reaches and does not exclude. -/
theorem of_mem_scan (h : path ∈ (tree.scan base includes ignores).files) :
    Reaches tree base includes path ∧ isSourceFile path = true ∧ ¬Excludes base ignores path := by
  rw [files_scan] at h
  exact mem_found_iff.mp (mem_of_mem_inOrder h)

/-- Each source file that a scan reaches and does not exclude is among its files. -/
theorem exists_mem_scan (hreach : Reaches tree base includes path)
    (hsource : isSourceFile path = true) (hfree : ¬Excludes base ignores path) :
    ∃ other ∈ (tree.scan base includes ignores).files, other.components = path.components := by
  rw [files_scan]
  exact exists_mem_inOrder (mem_found_iff.mpr ⟨hreach, hsource, hfree⟩)

/-- The files of a scan are in strict order. -/
theorem pairwise_scan (tree : FileTree) (base : Path) (includes ignores : List String) :
    (tree.scan base includes ignores).files.Pairwise fun left right => left.compare right = .lt :=
  pairwise_inOrder _

/-- Paths with the same steps are listed once. -/
theorem eq_of_components_eq {paths : List Path} {first second : Path}
    (h : paths.Pairwise fun left right => left.compare right = .lt) (hfirst : first ∈ paths)
    (hsecond : second ∈ paths) (hsame : first.components = second.components) :
    first = second := by
  by_contra hne
  have hdiffer : paths.Pairwise fun left right => left.components ≠ right.components :=
    h.imp fun {left right} hlt heq => by
      rw [Path.compare_eq_eq_iff.mpr heq] at hlt
      cases hlt
  have hsymm : Std.Symm fun left right : Path => left.components ≠ right.components :=
    ⟨fun _ _ h => h.symm⟩
  exact hdiffer.forall hfirst hsecond hne hsame

end Scan

end KeyLens
