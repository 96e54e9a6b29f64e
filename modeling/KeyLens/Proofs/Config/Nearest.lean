import KeyLens.Proofs.Config.Loading
import KeyLens.Proofs.Files.Ancestors
import KeyLens.Proofs.Files.WrittenAt
import KeyLens.Proofs.Scan.Linkless

/-!
# The nearest configuration file

The configuration file that counts for a directory stands in the nearest of the directory and those
above it that has one, unless the root of a repository lies in between. Every directory that is
passed on the way up has neither a configuration file nor the mark of a repository.
-/

namespace KeyLens

/-- Whether a directory holds an entry with a name, be it a link that leads to nothing. -/
def FileTree.holds (tree : FileTree) (dir : Path) (name : String) : Bool :=
  (tree.reach false (dir.join name)).isOk

/-- Whether an entry with a name in a directory leads to something. -/
def FileTree.leadsOn (tree : FileTree) (dir : Path) (name : String) : Bool :=
  tree.exists? (dir.join name)

namespace Config

open FileTree (IsName IsSpelling pathOf)

variable {tree : FileTree} {start path dir : Path} {loaded : Loaded}

/-- Among `start` and the directories above it, `dir` is the nearest one that has a configuration
file, and none of those that are nearer is the root of a repository. What a directory has is said by
`has`. -/
def Nearest (has : Path → String → Bool) (start dir : Path) : Prop :=
  ∃ steps, start.above? steps = some dir ∧ has dir fileName = true ∧
    ∀ fewer < steps, ∀ nearer, start.above? fewer = some nearer →
      has nearer fileName = false ∧ has nearer repositoryMark = false

/-! ### The search -/

/-- In a row of directories the file in the first one that has a configuration file is found, if no
directory in front of it has a configuration file or is the root of a repository. -/
theorem findIn_eq_some_iff {dirs : List Path} :
    findIn tree dirs = some path ↔
      ∃ (steps : Nat) (dir : Path), dirs[steps]? = some dir ∧ path = dir.join fileName ∧
        tree.leadsOn dir fileName = true ∧
        ∀ fewer < steps, ∀ nearer, dirs[fewer]? = some nearer →
          tree.leadsOn nearer fileName = false ∧ tree.leadsOn nearer repositoryMark = false := by
  induction dirs with
  | nil => simp [findIn]
  | cons first rest ih =>
    -- Either nothing is passed, or the first directory and then some of the others.
    rw [findIn, ← Nat.or_exists_add_one]
    simp only [List.getElem?_cons_zero, List.getElem?_cons_succ, Nat.forall_lt_succ_left,
      Option.some.injEq, exists_eq_left', forall_eq', Nat.not_lt_zero, false_implies,
      implies_true, and_true]
    change (if tree.leadsOn first fileName then _ else if tree.leadsOn first repositoryMark then _
      else _) = _ ↔ _
    cases tree.leadsOn first fileName with
    | true => simp [@eq_comm _ path]
    | false =>
      cases tree.leadsOn first repositoryMark with
      | true => simp
      | false => simpa using ih

/-- The configuration file that counts for an absolute directory stands in the nearest directory
that has one. -/
theorem find?_eq_some_iff (h : start.isAbsolute = true) :
    find? tree start = some path ↔
      ∃ dir, Nearest tree.leadsOn start dir ∧ path = dir.join fileName := by
  rw [find?, findIn_eq_some_iff]
  simp only [Path.getElem?_upwards h]
  constructor
  · rintro ⟨steps, dir, hdir, hpath, hfound, hpassed⟩
    exact ⟨dir, ⟨steps, hdir, hfound, hpassed⟩, hpath⟩
  · rintro ⟨dir, ⟨steps, hdir, hfound, hpassed⟩, hpath⟩
    exact ⟨steps, dir, hdir, hpath, hfound, hpassed⟩

/-- No configuration file counts for an absolute directory if no directory is the nearest one that
has one. -/
theorem find?_eq_none_iff (h : start.isAbsolute = true) :
    find? tree start = none ↔ ¬∃ dir, Nearest tree.leadsOn start dir := by
  rw [Option.eq_none_iff_forall_ne_some]
  constructor
  · rintro hnone ⟨dir, hdir⟩
    exact hnone _ ((find?_eq_some_iff h).mpr ⟨dir, hdir, rfl⟩)
  · rintro hnone path hpath
    obtain ⟨dir, hdir, -⟩ := (find?_eq_some_iff h).mp hpath
    exact hnone ⟨dir, hdir⟩

/-! ### The root of the project -/

/-- The directory of a configuration file is above the file. -/
theorem exists_parent?_join_fileName (h : dir.isAbsolute = true) :
    ∃ root, (dir.join fileName).parent? = some root ∧ root.components = dir.components := by
  have hcomponents := Path.components_join_name isName_fileName dir
  have hroot := Path.components_eq_pieces h
  have hspec := Path.parent?_of_isAbsolute (Path.isAbsolute_join h fileName)
  rw [hcomponents, List.dropLast_concat, if_neg (by simp [hroot])] at hspec
  exact Option.map_eq_some_iff.mp hspec

/-- A configuration that stands in a file is that of the nearest directory that has one, and this
directory is the root of the project. -/
theorem exists_nearest_of_load (h : start.isAbsolute = true)
    (hload : load tree start = .ok loaded) (hfile : loaded.fromFile = true) :
    ∃ dir, Nearest tree.leadsOn start dir ∧ loaded.root.components = dir.components ∧
      readFile tree (dir.join fileName) = .ok loaded.config := by
  rcases eq_of_load hload with ⟨-, hdefault⟩ | ⟨path, hfind, hread, hloaded⟩
  · rw [hdefault] at hfile
    cases hfile
  · obtain ⟨dir, hnearest, rfl⟩ := (find?_eq_some_iff h).mp hfind
    obtain ⟨steps, habove, -⟩ := id hnearest
    obtain ⟨root, hroot, hcomponents⟩ :=
      exists_parent?_join_fileName (Path.isAbsolute_of_above? h habove)
    refine ⟨dir, hnearest, ?_, hread⟩
    rw [hloaded, hroot]
    exact hcomponents

/-- A configuration does not stand in a file exactly if no configuration file counts. -/
theorem fromFile_eq_false_iff (hload : load tree start = .ok loaded) :
    loaded.fromFile = false ↔ find? tree start = none := by
  rcases eq_of_load hload with ⟨hfind, rfl⟩ | ⟨path, hfind, -, hloaded⟩
  · exact iff_of_true rfl hfind
  · rw [hloaded, hfind]
    exact iff_of_false Bool.true_eq_false.mp (Option.some_ne_none path)

/-- For an absolute directory the search goes up one step after the other, along all directories
down to the root. It ends with the configuration file of the nearest directory that has one if no
directory nearer than that is the root of a repository, and without one otherwise. What has been
loaded from a file has the directory of the file as its root; where nothing was found the defaults
are loaded for the directory itself, and only there. A directory has what its entries lead to: in a
tree without links these are the entries themselves. -/
theorem load_of_nearest (tree : FileTree) (h : start.isAbsolute = true) :
    (∀ steps, (start.above? steps).map Path.components =
      if steps < start.components.length then
        some (start.components.take (start.components.length - steps))
      else none) ∧
    (∀ path, find? tree start = some path ↔
      ∃ dir, Nearest tree.leadsOn start dir ∧ path = dir.join fileName) ∧
    (find? tree start = none ↔ ¬∃ dir, Nearest tree.leadsOn start dir) ∧
    (∀ loaded, load tree start = .ok loaded → loaded.fromFile = true →
      ∃ dir, Nearest tree.leadsOn start dir ∧ loaded.root.components = dir.components ∧
        readFile tree (dir.join fileName) = .ok loaded.config) ∧
    (find? tree start = none ↔ load tree start = .ok ⟨default, false, start⟩) ∧
    (∀ loaded, load tree start = .ok loaded →
      (loaded.fromFile = false ↔ find? tree start = none)) ∧
    (tree.Linkless → tree.leadsOn = tree.holds) := by
  refine ⟨Path.above?_of_isAbsolute h, fun path => find?_eq_some_iff h, find?_eq_none_iff h,
    fun loaded hload hfile => exists_nearest_of_load h hload hfile, ⟨load_of_missing, ?_⟩,
    fun loaded hload => fromFile_eq_false_iff hload, fun hlinkless => ?_⟩
  · exact fun hload => (fromFile_eq_false_iff hload).mp rfl
  · funext dir name
    rw [FileTree.leadsOn, FileTree.holds, hlinkless.reach_follow, FileTree.exists?]

end Config

/-! ### Entries of a directory -/

namespace FileTree

variable {tree : FileTree} {place : List String} {name target : String}

/-- A directory does not have an entry that is not there. -/
theorem reach_join_of_missing {follow : Bool} (hplace : tree.Stands place .directory)
    (hname : IsName name) (hspelling : IsSpelling (pathOf (place ++ [name])))
    (hmissing : tree.get? (place ++ [name]) = none) :
    tree.reach follow ((pathOf place).join name) = .error .notFound := by
  rw [join_pathOf hplace.isName hname, reach_of_missing hplace hname hspelling hmissing]

/-- A directory holds a link, whatever it leads to. -/
theorem holds_of_link (hplace : tree.Stands place .directory) (hname : IsName name)
    (hspelling : IsSpelling (pathOf (place ++ [name])))
    (hlink : tree.get? (place ++ [name]) = some (.link target)) :
    tree.holds (pathOf place) name = true := by
  rw [holds, join_pathOf hplace.isName hname, reach_pathOf_concat hplace hname hspelling, walk,
    if_neg hname.not_skipped, if_neg hname.not_parent, if_neg (Nat.not_lt.mpr hname.length_le)]
  simp only [String.ofList_toList, hlink]
  rfl

/-- A link to a name that is not there leads to nothing. -/
theorem leadsOn_of_dangling (hplace : tree.Stands place .directory) (hname : IsName name)
    (hspelling : IsSpelling (pathOf (place ++ [name])))
    (hlink : tree.get? (place ++ [name]) = some (.link target)) (htarget : IsName target)
    (hmissing : tree.get? (place ++ [target]) = none) :
    tree.leadsOn (pathOf place) name = false := by
  have hhead : target.toList.head? ≠ some '/' := fun hhead =>
    htarget.no_slash (List.mem_of_head? hhead)
  have hwalk : tree.walk true greatestLinks place [name.toList] = .error .notFound := by
    rw [walk, if_neg hname.not_skipped, if_neg hname.not_parent,
      if_neg (Nat.not_lt.mpr hname.length_le)]
    simp only [String.ofList_toList, hlink, greatestLinks, if_neg hhead, Bool.not_true,
      Bool.false_eq_true, and_false, if_false, List.append_nil]
    rw [List.splitOn_eq_singleton htarget.no_slash, walk, if_neg htarget.not_skipped,
      if_neg htarget.not_parent, if_neg (Nat.not_lt.mpr htarget.length_le)]
    simp only [String.ofList_toList, hmissing]
  rw [leadsOn, exists?, resolve, join_pathOf hplace.isName hname,
    reach_pathOf_concat hplace hname hspelling, hwalk]
  rfl

end FileTree

/-- The files of a repository in the root that has a configuration file, a directory and more. -/
def repositoryWith (entries : List (List String × Entry)) : FileTree :=
  ⟨([Config.fileName], .file (.text "\x7b\x7d") 1) :: ([Config.repositoryMark], .directory) ::
    (["a"], .directory) :: entries, []⟩

namespace repositoryWith

open Config FileTree

/-- The configuration file in the root is there. -/
theorem leadsOn_root (entries : List (List String × Entry)) :
    (repositoryWith entries).leadsOn ⟨"/"⟩ fileName = true := by
  have hresolve : (repositoryWith entries).resolve ⟨"/.i18nlensrc.json"⟩ =
      .ok ([fileName], .file (.text "\x7b\x7d") 1) :=
    resolve_of_descend? (show pathOf [fileName] = _ by decide) (by decide) (by decide) rfl
  have hjoin : Path.join ⟨"/"⟩ fileName = ⟨"/.i18nlensrc.json"⟩ := by decide
  rw [leadsOn, hjoin, exists?, hresolve]
  rfl

/-- The configuration file in the root counts two directories below it, where nothing is nearer. -/
theorem nearest_two_directories_up :
    let tree := repositoryWith [(["a", "b"], .directory)]
    Path.isAbsolute ⟨"/a/b"⟩ = true ∧ find? tree ⟨"/a/b"⟩ = some ⟨"/.i18nlensrc.json"⟩ ∧
      ∃ dir, Nearest tree.leadsOn ⟨"/a/b"⟩ dir ∧ ⟨"/.i18nlensrc.json"⟩ = dir.join fileName := by
  intro tree
  have habsolute : Path.isAbsolute ⟨"/a/b"⟩ = true := by decide
  have hupwards : Path.upwards ⟨"/a/b"⟩ = [pathOf ["a", "b"], pathOf ["a"], ⟨"/"⟩] := by decide
  have hmissing : ∀ place ∈ [["a", "b"], ["a"]], ∀ name ∈ [fileName, repositoryMark],
      tree.leadsOn (pathOf place) name = false := by
    intro place hplace name hname
    obtain ⟨hstands, hisName, hspelling, hnone⟩ : tree.Stands place .directory ∧ IsName name ∧
        IsSpelling (pathOf (place ++ [name])) ∧ tree.get? (place ++ [name]) = none := by
      revert place name
      decide
    rw [leadsOn, exists?, resolve, reach_join_of_missing hstands hisName hspelling hnone]
    rfl
  have hfind : find? tree ⟨"/a/b"⟩ = some ⟨"/.i18nlensrc.json"⟩ := by
    simp only [leadsOn, List.forall_mem_cons] at hmissing
    have hroot := leadsOn_root [(["a", "b"], .directory)]
    rw [leadsOn] at hroot
    rw [find?, hupwards]
    simp only [findIn, hmissing, tree, hroot, Bool.false_eq_true, if_false, if_true]
    decide
  exact ⟨habsolute, hfind, ((load_of_nearest tree habsolute).2.1 _).mp hfind⟩

/-- A mark that is a link to nothing is an entry of its directory, but it does not keep the
configuration file in the root from counting. -/
theorem find?_past_dangling_mark :
    let tree := repositoryWith [(["a", repositoryMark], .link "nowhere")]
    find? tree ⟨"/a"⟩ = some ⟨"/.i18nlensrc.json"⟩ ∧ tree.holds ⟨"/a"⟩ repositoryMark = true ∧
      ¬∃ dir, Nearest tree.holds ⟨"/a"⟩ dir := by
  intro tree
  have hpath : (⟨"/a"⟩ : Path) = pathOf ["a"] := by decide
  have hplace : tree.Stands ["a"] .directory := by decide
  have hspelling : IsSpelling (pathOf ["a", repositoryMark]) := by decide
  have hlink : tree.get? ["a", repositoryMark] = some (.link "nowhere") := rfl
  have hmissing (follow : Bool) :
      tree.reach follow ((pathOf ["a"]).join fileName) = .error .notFound :=
    reach_join_of_missing hplace isName_fileName (by decide) rfl
  have hmark : tree.holds (pathOf ["a"]) repositoryMark = true :=
    holds_of_link hplace (by decide) hspelling hlink
  have hdangling : tree.leadsOn (pathOf ["a"]) repositoryMark = false :=
    leadsOn_of_dangling hplace (by decide) hspelling hlink (by decide) rfl
  rw [hpath]
  refine ⟨?_, hmark, ?_⟩
  · have hupwards : (pathOf ["a"]).upwards = [pathOf ["a"], ⟨"/"⟩] := by decide
    have hroot : tree.exists? (Path.join ⟨"/"⟩ fileName) = true := leadsOn_root _
    have hnone : tree.exists? ((pathOf ["a"]).join fileName) = false := by
      rw [exists?, resolve, hmissing]
      rfl
    have hpassed : tree.exists? ((pathOf ["a"]).join repositoryMark) = false := hdangling
    simp only [find?, hupwards, findIn, hnone, hpassed, hroot, Bool.false_eq_true, if_false,
      if_true]
    decide
  · rintro ⟨dir, steps, hdir, hfile, hpassed⟩
    cases steps with
    | zero =>
      rw [← Option.some.inj hdir, holds, hmissing] at hfile
      cases hfile
    | succ steps =>
      have hnone := (hpassed 0 (Nat.succ_pos steps) (pathOf ["a"]) rfl).2
      rw [hmark] at hnone
      cases hnone

end repositoryWith

end KeyLens
