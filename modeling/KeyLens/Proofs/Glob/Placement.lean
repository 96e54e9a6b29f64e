import KeyLens.Proofs.Files.Above
import KeyLens.Proofs.Files.Placement
import KeyLens.Proofs.Glob.Descent

/-!
# Patterns below a place

A pattern that is read from a place describes what its steps lead to from there, as long as the
characters of the place stand for themselves. The ways along its steps are the same below every
place at which a tree may stand.
-/

namespace KeyLens.Glob

variable {position other : Nat} {before front : Option Char} {text : List Char} {row : List Token}

/-- The parts of a pattern do not depend on what stands in front of it, as long as a row of
directories may. -/
theorem tokens_eq_of_before (h : tokens position before text = .ok row)
    (hbefore : before.all (· == '/') = front.all (· == '/')) :
    tokens other front text = .ok row := by
  fun_induction tokens position before text generalizing other front row with
  | case1 => rwa [tokens]
  | case2 | case5 | case6 | case7 | case9 | case10 | case12 => cases h
  | case3 position before hall =>
    rw [tokens, if_pos (hbefore ▸ hall)]
    exact h
  | case4 position before hall rest hstar ih =>
    obtain ⟨found, hfound, rfl⟩ := exists_of_map_eq_ok h
    rw [tokens, if_pos (hbefore ▸ hall)]
    simp only [ih hfound rfl]
    rfl
  | case8 position before c rest inner behind hclosing _ ih =>
    obtain ⟨found, hfound, rfl⟩ := exists_of_map_eq_ok h
    rw [tokens]
    split
    · next hnone => cases hclosing.symm.trans hnone
    · next inner' behind' hsome =>
      cases hclosing.symm.trans hsome
      rw [ih hfound rfl]
      rfl
  | case11 position before c rest hmark hc inner behind hclosing _ ih =>
    obtain ⟨found, hfound, rfl⟩ := exists_of_map_eq_ok h
    rw [tokens]
    · rw [if_neg hc]
      split
      · next hnone => cases hclosing.symm.trans hnone
      · next inner' behind' hsome =>
        cases hclosing.symm.trans hsome
        rw [ih hfound rfl]
        rfl
    · exact hmark
  | case13 =>
    rename_i position before c rest hthree htwo hexcept hwithin hc token ih
    obtain ⟨found, hfound, rfl⟩ := exists_of_map_eq_ok h
    rw [tokens]
    · rw [if_neg hc]
      simp only [ih hfound rfl]
      rfl
    · exact hthree
    · exact htwo
    · exact hexcept
    · exact hwithin

/-- Characters that stand for themselves may stand in front of a pattern, with a slash. -/
theorem exists_tokens_append {plain : List Char} (hplain : ∀ c ∈ plain, IsPlain c)
    (h : tokens 0 none text = .ok row) (position : Nat) (before : Option Char) :
    ∃ all, tokens position before (plain ++ '/' :: text) = .ok all := by
  induction plain generalizing position before with
  | nil =>
    refine ⟨.char '/' :: row, ?_⟩
    have hrest : tokens (position + 1) (some '/') text = .ok row := tokens_eq_of_before h rfl
    rw [List.nil_append, tokens_cons (by decide), hrest]
    rfl
  | cons c rest ih =>
    obtain ⟨hc, hrest⟩ := List.forall_mem_cons.mp hplain
    obtain ⟨all, hall⟩ := ih hrest (position + 1) (some c)
    refine ⟨.char c :: all, ?_⟩
    rw [List.cons_append, tokens_cons hc, hall]
    rfl

/-! ### Steps below a place -/

/-- Names in front of steps stay in front of them when the steps are collapsed. -/
theorem collapse_append (names : List String) (row : List Step) :
    collapse (names.map .plain ++ row) = names.map .plain ++ collapse row := by
  induction names with
  | nil => rfl
  | cons name rest ih =>
    rw [List.map_cons, List.cons_append, collapse, ih]
    rfl
    exact nofun

/-- Pieces in front of those of a text do not change how these end. -/
theorem pieces_append {text rest : List Char} {front : List (List Char)}
    (h : List.splitOn '/' text = front ++ List.splitOn '/' rest) :
    pieces text = front ++ pieces rest := by
  obtain ⟨last, hlast⟩ := Option.ne_none_iff_exists'.mp
    (mt List.getLast?_eq_none_iff.mp (List.splitOn_ne_nil '/' rest))
  simp only [pieces, h, List.getLast?_append, hlast, Option.some_or]
  split
  · rw [List.dropLast_append_of_ne_nil (List.splitOn_ne_nil '/' rest)]
  · rfl

end KeyLens.Glob

namespace KeyLens.Glob

open FileTree (IsName IsSpelling isSpelling_of_append under stem pathOf)

variable {here : List String} {text : String}

/-- The steps of a pattern below a place are the names of the place and the steps of the pattern. -/
theorem steps_under (hnames : ∀ name ∈ here, IsName name)
    (hplain : ∀ name ∈ here, ∀ c ∈ name.toList, IsPlain c)
    (htext : text.toList.head? ≠ some '/') :
    steps (under here ⟨text⟩).text.toList = (steps text.toList).map (here.map .plain ++ ·) := by
  have hsplit : List.splitOn '/' (under here ⟨text⟩).text.toList.tail =
      here.map String.toList ++ List.splitOn '/' text.toList := by
    have habsolute := FileTree.isAbsolute_under here ⟨text⟩
    obtain ⟨rest, hrest⟩ := Path.exists_of_isAbsolute habsolute
    have hwhole := @List.splitOn_append_cons_self _ _ _ '/' (stem here).toList text.toList
    rw [← FileTree.toList_under here ⟨text⟩, FileTree.split_stem hnames, hrest,
      Text.splitOn_cons_self, List.cons_append] at hwhole
    rw [hrest]
    exact (List.cons.inj hwhole).2
  have hread : (here.map String.toList).mapM
      (fun piece => (Pattern.parse (String.ofList piece)).map Step.ofPattern) =
        .ok (here.map .plain) := by
    rw [mapM_eq_ok_iff, List.forall₂_map_left_iff, List.forall₂_map_right_iff, List.forall₂_same]
    intro name hname
    rw [String.ofList_toList]
    exact ofPattern_of_isPlain name (hplain name hname)
  have hhead : (under here ⟨text⟩).text.toList.head? = some '/' :=
    beq_iff_eq.mp (FileTree.isAbsolute_under here ⟨text⟩)
  simp only [steps, if_pos hhead, if_neg htext, pieces_append hsplit, List.mapM_append, hread]
  cases (pieces text.toList).mapM
      fun piece => (Pattern.parse (String.ofList piece)).map Step.ofPattern with
  | error fault => rfl
  | ok row => exact congrArg Except.ok (collapse_append here row)

/-- A pattern that is not empty has a step. -/
theorem steps_ne_nil {row : List Step} (h : steps text.toList = .ok row) (htext : text.toList ≠ [])
    (hhead : text.toList.head? ≠ some '/') : row ≠ [] := by
  obtain ⟨all, rfl, hall⟩ := exists_forall₂_of_steps h
  rw [if_neg hhead] at hall
  have hpieces : pieces text.toList ≠ [] := by
    obtain ⟨piece, rest, hsplit⟩ :=
      List.exists_cons_of_ne_nil (List.splitOn_ne_nil '/' text.toList)
    have hpiece : piece ≠ [] := by
      rintro rfl
      rcases Text.eq_nil_or_of_head?_splitOn (by rw [hsplit]; rfl) with hnil | hslash
      · exact htext hnil
      · exact hhead hslash
    simp only [pieces, hsplit]
    cases rest with
    | nil => simp [hpiece]
    | cons next others => split <;> simp
  generalize pieces text.toList = row at hall hpieces
  intro hnil
  cases hall with
  | nil => exact hpieces rfl
  | @cons _ step _ others =>
    have hfirst := head?_collapse (step :: others)
    rw [hnil] at hfirst
    cases hfirst

variable {below tree : FileTree} {place names : List String} {depth : Nat} {path : Path}
  {row : List Step}

/-- What is followed from an absolute path is joined to it. -/
theorem follow_of_isAbsolute {base : Path} (h : base.isAbsolute = true) (name : String) :
    follow base name = base.join name := by
  rw [follow, if_neg]
  rw [Path.components_of_isAbsolute h]
  simp

/-- A way goes along the names of a place to the place. -/
theorem way_names_iff (h : tree.Stands (place ++ names) .directory)
    (hspelling : IsSpelling (pathOf (place ++ names))) :
    Way tree depth (pathOf place) (names.map .plain ++ row) path ↔
      Way tree depth (pathOf (place ++ names)) row path := by
  induction names generalizing place with
  | nil => rw [List.append_nil]; rfl
  | cons name rest ih =>
    rw [List.append_cons] at h hspelling ⊢
    rw [← ih h hspelling, List.map_cons, List.cons_append]
    have hname : IsName name := h.isName name (by simp)
    have hplace : ∀ other ∈ place, IsName other :=
      fun other hother => h.isName other (by simp [hother])
    have hnext : follow (pathOf place) name = pathOf (place ++ [name]) := by
      rw [follow_of_isAbsolute (FileTree.isAbsolute_pathOf place),
        FileTree.join_pathOf hplace hname]
    constructor
    · intro hway
      cases hway with
      | plain leads onward => rwa [hnext] at onward
    · intro hway
      refine .plain ?_ (by rwa [hnext])
      have hspecial : ¬isSpecial name = true := by
        rw [isSpecial, Bool.or_eq_true, beq_iff_eq, beq_iff_eq]
        rintro (rfl | rfl)
        · exact hname.not_skipped (Or.inr rfl)
        · exact hname.not_parent rfl
      have hstands : tree.Stands (place ++ [name]) .directory :=
        h.of_prefix (List.prefix_append _ rest)
      rw [if_neg hspecial, hnext, FileTree.exists?, FileTree.resolve_of_descend? rfl
        (isSpelling_of_append hspelling) hstands.isName
        (FileTree.descend?_of_stands rfl hstands (by simp))]
      rfl

/-- The characters of a place stand for themselves if those of its names do. -/
theorem isPlain_stem (hplain : ∀ name ∈ here, ∀ c ∈ name.toList, IsPlain c) :
    ∀ c ∈ (stem here).toList, IsPlain c := by
  unfold stem
  split
  · exact nofun
  · rw [FileTree.toList_pathOf]
    intro c hc
    rcases List.mem_cons.mp hc with rfl | hc
    · decide
    · rcases Text.eq_or_mem_of_mem_intercalate hc with rfl | ⟨piece, hpiece, hc⟩
      · decide
      · obtain ⟨name, hname, rfl⟩ := List.mem_map.mp hpiece
        exact hplain name hname c hc

/-- A pattern below a place describes what the names of the place and the steps of the pattern lead
to from the root. -/
theorem paths_under (tree : FileTree) {text : String} {all : List Token}
    (hnames : ∀ name ∈ here, IsName name) (hplain : ∀ name ∈ here, ∀ c ∈ name.toList, IsPlain c)
    (htext : text.toList ≠ []) (hhead : text.toList.head? ≠ some '/')
    (htokens : tokens 0 none text.toList = .ok all) :
    paths tree (under here ⟨text⟩).text = (steps text.toList).map fun row =>
      expand tree FileTree.greatestPath (pathOf []) (here.map .plain ++ row) := by
  have hslash : (under here ⟨text⟩).text.toList.head? = some '/' :=
    beq_iff_eq.mp (FileTree.isAbsolute_under here ⟨text⟩)
  obtain ⟨parts, hparts⟩ := exists_tokens_append (isPlain_stem hplain) htokens 0 none
  rw [← FileTree.toList_under here ⟨text⟩] at hparts
  simp only [paths, hparts, steps_under hnames hplain hhead, Except.bind, if_pos hslash]
  cases hrow : steps text.toList with
  | error fault => rfl
  | ok row =>
    have hne : here.map .plain ++ row ≠ [] := by
      simp [steps_ne_nil hrow htext hhead]
    simp only [Except.map, if_neg hne]
    rfl

/-- The paths that a pattern below a place describes lie at the end of ways along the steps of the
pattern from the place. -/
theorem exists_paths_under_iff {text : String} {all : List Token}
    (hstands : tree.Stands here .directory) (hspelling : IsSpelling (pathOf here))
    (hplain : ∀ name ∈ here, ∀ c ∈ name.toList, IsPlain c) (htext : text.toList ≠ [])
    (hhead : text.toList.head? ≠ some '/') (htokens : tokens 0 none text.toList = .ok all) :
    (∃ found, paths tree (under here ⟨text⟩).text = .ok found ∧ path ∈ found) ↔
      ∃ row, steps text.toList = .ok row ∧
        Way tree FileTree.greatestPath (pathOf here) row path := by
  have hway : ∀ row, path ∈ expand tree FileTree.greatestPath (pathOf []) (here.map .plain ++ row) ↔
      Way tree FileTree.greatestPath (pathOf here) row path :=
    fun row => mem_expand_iff.trans (way_names_iff hstands hspelling)
  rw [paths_under tree hstands.isName hplain htext hhead htokens]
  constructor
  · rintro ⟨found, hfound, hpath⟩
    obtain ⟨row, hrow, rfl⟩ := exists_of_map_eq_ok hfound
    exact ⟨row, hrow, (hway row).mp hpath⟩
  · rintro ⟨row, hrow, honward⟩
    exact ⟨_, by rw [hrow]; rfl, (hway row).mpr honward⟩

/-! ### Ways at two places -/

/-- What a step adds to the idle pieces of a path. -/
def Step.idleCost : Step → Nat
  | plain name => FileTree.idleCost [name.toList]
  | wild _ | anywhere => 0

/-- What steps add to the idle pieces of a path. -/
def idleCost : List Step → Nat
  | [] => 0
  | step :: rest => step.idleCost + idleCost rest

open FileTree (Twins StandsTwice Roomy)

variable {other : FileTree} {there : List String} {budget : Nat} {first second : Path}

/-- The same entry is followed from twins that lead to a directory. -/
theorem exists_entry_of_twins {place : List String} {name : String}
    (h : Twins here there budget first second) (hboth : below.StandsTwice tree other here there)
    (hroom : below.Roomy there text) (hbudget : budget ≤ byteLength text.toList + 1)
    (hdirectory : tree.resolve first = .ok (place, .directory))
    (hentry : name ∈ tree.children place) :
    ∃ place', other.resolve second = .ok (place', .directory) ∧ name ∈ other.children place' ∧
      Twins here there budget (follow first name) (follow second name) := by
  obtain ⟨names, rfl, hdirectory'⟩ := h.resolve hboth hroom hbudget hdirectory
  obtain ⟨hentry', hname⟩ := hboth.mem_children hentry
  refine ⟨_, hdirectory', hentry', ?_⟩
  have hcost : FileTree.idleCost [name.toList] = 0 := by
    simp [FileTree.idleCost, FileTree.cost, hname.isStep]
  have hjoin := h.join hboth.first.start.isName hboth.second.start.isName hname.no_slash
    hname.not_parent
  rw [hcost, Nat.add_zero] at hjoin
  rwa [follow_of_isAbsolute h.isAbsolute.1, follow_of_isAbsolute h.isAbsolute.2]

/-- Twins lead to directories alike. -/
theorem isDirectory_of_twins (h : Twins here there budget first second)
    (hboth : below.StandsTwice tree other here there)
    (hroom : below.Roomy there text) (hbudget : budget ≤ byteLength text.toList + 1)
    (hdirectory : tree.isDirectory first = true) : other.isDirectory second = true := by
  obtain ⟨place, hplace⟩ := isDirectory_iff.mp hdirectory
  obtain ⟨names, -, hplace'⟩ := h.resolve hboth hroom hbudget hplace
  exact isDirectory_iff.mpr ⟨_, hplace'⟩

/-- Twins lead somewhere alike. -/
theorem exists?_of_twins (h : Twins here there budget first second)
    (hboth : below.StandsTwice tree other here there)
    (hroom : below.Roomy there text) (hbudget : budget ≤ byteLength text.toList + 1)
    (hleads : tree.exists? first = true) : other.exists? second = true := by
  unfold FileTree.exists? at hleads ⊢
  cases hresolve : tree.resolve first with
  | error failure =>
    rw [hresolve] at hleads
    cases hleads
  | ok found =>
    obtain ⟨names, -, hresolve'⟩ := h.resolve hboth hroom hbudget hresolve
    rw [hresolve']
    rfl

/-- A way along steps that do not lead upwards is the same at two places at which a tree stands. -/
theorem Way.move (h : Way tree depth first row path)
    (hboth : below.StandsTwice tree other here there)
    (hroom : below.Roomy there text) (htwins : Twins here there budget first second)
    (hrow : ∀ step ∈ row, step.Descends)
    (hbudget : budget + idleCost row ≤ byteLength text.toList + 1) :
    ∃ moved, Twins here there (byteLength text.toList + 1) path moved ∧
      Way other depth second row moved := by
  induction h generalizing second budget with
  | done => exact ⟨second, htwins.mono (Nat.le_trans (Nat.le_add_right _ _) hbudget), .done⟩
  | @plain depth base path name rest leads onward ih =>
    obtain ⟨hstep, hrest⟩ := List.forall_mem_cons.mp hrow
    simp only [idleCost, Step.idleCost] at hbudget
    have hnext : Twins here there (budget + FileTree.idleCost [name.toList])
        (follow base name) (follow second name) := by
      rw [follow_of_isAbsolute htwins.isAbsolute.1, follow_of_isAbsolute htwins.isAbsolute.2]
      exact htwins.join hboth.first.start.isName hboth.second.start.isName hstep.1 hstep.2
    obtain ⟨moved, hmoved, hway⟩ := ih hnext hrest (by omega)
    refine ⟨moved, hmoved, .plain ?_ hway⟩
    split at leads
    · next hspecial =>
      rw [if_pos hspecial]
      exact isDirectory_of_twins htwins hboth hroom (by omega) leads
    · next hspecial =>
      rw [if_neg hspecial]
      exact exists?_of_twins hnext hboth hroom (by omega) leads
  | special directory admitted onward ih =>
    have hnone : specials _ = [] := hrow _ List.mem_cons_self
    rw [hnone] at admitted
    cases admitted
  | wild directory entry admitted onward ih =>
    simp only [idleCost, Step.idleCost] at hbudget
    obtain ⟨place', hplace, hentry, hnext⟩ :=
      exists_entry_of_twins htwins hboth hroom (by omega) directory entry
    obtain ⟨moved, hmoved, hway⟩ :=
      ih hnext (fun step hstep => hrow step (List.mem_cons_of_mem _ hstep)) (by omega)
    exact ⟨moved, hmoved, .wild hplace hentry admitted hway⟩
  | last directory entry leads =>
    have hbudget : budget ≤ byteLength text.toList + 1 := by omega
    obtain ⟨place', hplace, hentry, hnext⟩ :=
      exists_entry_of_twins htwins hboth hroom hbudget directory entry
    exact ⟨_, hnext.mono hbudget, .last hplace hentry
      (isDirectory_of_twins hnext hboth hroom hbudget leads)⟩
  | here directory entry admitted onward ih =>
    simp only [idleCost, Step.idleCost] at hbudget
    obtain ⟨place', hplace, hentry, hnext⟩ :=
      exists_entry_of_twins htwins hboth hroom (by omega) directory entry
    obtain ⟨moved, hmoved, hway⟩ := ih hnext (fun step hstep => hrow step
      (List.mem_cons_of_mem _ (List.mem_cons_of_mem _ hstep))) (by omega)
    exact ⟨moved, hmoved, .here hplace hentry admitted hway⟩
  | deeper directory entry onward ih =>
    obtain ⟨place', hplace, hentry, hnext⟩ :=
      exists_entry_of_twins htwins hboth hroom (by omega) directory entry
    obtain ⟨moved, hmoved, hway⟩ := ih hnext hrow hbudget
    exact ⟨moved, hmoved, .deeper hplace hentry hway⟩

/-- Steps that are left out when steps are collapsed cost nothing. -/
theorem idleCost_collapse (row : List Step) : idleCost (collapse row) = idleCost row := by
  fun_induction collapse row with
  | case1 rest ih =>
    rw [ih]
    simp only [idleCost, Step.idleCost, Nat.zero_add]
  | case2 step rest _ ih =>
    simp only [idleCost, ih]
  | case3 => rfl

/-- The step of a piece costs no more than the piece. -/
theorem idleCost_ofPattern_le {piece : List Char} {pattern : Pattern}
    (h : Pattern.parse (String.ofList piece) = .ok pattern) :
    (Step.ofPattern pattern).idleCost ≤ FileTree.idleCost [piece] := by
  cases hstep : Step.ofPattern pattern with
  | plain name =>
    rw [Pattern.eq_of_plain? h (Step.plain?_of_ofPattern hstep), Step.idleCost,
      String.toList_ofList]
  | wild own => exact Nat.zero_le _
  | anywhere => exact Nat.zero_le _

/-- The steps of a pattern add no more to the idle pieces of a path than the pattern is long. -/
theorem idleCost_steps_le {row : List Step} (h : steps text.toList = .ok row)
    (hhead : text.toList.head? ≠ some '/') : idleCost row ≤ byteLength text.toList + 1 := by
  obtain ⟨all, rfl, hall⟩ := exists_forall₂_of_steps h
  rw [if_neg hhead] at hall
  obtain ⟨back, hback⟩ := pieces_isPrefix_split text.toList
  have hsplit := FileTree.cost_split text.toList
  rw [← hback, FileTree.cost_append] at hsplit
  have hpieces : idleCost all ≤ FileTree.idleCost (pieces text.toList) := by
    generalize pieces text.toList = front at hall
    clear h hsplit hback
    induction hall with
    | nil => exact Nat.le_refl _
    | @cons piece step rest others hread _ ih =>
      obtain ⟨pattern, hpattern, rfl⟩ := exists_of_map_eq_ok hread
      have hstep := idleCost_ofPattern_le hpattern
      have hcost : FileTree.idleCost ([piece] ++ rest) =
          FileTree.idleCost [piece] + FileTree.idleCost rest := FileTree.idleCost_append _ _
      rw [List.singleton_append] at hcost
      simp only [idleCost]
      omega
  have hidle := FileTree.idleCost_le (pieces text.toList)
  rw [idleCost_collapse]
  omega

end KeyLens.Glob
