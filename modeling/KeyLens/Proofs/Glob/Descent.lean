import KeyLens.Proofs.Files.Steps
import KeyLens.Proofs.Glob.Expansion
import KeyLens.Proofs.Glob.Pieces

/-!
# Ways that do not lead upwards

A step of a pattern leads upwards if it is written as two dots or if it describes them. A way along
other steps keeps to paths without dots: it leads along names from where it starts.
-/

namespace KeyLens.Glob

open FileTree (IsName)

/-- A pattern that describes nothing but a run of any characters describes a single dot. -/
theorem describes_dot_of_describes_nil {row : List Token} (hrow : row ≠ [])
    (h : Pattern.describes row [] = true) : Pattern.describes row ['.'] = true := by
  cases row with
  | nil => exact absurd rfl hrow
  | cons token rest =>
    cases token with
    | char c | anyChar | within choices | except choices => simp [Pattern.describes] at h
    | sequence =>
      have hrest : Pattern.describes rest [] = true := by
        simpa [Pattern.describes, Pattern.endings] using h
      simp [Pattern.describes, Pattern.endings, hrest]
    | directories =>
      have hrest : Pattern.describes rest [] = true := by
        simpa [Pattern.describes, Pattern.directoryEnds] using h
      simp [Pattern.describes, Pattern.directoryEnds, hrest]

/-- A pattern with wildcards that does not describe two dots describes no special name. -/
theorem specials_eq_nil {pattern : Pattern} (hwild : pattern.plain? = none)
    (h : ".." ∉ specials pattern) : specials pattern = [] := by
  by_contra hne
  unfold specials at h hne
  split at h
  · next hdot =>
    obtain ⟨rest, hrest⟩ := List.head?_eq_some_iff.mp hdot
    rw [if_pos hdot] at hne
    have hparent : ¬pattern.matches? ".." = true := by simpa using h
    have hcurrent : pattern.matches? "." = true := by
      by_contra hcurrent
      simp [hparent, hcurrent] at hne
    have hnil : Pattern.describes rest [] = true := by
      simpa [Pattern.matches?, hrest, Pattern.describes] using hcurrent
    have hrest' : rest ≠ [] := by
      rintro rfl
      rw [Pattern.plain?, hrest] at hwild
      cases hwild
    refine hparent ?_
    have hdots : Pattern.describes rest ['.'] = true := describes_dot_of_describes_nil hrest' hnil
    simpa [Pattern.matches?, hrest, Pattern.describes] using hdots
  · next hdot => exact hne (if_neg hdot)

/-- A step that does not lead upwards: it is followed to a single name or to entries. -/
def Step.Descends : Step → Prop
  | plain name => '/' ∉ name.toList ∧ name.toList ≠ ['.', '.']
  | wild pattern => specials pattern = []
  | anywhere => True

/-- The step of a piece that is not two dots and does not describe them. -/
theorem Step.descends_ofPattern {piece : List Char} {pattern : Pattern}
    (hpattern : Pattern.parse (String.ofList piece) = .ok pattern) (hslash : '/' ∉ piece)
    (hparent : piece ≠ ['.', '.'])
    (hspecials : (∀ c ∈ piece, IsPlain c) ∨ ".." ∉ specials pattern) :
    (Step.ofPattern pattern).Descends := by
  have hname : Descends (.plain (String.ofList piece)) := by
    rw [Descends, String.toList_ofList]
    exact ⟨hslash, hparent⟩
  rcases hspecials with hplain | hspecials
  · have hstep := ofPattern_of_isPlain (String.ofList piece) (by simpa using hplain)
    rw [hpattern] at hstep
    rw [Except.ok.inj hstep]
    exact hname
  · unfold ofPattern
    split
    · trivial
    · cases hplain : pattern.plain? with
      | none => exact specials_eq_nil hplain hspecials
      | some name =>
        rw [Pattern.eq_of_plain? hpattern hplain]
        exact hname

variable {tree : FileTree} {depth : Nat} {base path : Path} {row : List Step} {name : String}

/-- A path without dots is not the working directory. -/
theorem follow_eq_join (h : base.Dotless) : follow base name = base.join name := by
  rw [follow, if_neg]
  intro hcurrent
  refine h.no_current ?_
  rw [hcurrent]
  exact List.mem_cons_self

/-- What is followed from a path without dots along a piece that is not two dots. -/
theorem dotless_follow (h : base.Dotless) (hbase : base.text.toList ≠ [])
    (hslash : '/' ∉ name.toList) (hparent : name.toList ≠ ['.', '.']) :
    (follow base name).Dotless ∧ (follow base name).text.toList ≠ [] ∧
      (follow base name).isAbsolute = base.isAbsolute := by
  have hhead : name.toList.head? ≠ some '/' := fun hhead => hslash (List.mem_of_head? hhead)
  have hpieces : ['.', '.'] ∉ List.splitOn '/' name.toList := by
    rw [List.splitOn_eq_singleton hslash, List.mem_singleton]
    exact Ne.symm hparent
  rw [follow_eq_join h]
  exact ⟨h.join_of_ne_nil hbase hhead hpieces, Path.join_ne_nil hbase hhead,
    base.isAbsolute_join_of_relative hhead⟩

/-- A way along steps that do not lead upwards ends at a path without dots if it starts at one. -/
theorem Way.dotless (h : Way tree depth base row path)
    (hnames : ∀ place, ∀ name ∈ tree.children place, IsName name)
    (hrow : ∀ step ∈ row, step.Descends) (hbase : base.Dotless) (hne : base.text.toList ≠ []) :
    path.Dotless ∧ path.isAbsolute = base.isAbsolute := by
  have hentry : ∀ {base : Path} {place : List String} {name : String}, base.Dotless →
      base.text.toList ≠ [] → name ∈ tree.children place →
      (follow base name).Dotless ∧ (follow base name).text.toList ≠ [] ∧
        (follow base name).isAbsolute = base.isAbsolute := by
    intro base place name hbase hne hname
    have hname := hnames place name hname
    exact dotless_follow hbase hne hname.no_slash hname.not_parent
  induction h with
  | done => exact ⟨hbase, rfl⟩
  | plain leads onward ih =>
    obtain ⟨hstep, hrest⟩ := List.forall_mem_cons.mp hrow
    obtain ⟨hnext, hnext', habsolute⟩ := dotless_follow hbase hne hstep.1 hstep.2
    rw [← habsolute]
    exact ih hrest hnext hnext'
  | special directory admitted onward ih =>
    have hnone : specials _ = [] := hrow _ List.mem_cons_self
    rw [hnone] at admitted
    cases admitted
  | wild directory entry admitted onward ih =>
    obtain ⟨hnext, hnext', habsolute⟩ := hentry hbase hne entry
    rw [← habsolute]
    exact ih (fun step hstep => hrow step (List.mem_cons_of_mem _ hstep)) hnext hnext'
  | last directory entry below =>
    obtain ⟨hnext, -, habsolute⟩ := hentry hbase hne entry
    exact ⟨hnext, habsolute⟩
  | here directory entry admitted onward ih =>
    obtain ⟨hnext, hnext', habsolute⟩ := hentry hbase hne entry
    rw [← habsolute]
    refine ih (fun step hstep => hrow step ?_) hnext hnext'
    exact List.mem_cons_of_mem _ (List.mem_cons_of_mem _ hstep)
  | deeper directory entry onward ih =>
    obtain ⟨hnext, hnext', habsolute⟩ := hentry hbase hne entry
    rw [← habsolute]
    exact ih hrow hnext hnext'

/-- A way from the working directory along steps that do not lead upwards ends at a relative path
without dots if its first step does not stay where it is. -/
theorem Way.dotless_of_current (h : Way tree depth ⟨"."⟩ row path)
    (hnames : ∀ place, ∀ name ∈ tree.children place, IsName name)
    (hrow : ∀ step ∈ row, step.Descends) (hne : row ≠ [])
    (hfirst : ∀ name, row.head? = some (.plain name) →
      ¬(name.toList = [] ∨ name.toList = ['.'])) :
    path.Dotless ∧ path.isAbsolute = false := by
  have hcurrent : ∀ name, follow ⟨"."⟩ name = ⟨name⟩ := fun name => if_pos rfl
  -- A single name is a path without dots from which the way goes on.
  have hsingle : ∀ {name : String}, '/' ∉ name.toList →
      ¬(name.toList = [] ∨ name.toList = ['.']) → name.toList ≠ ['.', '.'] →
      Path.Dotless ⟨name⟩ ∧ Path.isAbsolute ⟨name⟩ = false := by
    intro name hslash hstep hparent
    refine ⟨⟨?_, ?_⟩, ?_⟩
    · simp [Path.components_name hslash hstep hparent]
    · simp [Path.components_name hslash hstep hparent]
    · exact beq_eq_false_iff_ne.mpr fun hhead => hslash (List.mem_of_head? hhead)
  have hentry : ∀ {place : List String} {name : String}, name ∈ tree.children place →
      Path.Dotless ⟨name⟩ ∧ Path.isAbsolute ⟨name⟩ = false ∧ name.toList ≠ [] := by
    intro place name hname
    have hname := hnames place name hname
    obtain ⟨hdotless, hrelative⟩ := hsingle hname.no_slash hname.not_skipped hname.not_parent
    exact ⟨hdotless, hrelative, fun hnil => hname.not_skipped (Or.inl hnil)⟩
  cases h with
  | done => exact absurd rfl hne
  | plain leads onward =>
    obtain ⟨hstep, hrest⟩ := List.forall_mem_cons.mp hrow
    have hskip := hfirst _ rfl
    obtain ⟨hdotless, hrelative⟩ := hsingle hstep.1 hskip hstep.2
    rw [hcurrent] at onward
    rw [← hrelative]
    exact onward.dotless hnames hrest hdotless fun hnil => hskip (Or.inl hnil)
  | special directory admitted onward =>
    have hnone : specials _ = [] := hrow _ List.mem_cons_self
    rw [hnone] at admitted
    cases admitted
  | wild directory entry admitted onward =>
    obtain ⟨hdotless, hrelative, hnil⟩ := hentry entry
    rw [hcurrent] at onward
    rw [← hrelative]
    exact onward.dotless hnames (fun step hstep => hrow step (List.mem_cons_of_mem _ hstep))
      hdotless hnil
  | last directory entry below =>
    obtain ⟨hdotless, hrelative, -⟩ := hentry entry
    rw [hcurrent]
    exact ⟨hdotless, hrelative⟩
  | here directory entry admitted onward =>
    obtain ⟨hdotless, hrelative, hnil⟩ := hentry entry
    rw [hcurrent] at onward
    rw [← hrelative]
    refine onward.dotless hnames (fun step hstep => hrow step ?_) hdotless hnil
    exact List.mem_cons_of_mem _ (List.mem_cons_of_mem _ hstep)
  | deeper directory entry onward =>
    obtain ⟨hdotless, hrelative, hnil⟩ := hentry entry
    rw [hcurrent] at onward
    rw [← hrelative]
    exact onward.dotless hnames hrow hdotless hnil

end KeyLens.Glob
