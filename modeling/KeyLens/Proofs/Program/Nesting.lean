import KeyLens.Proofs.Program.Spans
import Mathlib.Data.List.Perm.Basic

/-!
# Nesting of nodes

The nodes of a program are recorded in one row, and which of them lie in one another is told again
from their spans. In any outline of a program, where the parts of a span lie within it and apart
from one another, this gives back the way from the innermost node to the outermost one: also where
nodes in one another have equal spans, and in whatever order the parts next to one another are
visited.
-/

namespace KeyLens

/-- A span lies within another one. -/
def Span.Within (inner outer : Span) : Prop :=
  outer.start ≤ inner.start ∧ inner.stop ≤ outer.stop

/-- No byte belongs to both of two spans. -/
def Span.Apart (left right : Span) : Prop :=
  ∀ offset, ¬(left.contains offset = true ∧ right.contains offset = true)

namespace Span

variable {inner outer middle : Span} {offset : Nat}

/-- A span lies within itself. -/
theorem Within.refl (span : Span) : span.Within span :=
  ⟨Nat.le_refl _, Nat.le_refl _⟩

/-- What lies within a span lies within the spans around it. -/
theorem Within.trans (hinner : inner.Within middle) (houter : middle.Within outer) :
    inner.Within outer :=
  ⟨Nat.le_trans houter.1 hinner.1, Nat.le_trans hinner.2 houter.2⟩

/-- A byte of a span belongs to the spans around it. -/
theorem Within.contains (h : inner.Within outer) (hoffset : inner.contains offset = true) :
    outer.contains offset = true := by
  rw [contains_iff] at hoffset ⊢
  exact ⟨Nat.le_trans h.1 hoffset.1, Nat.lt_of_lt_of_le hoffset.2 h.2⟩

/-- A span is no longer than the spans around it. -/
theorem Within.length_le (h : inner.Within outer) : inner.length ≤ outer.length := by
  unfold Within at h
  simp only [length]
  omega

/-- Which of two spans comes first does not matter for whether they lie apart. -/
theorem Apart.symm {left right : Span} (h : left.Apart right) : right.Apart left :=
  fun offset hboth => h offset hboth.symm

/-- A span that ends where another one starts, or before, lies apart from it. -/
theorem apart_of_stop_le {left right : Span} (h : left.stop ≤ right.start) : left.Apart right := by
  rintro offset ⟨hleft, hright⟩
  rw [contains_iff] at hleft hright
  omega

end Span

namespace Program

/-! ### Outlines -/

/-- The spans of a program in one another. -/
inductive Outline where
  /-- A span with the node that it is, if it is one, and with the outlines of its parts. -/
  | part (own? : Option Node) (span : Span) (inside : List Outline)

namespace Outline

/-- The span of an outline. -/
def span : Outline → Span
  | part _ span _ => span

/-- The node that an outline is itself. -/
def own? : Outline → Option Node
  | part own? _ _ => own?

/-- The parts of an outline. -/
def inside : Outline → List Outline
  | part _ _ inside => inside

mutual

/-- All nodes of an outline, as they stand in the text. -/
def nodes : Outline → List Node
  | part own? _ inside => own?.toList ++ nodesOf inside

/-- All nodes of some outlines. -/
def nodesOf : List Outline → List Node
  | [] => []
  | outline :: rest => nodes outline ++ nodesOf rest

end

mutual

/-- The nodes around an offset, from the innermost to the outermost one: those on the way down into
the parts around the offset. -/
def around (offset : Nat) : Outline → List Node
  | part own? span inside =>
    if span.contains offset then aroundIn offset inside ++ own?.toList else []

/-- The nodes around an offset in the first of some outlines that is around it. -/
def aroundIn (offset : Nat) : List Outline → List Node
  | [] => []
  | outline :: rest =>
    if outline.span.contains offset then around offset outline else aroundIn offset rest

end

/-- An outline whose nodes have their spans, and whose parts lie within their spans and apart from
one another. -/
inductive IsNested : Outline → Prop where
  /-- It holds here and in all parts. -/
  | part {own? : Option Node} {span : Span} {inside : List Outline}
      (hown : ∀ node ∈ own?, node.span = span)
      (hwithin : ∀ outline ∈ inside, outline.span.Within span)
      (hapart : inside.Pairwise fun left right => left.span.Apart right.span)
      (hinside : ∀ outline ∈ inside, IsNested outline) : IsNested (part own? span inside)

/-- The nodes that are recorded when each outline is visited before its parts and each part once, in
any order. -/
inductive Records : Outline → List Node → Prop where
  /-- The node itself, and then what is recorded of the parts. -/
  | part {own? : Option Node} {span : Span} {inside : List Outline}
      {visits : List (Outline × List Node)} (horder : (visits.map Prod.fst).Perm inside)
      (hvisits : ∀ visit ∈ visits, Records visit.1 visit.2) :
      Records (part own? span inside) (own?.toList ++ visits.flatMap Prod.snd)

/-- An outline is another one or a part of it, at any depth. -/
inductive IsPart : Outline → Outline → Prop where
  /-- The outline itself. -/
  | refl (outline : Outline) : IsPart outline outline
  /-- A part of a part. -/
  | inside {inner outline : Outline} {own? : Option Node} {span : Span} {inside : List Outline}
      (hmem : outline ∈ inside) (hinner : IsPart inner outline) :
      IsPart inner (part own? span inside)

variable {outline inner : Outline} {outlines : List Outline} {items : List Node} {node : Node}
  {offset : Nat}

/-- The nodes of outlines are those of one after the other. -/
theorem nodesOf_eq_flatMap (outlines : List Outline) :
    nodesOf outlines = outlines.flatMap nodes := by
  induction outlines with
  | nil => rfl
  | cons outline rest ih => rw [nodesOf, List.flatMap_cons, ih]

/-! ### What is recorded -/

/-- Every node is recorded as often as it stands in the outline, and nothing else is. -/
theorem Records.perm_nodes (h : outline.Records items) : items.Perm outline.nodes := by
  induction h with
  | @part own? span inside visits horder hvisits ih =>
    rw [nodes, nodesOf_eq_flatMap]
    refine List.Perm.append_left own?.toList ?_
    calc
      (visits.flatMap Prod.snd).Perm (visits.flatMap fun visit => visit.1.nodes) :=
        List.Perm.flatMap_left visits ih
      _ = (visits.map Prod.fst).flatMap nodes := by rw [List.flatMap_map]
      List.Perm _ (inside.flatMap nodes) := horder.flatMap_right nodes

/-- What is recorded of a part is recorded in one run. -/
theorem Records.exists_run (h : outline.Records items) (hinner : inner.IsPart outline) :
    ∃ before run after, items = before ++ (run ++ after) ∧ inner.Records run := by
  induction hinner generalizing items with
  | refl => exact ⟨[], items, [], by simp, h⟩
  | @inside outline own? span inside hmem _ ih =>
    cases h with
    | @part _ _ _ visits horder hvisits =>
      obtain ⟨visit, hvisit, rfl⟩ := List.mem_map.mp (horder.mem_iff.mpr hmem)
      obtain ⟨before, run, after, hrun, hrecords⟩ := ih (hvisits visit hvisit)
      obtain ⟨earlier, later, rfl⟩ := List.append_of_mem hvisit
      refine ⟨own?.toList ++ (earlier.flatMap Prod.snd ++ before), run,
        after ++ later.flatMap Prod.snd, ?_, hrecords⟩
      simp [hrun]

/-- The node that a part is comes right before the nodes inside of it. -/
theorem Records.own_before_inside (h : outline.Records items) (hinner : inner.IsPart outline) :
    ∃ before within after, items = before ++ (inner.own?.toList ++ (within ++ after)) ∧
      within.Perm (nodesOf inner.inside) := by
  obtain ⟨before, run, after, hitems, hrun⟩ := h.exists_run hinner
  have hperm := hrun.perm_nodes
  cases hrun with
  | @part own? span inside visits _ _ =>
    refine ⟨before, visits.flatMap Prod.snd, after, ?_, ?_⟩
    · rw [hitems, List.append_assoc]
      rfl
    · rw [nodes] at hperm
      exact (List.perm_append_left_iff own?.toList).mp hperm

/-! ### What is around an offset -/

/-- All nodes lie within the outline. -/
theorem IsNested.within (h : outline.IsNested) (hnode : node ∈ outline.nodes) :
    node.span.Within outline.span := by
  induction h with
  | @part own? span inside hown hwithin _ _ ih =>
    rw [nodes, nodesOf_eq_flatMap] at hnode
    rcases List.mem_append.mp hnode with hself | hinside
    · rw [hown node (Option.mem_toList.mp hself)]
      exact Span.Within.refl span
    · obtain ⟨other, hother, hnode⟩ := List.mem_flatMap.mp hinside
      exact (ih other hother hnode).trans (hwithin other hother)

/-- No node is around an offset outside of the outline. -/
theorem around_eq_nil (h : outline.span.contains offset = false) : outline.around offset = [] := by
  cases outline with
  | part own? span inside =>
    rw [around, show span.contains offset = false from h, if_neg Bool.false_ne_true]

/-- What is around an offset in some outlines is what is around it in one of them, or nothing. -/
theorem aroundIn_eq_nil_or_around (offset : Nat) (outlines : List Outline) :
    aroundIn offset outlines = [] ∨
      ∃ outline ∈ outlines, aroundIn offset outlines = outline.around offset := by
  induction outlines with
  | nil => exact Or.inl rfl
  | cons outline rest ih =>
    rw [aroundIn]
    split
    · exact Or.inr ⟨outline, List.mem_cons_self, rfl⟩
    · exact ih.imp_right fun ⟨other, hother, heq⟩ => ⟨other, List.mem_cons_of_mem _ hother, heq⟩

/-- Nodes around an offset are nodes of the outline. -/
theorem IsNested.mem_nodes_of_mem_around (h : outline.IsNested)
    (hnode : node ∈ outline.around offset) : node ∈ outline.nodes := by
  induction h with
  | @part own? span inside _ _ _ _ ih =>
    rw [around] at hnode
    split at hnode
    · rw [nodes, nodesOf_eq_flatMap, List.mem_append]
      rcases List.mem_append.mp hnode with hinside | hself
      · rcases aroundIn_eq_nil_or_around offset inside with hnil | ⟨outline, houtline, heq⟩
        · rw [hnil] at hinside
          cases hinside
        · rw [heq] at hinside
          exact Or.inr (List.mem_flatMap.mpr ⟨outline, houtline, ih outline houtline hinside⟩)
      · exact Or.inl hself
    · cases hnode

/-- The nodes around an offset do not get shorter from the inside to the outside. -/
theorem IsNested.pairwise_around (h : outline.IsNested) (offset : Nat) :
    (outline.around offset).Pairwise fun left right => left.span.length ≤ right.span.length := by
  induction h with
  | @part own? span inside hown hwithin _ hinside ih =>
    rw [around]
    split
    · -- In the parts there are only the nodes of one part, and these lie within the span.
      rcases aroundIn_eq_nil_or_around offset inside with hnil | ⟨outline, houtline, heq⟩
      · rw [hnil, List.nil_append]
        cases own? <;> simp
      · rw [heq, List.pairwise_append]
        refine ⟨ih outline houtline, by cases own? <;> simp, fun left hleft right hright => ?_⟩
        have hmem := (hinside outline houtline).mem_nodes_of_mem_around hleft
        have hleft := (hinside outline houtline).within hmem
        rw [hown right (Option.mem_toList.mp hright)]
        exact (hleft.trans (hwithin outline houtline)).length_le
    · exact List.Pairwise.nil

/-- Of outlines that lie apart only one has nodes around an offset. -/
theorem flatMap_around (hapart : outlines.Pairwise fun left right => left.span.Apart right.span) :
    (outlines.flatMap fun outline => (outline.around offset).reverse) =
      (aroundIn offset outlines).reverse := by
  induction outlines with
  | nil => rfl
  | cons outline rest ih =>
    obtain ⟨hfirst, hrest⟩ := List.pairwise_cons.mp hapart
    rw [List.flatMap_cons, aroundIn]
    split
    · next hcontains =>
      have hothers : (rest.flatMap fun outline => (outline.around offset).reverse) = [] := by
        refine List.flatMap_eq_nil_iff.mpr fun other hother => ?_
        have hother := fun hcontains' => hfirst other hother offset ⟨hcontains, hcontains'⟩
        rw [around_eq_nil (Bool.eq_false_iff.mpr hother), List.reverse_nil]
      rw [hothers, List.append_nil]
    · next hcontains =>
      rw [around_eq_nil (Bool.eq_false_iff.mpr hcontains), List.reverse_nil, List.nil_append,
        ih hrest]

/-- The order of outlines that lie apart does not matter for what is around an offset. -/
theorem aroundIn_eq_of_perm {visited : List Outline} (horder : visited.Perm outlines)
    (hapart : visited.Pairwise fun left right => left.span.Apart right.span) :
    aroundIn offset visited = aroundIn offset outlines := by
  induction horder with
  | nil => rfl
  | cons outline _ ih => rw [aroundIn, aroundIn, ih (List.pairwise_cons.mp hapart).2]
  | swap first second rest =>
    have hboth := (List.pairwise_cons.mp hapart).1 first List.mem_cons_self offset
    simp only [aroundIn]
    by_cases hfirst : first.span.contains offset = true
    · rw [if_pos hfirst, if_pos hfirst, if_neg fun hsecond => hboth ⟨hsecond, hfirst⟩]
    · rw [if_neg hfirst, if_neg hfirst]
  | trans hfirst _ ih ih' =>
    exact (ih hapart).trans (ih' ((hfirst.pairwise_iff Span.Apart.symm).mp hapart))

/-- The recorded nodes around an offset are those on the way down to the offset. -/
theorem Records.filter_contains (h : outline.Records items) (hnested : outline.IsNested) :
    (items.filter fun node => node.span.contains offset) = (outline.around offset).reverse := by
  induction h with
  | @part own? span inside visits horder hvisits ih =>
    have hrecords := @Records.part own? span inside visits horder hvisits
    cases hcontains : span.contains offset with
    | false =>
      have hnil : (Outline.part own? span inside).around offset = [] := around_eq_nil hcontains
      rw [hnil, List.reverse_nil, List.filter_eq_nil_iff]
      intro node hnode hoffset
      have hwithin := hnested.within (hrecords.perm_nodes.mem_iff.mp hnode)
      rw [show span.contains offset = true from hwithin.contains hoffset] at hcontains
      cases hcontains
    | true =>
      cases hnested with
      | part hown hwithin hapart hinside =>
        have hself : (own?.toList.filter fun node => node.span.contains offset) =
            own?.toList.reverse := by
          cases own? with
          | none => rfl
          | some node => simp [hown node rfl, hcontains]
        have hvisited : (visits.flatMap fun visit =>
            visit.2.filter fun node => node.span.contains offset) =
              (visits.map Prod.fst).flatMap fun outline => (outline.around offset).reverse := by
          rw [List.flatMap_map]
          refine List.flatMap_congr fun visit hvisit => ?_
          refine ih visit hvisit (hinside visit.1 (horder.mem_iff.mp ?_))
          exact List.mem_map_of_mem hvisit
        have hapart' := (horder.pairwise_iff Span.Apart.symm).mpr hapart
        rw [List.filter_append, List.filter_flatMap, hself, hvisited, flatMap_around hapart',
          aroundIn_eq_of_perm horder hapart', around, if_pos hcontains, List.reverse_append]

/-- The ancestors of an offset are the nodes around it, from the innermost to the outermost one. -/
theorem Records.ancestors_eq_around (h : outline.Records items) (hnested : outline.IsNested)
    (source : SourceText) (offset : Nat) :
    (Host.mk source items).ancestors offset = outline.around offset := by
  have hreverse : (items.reverse.filter fun node => node.span.contains offset) =
      outline.around offset := by
    rw [List.filter_reverse, h.filter_contains hnested, List.reverse_reverse]
  rw [Host.ancestors, hreverse]
  refine List.mergeSort_of_pairwise ?_
  simpa only [decide_eq_true_eq] using hnested.pairwise_around offset

/-- The nodes around an offset are those whose spans contain it. -/
theorem Records.perm_around (h : outline.Records items) (hnested : outline.IsNested)
    (offset : Nat) :
    (outline.around offset).Perm (outline.nodes.filter fun node => node.span.contains offset) := by
  refine (List.reverse_perm _).symm.trans ?_
  rw [← h.filter_contains hnested]
  exact h.perm_nodes.filter _

end Outline

/-! ### Outlines of programs -/

namespace Tree

mutual

/-- The outline of a tree that starts at `offset`, with the nodes of a text. -/
def outline (source : SourceText) (offset : Nat) : Tree → Outline
  | leaf chars => .part none ⟨offset, offset + (leaf chars).size⟩ []
  | node role parts =>
    .part none ⟨offset, offset + (node role parts).size⟩ (outlines source offset parts)
  | call callee parts =>
    .part (some ((foundCall offset callee parts).toNode source))
      ⟨offset, offset + (call callee parts).size⟩
      (outline source offset callee :: outlines source (offset + callee.size) parts)
  | tag parts =>
    .part (some ((foundTag offset parts).toNode source)) ⟨offset, offset + (tag parts).size⟩
      (outlines source (offset + 1) parts)

/-- The outlines of trees that follow one another from `offset` on. -/
def outlines (source : SourceText) (offset : Nat) : List Tree → List Outline
  | [] => []
  | part :: rest => outline source offset part :: outlines source (offset + part.size) rest

end

variable {source : SourceText} {offset : Nat} {tree : Tree} {parts : List Tree}

/-- The outline of a tree has the span of the tree. -/
theorem span_outline (source : SourceText) (offset : Nat) (tree : Tree) :
    (tree.outline source offset).span = ⟨offset, offset + tree.size⟩ := by
  cases tree <;> rfl

/-- The outlines of trees that follow one another lie within the text of all of them. -/
theorem bounds_of_mem_outlines {outline : Outline} (h : outline ∈ outlines source offset parts) :
    offset ≤ outline.span.start ∧ outline.span.stop ≤ offset + byteLength (textOf parts) := by
  induction parts generalizing offset with
  | nil => cases h
  | cons part rest ih =>
    rw [textOf, byteLength_append]
    rcases List.mem_cons.mp h with rfl | hrest
    · rw [span_outline, size]
      exact ⟨Nat.le_refl _, by simp only; omega⟩
    · obtain ⟨hstart, hstop⟩ := ih hrest
      rw [size] at hstart hstop
      omega

/-- The outlines of trees that follow one another lie apart. -/
theorem pairwise_apart_outlines (source : SourceText) (offset : Nat) (parts : List Tree) :
    (outlines source offset parts).Pairwise fun left right => left.span.Apart right.span := by
  induction parts generalizing offset with
  | nil => exact List.Pairwise.nil
  | cons part rest ih =>
    refine List.pairwise_cons.mpr ⟨fun other hother => Span.apart_of_stop_le ?_, ih _⟩
    rw [span_outline]
    exact (bounds_of_mem_outlines hother).1

mutual

/-- The outline of a tree is nested. -/
theorem isNested_outline (source : SourceText) (offset : Nat) (tree : Tree) :
    (tree.outline source offset).IsNested := by
  match tree with
  | leaf chars => exact .part (by simp) (by simp) List.Pairwise.nil (by simp)
  | node role parts =>
    refine .part (by simp) (fun outline houtline => ?_)
      (pairwise_apart_outlines source offset parts) (isNested_of_mem_outlines source offset parts)
    exact bounds_of_mem_outlines houtline
  | call callee parts =>
    have hsize : (call callee parts).size = callee.size + byteLength (textOf parts) + 1 := by
      simp only [size, text, byteLength_append]
      rfl
    refine .part ?_ (fun outline houtline => ?_) ?_ (fun outline houtline => ?_)
    · rintro node ⟨⟩
      rfl
    · rcases List.mem_cons.mp houtline with rfl | hparts
      · rw [span_outline]
        exact ⟨Nat.le_refl _, by simp only [hsize]; omega⟩
      · obtain ⟨hstart, hstop⟩ := bounds_of_mem_outlines hparts
        exact ⟨by simp only; omega, by simp only [hsize]; omega⟩
    · refine List.pairwise_cons.mpr ⟨fun other hother => Span.apart_of_stop_le ?_,
        pairwise_apart_outlines source _ parts⟩
      rw [span_outline]
      exact (bounds_of_mem_outlines hother).1
    · rcases List.mem_cons.mp houtline with rfl | hparts
      · exact isNested_outline source offset callee
      · exact isNested_of_mem_outlines source _ parts outline hparts
  | tag parts =>
    have hsize : (tag parts).size = 1 + byteLength (textOf parts) := rfl
    refine .part ?_ (fun outline houtline => ?_) (pairwise_apart_outlines source _ parts)
      (isNested_of_mem_outlines source _ parts)
    · rintro node ⟨⟩
      rfl
    · obtain ⟨hstart, hstop⟩ := bounds_of_mem_outlines houtline
      exact ⟨by simp only; omega, by simp only [hsize]; omega⟩

/-- The outlines of trees that follow one another are nested. -/
theorem isNested_of_mem_outlines (source : SourceText) (offset : Nat) (parts : List Tree) :
    ∀ outline ∈ outlines source offset parts, outline.IsNested := by
  match parts with
  | [] => exact fun outline houtline => absurd houtline List.not_mem_nil
  | part :: rest =>
    intro outline houtline
    rcases List.mem_cons.mp houtline with rfl | hrest
    · exact isNested_outline source offset part
    · exact isNested_of_mem_outlines source _ rest outline hrest

end

/-! ### The order of a visit -/

/-- Bringing rows into order changes nothing but their order. -/
theorem perm_inTurn {α : Type} (rows : List (Nat × List α)) :
    (inTurn rows).Perm (rows.flatMap Prod.snd) := by
  have hinsert : ∀ (row : Nat × List α) (rows : List (Nat × List α)),
      (insertInTurn row rows).Perm (row :: rows) := by
    intro row rows
    induction rows with
    | nil => exact List.Perm.refl _
    | cons first rest ih =>
      rw [insertInTurn]
      split
      · exact List.Perm.refl _
      · exact (ih.cons first).trans (List.Perm.swap row first rest)
  have hrows : (rows.foldr insertInTurn []).Perm rows := by
    induction rows with
    | nil => exact List.Perm.refl _
    | cons row rest ih =>
      rw [List.foldr_cons]
      exact (hinsert row _).trans (ih.cons row)
  exact hrows.flatMap_right Prod.snd

/-- What the values of rows are made into comes in the order of the values. -/
theorem inTurn_map_flatMap {α β : Type} (form : α → List β) (rows : List (Nat × List α)) :
    inTurn (rows.map fun row => (row.1, row.2.flatMap form)) = (inTurn rows).flatMap form := by
  let formed : Nat × List α → Nat × List β := fun row => (row.1, row.2.flatMap form)
  have hinsert : ∀ (row : Nat × List α) (rows : List (Nat × List α)),
      insertInTurn (formed row) (rows.map formed) = (insertInTurn row rows).map formed := by
    intro row rows
    induction rows with
    | nil => rfl
    | cons first rest ih =>
      simp only [List.map_cons, insertInTurn, formed]
      split
      · rfl
      · simpa [formed] using ih
  have hrows : (rows.map formed).foldr insertInTurn [] =
      (rows.foldr insertInTurn []).map formed := by
    induction rows with
    | nil => rfl
    | cons row rest ih => rw [List.map_cons, List.foldr_cons, List.foldr_cons, ih, hinsert]
  have hformed : (rows.map fun row => (row.1, row.2.flatMap form)) = rows.map formed := rfl
  rw [inTurn, inTurn, hformed, hrows, List.flatMap_map, List.flatMap_assoc]

/-- The trees that follow one another from `offset` on, with their spans, as they are visited. -/
def visited (offset : Nat) (parts : List Tree) : List (Tree × Span) :=
  inTurn ((spansFrom offset parts).map fun entry => (entry.1.turn, [entry]))

/-- Each of the trees is visited once. -/
theorem perm_visited (offset : Nat) (parts : List Tree) :
    (visited offset parts).Perm (spansFrom offset parts) := by
  refine (perm_inTurn _).trans ?_
  rw [List.flatMap_map, List.flatMap_singleton']

/-- What is found in trees is found in each of them as it is visited. -/
theorem inTurn_foundEach (offset : Nat) (parts : List Tree) :
    inTurn (foundEach offset parts) =
      (visited offset parts).flatMap fun entry => found entry.2.start entry.1 := by
  have hrows : foundEach offset parts =
      (spansFrom offset parts).map fun entry => (entry.1.turn, found entry.2.start entry.1) := by
    induction parts generalizing offset with
    | nil => rfl
    | cons part rest ih => rw [foundEach, spansFrom, List.map_cons, ih]
  rw [visited, ← inTurn_map_flatMap, hrows, List.map_map]
  simp [Function.comp_def]

/-- The outlines of trees are those of each of them at its place. -/
theorem outlines_eq_map (source : SourceText) (offset : Nat) (parts : List Tree) :
    outlines source offset parts =
      (spansFrom offset parts).map fun entry => outline source entry.2.start entry.1 := by
  induction parts generalizing offset with
  | nil => rfl
  | cons part rest ih => rw [outlines, spansFrom, List.map_cons, ih]

/-- The outlines of trees with the nodes that are found in them, as they are visited. -/
def visits (source : SourceText) (offset : Nat) (parts : List Tree) : List (Outline × List Node) :=
  (visited offset parts).map fun entry =>
    (entry.1.outline source entry.2.start,
      (entry.1.found entry.2.start).map (Found.toNode source))

/-- Each outline is visited once. -/
theorem perm_fst_visits (source : SourceText) (offset : Nat) (parts : List Tree) :
    ((visits source offset parts).map Prod.fst).Perm (outlines source offset parts) := by
  rw [visits, List.map_map, outlines_eq_map]
  exact (perm_visited offset parts).map _

/-- The nodes that are found in trees come in the order of the visits. -/
theorem flatMap_snd_visits (source : SourceText) (offset : Nat) (parts : List Tree) :
    (visits source offset parts).flatMap Prod.snd =
      (inTurn (foundEach offset parts)).map (Found.toNode source) := by
  rw [visits, List.flatMap_map, inTurn_foundEach, List.map_flatMap]

/-- A visit is that of one of the trees at its place. -/
theorem exists_of_mem_visits {visit : Outline × List Node}
    (h : visit ∈ visits source offset parts) :
    ∃ entry ∈ spansFrom offset parts, visit = (entry.1.outline source entry.2.start,
      (entry.1.found entry.2.start).map (Found.toNode source)) := by
  obtain ⟨entry, hentry, rfl⟩ := List.mem_map.mp h
  exact ⟨entry, (perm_visited offset parts).mem_iff.mp hentry, rfl⟩

mutual

/-- What is found in a tree is what is recorded when its outline is visited. -/
theorem records_found (source : SourceText) (offset : Nat) (tree : Tree) :
    (tree.outline source offset).Records ((tree.found offset).map (Found.toNode source)) := by
  match tree with
  | leaf chars => exact @Outline.Records.part _ _ _ [] (by simp) (by simp)
  | node role parts =>
    rw [found, ← flatMap_snd_visits]
    exact .part (perm_fst_visits source offset parts) (records_of_mem_visits source offset parts)
  | call callee parts =>
    rw [found, List.map_cons, List.map_append, ← flatMap_snd_visits]
    refine @Outline.Records.part _ _ _ ((callee.outline source offset,
      (callee.found offset).map (Found.toNode source)) ::
        visits source (offset + callee.size) parts) ?_ ?_
    · exact (perm_fst_visits source _ parts).cons _
    · intro visit hvisit
      rcases List.mem_cons.mp hvisit with rfl | hparts
      · exact records_found source offset callee
      · exact records_of_mem_visits source _ parts visit hparts
  | tag parts =>
    rw [found, List.map_cons, ← flatMap_snd_visits]
    exact .part (perm_fst_visits source _ parts) (records_of_mem_visits source _ parts)

/-- What is found in trees is what is recorded when their outlines are visited. -/
theorem records_of_mem_visits (source : SourceText) (offset : Nat) (parts : List Tree) :
    ∀ visit ∈ visits source offset parts, visit.1.Records visit.2 := by
  match parts with
  | [] => exact fun visit hvisit => absurd hvisit List.not_mem_nil
  | part :: rest =>
    intro visit hvisit
    obtain ⟨entry, hentry, rfl⟩ := exists_of_mem_visits hvisit
    rcases List.mem_cons.mp hentry with rfl | hrest
    · exact records_found source offset part
    · refine records_of_mem_visits source (offset + part.size) rest _ ?_
      exact List.mem_map_of_mem ((perm_visited _ rest).mem_iff.mpr hrest)

end

end Tree

/-- In an outline whose parts lie within their spans and apart from one another, a visit records
every node once and nothing else, each one right before the nodes inside of it, and the ancestors of
an offset are the nodes whose spans contain it, from the innermost to the outermost one. The trees
of programs have such outlines, in which the calls and tags are the nodes, and what is found in a
tree is what a visit of its outline records. -/
theorem records_of_nested_outline :
    (∀ outline items, Outline.IsNested outline → outline.Records items →
      items.Perm outline.nodes ∧
      (∀ inner : Outline, inner.IsPart outline → ∃ before within after,
        items = before ++ (inner.own?.toList ++ (within ++ after)) ∧
          within.Perm (Outline.nodesOf inner.inside)) ∧
      ∀ source offset, (Host.mk source items).ancestors offset = outline.around offset ∧
        (outline.around offset).Perm
          (outline.nodes.filter fun node => node.span.contains offset)) ∧
    ∀ (source : SourceText) (offset : Nat) (tree : Tree), (tree.outline source offset).IsNested ∧
      (tree.outline source offset).Records ((tree.found offset).map (Found.toNode source)) := by
  refine ⟨fun outline items hnested hrecords => ⟨hrecords.perm_nodes,
    fun inner hinner => hrecords.own_before_inside hinner, fun source offset => ?_⟩,
    fun source offset tree => ?_⟩
  · exact ⟨hrecords.ancestors_eq_around hnested source offset, hrecords.perm_around hnested offset⟩
  · exact ⟨Tree.isNested_outline source offset tree, Tree.records_found source offset tree⟩

/-- Two calls of one span with two calls inside, of which the second one is visited first; and a
program of which the call behind is visited first. -/
theorem records_of_equal_spans :
    let outer : Node := .call "f" [] ⟨0, 9⟩
    let inner : Node := .call "g" [] ⟨0, 9⟩
    let first : Node := .call "h" [] ⟨3, 5⟩
    let second : Node := .call "k" [] ⟨6, 8⟩
    let outline : Outline := .part (some outer) ⟨0, 9⟩
      [.part (some inner) ⟨0, 9⟩ [.part (some first) ⟨3, 5⟩ [], .part (some second) ⟨6, 8⟩ []]]
    outline.IsNested ∧ outline.Records [outer, inner, second, first] ∧
      (Host.mk ⟨"f(h() k()"⟩ [outer, inner, second, first]).ancestors 4 = [first, inner, outer] ∧
      ∃ host, read "a.js" "do { a(b()) } while (c())" = .ok host ∧
        host.nodes = [.call "c" [] ⟨21, 24⟩, .call "a" ["b()"] ⟨5, 11⟩, .call "b" [] ⟨7, 10⟩] ∧
        ∃ tree : Tree, ∀ offset,
          host.ancestors offset = (tree.outline host.source 0).around offset := by
  intro outer inner first second outline
  have hleaf : ∀ node : Node, (Outline.part (some node) node.span []).IsNested := fun node =>
    .part (by simp) (by simp) List.Pairwise.nil (by simp)
  have hinner : (Outline.part (some inner) ⟨0, 9⟩
      [.part (some first) ⟨3, 5⟩ [], .part (some second) ⟨6, 8⟩ []]).IsNested := by
    refine .part ?_ ?_ ?_ ?_
    · rintro node ⟨⟩
      rfl
    · simp [Outline.span, Span.Within]
    · simpa [Outline.span] using Span.apart_of_stop_le (by decide)
    · simpa using ⟨hleaf first, hleaf second⟩
  have hnested : outline.IsNested := by
    refine .part ?_ ?_ (List.pairwise_singleton _ _) ?_
    · rintro node ⟨⟩
      rfl
    · simp [Outline.span, Span.Within]
    · simpa using hinner
  have hvisit : ∀ node : Node, (Outline.part (some node) node.span []).Records [node] := fun node =>
    @Outline.Records.part _ _ _ [] (by simp) (by simp)
  have hrecords : outline.Records [outer, inner, second, first] := by
    refine @Outline.Records.part _ _ _ [(_, [inner, second, first])] (List.Perm.refl _) ?_
    simp only [List.forall_mem_singleton]
    refine @Outline.Records.part _ _ _ [(_, [second]), (_, [first])] (List.Perm.swap _ _ []) ?_
    simpa using ⟨hvisit second, hvisit first⟩
  obtain ⟨-, -, haround⟩ := records_of_nested_outline.1 outline _ hnested hrecords
  refine ⟨hnested, hrecords, (haround _ 4).1.trans rfl, ?_⟩
  obtain ⟨host, hread, -, hnodes⟩ := @exists_host_of_nodes "a.js" "do { a(b()) } while (c())"
    [.call "c" [] ⟨21, 24⟩, .call "a" ["b()"] ⟨5, 11⟩, .call "b" [] ⟨7, 10⟩] (by decide +kernel)
  obtain ⟨parts, -, rfl⟩ := exists_trees_of_read hread
  obtain ⟨hnested, hrecords⟩ := records_of_nested_outline.2 ⟨"do { a(b()) } while (c())"⟩ 0
    (.node .plain parts)
  obtain ⟨-, -, haround⟩ := records_of_nested_outline.1 _ _ hnested hrecords
  exact ⟨_, hread, hnodes, .node .plain parts, fun offset => (haround _ offset).1⟩

end Program

end KeyLens
