import KeyLens.Proofs.Locate.Innermost
import KeyLens.Proofs.Program.Nesting
import KeyLens.Proofs.Program.Order

/-!
# The nodes around an offset

The nodes around an offset are told from their spans alone: first the nodes are brought into
document order, then those around the offset are taken in reverse and sorted by length. Both sorts
leave nodes of one span in their order, so that of these the node given last stands innermost. The
site around an offset is the first site on this way, whether or not its key can be read.
-/

namespace KeyLens

/-- Sorting leaves members in their order that may stand in it. -/
theorem filter_mergeSort {α : Type} {le : α → α → Bool}
    (htrans : ∀ a b c, le a b = true → le b c = true → le a c = true)
    (htotal : ∀ a b, (le a b || le b a) = true) (kept : α → Bool) {row : List α}
    (hkept : (row.filter kept).Pairwise fun left right => le left right = true) :
    (row.mergeSort le).filter kept = row.filter kept := by
  have hsublist : (row.filter kept).Sublist ((row.mergeSort le).filter kept) := by
    have h := (List.sublist_mergeSort htrans htotal hkept List.filter_sublist).filter kept
    rwa [List.filter_filter, List.filter_congr fun _ _ => Bool.and_self _] at h
  have hlength := ((List.mergeSort_perm row le).filter kept).length_eq
  exact (hsublist.eq_of_length hlength.symm).symm

/-- Of two spans around an offset that lie in one another or apart, the one that is not longer lies
within the other. -/
theorem Span.NestedOrApart.within {inner outer : Span} {offset : Nat}
    (h : inner.NestedOrApart outer) (hinner : inner.contains offset = true)
    (houter : outer.contains offset = true) (hlength : inner.length ≤ outer.length) :
    inner.Within outer := by
  rw [Span.contains_iff] at hinner houter
  unfold Span.NestedOrApart at h
  simp only [Span.length] at hlength
  unfold Span.Within
  omega

namespace Host

/-- A row of nodes leads out of an offset, past each of the given nodes around it. -/
structure LeadsOut (nodes : List Node) (offset : Nat) (row : List Node) : Prop where
  /-- It holds the nodes around the offset, each as often as it is given. -/
  perm : row.Perm (nodes.filter fun node => node.span.contains offset)
  /-- No node is shorter than the ones before it. -/
  length_le : row.Pairwise fun inner outer => inner.span.length ≤ outer.span.length
  /-- Of the nodes with one span, one that is given later stands first. -/
  later_first : ∀ span : Span, span.contains offset = true →
    row.filter (fun node => node.span = span) =
      (nodes.filter fun node => node.span = span).reverse
  /-- If the given nodes lie in one another or apart, each node lies within those behind it. -/
  within : nodes.Pairwise (fun left right => left.span.NestedOrApart right.span) →
    row.Pairwise fun inner outer => inner.span.Within outer.span

/-- A host has the nodes that it is made of. -/
theorem perm_nodes_ofNodes (text : String) (nodes : List Node) :
    (ofNodes text nodes).nodes.Perm nodes :=
  List.mergeSort_perm nodes precedes

/-- The nodes of one span stand in a host in the order in which they are given. -/
theorem filter_span_ofNodes (text : String) (nodes : List Node) (span : Span) :
    (ofNodes text nodes).nodes.filter (fun node => node.span = span) =
      nodes.filter fun node => node.span = span := by
  refine filter_mergeSort precedes_trans precedes_total _ (List.pairwise_filter.mpr ?_)
  refine List.pairwise_of_forall fun left right hleft hright => ?_
  rw [precedes_iff, of_decide_eq_true hleft, of_decide_eq_true hright]
  exact Or.inr ⟨rfl, Nat.le_refl _⟩

/-- Around an offset the nodes of one span stand in reverse of their order. -/
theorem filter_span_ancestors (host : Host) {offset : Nat} {span : Span}
    (h : span.contains offset = true) :
    (host.ancestors offset).filter (fun node => node.span = span) =
      (host.nodes.filter fun node => node.span = span).reverse := by
  have hlengths : ((host.nodes.reverse.filter fun node => node.span.contains offset).filter
      fun node => node.span = span).Pairwise
        fun left right => decide (left.span.length ≤ right.span.length) = true := by
    refine List.pairwise_filter.mpr (List.pairwise_of_forall fun left right hleft hright => ?_)
    rw [of_decide_eq_true hleft, of_decide_eq_true hright, decide_eq_true_eq]
  have haround : ∀ node : Node,
      (decide (node.span = span) && node.span.contains offset) = decide (node.span = span) := by
    intro node
    by_cases hspan : node.span = span
    · simp [hspan, h]
    · simp [hspan]
  rw [ancestors, filter_mergeSort length_le_trans length_le_total _ hlengths, List.filter_filter,
    List.filter_congr fun node _ => haround node, List.filter_reverse]

/-- The nodes around an offset of a host lead out of it, past each node that the host is made of. -/
theorem leadsOut_ancestors (text : String) (nodes : List Node) (offset : Nat) :
    LeadsOut nodes offset ((ofNodes text nodes).ancestors offset) := by
  have hperm : ((ofNodes text nodes).ancestors offset).Perm
      (nodes.filter fun node => node.span.contains offset) :=
    calc ((ofNodes text nodes).ancestors offset).Perm
          ((ofNodes text nodes).nodes.reverse.filter fun node => node.span.contains offset) :=
        List.mergeSort_perm _ _
      List.Perm _ (nodes.filter fun node => node.span.contains offset) :=
        (((List.reverse_perm _).trans (perm_nodes_ofNodes text nodes)).filter _)
  have hlengths := pairwise_ancestors (ofNodes text nodes) offset
  refine ⟨hperm, hlengths, fun span hspan => ?_, fun hnodes => ?_⟩
  · rw [filter_span_ancestors _ hspan, filter_span_ofNodes]
  · have hlie := (hperm.pairwise_iff Span.NestedOrApart.symm).mpr (hnodes.filter _)
    refine (hlie.and hlengths).imp_of_mem fun hinner houter hpair => ?_
    exact hpair.1.within (mem_ancestors.mp hinner).2 (mem_ancestors.mp houter).2 hpair.2

/-- There is no site around an offset exactly if no site of the host contains it. -/
theorem siteAt?_eq_none_iff {host : Host} {offset : Nat} :
    host.siteAt? offset = none ↔ ∀ site ∈ host.sites, site.span.contains offset = false := by
  rw [siteAt?, List.findSome?_eq_none_iff]
  constructor
  · intro h site hsite
    obtain ⟨node, hnode, hsite⟩ := List.mem_filterMap.mp hsite
    rw [Site.span_of_ofNode? hsite, Bool.eq_false_iff]
    intro hoffset
    rw [h node (mem_ancestors.mpr ⟨hnode, hoffset⟩)] at hsite
    cases hsite
  · intro h node hnode
    obtain ⟨hnode, hoffset⟩ := mem_ancestors.mp hnode
    rw [Option.eq_none_iff_forall_ne_some]
    intro site hsite
    have hapart := h site (List.mem_filterMap.mpr ⟨node, hnode, hsite⟩)
    rw [Site.span_of_ofNode? hsite, hoffset] at hapart
    cases hapart

/-- The nodes around an offset lead out of it, whatever nodes a host is made of. The site there is
the first site on the way, and there is none exactly if no site contains the offset. What is asked
for there is asked for by that site: if its key cannot be read, nothing is. -/
theorem siteAt?_ofNodes_first (text : String) (nodes : List Node) (offset : Nat) :
    LeadsOut nodes offset ((ofNodes text nodes).ancestors offset) ∧
      (∀ site, (ofNodes text nodes).siteAt? offset = some site ↔
        ∃ inside node outside,
          (ofNodes text nodes).ancestors offset = inside ++ node :: outside ∧
          Site.ofNode? node = some site ∧ ∀ inner ∈ inside, Site.ofNode? inner = none) ∧
      ((ofNodes text nodes).siteAt? offset = none ↔
        ∀ node ∈ nodes, ∀ site, Site.ofNode? node = some site →
          site.span.contains offset = false) ∧
      ∀ fallback tolerance,
        (∀ info, (ofNodes text nodes).infoAt? offset fallback tolerance = some info →
          ∃ site, (ofNodes text nodes).siteAt? offset = some site ∧
            (ofNodes text nodes).infoOf? fallback tolerance site = some info ∧
            info.span = site.span) ∧
        ∀ site, (ofNodes text nodes).siteAt? offset = some site →
          (ofNodes text nodes).infoOf? fallback tolerance site = none →
            (ofNodes text nodes).infoAt? offset fallback tolerance = none := by
  refine ⟨leadsOut_ancestors text nodes offset, fun site => List.findSome?_eq_some_iff, ?_,
    fun fallback tolerance => ⟨fun info hinfo => ?_, fun site hsite hnone => ?_⟩⟩
  · rw [siteAt?_eq_none_iff]
    constructor
    · intro h node hnode site hsite
      refine h site (List.mem_filterMap.mpr ⟨node, ?_, hsite⟩)
      exact (perm_nodes_ofNodes text nodes).mem_iff.mpr hnode
    · intro h site hsite
      obtain ⟨node, hnode, hsite⟩ := List.mem_filterMap.mp hsite
      exact h node ((perm_nodes_ofNodes text nodes).mem_iff.mp hnode) site hsite
  · obtain ⟨site, hsite, hinfo⟩ := Option.bind_eq_some_iff.mp hinfo
    exact ⟨site, hsite, hinfo, Site.span_of_info? hinfo⟩
  · rw [infoAt?, hsite, Option.bind_some, hnone]

/-- Of two calls of one span the later one is the site around an offset in both of them. Its key
cannot be read, so nothing is asked for there, although the other one and the call around them name
keys. -/
theorem siteAt?_of_unreadable_key :
    let inner : Node := .call "t" ["x"] ⟨12, 16⟩
    let twin : Node := .call "i18n.t" ["$ => $.b"] ⟨12, 16⟩
    let outer : Node := .call "t" ["$ => $.a", "t(x)"] ⟨0, 17⟩
    let tag : Node := .tag "Trans" [] ⟨14, 15⟩
    let nodes := [twin, outer, inner, tag]
    let host := ofNodes "t($ => $.a, t(x))" nodes
    nodes.Pairwise (fun left right => left.span.NestedOrApart right.span) ∧
      host.ancestors 14 = [tag, inner, twin, outer] ∧
      (host.ancestors 14).Pairwise (fun inner outer => inner.span.Within outer.span) ∧
      host.siteAt? 14 = some (.call (some "x") none ⟨12, 16⟩) ∧
      host.infoAt? 14 "common" .lenient = none ∧
      (host.sites.map fun site => (host.infoOf? "common" .lenient site).map CallInfo.key) =
        [some ⟨"a"⟩, some ⟨"b"⟩, none] := by
  intro inner twin outer tag nodes host
  have hnodes : host.nodes = [outer, twin, inner, tag] := by
    simp [host, ofNodes, nodes, List.mergeSort, precedes, Node.span, inner, twin,
      outer, tag]
  have hancestors : host.ancestors 14 = [tag, inner, twin, outer] := by
    rw [ancestors, hnodes]
    exact List.mergeSort_of_pairwise (by decide)
  have hhost : host = ⟨⟨"t($ => $.a, t(x))"⟩, [outer, twin, inner, tag]⟩ := by
    rw [← hnodes]
    rfl
  have hlie : nodes.Pairwise fun left right => left.span.NestedOrApart right.span := by
    simp [nodes, inner, twin, outer, tag, Node.span, Span.NestedOrApart]
  obtain ⟨hleads, hfirst, -, hasked⟩ := siteAt?_ofNodes_first "t($ => $.a, t(x))" nodes 14
  have hsite : host.siteAt? 14 = some (.call (some "x") none ⟨12, 16⟩) :=
    (hfirst _).mpr ⟨[tag], inner, [twin, outer], hancestors, by decide, by decide⟩
  have hnone : host.infoOf? "common" .lenient (.call (some "x") none ⟨12, 16⟩) = none := by
    rw [hhost]
    decide +kernel
  refine ⟨hlie, hancestors, hleads.within hlie, hsite,
    (hasked "common" .lenient).2 _ hsite hnone, ?_⟩
  rw [hhost]
  decide +kernel

end Host

end KeyLens
