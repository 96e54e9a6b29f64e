import KeyLens.Proofs.Source.Positions
import KeyLens.Site
import Mathlib.Data.List.Pairwise

/-!
# The innermost node

The nodes of a parsed program lie in one another or apart, and no two of them end together. Around
the last character of a node there is then no shorter node, so that the innermost node around that
character is the node itself.
-/

namespace KeyLens

/-- One span lies in the other, or they lie apart. -/
def Span.NestedOrApart (left right : Span) : Prop :=
  (left.start ≤ right.start ∧ right.stop ≤ left.stop) ∨
    (right.start ≤ left.start ∧ left.stop ≤ right.stop) ∨
      left.stop ≤ right.start ∨ right.stop ≤ left.start

/-- How two spans lie does not depend on their order. -/
theorem Span.NestedOrApart.symm {left right : Span} (h : left.NestedOrApart right) :
    right.NestedOrApart left := by
  rcases h with h | h | h | h
  · exact Or.inr (Or.inl h)
  · exact Or.inl h
  · exact Or.inr (Or.inr (Or.inr h))
  · exact Or.inr (Or.inr (Or.inl h))

namespace Host

/-- The nodes of a host cover characters, lie in one another or apart, and end in different
places. -/
structure WellNested (host : Host) : Prop where
  /-- No span is empty. -/
  start_lt_stop : ∀ node ∈ host.nodes, node.span.start < node.span.stop
  /-- Every span starts at a boundary. -/
  boundary_start : ∀ node ∈ host.nodes, host.source.IsBoundary node.span.start
  /-- Every span ends at a boundary. -/
  boundary_stop : ∀ node ∈ host.nodes, host.source.IsBoundary node.span.stop
  /-- Two spans lie in one another or apart. -/
  nestedOrApart : host.nodes.Pairwise fun left right => left.span.NestedOrApart right.span
  /-- Two spans end in different places. -/
  stop_ne : host.nodes.Pairwise fun left right => left.span.stop ≠ right.span.stop

variable {host : Host}

/-- Two different nodes lie in one another or apart, and end in different places. -/
theorem WellNested.pair (h : host.WellNested) {left right : Node} (hleft : left ∈ host.nodes)
    (hright : right ∈ host.nodes) (hne : left ≠ right) :
    left.span.NestedOrApart right.span ∧ left.span.stop ≠ right.span.stop := by
  have hnested : Std.Symm fun left right : Node => left.span.NestedOrApart right.span :=
    ⟨fun _ _ hlie => hlie.symm⟩
  have hstops : Std.Symm fun left right : Node => left.span.stop ≠ right.span.stop :=
    ⟨fun _ _ hends => hends.symm⟩
  exact ⟨h.nestedOrApart.forall hleft hright hne, h.stop_ne.forall hleft hright hne⟩

/-- A node that is not longer than another one is not longer than those longer than that one. -/
theorem length_le_trans (first second third : Node)
    (hfirst : decide (first.span.length ≤ second.span.length) = true)
    (hsecond : decide (second.span.length ≤ third.span.length) = true) :
    decide (first.span.length ≤ third.span.length) = true := by
  rw [decide_eq_true_eq] at *
  exact Nat.le_trans hfirst hsecond

/-- Of two nodes one is not longer than the other. -/
theorem length_le_total (first second : Node) :
    (decide (first.span.length ≤ second.span.length) ||
      decide (second.span.length ≤ first.span.length)) = true := by
  rw [Bool.or_eq_true, decide_eq_true_eq, decide_eq_true_eq]
  exact Nat.le_total first.span.length second.span.length

/-- The nodes around an offset do not get shorter from the inside to the outside. -/
theorem pairwise_ancestors (host : Host) (offset : Nat) :
    (host.ancestors offset).Pairwise fun left right => left.span.length ≤ right.span.length :=
  (List.pairwise_mergeSort length_le_trans length_le_total _).imp of_decide_eq_true

/-- The last character of a node stands in front of its end. -/
theorem WellNested.exists_last (h : host.WellNested) {node : Node} (hnode : node ∈ host.nodes) :
    ∃ front c after, host.source.text.toList = front ++ c :: after ∧
      byteLength front + c.utf8Size = node.span.stop := by
  obtain ⟨before, after, htext, hbytes⟩ := h.boundary_stop node hnode
  have hstart := h.start_lt_stop node hnode
  rcases List.eq_nil_or_concat before with rfl | ⟨front, c, rfl⟩
  · rw [byteLength] at hbytes
    omega
  · refine ⟨front, c, after, by rw [htext]; simp, ?_⟩
    simpa [byteLength] using hbytes

/-- The last character of a node belongs to its span. -/
theorem WellNested.contains_last (h : host.WellNested) {node : Node} (hnode : node ∈ host.nodes)
    {front after : List Char} {c : Char} (htext : host.source.text.toList = front ++ c :: after)
    (hstop : byteLength front + c.utf8Size = node.span.stop) :
    node.span.contains (byteLength front) = true := by
  have hsize := Char.utf8Size_pos c
  have hlength := h.start_lt_stop node hnode
  have hboundary := (h.boundary_start node hnode).le_of_lt htext
  rw [Span.contains_iff]
  omega

/-- Another node around the last character of a node is longer than the node. -/
theorem WellNested.length_lt (h : host.WellNested) {node other : Node} (hnode : node ∈ host.nodes)
    (hother : other ∈ host.nodes) (hne : other ≠ node) {front after : List Char} {c : Char}
    (htext : host.source.text.toList = front ++ c :: after)
    (hstop : byteLength front + c.utf8Size = node.span.stop)
    (hcontains : other.span.contains (byteLength front) = true) :
    node.span.length < other.span.length := by
  have hlast := Span.contains_iff.mp (h.contains_last hnode htext hstop)
  obtain ⟨hstart, hbefore⟩ := Span.contains_iff.mp hcontains
  -- The other node does not end in the character, and it ends elsewhere.
  have hboundary := (h.boundary_stop other hother).le_of_lt htext hbefore
  obtain ⟨hlie, hends⟩ := h.pair hother hnode hne
  simp only [Span.length]
  rcases hlie with hlie | hlie | hlie | hlie <;> omega

/-- The innermost node around the last character of a node is the node itself. -/
theorem WellNested.ancestors_eq_cons (h : host.WellNested) {node : Node} (hnode : node ∈ host.nodes)
    {front after : List Char} {c : Char} (htext : host.source.text.toList = front ++ c :: after)
    (hstop : byteLength front + c.utf8Size = node.span.stop) :
    ∃ outer, host.ancestors (byteLength front) = node :: outer := by
  have hmem : node ∈ host.ancestors (byteLength front) :=
    mem_ancestors.mpr ⟨hnode, h.contains_last hnode htext hstop⟩
  have hsorted := pairwise_ancestors host (byteLength front)
  cases hancestors : host.ancestors (byteLength front) with
  | nil => rw [hancestors] at hmem; cases hmem
  | cons first outer =>
    rw [hancestors] at hmem hsorted
    have hfirst : first ∈ host.nodes ∧ first.span.contains (byteLength front) = true := by
      rw [← mem_ancestors, hancestors]
      exact List.mem_cons_self
    by_cases hne : first = node
    · exact ⟨outer, by rw [hne]⟩
    · have hlonger := h.length_lt hnode hfirst.1 hne htext hstop hfirst.2
      have houter : node ∈ outer := (List.mem_cons.mp hmem).resolve_left (Ne.symm hne)
      have hshorter := (List.pairwise_cons.mp hsorted).1 node houter
      omega

/-- The call around the last character of a node is what that node asks for. -/
theorem WellNested.infoAt?_last (h : host.WellNested) {node : Node} {site : Site}
    (hnode : node ∈ host.nodes) (hsite : Site.ofNode? node = some site) {front after : List Char}
    {c : Char} (htext : host.source.text.toList = front ++ c :: after)
    (hstop : byteLength front + c.utf8Size = node.span.stop) (fallback : String)
    (tolerance : Selector.Tolerance) :
    host.infoAt? (byteLength front) fallback tolerance = host.infoOf? fallback tolerance site := by
  obtain ⟨outer, hancestors⟩ := h.ancestors_eq_cons hnode htext hstop
  rw [infoAt?, siteAt?, hancestors, List.findSome?_cons, hsite]
  rfl

end Host

end KeyLens
