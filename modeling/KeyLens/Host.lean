import KeyLens.Node
import KeyLens.Source.Text

/-!
# Hosts

A host is a source text with its nodes in document order: a node that starts earlier stands first,
and of nodes with one start the longer one.
-/

namespace KeyLens

/-- A source text together with the nodes that were found in it. -/
structure Host where
  /-- The text. -/
  source : SourceText
  /-- The nodes in document order. -/
  nodes : List Node
  deriving Repr, DecidableEq

namespace Host

/-- Whether `left` may stand before `right` in document order. -/
def precedes (left right : Node) : Bool :=
  left.span.start < right.span.start ||
    (left.span.start == right.span.start && right.span.stop ≤ left.span.stop)

/-- The host of a text with the given nodes, brought into document order; nodes of one span keep
their order. -/
def ofNodes (text : String) (nodes : List Node) : Host :=
  ⟨⟨text⟩, nodes.mergeSort precedes⟩

/-- The nodes around the byte at `offset`, the shortest first; of equally long ones the last in
document order stands first. -/
def ancestors (host : Host) (offset : Nat) : List Node :=
  (host.nodes.reverse.filter fun node => node.span.contains offset).mergeSort
    fun left right => left.span.length ≤ right.span.length

/-- The text before `offset`. -/
def preceding (host : Host) (offset : Nat) : String :=
  host.source.preceding offset

/-- The ancestors of an offset are the nodes whose span contains it. -/
theorem mem_ancestors {host : Host} {offset : Nat} {node : Node} :
    node ∈ host.ancestors offset ↔ node ∈ host.nodes ∧ node.span.contains offset = true := by
  simp [ancestors, List.mem_mergeSort, List.mem_filter]

end Host

end KeyLens
