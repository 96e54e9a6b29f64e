import KeyLens.Proofs.Present.Caret
import KeyLens.Proofs.Program.Spans

/-!
# Document order of nodes

The nodes of a program are visited in document order where no call or tag waits for one that stands
behind it. The condition of a loop that follows its body is visited before the body, the body of a
class before the class that it extends, and some types after what stands behind them. These are the
only programs whose nodes are not in document order.
-/

namespace KeyLens

/-- Whether a span may stand before another one: it starts earlier, or it starts there too and is
not shorter. -/
def Span.Precedes (left right : Span) : Prop :=
  left.start < right.start ∨ left.start = right.start ∧ right.stop ≤ left.stop

/-- A span stands before those within it. -/
theorem Span.precedes_of_within {outer inner : Span} (hstart : outer.start ≤ inner.start)
    (hstop : inner.stop ≤ outer.stop) : outer.Precedes inner := by
  unfold Span.Precedes
  omega

/-- A span that is not empty stands before those behind its end. -/
theorem Span.precedes_of_apart {left right : Span} (hleft : left.start < left.stop)
    (hapart : left.stop ≤ right.start) : left.Precedes right :=
  Or.inl (Nat.lt_of_lt_of_le hleft hapart)

/-- Nodes stand in the order of their spans. -/
theorem Host.precedes_iff {left right : Node} :
    Host.precedes left right = true ↔ left.span.Precedes right.span := by
  simp [Host.precedes, Span.Precedes]

namespace Program

namespace Tree

mutual

/-- Whether a tree holds a call or a tag, or is one. -/
def holdsNode : Tree → Bool
  | leaf _ => false
  | node _ parts => holdNode parts
  | call _ _ => true
  | tag _ => true

/-- Whether one of some trees holds a call or a tag. -/
def holdNode : List Tree → Bool
  | [] => false
  | part :: rest => holdsNode part || holdNode rest

end

mutual

/-- Whether no call or tag in a tree waits for one that stands behind it. -/
def isOrderly : Tree → Bool
  | leaf _ => true
  | node _ parts => areOrderly parts
  | call callee parts => isOrderly callee && areOrderly parts
  | tag parts => areOrderly parts

/-- Whether no call or tag in trees that follow one another waits for one that stands behind it. -/
def areOrderly : List Tree → Bool
  | [] => true
  | part :: rest =>
    isOrderly part && areOrderly rest &&
      rest.all fun later => decide (part.turn ≤ later.turn) || !part.holdsNode || !later.holdsNode

end

/-! ### Rows in turn -/

section Rows

variable {α : Type} {R : α → α → Prop} {S : Nat × List α → Nat × List α → Prop}
  {row : Nat × List α} {rows : List (Nat × List α)}

/-- A row is inserted behind the rows that come earlier and in front of all others. -/
theorem pairwise_insertInTurn (hsorted : rows.Pairwise fun first second => first.1 ≤ second.1) :
    (insertInTurn row rows).Pairwise S ↔
      (∀ other ∈ rows, if row.1 ≤ other.1 then S row other else S other row) ∧
        rows.Pairwise S := by
  induction rows with
  | nil => simp [insertInTurn]
  | cons first rest ih =>
    obtain ⟨hfirst, hrest⟩ := List.pairwise_cons.mp hsorted
    rw [insertInTurn]
    split
    · next hle =>
      have hall : ∀ other ∈ first :: rest, row.1 ≤ other.1 := by
        intro other hother
        rcases List.mem_cons.mp hother with rfl | hother
        · exact hle
        · exact Nat.le_trans hle (hfirst other hother)
      rw [List.pairwise_cons]
      refine and_congr_left fun _ => forall₂_congr fun other hother => ?_
      rw [if_pos (hall other hother)]
    · next hlt =>
      rw [List.pairwise_cons, ih hrest, List.pairwise_cons, List.forall_mem_cons, if_neg hlt]
      simp only [mem_insertInTurn, forall_eq_or_imp]
      constructor
      · rintro ⟨⟨hrow, hbefore⟩, hothers, hpairs⟩
        exact ⟨⟨hrow, hothers⟩, hbefore, hpairs⟩
      · rintro ⟨⟨hrow, hothers⟩, hbefore, hpairs⟩
        exact ⟨⟨hrow, hbefore⟩, hothers, hpairs⟩

/-- Rows are brought into the order of their turns. -/
theorem pairwise_foldr_insertInTurn (rows : List (Nat × List α)) :
    (rows.foldr insertInTurn []).Pairwise fun first second => first.1 ≤ second.1 := by
  induction rows with
  | nil => exact List.Pairwise.nil
  | cons row rest ih =>
    rw [List.foldr_cons, pairwise_insertInTurn ih]
    refine ⟨fun other _ => ?_, ih⟩
    split
    · assumption
    · omega

/-- Nothing is visited in turn where no row holds anything. -/
theorem inTurn_cons_eq_nil_iff : inTurn (row :: rows) = [] ↔ row.2 = [] ∧ inTurn rows = [] := by
  simp only [List.eq_nil_iff_forall_not_mem, mem_inTurn, List.mem_cons, not_exists, not_and,
    forall_eq_or_imp, forall_and]

/-- Two rows with values that are related in the order in which the rows are visited. -/
def AreRelated (R : α → α → Prop) (first second : Nat × List α) : Prop :=
  if first.1 ≤ second.1 then ∀ x ∈ first.2, ∀ y ∈ second.2, R x y
  else ∀ y ∈ second.2, ∀ x ∈ first.2, R y x

/-- What is visited in turn is related in that order if the first row is, what is visited of the
others is, and the first row is related to each of them. -/
theorem pairwise_inTurn_cons :
    (inTurn (row :: rows)).Pairwise R ↔
      row.2.Pairwise R ∧ (inTurn rows).Pairwise R ∧ ∀ other ∈ rows, AreRelated R row other := by
  rw [inTurn, inTurn, List.foldr_cons, List.pairwise_flatMap, List.pairwise_flatMap,
    pairwise_insertInTurn (pairwise_foldr_insertInTurn rows)]
  simp only [mem_insertInTurn, mem_foldr_insertInTurn, forall_eq_or_imp]
  constructor
  · rintro ⟨⟨hrow, hrows⟩, hrelated, hpairs⟩
    exact ⟨hrow, ⟨hrows, hpairs⟩, hrelated⟩
  · rintro ⟨hrow, ⟨hrows, hpairs⟩, hrelated⟩
    exact ⟨⟨hrow, hrows⟩, hrelated, hpairs⟩

end Rows

/-! ### Spans -/

/-- A call or tag has the span of its text, which is not empty. -/
theorem span_of_own? {offset : Nat} {tree : Tree} {item : Found}
    (h : tree.own? offset = some item) :
    item.span = ⟨offset, offset + tree.size⟩ ∧ 0 < tree.size := by
  have hbracket : 0 < '<'.utf8Size ∧ 0 < ')'.utf8Size := by decide
  cases tree with
  | leaf _ => cases h
  | node _ _ => cases h
  | call callee parts =>
    cases h
    refine ⟨rfl, ?_⟩
    simp only [size, text, byteLength_append, byteLength]
    omega
  | tag parts =>
    cases h
    refine ⟨rfl, ?_⟩
    simp only [size, text, byteLength]
    omega

end Tree

/-- What stands in a text has a span within it that is not empty. -/
theorem Found.StandsIn.bounds {item : Found} {offset : Nat} {text : List Char}
    (h : item.StandsIn offset text) :
    offset ≤ item.span.start ∧ item.span.start < item.span.stop ∧
      item.span.stop ≤ offset + byteLength text := by
  obtain ⟨tree, before, after, rfl, hown⟩ := h
  obtain ⟨hspan, hsize⟩ := Tree.span_of_own? hown
  simp only [hspan, byteLength_append, Tree.size] at hsize ⊢
  omega

namespace Tree

variable {offset turn : Nat} {tree : Tree} {parts : List Tree} {items : List Found}

mutual

/-- Nothing is found in a tree that holds no call or tag. -/
theorem found_eq_nil_iff (offset : Nat) (tree : Tree) :
    found offset tree = [] ↔ tree.holdsNode = false := by
  match tree with
  | leaf _ => simp [found, holdsNode]
  | node _ parts =>
    rw [found, holdsNode]
    exact inTurn_foundEach_eq_nil_iff offset parts
  | call _ _ => simp [found, holdsNode]
  | tag _ => simp [found, holdsNode]

/-- Nothing is found in trees that hold no call or tag. -/
theorem inTurn_foundEach_eq_nil_iff (offset : Nat) (parts : List Tree) :
    inTurn (foundEach offset parts) = [] ↔ holdNode parts = false := by
  match parts with
  | [] => simp [foundEach, inTurn, holdNode]
  | part :: rest =>
    rw [foundEach, inTurn_cons_eq_nil_iff, holdNode, Bool.or_eq_false_iff,
      found_eq_nil_iff offset part, inTurn_foundEach_eq_nil_iff (offset + part.size) rest]

end

/-- What is found first in the text is related to what is found in a later tree if the later tree is
not visited first, or if one of both is nothing. -/
theorem areRelated_found_iff (hitems : ∀ item ∈ items, item.span.start < item.span.stop ∧
      item.span.stop ≤ offset) :
    AreRelated (fun left right => left.span.Precedes right.span) (turn, items)
        (tree.turn, found offset tree) ↔
      (decide (turn ≤ tree.turn) || items.isEmpty || !tree.holdsNode) = true := by
  have hlater : ∀ later ∈ found offset tree, offset ≤ later.span.start ∧
      later.span.start < later.span.stop := by
    intro later hlater
    have hbounds := (standsIn_of_mem_found hlater).bounds
    exact ⟨hbounds.1, hbounds.2.1⟩
  unfold AreRelated
  by_cases hturn : turn ≤ tree.turn
  · simp only [hturn, if_true, decide_true, Bool.true_or, iff_true]
    intro first hfirst later hlate
    have hbefore := hitems first hfirst
    exact Span.precedes_of_apart hbefore.1 (Nat.le_trans hbefore.2 (hlater later hlate).1)
  · simp only [hturn, if_false, decide_false, Bool.false_or, Bool.or_eq_true, Bool.not_eq_true',
      List.isEmpty_iff, ← found_eq_nil_iff offset tree]
    constructor
    · intro hrelated
      by_contra hboth
      obtain ⟨hsome, hsome'⟩ := not_or.mp hboth
      obtain ⟨first, hfirst⟩ := List.exists_mem_of_ne_nil items hsome
      obtain ⟨later, hlate⟩ := List.exists_mem_of_ne_nil (found offset tree) hsome'
      have hbefore := hitems first hfirst
      have hbehind := hlater later hlate
      rcases hrelated later hlate first hfirst with hstart | ⟨hstart, -⟩ <;> omega
    · rintro (hnone | hnone) later hlate first hfirst
      · rw [hnone] at hfirst
        cases hfirst
      · rw [hnone] at hlate
        cases hlate

/-- What is found first in the text is related to what is found in each of the trees behind it if it
does not have to wait for it. -/
theorem areRelated_foundEach_iff (hitems : ∀ item ∈ items, item.span.start < item.span.stop ∧
      item.span.stop ≤ offset) :
    (∀ row ∈ foundEach offset parts,
        AreRelated (fun left right => left.span.Precedes right.span) (turn, items) row) ↔
      (parts.all fun later => decide (turn ≤ later.turn) || items.isEmpty || !later.holdsNode) =
        true := by
  induction parts generalizing offset with
  | nil => simp [foundEach]
  | cons part rest ih =>
    have hrest : ∀ item ∈ items, item.span.start < item.span.stop ∧
        item.span.stop ≤ offset + part.size := by
      intro item hitem
      have hbounds := hitems item hitem
      omega
    rw [foundEach, List.forall_mem_cons, ih hrest, areRelated_found_iff hitems, List.all_cons,
      Bool.and_eq_true]

/-- A call stands before what is found in it. -/
theorem precedes_of_mem_call {callee : Tree} {item : Found}
    (h : item ∈ found offset callee ++ inTurn (foundEach (offset + callee.size) parts)) :
    (foundCall offset callee parts).span.Precedes item.span := by
  have hinside : item.StandsIn offset (callee.text ++ textOf parts) := by
    rcases List.mem_append.mp h with hcallee | hparts
    · exact (standsIn_of_mem_found hcallee).append (textOf parts)
    · exact (standsIn_of_mem_inTurn hparts).prepend
  obtain ⟨hstart, -, hstop⟩ := hinside.bounds
  have hspan : (foundCall offset callee parts).span =
      ⟨offset, offset + (call callee parts).size⟩ := rfl
  rw [hspan]
  refine Span.precedes_of_within hstart ?_
  simp only [size, text, byteLength_append] at hstop ⊢
  omega

/-- A tag stands before what is found in it. -/
theorem precedes_of_mem_tag {item : Found} (h : item ∈ inTurn (foundEach (offset + 1) parts)) :
    (foundTag offset parts).span.Precedes item.span := by
  obtain ⟨hstart, -, hstop⟩ := (standsIn_of_mem_inTurn h).bounds
  have hspan : (foundTag offset parts).span = ⟨offset, offset + (tag parts).size⟩ := rfl
  have hsize : (tag parts).size = 1 + byteLength (textOf parts) := rfl
  rw [hspan, hsize, ← Nat.add_assoc]
  exact Span.precedes_of_within (Nat.le_of_succ_le hstart) hstop

/-- What is found in the callee stands before what is found in the arguments. -/
theorem precedes_of_mem_callee {callee : Tree} {first later : Found}
    (hfirst : first ∈ found offset callee)
    (hlater : later ∈ inTurn (foundEach (offset + callee.size) parts)) :
    first.span.Precedes later.span := by
  obtain ⟨-, hlength, hstop⟩ := (standsIn_of_mem_found hfirst).bounds
  obtain ⟨hstart, -, -⟩ := (standsIn_of_mem_inTurn hlater).bounds
  exact Span.precedes_of_apart hlength (Nat.le_trans hstop hstart)

mutual

/-- What is found in a tree is in document order if nothing in it has to wait. -/
theorem pairwise_found_iff (offset : Nat) (tree : Tree) :
    (found offset tree).Pairwise (fun left right => left.span.Precedes right.span) ↔
      tree.isOrderly = true := by
  match tree with
  | leaf _ => simp [found, isOrderly]
  | node _ parts => exact pairwise_foundEach_iff offset parts
  | call callee parts =>
    rw [found, List.pairwise_cons, List.pairwise_append, pairwise_found_iff offset callee,
      pairwise_foundEach_iff (offset + callee.size) parts, isOrderly, Bool.and_eq_true]
    constructor
    · rintro ⟨-, hcallee, hparts, -⟩
      exact ⟨hcallee, hparts⟩
    · rintro ⟨hcallee, hparts⟩
      exact ⟨fun item hitem => precedes_of_mem_call hitem, hcallee, hparts,
        fun first hfirst later hlater => precedes_of_mem_callee hfirst hlater⟩
  | tag parts =>
    rw [found, List.pairwise_cons, pairwise_foundEach_iff (offset + 1) parts, isOrderly]
    exact ⟨And.right, fun hparts => ⟨fun item hitem => precedes_of_mem_tag hitem, hparts⟩⟩

/-- What is found in trees that follow one another is in document order if nothing in them has to
wait. -/
theorem pairwise_foundEach_iff (offset : Nat) (parts : List Tree) :
    (inTurn (foundEach offset parts)).Pairwise
        (fun left right => left.span.Precedes right.span) ↔ areOrderly parts = true := by
  match parts with
  | [] => simp [foundEach, inTurn, areOrderly]
  | part :: rest =>
    have hpart : ∀ item ∈ found offset part, item.span.start < item.span.stop ∧
        item.span.stop ≤ offset + part.size := by
      intro item hitem
      have hbounds := (standsIn_of_mem_found hitem).bounds
      exact hbounds.2
    have hempty : (found offset part).isEmpty = !part.holdsNode := by
      rw [Bool.eq_iff_iff, List.isEmpty_iff, found_eq_nil_iff, Bool.not_eq_true']
    rw [foundEach, pairwise_inTurn_cons, pairwise_found_iff offset part,
      pairwise_foundEach_iff (offset + part.size) rest, areRelated_foundEach_iff hpart, areOrderly,
      hempty]
    simp only [Bool.and_eq_true, and_assoc]

end

end Tree

/-! ### Hosts -/

/-- The node of a call or tag has its span. -/
theorem Found.span_toNode (source : SourceText) (item : Found) :
    (item.toNode source).span = item.span := by
  cases item <;> rfl

/-- The nodes of a program are in document order if nothing in its trees has to wait. -/
theorem pairwise_nodes_iff {parser : Parser} {fileName text : String} {host : Host}
    {parts : List Tree} (h : parser.read fileName text = .ok host)
    (hparts : parser.parse (Language.ofFileName fileName) (withoutOrderMark text.toList) =
      .ok parts) :
    host.nodes.Pairwise (fun left right => left.span.Precedes right.span) ↔
      Tree.areOrderly parts = true := by
  obtain ⟨others, hothers, rfl⟩ := exists_trees_of_read h
  rw [hparts] at hothers
  cases hothers
  rw [List.pairwise_map]
  simp only [Found.span_toNode]
  exact Tree.pairwise_foundEach_iff 0 parts

end Program

namespace Host

/-- A node stands before those that stand behind one behind it. -/
theorem precedes_trans (first second third : Node) (hfirst : precedes first second = true)
    (hsecond : precedes second third = true) : precedes first third = true := by
  rw [precedes_iff, Span.Precedes] at *
  omega

/-- Of two nodes one may stand before the other. -/
theorem precedes_total (first second : Node) :
    (precedes first second || precedes second first) = true := by
  rw [Bool.or_eq_true, precedes_iff, precedes_iff, Span.Precedes, Span.Precedes]
  omega

/-- Bringing nodes into document order changes nothing if they are in that order. -/
theorem eq_ofNodes_iff {host : Host} {text : String} (hsource : host.source = ⟨text⟩) :
    host = ofNodes text host.nodes ↔
      host.nodes.Pairwise fun left right => left.span.Precedes right.span := by
  simp only [← precedes_iff]
  constructor
  · intro h
    have hsorted := List.pairwise_mergeSort precedes_trans precedes_total host.nodes
    rw [h]
    exact hsorted
  · intro h
    rw [ofNodes, List.mergeSort_of_pairwise h, ← hsource]

/-- Sites are in document order if the nodes are. -/
theorem pairwise_sites {host : Host}
    (h : host.nodes.Pairwise fun left right => left.span.Precedes right.span) :
    host.sites.Pairwise fun left right => left.span.Precedes right.span := by
  refine h.filterMap Site.ofNode? fun left right hspans first hfirst second hsecond => ?_
  rw [Site.span_of_ofNode? hfirst, Site.span_of_ofNode? hsecond]
  exact hspans

/-- Hints are in document order if the nodes are. -/
theorem pairwise_hinted {host : Host}
    (h : host.nodes.Pairwise fun left right => left.span.Precedes right.span) (fallback : String) :
    (host.hinted fallback).Pairwise fun left right => left.1.span.Precedes right.1.span := by
  have hcalls : (host.sites.filterMap (host.infoOf? fallback .strict)).Pairwise
      fun left right => left.span.Precedes right.span := by
    refine (pairwise_sites h).filterMap _ fun left right hspans first hfirst second hsecond => ?_
    rw [Site.span_of_info? hfirst, Site.span_of_info? hsecond]
    exact hspans
  refine (hcalls.sublist (sublist_firstEnding [] _)).filterMap _
    fun left right hspans first hfirst second hsecond => ?_
  obtain ⟨position, -, rfl⟩ := Option.map_eq_some_iff.mp hfirst
  obtain ⟨position', -, rfl⟩ := Option.map_eq_some_iff.mp hsecond
  exact hspans

end Host

namespace Program

/-- Whatever parser reads a program, its nodes are those of the host that is made of them, and so in
document order, exactly if no call or tag in its trees waits for one that stands behind it. Then its
sites and its hints are in document order too. -/
theorem eq_ofNodes_iff_areOrderly (parser : Parser) {fileName text : String} {host : Host}
    (h : parser.read fileName text = .ok host) :
    ∃ parts,
      parser.parse (Language.ofFileName fileName) (withoutOrderMark text.toList) = .ok parts ∧
      (host = Host.ofNodes text host.nodes ↔ Tree.areOrderly parts = true) ∧
      (Tree.areOrderly parts = true →
        host.sites.Pairwise (fun left right => left.span.Precedes right.span) ∧
        ∀ fallback, (host.hinted fallback).Pairwise fun left right =>
          left.1.span.Precedes right.1.span) := by
  obtain ⟨parts, hparts, hhost⟩ := exists_trees_of_read h
  have hnodes := pairwise_nodes_iff h hparts
  refine ⟨parts, hparts, ?_, fun horderly => ?_⟩
  · rw [← hnodes]
    exact Host.eq_ofNodes_iff (by rw [hhost])
  · have hpairs := hnodes.mpr horderly
    exact ⟨Host.pairwise_sites hpairs, Host.pairwise_hinted hpairs⟩

/-- A loop whose condition stands in front of its body has its nodes in document order. -/
theorem eq_ofNodes_of_while_loop :
    ∃ host, read "a.js" "while (a()) b()" = .ok host ∧
      host = Host.ofNodes "while (a()) b()" host.nodes ∧ host.nodes.length = 2 := by
  obtain ⟨host, hread, -, hnodes⟩ := @exists_host_of_nodes "a.js" "while (a()) b()"
    [.call "a" [] ⟨7, 10⟩, .call "b" [] ⟨12, 15⟩] (by decide +kernel)
  obtain ⟨parts, hparts, heq, -⟩ := eq_ofNodes_iff_areOrderly grammar hread
  have horderly : (grammar.parse (Language.ofFileName "a.js") (withoutOrderMark
      "while (a()) b()".toList)).toOption.map Tree.areOrderly = some true := by decide +kernel
  rw [hparts] at horderly
  exact ⟨host, hread, heq.mpr (Option.some.inj horderly), by rw [hnodes]; rfl⟩

/-- A loop whose condition stands behind its body does not: the condition is visited first. -/
theorem ne_ofNodes_of_do_loop :
    ∃ host, read "a.js" "do { a() } while (b())" = .ok host ∧
      host.nodes = [.call "b" [] ⟨18, 21⟩, .call "a" [] ⟨5, 8⟩] ∧
      host ≠ Host.ofNodes "do { a() } while (b())" host.nodes := by
  obtain ⟨host, hread, hsource, hnodes⟩ := @exists_host_of_nodes "a.js" "do { a() } while (b())"
    [.call "b" [] ⟨18, 21⟩, .call "a" [] ⟨5, 8⟩] (by decide +kernel)
  refine ⟨host, hread, hnodes, ?_⟩
  rw [Ne, Host.eq_ofNodes_iff hsource, hnodes]
  simp [Span.Precedes, Node.span]

end Program

end KeyLens
