import KeyLens.Program.Grammar
import KeyLens.Proofs.Source.Positions

/-!
# Spans of calls

A parser loses no character, so the spans of a tree's calls and tags cut their own texts out of the
text that was read. A call starts with its callee, holds its arguments in order and ends with a
parenthesis. Spans count from behind a mark of the byte order: if a text starts with one, they
stand too far in front.
-/

namespace KeyLens.Program

namespace Tree

/-! ### What is found -/

/-- Inserting a row keeps all others. -/
theorem mem_insertInTurn {α : Type} {row other : Nat × List α} {rows : List (Nat × List α)} :
    other ∈ insertInTurn row rows ↔ other = row ∨ other ∈ rows := by
  induction rows with
  | nil => simp [insertInTurn]
  | cons first rest ih =>
    rw [insertInTurn]
    split
    · rw [List.mem_cons]
    · rw [List.mem_cons, ih, List.mem_cons, or_left_comm]

/-- Bringing rows into order keeps all of them. -/
theorem mem_foldr_insertInTurn {α : Type} {row : Nat × List α} {rows : List (Nat × List α)} :
    row ∈ rows.foldr insertInTurn [] ↔ row ∈ rows := by
  induction rows with
  | nil => rfl
  | cons first rest ih => rw [List.foldr_cons, mem_insertInTurn, ih, List.mem_cons]

/-- What is visited in turn is what the rows hold. -/
theorem mem_inTurn {α : Type} {value : α} {rows : List (Nat × List α)} :
    value ∈ inTurn rows ↔ ∃ row ∈ rows, value ∈ row.2 := by
  simp only [inTurn, List.mem_flatMap, mem_foldr_insertInTurn]

/-- The call or tag that a tree at `offset` is itself. -/
def own? (offset : Nat) : Tree → Option Found
  | call callee parts => some (foundCall offset callee parts)
  | tag parts => some (foundTag offset parts)
  | leaf _ => none
  | node _ _ => none

end Tree

/-- A text that starts at `offset` holds the text of a tree, and the tree is the given call or tag. -/
def Found.StandsIn (item : Found) (offset : Nat) (text : List Char) : Prop :=
  ∃ (tree : Tree) (before after : List Char), text = before ++ (tree.text ++ after) ∧
    tree.own? (offset + byteLength before) = some item

namespace Found.StandsIn

variable {item : Found} {offset : Nat} {text : List Char}

/-- More text behind changes nothing. -/
theorem append (h : item.StandsIn offset text) (behind : List Char) :
    item.StandsIn offset (text ++ behind) := by
  obtain ⟨tree, before, after, rfl, hown⟩ := h
  exact ⟨tree, before, after ++ behind, by simp, hown⟩

/-- More text in front moves the start. -/
theorem prepend {front : List Char} (h : item.StandsIn (offset + byteLength front) text) :
    item.StandsIn offset (front ++ text) := by
  obtain ⟨tree, before, after, rfl, hown⟩ := h
  refine ⟨tree, front ++ before, after, by simp, ?_⟩
  rw [byteLength_append, ← Nat.add_assoc]
  exact hown

/-- A call or tag stands in its own text. -/
theorem own {tree : Tree} (h : tree.own? offset = some item) : item.StandsIn offset tree.text :=
  ⟨tree, [], [], by simp, h⟩

end Found.StandsIn

namespace Tree

mutual

/-- What is found in a tree stands in its text. -/
theorem standsIn_of_mem_found {offset : Nat} {tree : Tree} {item : Found}
    (h : item ∈ found offset tree) : item.StandsIn offset tree.text := by
  match tree with
  | leaf _ => cases h
  | node _ parts => exact standsIn_of_mem_inTurn h
  | call callee parts =>
    rw [found] at h
    rcases List.mem_cons.mp h with hcall | hinside
    · exact Found.StandsIn.own (congrArg some hcall.symm)
    · rw [text, List.append_assoc]
      rcases List.mem_append.mp hinside with hcallee | hparts
      · exact (standsIn_of_mem_found hcallee).append _
      · exact ((standsIn_of_mem_inTurn hparts).append [')']).prepend
  | tag parts =>
    rw [found] at h
    rcases List.mem_cons.mp h with htag | hinside
    · exact Found.StandsIn.own (congrArg some htag.symm)
    · exact @Found.StandsIn.prepend item offset (textOf parts) ['<'] (standsIn_of_mem_inTurn hinside)

/-- What is found in trees that follow one another stands in their text. -/
theorem standsIn_of_mem_inTurn {offset : Nat} {parts : List Tree} {item : Found}
    (h : item ∈ inTurn (foundEach offset parts)) : item.StandsIn offset (textOf parts) := by
  obtain ⟨row, hrow, hitem⟩ := mem_inTurn.mp h
  match parts with
  | [] => cases hrow
  | first :: rest =>
    rw [foundEach] at hrow
    rcases List.mem_cons.mp hrow with rfl | hrow
    · exact (standsIn_of_mem_found hitem).append (textOf rest)
    · exact (standsIn_of_mem_inTurn (mem_inTurn.mpr ⟨row, hrow, hitem⟩)).prepend

end

/-- The spans of trees that follow one another cut their texts out of a text that holds them. -/
theorem sliceChars?_of_mem_spansFrom {before after : List Char} {parts : List Tree}
    {entry : Tree × Span} (h : entry ∈ spansFrom (byteLength before) parts) :
    SourceText.sliceChars? (before ++ (textOf parts ++ after)) entry.2 = some entry.1.text := by
  induction parts generalizing before with
  | nil => cases h
  | cons part rest ih =>
    rw [spansFrom] at h
    rw [textOf, List.append_assoc]
    rcases List.mem_cons.mp h with rfl | hrest
    · exact SourceText.sliceChars?_append before part.text (textOf rest ++ after)
    · have hbefore : byteLength before + part.size = byteLength (before ++ part.text) := by
        rw [byteLength_append, size]
      rw [hbefore] at hrest
      rw [← List.append_assoc]
      exact ih hrest

/-- Each of the trees has its span. -/
theorem map_fst_spansFrom (offset : Nat) (parts : List Tree) :
    (spansFrom offset parts).map Prod.fst = parts := by
  induction parts generalizing offset with
  | nil => rfl
  | cons part rest ih => rw [spansFrom, List.map_cons, ih]

end Tree

/-- Texts that stand in a text one behind the other, with anything around them. -/
def StandInOrder : List (List Char) → List Char → Prop
  | [], _ => True
  | first :: others, text =>
    ∃ before after, text = before ++ (first ++ after) ∧ StandInOrder others after

/-- More text in front changes nothing. -/
theorem StandInOrder.prepend {texts : List (List Char)} {text : List Char}
    (h : StandInOrder texts text) (front : List Char) : StandInOrder texts (front ++ text) := by
  cases texts with
  | nil => trivial
  | cons first others =>
    obtain ⟨before, after, rfl, hothers⟩ := h
    exact ⟨front ++ before, after, by simp, hothers⟩

/-- The texts of some of the trees that follow one another stand in the text of all. -/
theorem standInOrder_filter (p : Tree → Bool) (parts : List Tree) :
    StandInOrder ((parts.filter p).map Tree.text) (Tree.textOf parts) := by
  induction parts with
  | nil => trivial
  | cons part rest ih =>
    rw [Tree.textOf, List.filter_cons]
    split
    · exact ⟨[], Tree.textOf rest, by simp, ih⟩
    · exact ih.prepend part.text

/-! ### Programs -/

/-- A program that is read has trees, and its nodes are what is found in them. -/
theorem exists_trees_of_read {parser : Parser} {fileName text : String} {host : Host}
    (h : parser.read fileName text = .ok host) :
    ∃ parts,
      parser.parse (Language.ofFileName fileName) (withoutOrderMark text.toList) = .ok parts ∧
      host = ⟨⟨text⟩, (Tree.foundIn parts).map (Found.toNode ⟨text⟩)⟩ := by
  unfold Parser.read at h
  split at h
  · next parts hparts =>
    cases h
    exact ⟨parts, hparts, rfl⟩
  · cases h

/-- A text that does not start with a mark of the byte order is read as a whole. -/
theorem withoutOrderMark_eq {text : List Char} (h : text.head? ≠ some '\ufeff') :
    withoutOrderMark text = text := by
  cases text with
  | nil => rfl
  | cons c rest =>
    rw [withoutOrderMark, if_neg]
    rintro rfl
    exact h rfl

/-- The nodes of a program that does not start with a mark of the byte order stand in its text. -/
theorem standsIn_of_mem_nodes {parser : Parser} {fileName text : String} {host : Host}
    {node : Node} (h : parser.read fileName text = .ok host)
    (hmark : text.toList.head? ≠ some '\ufeff') (hnode : node ∈ host.nodes) :
    host.source = ⟨text⟩ ∧ ∃ item : Found, item.toNode ⟨text⟩ = node ∧
      item.StandsIn 0 text.toList := by
  obtain ⟨parts, hparts, rfl⟩ := exists_trees_of_read h
  obtain ⟨item, hitem, hnode⟩ := List.mem_map.mp hnode
  rw [withoutOrderMark_eq hmark] at hparts
  obtain ⟨rest, htext⟩ := parser.spells hparts
  refine ⟨rfl, item, hnode, ?_⟩
  rw [← htext]
  exact (Tree.standsIn_of_mem_inTurn hitem).append rest

/-- The text of a span that cuts out some characters. -/
theorem textAt_eq {text : String} {span : Span} {chars : List Char}
    (h : SourceText.sliceChars? text.toList span = some chars) :
    Found.textAt ⟨text⟩ span = String.ofList chars := by
  rw [Found.textAt, SourceText.slice?, h]
  rfl

/-- Where each part of a call is cut out by its span, each argument is. -/
theorem map_textAt_arguments {source : SourceText} {offset : Nat} {parts : List Tree}
    (h : ∀ entry ∈ Tree.spansFrom offset parts,
      Found.textAt source entry.2 = String.ofList entry.1.text) :
    (((Tree.spansFrom offset parts).filter fun entry => entry.1.isArgument).map Prod.snd).map
        (Found.textAt source) =
      (parts.filter Tree.isArgument).map fun part => String.ofList part.text :=
  calc
    (((Tree.spansFrom offset parts).filter fun entry => entry.1.isArgument).map Prod.snd).map
        (Found.textAt source)
      = ((Tree.spansFrom offset parts).filter fun entry => entry.1.isArgument).map
          fun entry => String.ofList entry.1.text := by
      rw [List.map_map]
      refine List.map_congr_left fun entry hentry => ?_
      exact h entry (List.mem_filter.mp hentry).1
    _ = (((Tree.spansFrom offset parts).map Prod.fst).filter Tree.isArgument).map
          fun part => String.ofList part.text := by
      rw [List.filter_map, List.map_map]
      rfl
    _ = (parts.filter Tree.isArgument).map fun part => String.ofList part.text := by
      rw [Tree.map_fst_spansFrom]

/-- The node of a call has the texts of its callee and of its arguments. -/
theorem toNode_foundCall {text : String} {before after : List Char} {callee : Tree}
    {parts : List Tree} (htext : text.toList = before ++ ((Tree.call callee parts).text ++ after)) :
    (Tree.foundCall (byteLength before) callee parts).toNode ⟨text⟩ =
      .call (String.ofList callee.text)
        ((parts.filter Tree.isArgument).map fun part => String.ofList part.text)
        ⟨byteLength before, byteLength before + (Tree.call callee parts).size⟩ := by
  simp only [Tree.text, List.append_assoc] at htext
  have hcallee := SourceText.sliceChars?_append before callee.text
    (Tree.textOf parts ++ ([')'] ++ after))
  have hparts : ∀ entry ∈ Tree.spansFrom (byteLength before + callee.size) parts,
      Found.textAt ⟨text⟩ entry.2 = String.ofList entry.1.text := by
    intro entry hentry
    have hstart : byteLength before + callee.size = byteLength (before ++ callee.text) := by
      rw [byteLength_append, Tree.size]
    rw [hstart] at hentry
    refine textAt_eq ?_
    rw [htext, ← List.append_assoc]
    exact Tree.sliceChars?_of_mem_spansFrom hentry
  rw [← htext] at hcallee
  simp only [Tree.foundCall, Found.toNode, Node.call.injEq, and_true]
  exact ⟨textAt_eq hcallee, map_textAt_arguments hparts⟩

/-- Whatever parser reads a program that does not start with a mark of the byte order, the span of a
call cuts out the call: its callee, then a text that holds its arguments in order, and a parenthesis
at the end. -/
theorem slice_of_call (parser : Parser) {fileName text callee : String} {arguments : List String}
    {span : Span} {host : Host} (h : parser.read fileName text = .ok host)
    (hmark : text.toList.head? ≠ some '\ufeff')
    (hcall : .call callee arguments span ∈ host.nodes) :
    ∃ inside, host.source.slice? span = some (String.ofList (callee.toList ++ inside ++ [')'])) ∧
      StandInOrder (arguments.map String.toList) inside := by
  obtain ⟨hsource, item, hitem, tree, before, after, htext, hown⟩ :=
    standsIn_of_mem_nodes h hmark hcall
  rw [Nat.zero_add] at hown
  cases tree with
  | leaf _ => cases hown
  | node _ _ => cases hown
  | tag parts =>
    cases hown
    cases hitem
  | call head parts =>
    cases hown
    rw [toNode_foundCall htext] at hitem
    cases hitem
    refine ⟨Tree.textOf parts, ?_, ?_⟩
    · rw [hsource, SourceText.slice?, htext, Tree.size, SourceText.sliceChars?_append,
        String.toList_ofList]
      rfl
    · have horder := standInOrder_filter Tree.isArgument parts
      simpa [List.map_map, Function.comp_def] using horder

/-- A program whose nodes are known is read. -/
theorem exists_host_of_nodes {fileName text : String} {nodes : List Node}
    (h : (read fileName text).toOption.map Host.nodes = some nodes) :
    ∃ host, read fileName text = .ok host ∧ host.source = ⟨text⟩ ∧ host.nodes = nodes := by
  cases hread : read fileName text with
  | error fault =>
    rw [hread] at h
    cases h
  | ok host =>
    rw [hread] at h
    obtain ⟨parts, -, rfl⟩ := exists_trees_of_read hread
    exact ⟨_, rfl, rfl, Option.some.inj h⟩

/-- The span of a call with one argument cuts the call out. -/
theorem slice_of_selector_call :
    ∃ host, read "a.js" "t($ => $.a)" = .ok host ∧ "t($ => $.a)".toList.head? ≠ some '\ufeff' ∧
      .call "t" ["$ => $.a"] ⟨0, 11⟩ ∈ host.nodes ∧
      ∃ inside, host.source.slice? ⟨0, 11⟩ = some (String.ofList ("t".toList ++ inside ++ [')'])) ∧
        StandInOrder ["$ => $.a".toList] inside := by
  obtain ⟨host, hread, -, hnodes⟩ := @exists_host_of_nodes "a.js" "t($ => $.a)"
    [.call "t" ["$ => $.a"] ⟨0, 11⟩] (by decide +kernel)
  have hmark : "t($ => $.a)".toList.head? ≠ some '\ufeff' := by decide
  have hcall : .call "t" ["$ => $.a"] ⟨0, 11⟩ ∈ host.nodes := by
    rw [hnodes]
    exact List.mem_cons_self
  exact ⟨host, hread, hmark, hcall, slice_of_call grammar hread hmark hcall⟩

/-- Behind a mark of the byte order the span of a call cuts out something else: here the mark. -/
theorem slice_of_marked_call :
    ∃ host, read "a.js" "\ufefft()" = .ok host ∧ .call "" [] ⟨0, 3⟩ ∈ host.nodes ∧
      host.source.slice? ⟨0, 3⟩ = some "\ufeff" ∧
      ∀ inside, host.source.slice? ⟨0, 3⟩ ≠ some (String.ofList ("".toList ++ inside ++ [')'])) := by
  obtain ⟨host, hread, hsource, hnodes⟩ := @exists_host_of_nodes "a.js" "\ufefft()"
    [.call "" [] ⟨0, 3⟩] (by decide +kernel)
  have hslice : host.source.slice? ⟨0, 3⟩ = some "\ufeff" := by
    rw [hsource]
    decide
  refine ⟨host, hread, by rw [hnodes]; exact List.mem_cons_self, hslice, fun inside hinside => ?_⟩
  rw [hslice] at hinside
  have hlast := congrArg (fun text => text.toList.getLast?) (Option.some.inj hinside)
  simp only [String.toList_ofList, List.getLast?_concat] at hlast
  exact absurd hlast (by decide)

end KeyLens.Program
