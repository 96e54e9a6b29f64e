import KeyLens.Program.Elements
import KeyLens.Program.Expressions

/-!
# What calls and tags are read from

Arguments in parentheses behind an operand make a call of all that has been read of the operand,
and what stands between the parentheses is an argument exactly where an assignment is read. An
element that is no fragment makes a tag of what is read behind its bracket. Both are told of any
reader of the goals inside.
-/

namespace KeyLens.Program

namespace Reader

variable {α β : Type} {source : List Char} {state after : State source} {a : α} {b : β}

/-! ### Runs -/

/-- A reader that is followed by another one has read up to some state in between. -/
theorem run_bind {reader : Reader α} {next : α → Reader β} :
    (reader >>= next).run state = .ok (b, after) ↔
      ∃ a between, reader.run state = .ok (a, between) ∧ (next a).run between = .ok (b, after) := by
  simp only [Bind.bind]
  cases reader.run state with
  | error failure => simp
  | ok result => simp [Prod.ext_iff, and_assoc]

/-- Reading nothing changes nothing. -/
theorem run_pure {value : α} :
    (pure value : Reader α).run state = .ok (a, after) ↔ a = value ∧ after = state := by
  have hpure : (pure value : Reader α).run state = .ok (value, state) := rfl
  rw [hpure, Except.ok.injEq, Prod.mk.injEq, eq_comm, @eq_comm _ state]

/-- The text ahead is told as it is. -/
theorem run_ahead {text : List Char} :
    ahead.run state = .ok (text, after) ↔ text = state.rest ∧ after = state := by
  have hahead : ahead.run state = .ok (state.rest, state) := rfl
  rw [hahead, Except.ok.injEq, Prod.mk.injEq, eq_comm, @eq_comm _ state]

/-- What a reader tells may be turned into something else. -/
theorem run_map {reader : Reader α} {f : α → β} :
    (do pure (f (← reader))).run state = .ok (b, after) ↔
      ∃ a, reader.run state = .ok (a, after) ∧ b = f a := by
  simp only [run_bind, run_pure]
  constructor
  · rintro ⟨a, _, hrun, rfl, rfl⟩
    exact ⟨a, hrun, rfl⟩
  · rintro ⟨a, hrun, rfl⟩
    exact ⟨a, after, hrun, rfl, rfl⟩

/-- The text ahead is told without the blanks at its start. -/
theorem run_upcoming {text : List Char} :
    upcoming.run state = .ok (text, after) ↔ text = skipBlanks state.rest ∧ after = state := by
  rw [upcoming, run_map]
  simp only [run_ahead, and_assoc, exists_eq_left]
  exact and_comm

/-- The next lexeme is told as it is. -/
theorem run_next {token : Token} :
    next.run state = .ok (token, after) ↔
      token = tokenAt (skipBlanks state.rest) ∧ after = state := by
  rw [next, run_map]
  simp only [run_upcoming, and_assoc, exists_eq_left]
  exact and_comm

/-! ### Trees that are added -/

/-- Whether a reader keeps the finished trees and adds only such for which `p` holds. -/
def Adds (p : Tree → Prop) (reader : Reader α) : Prop :=
  ∀ ⦃source : List Char⦄ ⦃state after : State source⦄ ⦃a : α⦄,
    reader.run state = .ok (a, after) →
      ∃ added, after.trees = added ++ state.trees ∧ ∀ tree ∈ added, p tree

section Adds

variable {p : Tree → Prop} {reader : Reader α}

/-- A reader that leaves its state as it is adds nothing. -/
theorem adds_of_unchanged (h : ∀ ⦃source : List Char⦄ ⦃state after : State source⦄ ⦃a : α⦄,
    reader.run state = .ok (a, after) → after = state) : Adds p reader :=
  fun _ _ _ _ hrun => ⟨[], congrArg State.trees (h hrun), nofun⟩

theorem adds_ahead : Adds p ahead :=
  adds_of_unchanged fun _ _ _ _ hrun => (run_ahead.mp hrun).2

theorem adds_next : Adds p next :=
  adds_of_unchanged fun _ _ _ _ hrun => (run_next.mp hrun).2

theorem adds_pure (value : α) : Adds p (pure value : Reader α) :=
  adds_of_unchanged fun _ _ _ _ hrun => (run_pure.mp hrun).2

theorem adds_stop (fault : Fault) : Adds p (stop fault : Reader α) := by
  intro source state after a hrun
  cases hrun

/-- What two readers add is what each of them adds. -/
theorem Adds.bind {next : α → Reader β} (hreader : Adds p reader) (hnext : ∀ a, Adds p (next a)) :
    Adds p (reader >>= next) := by
  intro source state after b hrun
  obtain ⟨a, between, hfirst, hsecond⟩ := run_bind.mp hrun
  obtain ⟨first, htrees, hfirst⟩ := hreader hfirst
  obtain ⟨second, htrees', hsecond⟩ := hnext a hsecond
  refine ⟨second ++ first, by rw [htrees', htrees, List.append_assoc], fun tree htree => ?_⟩
  exact (List.mem_append.mp htree).elim (hsecond tree) (hfirst tree)

/-- A scope of its own adds one tree. -/
theorem adds_enclose {role : Role} (h : ∀ ⦃text : List Char⦄ ⦃inner : State text⦄ ⦃a : α⦄,
    reader.run (State.start text) = .ok (a, inner) → p (.node role inner.trees.reverse)) :
    Adds p (enclose role reader) := by
  intro source state after a hrun
  unfold enclose at hrun
  dsimp only at hrun
  split at hrun
  · next inner hinner =>
    cases hrun
    exact ⟨[.node role inner.trees.reverse], rfl, List.forall_mem_singleton.mpr (h hinner)⟩
  · cases hrun

/-- What a step adds is all that its repetition adds. -/
theorem Adds.repeatWhile {step : Reader Bool} (hstep : Adds p step) :
    Adds p (repeatWhile step) := by
  have hrepeat (count : Nat) : Adds p (repeatIn step count) := by
    induction count with
    | zero => exact adds_stop .unexpected
    | succ count ih =>
      refine hstep.bind fun more => ?_
      cases more with
      | false => exact adds_pure ()
      | true => exact ih
  exact adds_ahead.bind fun _ => hrepeat _

theorem adds_isMark (text : String) : Adds p (isMark text) :=
  adds_next.bind fun _ => adds_pure _

variable (hleaf : ∀ chars, p (.leaf chars))

include hleaf

theorem adds_take (count : Nat) : Adds p (take count) := by
  intro source state after a hrun
  cases hrun
  by_cases hcount : count = 0
  · exact ⟨[], by rw [if_pos hcount]; rfl, nofun⟩
  · refine ⟨[.leaf (state.rest.take count)], by rw [if_neg hcount]; rfl, ?_⟩
    exact List.forall_mem_singleton.mpr (hleaf _)

theorem adds_blanks : Adds p blanks :=
  adds_ahead.bind fun _ => adds_take hleaf _

theorem adds_mark (text : String) : Adds p (mark text) := by
  refine (adds_isMark text).bind fun comes => ?_
  split
  · exact (adds_blanks hleaf).bind fun _ => adds_take hleaf _
  · exact adds_stop .unexpected

theorem adds_optionalMark (text : String) : Adds p (optionalMark text) := by
  refine (adds_isMark text).bind fun comes => ?_
  split
  · exact (adds_mark hleaf text).bind fun _ => adds_pure true
  · exact adds_pure false

/-- A list adds what its items add. -/
theorem adds_commaList (close : String) {item : Reader Unit} (hitem : Adds p item) :
    Adds p (commaList close item) := by
  have hstep : Adds p (do
      if ← isMark close then pure false
      else
        item
        optionalMark ",") := by
    refine (adds_isMark close).bind fun closes => ?_
    split
    · exact adds_pure false
    · exact hitem.bind fun _ => adds_optionalMark hleaf ","
  exact hstep.repeatWhile.bind fun _ => adds_mark hleaf close

end Adds

end Reader

namespace Expressions

open Reader

variable {read : Readers} {source : List Char} {state after : State source}

/-- The parts of a call behind its callee: characters, and arguments that are read as
assignments. -/
inductive IsCallPart (read : Readers) : Tree → Prop where
  /-- Characters between the arguments. -/
  | leaf (chars : List Char) : IsCallPart read (.leaf chars)
  /-- An argument. -/
  | argument {text : List Char} {shape : Shape} {inner : State text}
      (h : (read (.assignment .free)).run (State.start text) = .ok (shape, inner)) :
      IsCallPart read (.node .argument inner.trees.reverse)

/-- Closing a call makes one tree of the callee and the trees behind it. -/
theorem trees_of_closeCall {callee : Tree} {parts : List Tree}
    (hstate : state.trees = parts ++ [callee]) (h : closeCall.run state = .ok ((), after)) :
    after.trees = [.call callee parts.reverse] := by
  have hreverse : state.trees.reverse = callee :: parts.reverse := by simp [hstate]
  unfold closeCall at h
  dsimp only at h
  split at h
  · next hclose =>
    cases h
    unfold State.closeCall? at hclose
    split at hclose
    · next htrees _ =>
      rw [hreverse] at htrees
      cases htrees
      rw [← Option.some.inj hclose]
    · cases hclose
  · cases h

/-- Arguments in parentheses make a call of the callee in front of them. -/
theorem trees_of_callArguments {callee : Tree} {front : List Tree}
    (hstate : state.trees = front ++ [callee]) (hfront : ∀ part ∈ front, IsCallPart read part)
    (h : (callArguments read).run state = .ok ((), after)) :
    ∃ parts, after.trees = [.call callee parts] ∧ ∀ part ∈ parts, IsCallPart read part := by
  have hleaf := @IsCallPart.leaf read
  have hargument : Adds (IsCallPart read) (part .argument do
      let _ ← read (.assignment .free)) := by
    refine (adds_blanks hleaf).bind fun _ => adds_enclose fun text inner a hrun => ?_
    obtain ⟨shape, between, hread, hpure⟩ := run_bind.mp hrun
    obtain ⟨-, rfl⟩ := run_pure.mp hpure
    exact .argument hread
  have hstep : Adds (IsCallPart read) (do
      if ← isMark ")" then pure false
      else
        let _ ← optionalMark "..."
        part .argument do
          let _ ← read (.assignment .free)
        optionalMark ",") := by
    refine (adds_isMark ")").bind fun closes => ?_
    split
    · exact adds_pure false
    · exact (adds_optionalMark hleaf "...").bind fun _ => hargument.bind fun _ =>
        adds_optionalMark hleaf ","
  -- Everything in front of the parenthesis at the end only adds parts to the callee.
  have hinside := (adds_mark hleaf "(").bind fun _ => hstep.repeatWhile.bind fun _ =>
    adds_blanks hleaf
  unfold callArguments at h
  obtain ⟨_, opened, hopen, h⟩ := run_bind.mp h
  obtain ⟨_, listed, hlist, h⟩ := run_bind.mp h
  obtain ⟨_, ahead, hblanks, hclose⟩ := run_bind.mp h
  obtain ⟨added, htrees, hadded⟩ := hinside (run_bind.mpr ⟨(), opened, hopen,
    run_bind.mpr ⟨(), listed, hlist, hblanks⟩⟩)
  rw [hstate, ← List.append_assoc] at htrees
  refine ⟨(added ++ front).reverse, trees_of_closeCall htrees hclose, fun part hpart => ?_⟩
  rw [List.mem_reverse, List.mem_append] at hpart
  exact hpart.elim (hadded part) (hfront part)

/-- A parenthesis behind an operand makes a call of all that has been read of the operand. -/
theorem trees_of_suffix? {language : Language} {shape : Shape} {result : Option Shape}
    (hmark : tokenAt (skipBlanks state.rest) = .mark "(")
    (h : (suffix? language read true shape).run state = .ok (result, after)) :
    result = some .value ∧ ∃ parts,
      after.trees = [.call (.node .plain state.trees.reverse) parts] ∧
      ∀ part ∈ parts, IsCallPart read part := by
  unfold suffix? at h
  obtain ⟨token, between, hnext, h⟩ := run_bind.mp h
  obtain ⟨rfl, rfl⟩ := run_next.mp hnext
  rw [hmark] at h
  simp only [if_true] at h
  obtain ⟨_, wrapped, hwrap, h⟩ := run_bind.mp h
  obtain ⟨_, called, hcall, h⟩ := run_bind.mp h
  obtain ⟨rfl, rfl⟩ := run_pure.mp h
  cases hwrap
  exact ⟨rfl, @trees_of_callArguments read source _ after _ [] rfl nofun hcall⟩

/-- So does a parenthesis behind the mark of an optional chain. -/
theorem trees_of_optionalMember {language : Language} {shape : Shape}
    (hsecond : second.run state = .ok (.mark "(", state))
    (h : (optionalMember language read).run state = .ok (shape, after)) :
    shape = .target ∧ ∃ parts,
      after.trees = [.call (.node .plain state.trees.reverse) parts] ∧
      ∀ part ∈ parts, IsCallPart read part := by
  unfold optionalMember at h
  obtain ⟨follower, between, hfollower, h⟩ := run_bind.mp h
  rw [hsecond] at hfollower
  cases hfollower
  rw [if_pos (by decide)] at h
  obtain ⟨_, wrapped, hwrap, h⟩ := run_bind.mp h
  obtain ⟨_, marked, hmark, h⟩ := run_bind.mp h
  obtain ⟨_, called, hcall, h⟩ := run_bind.mp h
  obtain ⟨rfl, rfl⟩ := run_pure.mp h
  cases hwrap
  obtain ⟨added, htrees, hadded⟩ := adds_mark IsCallPart.leaf "?." hmark
  exact ⟨rfl, trees_of_callArguments htrees hadded hcall⟩

/-- Arguments of `new`, `super` and `import` make no call: they only add what is read in them. -/
theorem adds_arguments {p : Tree → Prop} (hleaf : ∀ chars, p (.leaf chars))
    (hread : Adds p (read (.assignment .free))) : Adds p (arguments read) := by
  refine (adds_mark hleaf "(").bind fun _ => adds_commaList hleaf ")" ?_
  exact (adds_optionalMark hleaf "...").bind fun _ => hread.bind fun _ => adds_pure ()

end Expressions

namespace Elements

open Reader

variable {language : Language} {read : Readers} {source : List Char} {state after : State source}

/-- A bracket makes one tag of what is read behind it. -/
theorem run_encloseTag {reader : Reader Unit} :
    (encloseTag reader).run state = .ok ((), after) ↔
      ∃ (rest : List Char) (inner : State rest), state.rest = '<' :: rest ∧
        reader.run (State.start rest) = .ok ((), inner) ∧
        after.trees = .tag inner.trees.reverse :: state.trees ∧ after.rest = inner.rest := by
  unfold encloseTag
  dsimp only
  split
  · next rest hrest =>
    constructor
    · intro h
      split at h
      · next inner hinner =>
        cases h
        exact ⟨rest, inner, hrest, hinner, rfl, rfl⟩
      · cases h
    · rintro ⟨rest', inner, hrest', hinner, htrees, hafter⟩
      obtain rfl : rest = rest' := List.tail_eq_of_cons_eq (hrest.symm.trans hrest')
      rw [hinner]
      exact congrArg Except.ok (Prod.ext rfl (State.ext htrees.symm hafter.symm))
  · next hnone =>
    constructor
    · intro h
      cases h
    · rintro ⟨rest, -, hrest, -⟩
      exact absurd hrest (hnone rest)

/-- An element that is no fragment is one tag of what is read behind its bracket. -/
theorem run_element {shape : Shape} (h : startsFragment (skipBlanks state.rest) = false) :
    (element language read).run state = .ok (shape, after) ↔
      shape = .value ∧ ∃ (opening : State source) (rest : List Char) (inner : State rest),
        blanks.run state = .ok ((), opening) ∧ opening.rest = '<' :: rest ∧
        (tag language read).run (State.start rest) = .ok ((), inner) ∧
        after.trees = .tag inner.trees.reverse :: opening.trees ∧ after.rest = inner.rest := by
  unfold element
  constructor
  · intro hrun
    obtain ⟨text, _, hupcoming, hrun⟩ := run_bind.mp hrun
    obtain ⟨rfl, rfl⟩ := run_upcoming.mp hupcoming
    rw [if_neg (by simp [h])] at hrun
    obtain ⟨_, opening, hblanks, hrun⟩ := run_bind.mp hrun
    obtain ⟨_, closed, htag, hrun⟩ := run_bind.mp hrun
    obtain ⟨rfl, rfl⟩ := run_pure.mp hrun
    obtain ⟨rest, inner, hrest, hinner, htrees, hafter⟩ := run_encloseTag.mp htag
    exact ⟨rfl, opening, rest, inner, hblanks, hrest, hinner, htrees, hafter⟩
  · rintro ⟨rfl, opening, rest, inner, hblanks, hrest, hinner, htrees, hafter⟩
    refine run_bind.mpr ⟨_, state, run_upcoming.mpr ⟨rfl, rfl⟩, ?_⟩
    rw [if_neg (by simp [h])]
    refine run_bind.mpr ⟨(), opening, hblanks, run_bind.mpr ⟨(), after, ?_, ?_⟩⟩
    · exact run_encloseTag.mpr ⟨rest, inner, hrest, hinner, htrees, hafter⟩
    · exact run_pure.mpr ⟨rfl, rfl⟩

end Elements

end KeyLens.Program
