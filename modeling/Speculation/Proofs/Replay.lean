import Speculation.Ledger
import Speculation.Recovery
import Speculation.Proofs.Graph.Built
import Mathlib.Data.List.Forall2
import Mathlib.Data.List.TakeDrop

/-!
Replaying events, and the ledger they are a log of.

A replay starts at the last reset, which forgets all that came before, so it ends where a replay of
all events would. `Mirrors` relates a state of the replay to a ledger: for every node that is no
constant the replay knows exactly the register and the spill slot that the ledger has for it.

A replay keeps a table of nodes and a table of operands. Taken apart, each node and each operand has a
history of its own, which is read from the first event on and which only the events that name it, and
the resets, have a part in. The recoveries of a log are those of these histories, and a log that goes on
does not change what was recovered before. A hint may name a node that the graph does not have; then
nothing is recovered at all.
-/

namespace Speculation

namespace Replay

def after (events : List Event) (k : Nat) : State := (events.take k).foldl step {}

lemma after_append {es fs : List Event} {k : Nat} (h : k ≤ es.length) :
    after (es ++ fs) k = after es k := by
  rw [after, List.take_append_of_le_length h, after]

lemma after_concat (es : List Event) (e : Event) :
    after (es ++ [e]) (es.length + 1) = step (after es es.length) e := by
  simp [after, List.take_of_length_le]

lemma after_push (events : Array Event) (e : Event) :
    after (events.push e).toList (events.push e).size =
      step (after events.toList events.size) e := by
  have hlen : (events.push e).size = events.toList.length + 1 := by simp
  rw [Array.toList_push, hlen, after_concat]
  simp

/-- What came before a reset does not matter. -/
lemma foldl_fromLastReset (events : List Event) (k : Nat) :
    (fromLastReset events k).foldl step {} = after events k := by
  unfold fromLastReset after
  generalize events.take k = es
  simp only [List.span_eq_takeWhile_dropWhile]
  have hsplit := List.takeWhile_append_dropWhile (p := (· != Event.reset)) (l := es.reverse)
  rcases hd : es.reverse.dropWhile (· != Event.reset) with _ | ⟨r, rest⟩
  · rw [hd, List.append_nil] at hsplit
    simp only [hsplit, List.reverse_reverse]
  · -- the first event that is not passed over is the last reset
    have hr : r = .reset := by
      have h := List.head?_dropWhile_not (p := (· != Event.reset)) (l := es.reverse)
      rw [hd] at h
      simpa using h
    have hes : es = rest.reverse ++ r :: (es.reverse.takeWhile (· != Event.reset)).reverse := by
      rw [hd] at hsplit
      have h := congrArg List.reverse hsplit
      simpa using h.symm
    have hfold : es.foldl step {} =
        (r :: (es.reverse.takeWhile (· != Event.reset)).reverse).foldl step
          (rest.reverse.foldl step {}) := by
      rw [← List.foldl_append, ← hes]
    rw [hfold]
    simp [hr, step]

lemma lookup_filter_ne {α β : Type} [BEq α] [LawfulBEq α] [DecidableEq α] (xs : List (α × β))
    (n m : α) :
    (xs.filter fun e => e.1 != n).lookup m = if m = n then none else xs.lookup m := by
  induction xs with
  | nil => simp
  | cons x xs ih =>
    obtain ⟨k, b⟩ := x
    by_cases hk : k = n
    · subst hk
      simp only [bne_self_eq_false, Bool.false_eq_true, not_false_eq_true, List.filter_cons_of_neg,
        ih, List.lookup_cons]
      by_cases hm : m = k
      · simp [hm]
      · simp [hm, beq_false_of_ne hm]
    · simp only [bne_iff_ne, ne_eq, hk, not_false_eq_true, List.filter_cons_of_pos,
        List.lookup_cons, ih]
      by_cases hm : m = k
      · simp [hm, hk]
      · simp [beq_false_of_ne hm]

lemma node?_setNode (s : State) (n m : NodeId) (x : NodeState) :
    (s.setNode n x).node? m = if m = n then some x else s.node? m := by
  unfold State.setNode State.node?
  simp only [List.lookup_cons, lookup_filter_ne]
  by_cases h : m = n
  · simp [h]
  · simp [h, beq_false_of_ne h]

lemma operand?_setOperand (s : State) (o p : Slot) (x : OperandState) :
    (s.setOperand o x).operand? p = if p = o then some x else s.operand? p := by
  unfold State.setOperand State.operand?
  simp only [List.lookup_cons, lookup_filter_ne]
  by_cases h : p = o
  · simp [h]
  · simp [h, beq_false_of_ne h]

end Replay

namespace ValueInfo

/-- The register and the slot that a value with spill slot `o` is in. -/
def whereabouts (x : ValueInfo) (o : Slot) : Replay.NodeState where
  register := if x.location = .none then none else some (x.location, x.registerFormat)
  spill := if x.isSpilled then some (o, x.spillFormat) else none

end ValueInfo

def view (g : Graph) (ledger : Array ValueInfo) (n : NodeId) : Option Replay.NodeState := do
  let o ← (← g.nodes[n]?).slot
  let x ← ledger[← o.local?]?
  if x.node = some n then some (x.whereabouts o) else none

/-- A replay and a ledger have every value that is no constant in the same place. -/
def Mirrors (g : Graph) (s : Replay.State) (ledger : Array ValueInfo) : Prop :=
  ∀ n d, g.nodes[n]? = some d → d.op.isConstant = false → s.node? n = view g ledger n

/-! ### Histories -/

namespace Replay

def NodeState.next (n : NodeId) (x : Option NodeState) : Event → Option NodeState
  | .reset => none
  | .birth m l f => if m = n then some { register := some (l, f) } else x
  | .fill m l f =>
    if m = n then some { register := some (l, f), spill := x.bind NodeState.spill } else x
  | .spill m o f => if m = n then some { spill := some (o, f) } else x
  | .death m => if m = n then none else x
  | .movHint .. | .setLocal .. => x

def OperandState.next (o : Slot) (x : Option OperandState) : Event → Option OperandState
  | .reset => none
  | .movHint n p => if p = o then some (.hinted n) else x
  | .setLocal p f => if p = o then some (.stored f) else x
  | .birth .. | .fill .. | .spill .. | .death _ => x

def nodeHistory (events : List Event) (n : NodeId) : Option NodeState :=
  events.foldl (NodeState.next n) none

def operandHistory (events : List Event) (o : Slot) : Option OperandState :=
  events.foldl (OperandState.next o) none

/-- A node that the operand is said to hold is one of the graph. -/
def HintIn (g : Graph) (events : List Event) (o : Slot) : Prop :=
  ∀ n, operandHistory events o = some (.hinted n) → n < g.nodes.size

/-- This is so of every argument and every local. -/
structure HintsIn (g : Graph) (events : List Event) : Prop where
  argument {i : Nat} (h : i < g.arguments.size) : HintIn g events (.ofArgument i)
  var {i : Nat} (h : i < g.numVars) : HintIn g events (.ofLocal i)

/-- Where the events, from the first one on, say that an operand is found. -/
def located (g : Graph) (events : List Event) (o : Slot) : Recovery :=
  match operandHistory events o with
  | none => .dead
  | some (.stored f) => .inFrame o f
  | some (.hinted n) =>
    match (g.op? n).bind Op.value? with
    | some v => .constant v
    | none => NodeState.recovery (nodeHistory events n)

variable {s : State}

lemma node?_step (n : NodeId) (e : Event) : (step s e).node? n = NodeState.next n (s.node? n) e := by
  cases e with
  | reset => rfl
  | birth m l f => simp only [step, node?_setNode, NodeState.next, eq_comm]
  | fill m l f =>
    simp only [step, node?_setNode, NodeState.next, eq_comm (a := n)]
    split
    · rename_i h
      subst h
      cases s.node? m <;> rfl
    · rfl
  | spill m o f => simp only [step, node?_setNode, NodeState.next, eq_comm]
  | death m => simp only [step, State.node?, lookup_filter_ne, NodeState.next, eq_comm]
  | movHint m o => rfl
  | setLocal o f => rfl

lemma operand?_step (o : Slot) (e : Event) :
    (step s e).operand? o = OperandState.next o (s.operand? o) e := by
  cases e with
  | movHint m p => simp only [step, operand?_setOperand, OperandState.next, eq_comm]
  | setLocal p f => simp only [step, operand?_setOperand, OperandState.next, eq_comm]
  | _ => rfl

lemma node?_foldl (events : List Event) (n : NodeId) :
    (events.foldl step s).node? n = events.foldl (NodeState.next n) (s.node? n) := by
  induction events generalizing s with
  | nil => rfl
  | cons e events ih => rw [List.foldl_cons, ih, node?_step, List.foldl_cons]

lemma operand?_foldl (events : List Event) (o : Slot) :
    (events.foldl step s).operand? o = events.foldl (OperandState.next o) (s.operand? o) := by
  induction events generalizing s with
  | nil => rfl
  | cons e events ih => rw [List.foldl_cons, ih, operand?_step, List.foldl_cons]

/-- The tables of a replay have the histories in them. -/
lemma node?_after (events : List Event) (k : Nat) (n : NodeId) :
    (after events k).node? n = nodeHistory (events.take k) n := node?_foldl _ n

lemma operand?_after (events : List Event) (k : Nat) (o : Slot) :
    (after events k).operand? o = operandHistory (events.take k) o := operand?_foldl _ o

lemma recover_after {g : Graph} {events : List Event} {k : Nat} {o : Slot}
    (h : HintIn g (events.take k) o) :
    recover g (after events k) o = .ok (located g (events.take k) o) := by
  rw [recover, located, operand?_after]
  rcases ho : operandHistory (events.take k) o with _ | ⟨n | f⟩
  · rfl
  · -- the value of a node, unless it is a constant
    obtain ⟨d, hd⟩ : ∃ d, g.nodes[n]? = some d := ⟨_, Array.getElem?_eq_getElem (h n ho)⟩
    simp only [Graph.valueConstant_of_node hd, Graph.op?, hd, node?_after, Option.map_some,
      Option.bind_some]
    rcases d.op.value? with _ | v <;> rfl
  · rfl

lemma recover_after_error {g : Graph} {events : List Event} {k : Nat} {o : Slot}
    (h : ¬HintIn g (events.take k) o) : recover g (after events k) o = .error .outOfRange := by
  have hmissing : ∃ n, operandHistory (events.take k) o = some (.hinted n) ∧ g.nodes.size ≤ n := by
    by_contra hall
    exact h fun n hn => Nat.lt_of_not_le fun hle => hall ⟨n, hn, hle⟩
  obtain ⟨n, ho, hn⟩ := hmissing
  rw [recover, operand?_after, ho]
  simp only [Graph.valueConstant_of_le hn]
  rfl

/-! ### All operands -/

section

variable {α β : Type} {f : α → Except Breach β}

/-- Answers, one for each element of a list. -/
lemma exists_mapM {P : α → β → Prop} {xs : List α} (h : ∀ x ∈ xs, ∃ y, f x = .ok y ∧ P x y) :
    ∃ ys, xs.mapM f = .ok ys ∧ List.Forall₂ P xs ys := by
  induction xs with
  | nil => exact ⟨[], rfl, .nil⟩
  | cons x xs ih =>
    obtain ⟨hx, hxs⟩ := List.forall_mem_cons.mp h
    obtain ⟨y, hy, hP⟩ := hx
    obtain ⟨ys, hys, hrest⟩ := ih hxs
    refine ⟨y :: ys, ?_, .cons hP hrest⟩
    rw [List.mapM_cons, hy, hys]
    rfl

lemma eq_map_of_forall₂ {f : α → β} {xs : List α} {ys : List β}
    (h : List.Forall₂ (fun x y => y = f x) xs ys) : ys = xs.map f := by
  induction h with
  | nil => rfl
  | cons hx _ ih => rw [List.map_cons, hx, ih]

/-- There is no answer for one of them. -/
lemma mapM_error {b : Breach} {xs : List α} (h : ∀ x ∈ xs, ∀ b', f x = .error b' → b' = b)
    (hx : ∃ x ∈ xs, f x = .error b) : xs.mapM f = .error b := by
  induction xs with
  | nil => simp at hx
  | cons x xs ih =>
    obtain ⟨hfx, hxs⟩ := List.forall_mem_cons.mp h
    rw [List.mapM_cons]
    rcases hy : f x with b' | y
    · rw [hfx b' hy]
      rfl
    · have hrest : ∃ x ∈ xs, f x = .error b := by
        obtain ⟨z, hz, he⟩ := hx
        rcases List.mem_cons.mp hz with rfl | hz
        · rw [hy] at he
          cases he
        · exact ⟨z, hz, he⟩
      rw [ih hxs hrest]
      rfl

lemma exists_mapM_range {n : Nat} {f : Nat → Except Breach β} {P : Nat → β → Prop}
    (h : ∀ i, i < n → ∃ y, f i = .ok y ∧ P i y) :
    ∃ ys : Array β, (Array.range n).mapM f = .ok ys ∧ List.Forall₂ P (List.range n) ys.toList := by
  obtain ⟨ys, hys, hP⟩ := exists_mapM fun i hi => h i (List.mem_range.mp hi)
  refine ⟨ys.toArray, ?_, hP⟩
  rw [Array.mapM_eq_mapM_toList, Array.toList_range, hys]
  rfl

lemma mapM_range_error {b : Breach} {n : Nat} {f : Nat → Except Breach β}
    (h : ∀ i b', f i = .error b' → b' = b) (hi : ∃ i, i < n ∧ f i = .error b) :
    (Array.range n).mapM f = .error b := by
  obtain ⟨i, hlt, he⟩ := hi
  rw [Array.mapM_eq_mapM_toList, Array.toList_range,
    mapM_error (fun i _ => h i) ⟨i, List.mem_range.mpr hlt, he⟩]
  rfl

end

end Replay

open Replay

/-- What is recovered at an index is what the events before it say from the first one on, one
recovery for each argument and each local in their order, provided that these hold nodes of the graph;
otherwise nothing is recovered. Later events have no part in it. -/
theorem reconstruct_eq_located (events more : List Event) (k : Nat) (g : Graph) :
    (HintsIn g (events.take k) → ∃ found, reconstruct events k g = .ok found ∧
        found.arguments.toList =
          (List.range g.arguments.size).map (fun i => located g (events.take k) (.ofArgument i)) ∧
        found.locals.toList =
          (List.range g.numVars).map (fun i => located g (events.take k) (.ofLocal i))) ∧
      (¬HintsIn g (events.take k) → reconstruct events k g = .error .outOfRange) ∧
      (k ≤ events.length → reconstruct (events ++ more) k g = reconstruct events k g) := by
  simp only [reconstruct, foldl_fromLastReset]
  have herror (o : Slot) (b : Breach) (hb : recover g (after events k) o = .error b) :
      b = .outOfRange := by
    by_cases hin : HintIn g (events.take k) o
    · rw [recover_after hin] at hb
      cases hb
    · rw [recover_after_error hin] at hb
      exact (Except.error.inj hb).symm
  refine ⟨fun h => ?_, fun h => ?_, fun h => by rw [after_append h]⟩
  · obtain ⟨as, has, hP⟩ := exists_mapM_range
      (P := fun i r => r = located g (events.take k) (.ofArgument i))
      fun i hi => ⟨_, recover_after (h.argument hi), rfl⟩
    obtain ⟨ls, hls, hQ⟩ := exists_mapM_range
      (P := fun i r => r = located g (events.take k) (.ofLocal i))
      fun i hi => ⟨_, recover_after (h.var hi), rfl⟩
    exact ⟨⟨as, ls⟩, by rw [has, hls]; rfl, eq_map_of_forall₂ hP, eq_map_of_forall₂ hQ⟩
  · by_cases harg : ∀ i, i < g.arguments.size → HintIn g (events.take k) (.ofArgument i)
    · obtain ⟨as, has, -⟩ := exists_mapM_range (P := fun _ _ => True)
        fun i hi => ⟨_, recover_after (harg i hi), trivial⟩
      have hvar : ∃ i, i < g.numVars ∧ ¬HintIn g (events.take k) (.ofLocal i) := by
        by_contra! hvar
        exact h ⟨fun hi => harg _ hi, fun hi => hvar _ hi⟩
      obtain ⟨i, hi, hnot⟩ := hvar
      rw [has, mapM_range_error (fun i => herror (.ofLocal i)) ⟨i, hi, recover_after_error hnot⟩]
      rfl
    · push Not at harg
      obtain ⟨i, hi, hnot⟩ := harg
      rw [mapM_range_error (fun i => herror (.ofArgument i)) ⟨i, hi, recover_after_error hnot⟩]
      rfl

/-- A function of one argument and one local, which are told apart. -/
def hinting : Graph where
  name := "f"
  kind := .function
  nodes := #[{ op := .getLocal 0, origin := { bytecode := 0 } }]
  blocks := #[{ nodes := #[0] }]
  vars := #[⟨.ofArgument 0, .top, .value⟩, ⟨.ofLocal 0, .top, .value⟩]
  arguments := #[0]
  identifiers := #[]
  inlineFrames := #[]
  numVars := 1
  numLocals := 2
  profiling := false

/-- A value that is filled again from its spill slot is found in its register. That it dies later
has no part in it. -/
theorem reconstruct_eq_located_filled :
    let events : List Event := [.movHint 0 (.ofLocal 0), .reset, .setLocal (.ofArgument 0) .js,
      .birth 0 (.gpr .result) .jsInt32, .movHint 0 (.ofLocal 0),
      .spill 0 (.ofLocal 1) .jsInt32, .fill 0 (.gpr .second) .jsInt32]
    7 ≤ events.length ∧ HintsIn hinting (events.take 7) ∧
      reconstruct events 7 hinting =
        .ok ⟨#[.inFrame (.ofArgument 0) .js], #[.inGpr .second .jsInt32]⟩ ∧
      reconstruct (events ++ [.death 0, .reset]) 7 hinting = reconstruct events 7 hinting := by
  intro events
  have hin : HintsIn hinting (events.take 7) := by
    refine ⟨fun {i} hi n hn => ?_, fun {i} hi n hn => ?_⟩
    all_goals
      obtain rfl : i = 0 := Nat.lt_one_iff.mp hi
    · have hnot : operandHistory (events.take 7) (.ofArgument 0) = some (.stored .js) := by decide +kernel
      rw [hnot] at hn
      cases hn
    · have hhint : operandHistory (events.take 7) (.ofLocal 0) = some (.hinted 0) := by decide +kernel
      rw [hhint] at hn
      cases hn
      decide
  obtain ⟨hfound, -, hmore⟩ := reconstruct_eq_located events [.death 0, .reset] 7 hinting
  obtain ⟨⟨as, ls⟩, hok, has, hls⟩ := hfound hin
  refine ⟨by decide, hin, hok.trans ?_, hmore (by decide)⟩
  congr 2
  · exact Array.toList_inj.mp (has.trans (by decide +kernel))
  · exact Array.toList_inj.mp (hls.trans (by decide +kernel))

/-- Nothing is recovered if a local is said to hold a node that the graph does not have. -/
theorem reconstruct_ne_ok_missing :
    ¬∃ found, reconstruct [.movHint 1 (.ofLocal 0)] 1 hinting = .ok found := by
  have herror : reconstruct [.movHint 1 (.ofLocal 0)] 1 hinting = .error .outOfRange := by
    decide +kernel
  rintro ⟨found, hok⟩
  cases herror.symm.trans hok

end Speculation
