import Speculation.Proofs.Independence.Entry
import Speculation.Proofs.Running.Visits

/-!
From one node to the next.

After a node nothing is emitted before the code of the next one. In between the operands of the node
are used up: the ledger forgets a value after its last use, and says of the others what it said. So a
machine that is at the end of the code of one node, consistent with the ledger there, is consistent with
the ledger where the next one is taken up.
-/

namespace Speculation

open Lowering

/-- The value has been forgotten, or it is where it was. -/
def ValueInfo.Fades (x y : ValueInfo) : Prop :=
  y.node = none ∧ y.location = .none ∨ y = { x with useCount := y.useCount }

structure Fades (ledger ledger' : Array ValueInfo) : Prop where
  size : ledger'.size = ledger.size
  entry {i : Nat} {y : ValueInfo} (hy : ledger'[i]? = some y) : ∃ x, ledger[i]? = some x ∧ x.Fades y

namespace Fades

variable {ledger ledger' ledger'' : Array ValueInfo} {i : Nat} {x y : ValueInfo}

lemma refl (ledger : Array ValueInfo) : Fades ledger ledger := ⟨rfl, fun hy => ⟨_, hy, .inr rfl⟩⟩

lemma trans (h : Fades ledger ledger') (h' : Fades ledger' ledger'') : Fades ledger ledger'' where
  size := h'.size.trans h.size
  entry hz := by
    obtain ⟨y, hy, hyz⟩ := h'.entry hz
    obtain ⟨x, hx, hxy⟩ := h.entry hy
    refine ⟨x, hx, ?_⟩
    rcases hyz with hgone | hz
    · exact .inl hgone
    · rcases hxy with ⟨hn, hl⟩ | hy
      · rw [hz]
        exact .inl ⟨hn, hl⟩
      · refine .inr (hz.trans ?_)
        rw [hy]

lemma set (hx : ledger.getD i {} = x) (h : x.Fades y) : Fades ledger (ledger.setIfInBounds i y) where
  size := Array.size_setIfInBounds
  entry {j z} hz := by
    rcases Agrees.set_cases hz with ⟨rfl, rfl⟩ | ⟨-, hz⟩
    · have hlt : i < ledger.size := by
        by_contra hno
        rw [Array.setIfInBounds_def, dif_neg hno] at hz
        exact hno (Array.getElem?_eq_some_iff.mp hz).1
      refine ⟨x, ?_, h⟩
      rw [← hx, Array.getD_eq_getD_getElem?, Array.getElem?_eq_getElem hlt]
      rfl
    · exact ⟨z, hz, .inr rfl⟩

end Fades

lemma Stands.fades {val : NodeId → Value} {ledger ledger' : Array ValueInfo} {r : Registers}
    {mem : Memory} (h : Stands val ledger r mem) (hf : Fades ledger ledger') :
    Stands val ledger' r mem where
  numberTag := h.numberTag
  tagMask := h.tagMask
  small := hf.size ▸ h.small
  mapped hi := h.mapped (hf.size ▸ hi)
  register hy hn hl := by
    obtain ⟨x, hx, ⟨-, hgone⟩ | heq⟩ := hf.entry hy
    · exact absurd hgone hl
    · rw [heq] at hn hl ⊢
      exact h.register (x := x) hx hn hl
  double hy hl := by
    obtain ⟨x, hx, ⟨-, hgone⟩ | heq⟩ := hf.entry hy
    · rw [hgone] at hl
      cases hl
    · rw [heq] at hl ⊢
      exact h.double (x := x) hx hl
  slot hy hn hs := by
    obtain ⟨x, hx, ⟨hgone, -⟩ | heq⟩ := hf.entry hy
    · rw [hgone] at hn
      cases hn
    · rw [heq] at hn hs ⊢
      exact h.slot (x := x) hx hn hs

lemma Plain.fades {ledger ledger' : Array ValueInfo} {n : NodeId} (h : Plain ledger n)
    (hf : Fades ledger ledger') : Plain ledger' n := by
  intro i y hy hn
  obtain ⟨x, hx, ⟨hgone, -⟩ | heq⟩ := hf.entry hy
  · rw [hgone] at hn
    cases hn
  · rw [heq] at hn ⊢
    exact h (x := x) hx hn

/-- A node is behind the machine, and values are what they are now. What is known of values was the same
all along, no value of another node has come to be kept as storage, and memory has changed at most in
the slots of values. -/
structure Passed (g : Graph) (n : NodeId) (val : NodeId → Value) (s : State) (r : Registers)
    (mem : Memory) (s' : State) (r' : Registers) (mem' : Memory) : Prop where
  stands : Stands val s'.ledger r' mem'
  facts : s'.facts = s.facts
  plain {m : NodeId} (hm : m ≠ n) (h : Plain s.ledger m) : Plain s'.ledger m
  frame : r'.gpr .frame = r.gpr .frame
  memory : Confined g r mem mem'

lemma Passed.of_spares {g : Graph} {n : NodeId} {val : NodeId → Value} {s s' : State} {r r' : Registers}
    {mem mem' : Memory} (hp : Spares g s r mem s' r' mem') (hst : Stands val s'.ledger r' mem') :
    Passed g n val s r mem s' r' mem' :=
  ⟨hst, hp.facts, fun _ => hp.plain, hp.frame, hp.memory⟩

namespace Lowering

variable {α : Type} {env : Env} {s s' s₁ : State} {b : BlockId} {j : Nat} {n : NodeId} {d : Node}

structure Wanes (s s' : State) : Prop where
  offset : s'.asm.offset = s.asm.offset
  facts : s'.facts = s.facts
  ledger : Fades s.ledger s'.ledger
  skip : s'.skipNext = s.skipNext

instance : IsPreorder State Wanes where
  refl s := ⟨rfl, rfl, .refl s.ledger, rfl⟩
  trans _ _ _ h h' := ⟨h'.offset.trans h.offset, h'.facts.trans h.facts, h.ledger.trans h'.ledger,
    h'.skip.trans h.skip⟩

namespace Wanes

lemma modify {f : State → State} (h : ∀ s, (f s).asm = s.asm ∧ (f s).facts = s.facts ∧
    (f s).ledger = s.ledger ∧ (f s).skipNext = s.skipNext) :
    Along Wanes env (modify f : Lower PUnit) :=
  Along.modify fun s => ⟨by rw [(h s).1], (h s).2.1, (h s).2.2.1 ▸ .refl _, (h s).2.2.2⟩

lemma modifyGprs (f : Bank Gpr → Bank Gpr) : Along Wanes env (modifyGprs f) :=
  modify fun _ => ⟨rfl, rfl, rfl, rfl⟩

lemma modifyFprs (f : Bank Fpr → Bank Fpr) : Along Wanes env (modifyFprs f) :=
  modify fun _ => ⟨rfl, rfl, rfl, rfl⟩

lemma drop (s : State) (ls : List Location) : Wanes s (ls.foldl State.drop s) := by
  obtain ⟨b, c, gs, h⟩ := s.exists_foldl_drop ls
  rw [h]
  exact ⟨rfl, rfl, .refl _, rfl⟩

lemma releaseLocation (o : Slot) (l : Location) : Along Wanes env (releaseLocation o l) := by
  cases l with
  | none => exact Along.pure _
  | gpr q => exact Along.bind Along.get fun _ => Along.ite (modifyGprs _) (Along.pure _)
  | fpr q => exact Along.bind Along.get fun _ => Along.ite (modifyFprs _) (Along.pure _)

lemma forget (i : Nat) : Along Wanes env (setInfoAt i .dead) :=
  Along.modify fun _ => ⟨rfl, rfl, .set rfl (.inl ⟨rfl, rfl⟩), rfl⟩

/-- A value is used. -/
lemma useNode (n : NodeId) : Along Wanes env (useNode n) := by
  refine Along.bind (Along.node n) fun d => ?_
  split
  · refine Along.bind (Along.ledgerIndex _) fun i => ?_
    intro t
    rw [leads_bind, infoAt, leads_bind, leads_get, leads_pure, leads_ite]
    refine ⟨fun _ => ?_, fun _ => ⟨rfl, rfl, .refl _, rfl⟩⟩
    rw [leads_bind, leads_assume]
    refine ⟨fun y hy => ?_, fun _ _ => trivial⟩
    unfold ValueInfo.consume at hy
    split at hy
    · cases hy
    · cases hy
      refine leads_ite.mpr ⟨fun _ => ?_, fun _ => ⟨rfl, rfl, .set rfl (.inr rfl), rfl⟩⟩
      refine Along.bind (releaseLocation _ _) (fun _ => Along.bind (forget i) fun _ => ?_) t
      exact Along.ite (Along.pure _) (modify fun _ => ⟨rfl, rfl, rfl, rfl⟩)
  · exact Along.pure _

lemma useChildren (n : NodeId) : Along Wanes env (useChildren n) :=
  Along.bind (Along.node n) fun _ => Along.bind (Along.forIn fun _ _ =>
    Along.bind (useNode _) fun _ => Along.pure _) fun _ => Along.pure _

end Wanes

/-- A node has been lowered to its end, and the next one is taken up. -/
structure Succeeds (g : Graph) (n : NodeId) (s s' : State) : Prop where
  offset : s'.asm.offset = s.asm.offset
  facts : s.facts.execute g n = .ok s'.facts
  ledger : Fades s.ledger s'.ledger
  skip : s'.skipNext = s.skipNext

lemma leads_afterNode (h : Wanes s s') :
    Leads env s' (afterNode n) (fun _ => Succeeds env.graph n s) (fun _ => True) fun _ _ => True := by
  rw [afterNode, leads_bind, advance, leads_bind, leads_get, leads_bind, leads_graph, leads_bind,
    leads_assume]
  refine ⟨fun facts hfacts => ?_, fun _ _ => trivial⟩
  rw [leads_modify, leads_bind, leads_read]
  have hcheck : Along Wanes env (if env.assertState = true then checkState else pure ()) :=
    Along.ite Along.checkState (Along.pure _)
  refine (hcheck { s' with facts }).weaken fun _ t ht =>
    ⟨?_, ?_, h.ledger.trans ht.ledger, ht.skip.trans h.skip⟩
  · exact ht.offset.trans h.offset
  · rw [ht.facts, ← h.facts]
    exact hfacts

lemma leads_of_outcome {x : Lower α} {a : α} {Q : α → State → Prop} {T : State → Prop}
    {F : Failure → State → Prop} (h : outcome x env s = (.ok a, s')) (hQ : Q a s') :
    Leads env s x Q T F := by
  unfold Leads
  rw [h]
  exact hQ

lemma leads_lowerAt_succeeds (hs : s.skipNext = false) (hd : env.graph.nodes[n]? = some d)
    (hg : d.shouldGenerate = true) (hc : d.op.isConstant = false) (hh : ∀ v, d.op ≠ .movHint v)
    (hx : outcome (lowerNode d.op) env (s.visiting j n d.op) = (.ok (), s₁)) :
    Leads env s (lowerAt j n) (fun _ => Succeeds env.graph n s₁) (fun _ => True)
      fun _ _ => True := by
  have hcurrent : Leads env (s.visiting j n d.op) (lowerCurrent d) (fun _ => Wanes s₁) (fun _ => True)
      fun _ _ => True :=
    leads_tryCatch.mpr (leads_bind.mpr (leads_of_outcome hx (Wanes.drop _ _)))
  refine leads_lowerAt_visiting hs hd hg hc hh fun x hmem => leads_bind.mpr (hcurrent.weaken
    fun _ s₂ h₂ => ?_)
  obtain rfl | rfl : x = afterNode n ∨ x = useChildren n >>= fun _ => afterNode n := by simpa using hmem
  · exact leads_afterNode h₂
  · refine leads_bind.mpr ((Wanes.useChildren n s₂).weaken fun _ s₃ h₃ => ?_)
    exact leads_afterNode (IsTrans.trans _ _ _ h₂ h₃)

/-- To come as far as the next node is to lower one node more. -/
lemma outcome_lowerUpTo_succ {blk : Block} {labels : Label × Label} (hb : env.graph.blocks[b]? = some blk)
    (hn : blk.nodes[j]? = some n) (hs : outcome (lowerUpTo b j) env s₁ = (.ok labels, s)) :
    outcome (lowerUpTo b (j + 1)) env s₁ = outcome (lowerAt j n >>= fun _ => pure labels) env s := by
  have htake : blk.nodes.toList.zipIdx.take (j + 1) = blk.nodes.toList.zipIdx.take j ++ [(n, j)] := by
    rw [List.take_add_one, List.getElem?_zipIdx]
    simp [hn]
  have hone : lowerNodes [(n, j)] = lowerAt j n := by
    rw [lowerNodes_cons]
    simp [lowerNodes]
  have hsplit : outcome (lowerUpTo b (j + 1)) env s₁ = outcome (lowerUpTo b j >>= fun labels =>
      lowerAt j n >>= fun _ => pure labels) env s₁ := by
    unfold lowerUpTo
    simp only [bind_assoc, pure_bind]
    refine outcome_congr (fun _ => rfl) fun _ s => outcome_congr (fun _ => rfl) fun _ s =>
      outcome_congr (fun _ => rfl) fun _ s => ?_
    rw [outcome_block hb, outcome_block hb, htake, lowerNodes_append, hone, bind_assoc]
  rw [hsplit, outcome_bind, hs]

end Lowering

section Passed

variable {g : Graph} {n m : NodeId} {val : NodeId → Value} {s s₁ s' : State} {r r' : Registers}
  {mem mem' : Memory} (h : Passed g n val s r mem s₁ r' mem') (hs : Succeeds g n s₁ s')
include h hs

/-- The machine is consistent with the ledger where the next node is taken up. -/
lemma Passed.stands_next : Stands val s'.ledger r' mem' := h.stands.fades hs.ledger

lemma Passed.plain_next (hm : m ≠ n) (hp : Plain s.ledger m) : Plain s'.ledger m :=
  (h.plain hm hp).fades hs.ledger

lemma Passed.facts_next : s.facts.execute g n = .ok s'.facts := h.facts ▸ hs.facts

end Passed

lemma Plan.TakesUp.succeeds {p : Plan} {frame : FrameLayout} {b : BlockId} {j : Nat} {n n' : NodeId}
    {d d' : Node} {s s' s₁ : State} (ht : p.TakesUp frame b j n d s)
    (ht' : p.TakesUp frame b (j + 1) n' d' s') (hc : d.op.isConstant = false)
    (hh : ∀ v, d.op ≠ .movHint v)
    (hx : outcome (lowerNode d.op) (p.env frame) (s.visiting j n d.op) = (.ok (), s₁)) :
    Succeeds p.graph n s₁ s' := by
  obtain ⟨blk, hb, -, hn⟩ := ht.block
  obtain ⟨labels, hs⟩ := ht.lowered
  obtain ⟨labels', hs'⟩ := ht'.lowered
  rw [outcome_lowerUpTo_succ hb hn hs] at hs'
  have hnode : Leads (p.env frame) s (lowerAt j n >>= fun _ => pure labels)
      (fun _ => Succeeds p.graph n s₁) (fun _ => True) fun _ _ => True :=
    leads_bind.mpr (leads_lowerAt_succeeds ht.taken ht.node ht.generated hc hh hx)
  exact hnode.result hs'

end Speculation
