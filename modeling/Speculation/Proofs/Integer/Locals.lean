import Speculation.Proofs.Integer.Arith
import Speculation.Proofs.Integer.Nodes

/-!
Loads of arguments, stores to locals and the return.

A load of an argument makes a value, boxed. A store makes the local's slot hold the value from then
on, and the log says so. The return ends the run with the value of the graph.
-/

namespace Speculation

namespace Slot

lemma argument?_ofArgument {k : Nat} (h : k < 2147483648) : (ofArgument k).argument? = some k := by
  have hindex : (ofArgument k).index = (Frame.headerSize : Int) + k := by
    rw [ofArgument, signed_of_lt h]
  have hh : Frame.headerSize = 5 := rfl
  unfold argument?
  rw [hindex, hh, if_pos (by omega), show ((5 : Nat) + (k : Int) - (5 : Nat)).toNat = k by omega]

end Slot

namespace Integer

variable {g : Graph} {n cur : NodeId} {d : Speculation.Node} {done : List NodeId}
  {first R : Replay.State} {o : Slot}

/-- Only operations on integers can fail. -/
lemma faultOf_eq_none (hd : g.nodes[cur]? = some d) (h : ∀ i j, arith d.op i j = none)
    (val : NodeId → Value) : faultOf g val cur = none := by
  rw [faultOf, hd, Option.bind_some]
  split
  · rw [fault, h]
    rfl
  · rfl

lemma Told.assign (h : Told g first done R) {b : Bool}
    (ha : ∀ p, assigns g p cur = if o = p then some (n, b) else none) :
    Told g first (done ++ [cur]) (R.setOperand o (if b then .stored .js else .hinted n)) := by
  refine ⟨fun {p m} hp => ?_, fun {p m} hp => ?_, fun {p} hp => ?_⟩ <;>
    rw [lastAssigned_concat, ha] at hp <;>
    rw [Replay.operand?_setOperand] <;>
    by_cases hop : p = o
  · subst hop
    simp only [if_pos, Option.some_or, Option.some.injEq, Prod.mk.injEq] at hp ⊢
    simp [hp.2]
  · rw [if_neg (Ne.symm hop), Option.none_or] at hp
    rw [if_neg hop, h.stored hp]
  · subst hop
    simp only [if_pos, Option.some_or, Option.some.injEq, Prod.mk.injEq] at hp ⊢
    simp [hp.2, hp.1]
  · rw [if_neg (Ne.symm hop), Option.none_or] at hp
    rw [if_neg hop, h.hinted hp]
  · subst hop
    simp at hp
  · rw [if_neg (Ne.symm hop), Option.none_or] at hp
    rw [if_neg hop, h.unassigned hp]

lemma assigns_eq {v : VarId} {e : Edge} {y : Variable} {b : Bool} (hd : g.nodes[cur]? = some d)
    (hc : d.children = #[e]) (hy : g.vars[v]? = some y)
    (hop : d.op = .setLocal v ∧ b = true ∨ d.op = .movHint v ∧ b = false) (p : Slot) :
    assigns g p cur = if y.operand = p then some (e.node, b) else none := by
  unfold assigns
  obtain ⟨hop, rfl⟩ | ⟨hop, rfl⟩ := hop <;> simp [hd, hc, hop, hy]

end Integer

namespace Scene

variable {sc : Scene} {blk : Block} {done rest : List NodeId} {cur n : NodeId} {d : Node}

/-- A node without a value is nobody's operand. -/
lemma Staged.usesOf_of_effect (h : sc.Staged blk) (hn : sc.nodes = done ++ cur :: rest)
    (hd : sc.graph.nodes[cur]? = some d) (hr : d.op.hasResult = false) :
    usesOf sc.graph.nodes rest cur = 0 := by
  refine Integer.usesOf_eq_zero fun m hm x hx e he hcur => ?_
  have hmem : m ∈ sc.nodes := by
    rw [hn]
    exact List.mem_append_right _ (List.mem_cons_of_mem _ hm)
  obtain ⟨x', hx', hnode⟩ := h.node hmem
  rw [hx] at hx'
  cases hx'
  obtain ⟨y, hy, hyr⟩ := hnode.operands he
  rw [hcur, hd] at hy
  cases hy
  rw [hr] at hyr
  cases hyr

lemma Staged.val_getLocal (h : sc.Staged blk) {v : VarId} {y : Variable} {k : Nat}
    {w : Value} (hn : cur ∈ sc.nodes) (hd : sc.graph.nodes[cur]? = some d)
    (hop : d.op = .getLocal v) (hy : sc.graph.vars[v]? = some y) (hk : y.operand = .ofArgument k)
    (hlt : k < sc.graph.arguments.size) (hw : sc.passed[k]? = some w) : sc.val cur = w := by
  have ha := h.roomy.arguments
  rw [h.val_eq hn hd, Integer.compute, hop]
  dsimp only
  rw [Integer.argument, hy, Option.bind_some, hk, Slot.argument?_ofArgument (by omega),
    Option.bind_some, hw]
  rfl

/-- The return is the last node. -/
lemma Staged.rest_of_ret (h : sc.Staged blk) (hn : sc.nodes = done ++ cur :: rest)
    (hd : sc.graph.nodes[cur]? = some d) (hop : d.op = .ret) : rest = [] := by
  obtain ⟨pre, r, -, hlast, -, -, hpre⟩ := h.flow.last
  rw [← h.nodes, hn] at hlast
  rcases List.eq_nil_or_concat rest with hnil | ⟨l, b, rfl⟩
  · exact hnil
  · rw [List.concat_eq_append, ← List.cons_append, ← List.append_assoc] at hlast
    refine absurd hop (hpre cur ?_ d hd)
    rw [← (List.append_inj' hlast rfl).1]
    simp

/-- What the return returns is the value of the graph. -/
lemma result_eq {e : Edge} (hn : sc.nodes = done ++ [cur]) (hd : sc.graph.nodes[cur]? = some d)
    (hc : d.children = #[e]) : sc.result = sc.val e.node := by
  simp [result, hn, hd, hc]

variable {ledger : Array ValueInfo} {owner : Location → Option Slot} {r : Registers} {mem : Memory}

lemma Stands.assign {j : Nat} {w : UInt64} (h : sc.Stands done ledger owner r mem)
    (hroom : sc.Roomy) (hc : Integer.faultOf sc.graph sc.val cur = none)
    (ha : ∀ p, Integer.assigns sc.graph p cur = if .ofLocal j = p then some (n, true) else none)
    (hj : j < sc.graph.numVars) (hw : w = (sc.val n).bits)
    (hledger : ∀ (i : Nat) (x : ValueInfo) (m : NodeId), ledger[i]? = some x → x.node = some m →
      sc.graph.numVars ≤ i ∧ i < sc.graph.numLocals) :
    sc.Stands (done ++ [cur]) ledger owner r (sc.store mem j w) := by
  have hjl : j < sc.graph.numLocals := Nat.lt_of_lt_of_le hj hroom.vars
  have hmap := h.framed.mapped hjl
  refine
    { h with
      passes := h.passes.concat hc
      framed :=
        { frame := h.framed.frame
          argument := fun hk => by rw [word_store_argument hroom hjl hmap hk, h.framed.argument hk]
          stored := fun {i m} hi hs => ?_
          mapped := fun hi => mapped_store hroom hjl hmap (h.framed.mapped hi) }
      slot := fun {i x m} hx hm hf => ?_ }
  · rw [Integer.lastAssigned_concat, ha] at hs
    by_cases hij : i = j
    · subst hij
      simp only [if_pos, Option.some_or, Option.some.injEq, Prod.mk.injEq, and_true] at hs
      rw [word_store_self hroom hjl hmap, hw, hs]
    · have hne : Slot.ofLocal j ≠ .ofLocal i := by
        intro he
        have hl := hroom.locals
        have ha := hroom.arguments
        have hv := hroom.vars
        have := congrArg Slot.local? he
        rw [Slot.local?_ofLocal (by omega), Slot.local?_ofLocal (by omega)] at this
        exact hij (Option.some.inj this).symm
      rw [if_neg hne, Option.none_or] at hs
      rw [word_store_local hroom hjl hmap (Nat.lt_of_lt_of_le hi hroom.vars) hij,
        h.framed.stored hi hs]
  · obtain ⟨hv, hl⟩ := hledger i x m hx hm
    rw [word_store_local hroom hjl hmap hl (by omega)]
    exact h.slot hx hm hf

end Scene

namespace Lowering

variable {sc : Scene} {blk : Block} {done rest : List NodeId} {cur n : NodeId} {s s' : State}
  {d : Node} {e : Edge} {v : VarId} {r : Gpr}

lemma Ready.mem (h : Ready sc done cur rest s) : cur ∈ sc.nodes := by
  rw [h.nodes]
  simp

lemma Ready.beyond (hsc : sc.Staged blk) (h : Ready sc done cur rest s) (i : Nat) (x : ValueInfo)
    (m : NodeId) (hx : s.ledger[i]? = some x) (hm : x.node = some m) :
    sc.graph.numVars ≤ i ∧ i < sc.graph.numLocals := by
  obtain ⟨-, d, hd, hs, hi, -⟩ := h.coherent.agrees.named hx hm
  exact hsc.beyond hd hs hi

/-- An argument is loaded. -/
lemma Ready.does_getLocal (hsc : sc.Staged blk) (h : Ready sc done cur rest s) (hl : Locked [] s)
    (hd : sc.graph.nodes[cur]? = some d) (hg : d.shouldGenerate = true) (hop : d.op = .getLocal v) :
    Makes sc done cur rest s (lowerGetLocal v) := by
  obtain ⟨d', hd', hnode⟩ := hsc.node h.mem
  rw [hd] at hd'
  cases hd'
  have hshape := hnode.shape
  rw [hop] at hshape
  obtain ⟨-, -, k, y, hk, hy, hyk, hyf⟩ := hshape
  have hc : Draft.countsUses d = true := by simp [Draft.countsUses, hg, hop]
  have hr : d.op.hasResult = true := by rw [hop]; rfl
  have hv : d.op.isConstant = false := by rw [hop]; rfl
  refine .after (finds_variableOf hy) ?_
  rw [hyf]
  dsimp only
  refine (h.does_allocGpr (A := fun _ => True) hsc hl (by simp)).bind ?_
  rintro q s₁ ⟨h₁, hh₁, -, -, -⟩
  have haddr : ∀ {regs mem}, sc.Stands done s₁.ledger s₁.owner regs mem →
      regs.address (FrameLayout.address y.operand) = sc.address (.ofArgument k) := by
    intro regs mem hm
    rw [hyk, Scene.address, ← hm.framed.frame]
    rfl
  refine Does.bind (Q := fun _ s₂ => Ready sc done cur rest s₂ ∧ Same s₁ s₂)
    (S := fun _ s₂ => At sc done s₂ fun r => True ∧ r.gpr q = (sc.val cur).bits) ?_ ?_
  · rcases hpass : sc.passed[k]? with _ | w
    · -- the argument is missing, and there is nothing to load
      refine (h₁.calm (Calm.emit' _) (does_piece fun o => .ends fun m hm hnext =>
        .inr (.inr ⟨?_, ?_⟩))).conseq (fun _ _ => id) (fun _ _ h => h.2) fun _ _ _ _ _ => False.elim
      · exact Nat.lt_of_le_of_lt (List.getElem?_eq_none_iff.mp hpass) hk
      · refine sc.site.fails_load hsc.linked.loaded hnext ?_
        have hword := hm.1.framed.argument hk
        rw [hpass] at hword
        rw [haddr hm.1]
        exact Option.map_eq_none_iff.mp hword
    · refine h₁.does_set (B := fun x => x = (sc.val cur).bits) hsc (by simp [Inst.encode]) hh₁
        (fun _ _ _ => id) ?_
      rintro regs mem ⟨hm, -⟩
      have hword := hm.framed.argument hk
      rw [hpass] at hword
      obtain ⟨x, hx, hxw⟩ := Option.map_eq_some_iff.mp hword
      refine ⟨_, Inst.steps_load (by rw [haddr hm]; exact hx), ?_⟩
      rw [hsc.val_getLocal h.mem hd hop hy hyk hk hpass, hxw]
  · rintro _ s₂ ⟨h₂, hs₂⟩
    have ht := hs₂.taken.mpr hh₁.taken
    refine (h₂.does_gprResult hsc hd hc hr hv (h₂.coherent.usable ht) (.inl rfl)).conseq ?_
      (fun _ _ => id) fun _ _ _ _ _ => id
    rintro regs mem ⟨hm, -, hw⟩
    have hassigns := Integer.assigns_eq_none (g := sc.graph) hd
      (fun v hv => by rw [hop] at hv; cases hv) fun v hv => by rw [hop] at hv; cases hv
    refine ⟨stands_ownerBut (hm.extend ?_ fun o n => by simp [hassigns o]), hw⟩
    exact Integer.faultOf_eq_none hd (fun i j => by rw [hop]; rfl) _

/-- The ledger has said what is to come before the node that has no value. -/
lemma Ready.made_of_effect (hsc : sc.Staged blk) (h : Ready sc done cur rest s)
    (hd : sc.graph.nodes[cur]? = some d) (hc : Draft.countsUses d = true)
    (hr : d.op.hasResult = false)
    (hcoh : Coherent sc.graph cur done.reverse [] s') (hl : s'.ledger = s.ledger)
    (hf : s'.facts = s.facts)
    (htold : Integer.Told sc.graph sc.first (done ++ [cur])
      (Replay.after s'.events.toList s'.events.size)) :
    Made sc done cur rest (childrenOf sc.graph cur) s' :=
  h.made_of_unused hsc hd hc (hsc.usesOf_of_effect h.nodes hd hr) hcoh.lowered hl hf htold

lemma Ready.does_setLocal (hsc : sc.Staged blk) (h : Ready sc done cur rest s) (hl : Locked [] s)
    (hcur : s.current = cur) (hd : sc.graph.nodes[cur]? = some d) (hg : d.shouldGenerate = true)
    (hop : d.op = .setLocal v) : Makes sc done cur rest s (lowerSetLocal v) := by
  obtain ⟨d', hd', hnode⟩ := hsc.node h.mem
  rw [hd] at hd'
  cases hd'
  have hshape := hnode.shape
  rw [hop] at hshape
  obtain ⟨⟨e, hch, -⟩, y, j, hy, hyf, hyo, hj⟩ := hshape
  have hc : Draft.countsUses d = true := by simp [Draft.countsUses, hg, hop]
  have hr : d.op.hasResult = false := by rw [hop]; rfl
  have hcd : sc.env.graph.nodes[s.current]? = some d := by
    rw [hcur]
    exact hd
  have hassigns := Integer.assigns_eq hd hch hy (.inl ⟨hop, rfl⟩)
  rw [hyo] at hassigns
  have hfault := Integer.faultOf_eq_none hd (fun i j => by rw [hop]; rfl) sc.val
  have hjl : j < sc.graph.numLocals := Nat.lt_of_lt_of_le hj hsc.roomy.vars
  refine .after (finds_variableOf hy) (.after (finds_child hcd (by rw [hch]; rfl)) ?_)
  rw [hyf]
  dsimp only
  refine (h.does_fillValue hsc hl hd hc (by simp [hch])).bind fun op s₁ hb => ?_
  refine (hb.ready.does_emit (S := sc.Stands (done ++ [cur]) s₁.ledger s₁.owner)
    hsc.linked (by simp [Inst.encode]) ?_).bind ?_
  · rintro regs mem ⟨hm, hw⟩
    have haddr : regs.address (FrameLayout.address y.operand) = sc.address (.ofLocal j) := by
      rw [hyo, Scene.address, ← hm.framed.frame]
      rfl
    refine ⟨_, _, Inst.steps_store ?_, ?_⟩
    · rw [haddr]
      exact Memory.write_fst (hm.framed.mapped hjl) (Scene.room_local hsc.roomy hjl)
    · rw [haddr]
      exact hm.assign hsc.roomy hfault hassigns hj hw (hb.ready.beyond hsc)
  · rintro _ s₂ ⟨h₂, hs₂⟩
    have hcoh : Coherent sc.graph cur done.reverse []
        { s₂ with events := s₂.events.push (.setLocal y.operand .js) } :=
      h₂.coherent.change ⟨rfl, rfl, rfl, rfl, rfl, rfl, rfl⟩ rfl (by simp) h₂.coherent.gprs
        h₂.coherent.fprs h₂.coherent.guarded h₂.coherent.agrees h₂.coherent.now.mirrors
    refine .silent ⟨?_, .of_eq rfl rfl rfl (prefix_push _) rfl, fun regs mem hm => ?_⟩
    · refine h₂.made_of_effect hsc hd hc hr hcoh rfl rfl ?_
      rw [Replay.after_push, hyo]
      exact h₂.told.assign hassigns
    · refine ⟨s₂.owner, ?_, fun _ _ _ _ _ ho _ => ho⟩
      rw [hs₂.ledger, hs₂.owner]
      exact hm

/-- The return ends the run. -/
lemma Ready.does_return (hsc : sc.Staged blk) (h : Ready sc done cur rest s) (hl : Locked [] s)
    (hcur : s.current = cur) (hd : sc.graph.nodes[cur]? = some d) (hop : d.op = .ret) :
    Does sc s lowerReturn (At sc done s fun _ => True)
      (fun _ s' => Made sc done cur rest (childrenOf sc.graph cur) s') fun _ _ _ _ => False := by
  obtain ⟨d', hd', hnode⟩ := hsc.node h.mem
  rw [hd] at hd'
  cases hd'
  have hshape := hnode.shape
  rw [hop] at hshape
  obtain ⟨e, hch⟩ := hshape
  have hr : d.op.hasResult = false := by rw [hop]; rfl
  have hc : Draft.countsUses d = true := by simp [Draft.countsUses, hnode.effects hr, hop]
  have hcd : sc.env.graph.nodes[s.current]? = some d := by
    rw [hcur]
    exact hd
  have hfault := Integer.faultOf_eq_none hd (fun i j => by rw [hop]; rfl) sc.val
  have hnodes : sc.nodes = done ++ [cur] := by rw [h.nodes, hsc.rest_of_ret h.nodes hd hop]
  have hassigns := Integer.assigns_eq_none (g := sc.graph) hd (fun v hv => by rw [hop] at hv; cases hv)
    fun v hv => by rw [hop] at hv; cases hv
  refine .after (finds_currentNode hcd) ?_
  rw [hch]
  refine (h.does_fillValue (e := e) hsc hl hd hc (by simp [hch])).bind fun op s₁ hb => ?_
  -- the value is in the register for results when the return is reached
  have hret : ∀ s₂, Ready sc done cur rest s₂ →
      Does sc s₂ (emit' .ret)
        (fun regs _ => sc.Passes done ∧ regs.gpr .result = (sc.val e.node).bits)
        (fun _ s' => Made sc done cur rest (childrenOf sc.graph cur) s') fun _ _ _ _ => False := by
    intro s₂ h₂
    refine ((h₂.calm (Calm.emit' _) (does_piece fun o => .ends ?_)).conseq
      (fun _ _ => id) (fun _ s' h₃ => ?_) fun _ _ _ _ _ => id)
    · rintro m ⟨hp, hw⟩ hnext
      refine .inr (.inl ⟨hnext, by rw [hw, Scene.result_eq hnodes hd hch], ?_⟩)
      rw [hnodes]
      exact hp.concat hfault
    · exact h₃.2.1.made_of_effect hsc hd hc hr h₃.2.1.coherent rfl rfl
        (h₃.2.1.told.extend hassigns)
  refine Does.bind (Q := fun _ s' => Ready sc done cur rest s')
    (S := fun _ _ regs _ => sc.Passes done ∧ regs.gpr .result = (sc.val e.node).bits)
    (.ite (fun heq => .pure hb.ready ?_) fun _ => ?_) fun _ s₂ h₂ => hret s₂ h₂
  · rintro regs mem ⟨hm, hw⟩
    exact ⟨hm.passes, by rw [heq, hw]⟩
  · refine (hb.ready.does_emit hsc.linked (by simp [Inst.encode]) ?_).conseq (fun _ _ => id)
      (fun _ _ h => h.1) fun _ _ _ _ _ => id
    rintro regs mem ⟨hm, hw⟩
    exact ⟨_, _, Inst.steps_mov, hm.passes, by rw [Registers.gpr_setGpr, if_pos rfl, hw]⟩

end Lowering
end Speculation
