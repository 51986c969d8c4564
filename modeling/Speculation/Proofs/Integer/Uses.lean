import Speculation.Proofs.Integer.Operations

/-!
Results and uses in integer dataflow.

The result of a node may have been computed over an operand that ends with it. `Remains` is what
then holds of the machine: every value stands where the ledger has it but those that are about to
end. Counting off the uses of the operands ends these, and all values stand again.
-/

namespace Speculation

def ValueInfo.afterUse (x : ValueInfo) : ValueInfo :=
  if x.useCount = 1 then .dead else { x with useCount := x.useCount - 1 }

namespace Integer

variable {g : Graph} {n cur : NodeId} {d : Speculation.Node} {done rest : List NodeId}

lemma usesOf_cons (nodes : Array Speculation.Node) (m : NodeId) (ms : List NodeId) (n : NodeId) :
    usesOf nodes (m :: ms) n = usesBy nodes m n + usesOf nodes ms n := by
  rw [usesOf, List.map_cons, List.sum_cons, usesOf]

lemma usesOf_eq_zero {nodes : Array Speculation.Node} {ms : List NodeId}
    (h : ∀ m ∈ ms, ∀ x, nodes[m]? = some x → ∀ e ∈ x.children, e.node ≠ n) :
    usesOf nodes ms n = 0 := by
  refine List.sum_eq_zero_iff_forall_eq_nat.mpr fun k hk => ?_
  obtain ⟨m, hm, rfl⟩ := List.mem_map.mp hk
  exact Draft.usesBy_eq_zero fun x hx e he => h m hm x hx e (Array.mem_toList_iff.mp he)

lemma usesBy_eq_count (hd : g.nodes[cur]? = some d) (hc : Draft.countsUses d = true) :
    usesBy g.nodes cur n = (Lowering.childrenOf g cur).count n := by
  rw [usesBy, Lowering.childrenOf, hd, Option.map_some, Option.getD_some]
  simp only [hc, if_true, List.count, List.countP_map]
  rfl

lemma lastAssigned_of_unassigned (ha : ∀ o, assigns g o cur = none) (o : Slot) :
    lastAssigned g (done ++ [cur]) o = lastAssigned g done o := by
  rw [lastAssigned_concat, ha, Option.none_or]

lemma Told.extend {first R : Replay.State} (h : Told g first done R)
    (ha : ∀ o, assigns g o cur = none) : Told g first (done ++ [cur]) R where
  stored ho := h.stored (by rwa [lastAssigned_of_unassigned ha] at ho)
  hinted ho := h.hinted (by rwa [lastAssigned_of_unassigned ha] at ho)
  unassigned ho := h.unassigned (by rwa [lastAssigned_of_unassigned ha] at ho)

lemma assigns_eq_none (hd : g.nodes[cur]? = some d) (hs : ∀ v, d.op ≠ .setLocal v)
    (hm : ∀ v, d.op ≠ .movHint v) (o : Slot) : assigns g o cur = none := by
  unfold assigns
  rw [hd, Option.bind_eq_bind, Option.bind_some]
  rcases he : d.children[0]? with _ | e
  · rfl
  · rw [Option.bind_eq_bind, Option.bind_some]
    cases hop : d.op
    case setLocal v => exact absurd hop (hs v)
    case movHint v => exact absurd hop (hm v)
    all_goals rfl

end Integer

namespace Scene

variable {sc : Scene} {blk : Block} {done rest : List NodeId} {cur : NodeId} {d : Node}

/-- The uses of a value all come after it. -/
lemma Staged.refCount_eq (h : sc.Staged blk) (hn : sc.nodes = done ++ cur :: rest)
    (hd : sc.graph.nodes[cur]? = some d) : d.refCount = usesOf sc.graph.nodes rest cur := by
  have hnodup := h.nodup
  rw [hn] at hnodup
  have hfresh : cur ∉ done := fun hmem =>
    (List.nodup_append.mp hnodup).2.2 cur hmem cur List.mem_cons_self rfl
  have hself : usesBy sc.graph.nodes cur cur = 0 := by
    refine Draft.usesBy_eq_zero fun x hx e he hcur => hfresh ?_
    rw [← hcur]
    exact h.operand hn hx (Array.mem_toList_iff.mp he)
  have hbefore : usesOf sc.graph.nodes done cur = 0 := by
    refine Integer.usesOf_eq_zero fun m hm x hx e he hcur => hfresh ?_
    obtain ⟨pre, post, rfl⟩ := List.append_of_mem hm
    rw [List.append_assoc, List.cons_append] at hn
    rw [← hcur]
    exact List.mem_append_left _ (h.operand hn hx he)
  rw [h.flow.uses hd, ← h.nodes, hn, usesOf, List.map_append, List.sum_append, ← usesOf, hbefore,
    Nat.zero_add, ← usesOf, Integer.usesOf_cons, hself, Nat.zero_add]

/-- Slots of the frame are within reach. -/
lemma Staged.local?_ofLocal (h : sc.Staged blk) {j : Nat} (hj : j < sc.graph.numLocals) :
    (Slot.ofLocal j).local? = some j := by
  have hl := h.roomy.locals
  have ha := h.roomy.arguments
  exact Slot.local?_ofLocal (by omega)

lemma Passes.concat (h : sc.Passes done) (hc : Integer.faultOf sc.graph sc.val cur = none) :
    sc.Passes (done ++ [cur]) := by
  intro n hn
  rcases List.mem_append.mp hn with hn | hn
  · exact h n hn
  · rw [List.mem_singleton.mp hn]
    exact hc

/-- One more node has run that stores nothing. -/
lemma Stands.extend {ledger : Array ValueInfo} {owner : Location → Option Slot} {r : Registers}
    {mem : Memory} (h : sc.Stands done ledger owner r mem)
    (hc : Integer.faultOf sc.graph sc.val cur = none)
    (ha : ∀ o n, Integer.assigns sc.graph o cur ≠ some (n, true)) :
    sc.Stands (done ++ [cur]) ledger owner r mem := by
  refine { h with passes := h.passes.concat hc, framed := { h.framed with stored := ?_ } }
  intro j n hj hs
  rw [Integer.lastAssigned_concat] at hs
  rcases hlast : Integer.assigns sc.graph (.ofLocal j) cur with _ | p
  · rw [hlast, Option.none_or] at hs
    exact h.framed.stored hj hs
  · rw [hlast, Option.some_or] at hs
    exact absurd (hlast.trans hs) (ha _ _)

end Scene

namespace Lowering

variable {sc : Scene} {blk : Block} {done rest kids : List NodeId} {cur n : NodeId}
  {s s' : State} {r q : Gpr} {d : Node} {format : DataFormat}

/-- The state after the code of `cur`, where a use of each of `kids` is still to be counted off. -/
structure Made (sc : Scene) (done : List NodeId) (cur : NodeId) (rest kids : List NodeId)
    (s : State) : Prop where
  coherent : Coherent sc.graph cur (cur :: done.reverse) kids s
  nodes : sc.nodes = done ++ cur :: rest
  size : s.ledger.size = sc.graph.numLocals
  tidy {i : Nat} {x : ValueInfo} (h : s.ledger[i]? = some x) : Tidy x
  stocked : Stocked sc (done ++ [cur])
    (fun n => usesOf sc.graph.nodes rest n + kids.count n) s.ledger
  told : Integer.Told sc.graph sc.first (done ++ [cur])
    (Replay.after s.events.toList s.events.size)
  known : Known sc done s.facts

/-- The value ends when a use of each of `kids` is counted off. -/
def Dying (kids : List NodeId) (x : ValueInfo) : Prop :=
  ∃ m ∈ kids, x.node = some m ∧ x.useCount = 1

/-- Every value but those about to end stands where the ledger has it. -/
def Remains (sc : Scene) (done kids : List NodeId) (s : State) : Condition := fun regs mem =>
  ∃ owner, sc.Stands done s.ledger owner regs mem ∧
    ∀ (i : Nat) (x : ValueInfo) (q : Gpr), s.ledger[i]? = some x → x.location = .gpr q →
      s.owner (.gpr q) = some (.ofLocal i) → ¬Dying kids x → owner (.gpr q) = some (.ofLocal i)

lemma Remains.stands {regs : Registers} {mem : Memory} (h : Remains sc done [] s regs mem) :
    sc.Stands done s.ledger s.owner regs mem := by
  obtain ⟨owner, hm, ho⟩ := h
  exact { hm with
    register := fun {i x n q} hx hn hl hq =>
      hm.register hx hn hl (ho i x q hx hl hq fun ⟨_, hmem, _⟩ => List.not_mem_nil hmem) }

/-- What is counted before the node is what is counted after it and for its operands. -/
lemma uses_split (hd : sc.graph.nodes[cur]? = some d) (hc : Draft.countsUses d = true) :
    usesOf sc.graph.nodes (cur :: rest) =
      fun n => usesOf sc.graph.nodes rest n + (childrenOf sc.graph cur).count n := by
  funext n
  rw [Integer.usesOf_cons, Integer.usesBy_eq_count hd hc, Nat.add_comm]

lemma Ready.fresh (hsc : sc.Staged blk) (h : Ready sc done cur rest s) : cur ∉ done := by
  have hnodup := hsc.nodup
  rw [h.nodes] at hnodup
  exact fun hmem => (List.nodup_append.mp hnodup).2.2 cur hmem cur List.mem_cons_self rfl

lemma Ready.unborn (hsc : sc.Staged blk) (h : Ready sc done cur rest s)
    (hd : sc.graph.nodes[cur]? = some d) (hc : d.op.isConstant = false) :
    Unborn sc.graph cur done.reverse where
  fresh hmem := h.fresh hsc (List.mem_reverse.mp hmem)
  varying hd' := by
    rw [hd] at hd'
    cases hd'
    exact hc

/-- A node that nothing uses, or that has no value. -/
lemma Ready.made_of_unused (hsc : sc.Staged blk) (h : Ready sc done cur rest s)
    (hd : sc.graph.nodes[cur]? = some d) (hc : Draft.countsUses d = true)
    (hr : usesOf sc.graph.nodes rest cur = 0)
    (hcoh : Coherent sc.graph cur (cur :: done.reverse) (childrenOf sc.graph cur) s')
    (hl : s'.ledger = s.ledger) (hf : s'.facts = s.facts)
    (htold : Integer.Told sc.graph sc.first (done ++ [cur])
      (Replay.after s'.events.toList s'.events.size)) :
    Made sc done cur rest (childrenOf sc.graph cur) s' where
  coherent := hcoh
  nodes := h.nodes
  size := hl ▸ h.size
  tidy hx := h.tidy (hl ▸ hx)
  stocked := by
    have hst := h.stocked
    rw [uses_split hd hc] at hst
    rw [hl]
    refine ⟨hst.count, fun {n} hn hu => hst.alive ?_ hu⟩
    rcases List.mem_append.mp hn with hn | hn
    · exact hn
    · rw [List.mem_singleton.mp hn] at hu
      refine absurd ?_ hu
      rw [hr, Nat.zero_add, ← Integer.usesBy_eq_count hd hc]
      refine Draft.usesBy_eq_zero fun x hx e he hcur => h.fresh hsc ?_
      rw [← hcur]
      exact hsc.operand h.nodes hx (Array.mem_toList_iff.mp he)
  told := htold
  known := hf ▸ h.known

/-- No node is among its own operands. -/
lemma Ready.count_self (hsc : sc.Staged blk) (h : Ready sc done cur rest s)
    (hd : sc.graph.nodes[cur]? = some d) : (childrenOf sc.graph cur).count cur = 0 := by
  refine List.count_eq_zero.mpr fun hmem => h.fresh hsc ?_
  rw [childrenOf, hd, Option.map_some, Option.getD_some] at hmem
  obtain ⟨e, he, hcur⟩ := List.mem_map.mp hmem
  rw [← hcur]
  exact hsc.operand h.nodes hd (Array.mem_toList_iff.mp he)

def ofResult (d : Node) (cur : NodeId) (r : Gpr) (format : DataFormat) : ValueInfo :=
  { node := some cur, useCount := d.refCount, registerFormat := format, location := .gpr r }

lemma Stocked.birth {uses : NodeId → Nat} {ledger : Array ValueInfo} {i : Nat} {x y : ValueInfo}
    (h : Stocked sc done uses ledger) (hd : sc.graph.nodes[cur]? = some d)
    (ho : d.slot = some (.ofLocal i)) (hx : ledger[i]? = some x) (hxn : x.node = none)
    (hy : y.node = some cur) (hu : y.useCount = uses cur) :
    Stocked sc (done ++ [cur]) uses (ledger.setIfInBounds i y) := by
  refine ⟨fun {j z n} hz hn => ?_, fun {n} hn hne => ?_⟩
  · rcases Agrees.set_cases hz with ⟨-, rfl⟩ | ⟨-, hz⟩
    · rw [hy] at hn
      rw [hu, Option.some.inj hn]
    · exact h.count hz hn
  · rcases List.mem_append.mp hn with hn | hn
    · obtain ⟨d', j, z, hd', hs', hz, hzn⟩ := h.alive hn hne
      refine ⟨d', j, z, hd', hs', ?_, hzn⟩
      rw [Array.getElem?_setIfInBounds, if_neg, hz]
      rintro rfl
      rw [hx] at hz
      rw [Option.some.inj hz, hzn] at hxn
      cases hxn
    · rw [List.mem_singleton.mp hn]
      refine ⟨d, i, y, hd, ho, ?_, hy⟩
      rw [Array.getElem?_setIfInBounds, if_pos rfl, if_pos (Array.getElem?_eq_some_iff.mp hx).1]

/-- The result stands in its register, whose former value is about to end. -/
lemma Ready.stands_of_birth {i : Nat} {x : ValueInfo} {regs : Registers} {mem : Memory}
    (hsc : sc.Staged blk) (h : Ready sc done cur rest s) (hx : s.ledger[i]? = some x)
    (hm : sc.Stands (done ++ [cur]) s.ledger (s.ownerBut r) regs mem)
    (hh : Holds format (regs.gpr r) (sc.val cur)) :
    sc.Stands (done ++ [cur]) (s.ledger.setIfInBounds i (ofResult d cur r format))
      (fun l => if l = .gpr r then some (.ofLocal i) else s.owner l) regs mem := by
  refine hm.set (fun j z p hji hz hzl hpj => ?_) (fun m p hm' hp' _ => ?_) nofun
  · split at hpj
    · -- the register holds the new value
      have hj := (Array.getElem?_eq_some_iff.mp hz).1
      have hi := (Array.getElem?_eq_some_iff.mp hx).1
      have hij := congrArg Slot.local? (Option.some.inj hpj)
      rw [hsc.local?_ofLocal (h.size ▸ hi), hsc.local?_ofLocal (h.size ▸ hj)] at hij
      exact absurd (Option.some.inj hij).symm hji
    · rename_i hpr
      unfold State.ownerBut
      rw [if_neg hpr]
      exact hpj
  · cases hm'
    cases hp'
    exact hh

/-- The result of a node is recorded, unless nothing uses it. -/
lemma Ready.does_gprResult (hsc : sc.Staged blk) (h : Ready sc done cur rest s)
    (hd : sc.graph.nodes[cur]? = some d) (hc : Draft.countsUses d = true)
    (hr : d.op.hasResult = true) (hv : d.op.isConstant = false)
    (hu : Usable s (childrenOf sc.graph cur) (.gpr r)) (hp : format.Plain) :
    Does sc s (gprResult r format)
      (fun regs mem => sc.Stands (done ++ [cur]) s.ledger (s.ownerBut r) regs mem ∧
        Holds format (regs.gpr r) (sc.val cur))
      (fun _ s' => Made sc done cur rest (childrenOf sc.graph cur) s')
      fun _ s' => Remains sc (done ++ [cur]) (childrenOf sc.graph cur) s' := by
  have hassigns := Integer.assigns_eq_none (g := sc.graph) hd (fun v hv => by rw [hv] at hr; cases hr)
    fun v hv => by rw [hv] at hr; cases hr
  have hd' : sc.graph.nodes[s.current]? = some d := by rw [h.coherent.current, hd]
  have hunborn := h.unborn hsc hd hv
  have hdoes : Does sc s (gprResult r format)
      (fun regs mem => sc.Stands (done ++ [cur]) s.ledger (s.ownerBut r) regs mem ∧
        Holds format (regs.gpr r) (sc.val cur))
      (fun _ s' => Coherent sc.graph cur (cur :: done.reverse) (childrenOf sc.graph cur) s' →
        Made sc done cur rest (childrenOf sc.graph cur) s')
      fun _ s' => Remains sc (done ++ [cur]) (childrenOf sc.graph cur) s' := by
    refine .after finds_get (.after (finds_currentNode hd') ?_)
    dsimp only
    split
    · rename_i hzero
      refine .pure (fun hcoh => ?_) fun regs mem hm =>
        ⟨_, hm.1, fun i x q hx hl ho hnot => ?_⟩
      · exact h.made_of_unused hsc hd hc ((hsc.refCount_eq h.nodes hd).symm.trans hzero) hcoh
          rfl rfl (h.told.extend hassigns)
      · unfold State.ownerBut
        rw [if_neg, ho]
        rintro ⟨⟩
        exact hnot (hu.dying hx hl)
    · obtain ⟨o, ho⟩ := hsc.flow.slot hd hr (.inl (by
        rw [Draft.countsUses, Bool.and_eq_true] at hc
        exact hc.1))
      obtain ⟨i, rfl, -, hi⟩ := hsc.flow.beyond hd ho
      obtain ⟨x, hx⟩ : ∃ x, s.ledger[i]? = some x :=
        ⟨_, Array.getElem?_eq_getElem (h.size.symm ▸ hi)⟩
      have hxn := h.coherent.unborn hunborn hd ho hx
      have hofGpr : ValueInfo.ofGpr cur d.refCount r format = .ok (ofResult d cur r format) := by
        simp [ValueInfo.ofGpr, gprFormat_of_plain hp, ofResult]
      rw [h.coherent.current]
      refine .after (finds_slotOf hd ho) (.after (finds_assume hofGpr) (.silent ?_))
      rw [leads_bind, leads_setInfo hd ho (hsc.local?_ofLocal hi) hx]
      refine ⟨fun hcoh =>
        { coherent := hcoh
          nodes := h.nodes
          size := (Array.size_setIfInBounds ..).trans h.size
          tidy := fun hz => tidy_set (fun _ _ => h.tidy) ?_ _ _ hz
          stocked := by
            rw [← uses_split hd hc]
            refine h.stocked.birth hd ho hx hxn rfl ((hsc.refCount_eq h.nodes hd).trans ?_)
            simp [uses_split hd hc, h.count_self hsc hd]
          told := told_of_operands (h.told.extend hassigns) (heard_push (fun _ => rfl) rfl)
          known := h.known }, .of_eq rfl rfl rfl (prefix_push _) rfl, fun regs mem hm => ?_⟩
      · exact ⟨.inr ⟨r, rfl⟩, fun _ => hp, fun hf => absurd rfl hf, fun _ _ => .inl (by simp [ofResult])⟩
      · refine ⟨_, h.stands_of_birth hsc hx hm.1 hm.2, fun j z q _ _ hq _ => ?_⟩
        have hown : (s.gprs.retain r (.ofLocal i) (.ofFormat format)).owner q =
            some (.ofLocal j) := hq
        rw [Bank.owner_retain (present_of_locked hu.locked)] at hown
        simpa [State.owner] using hown
  refine (hdoes.and (leads_gprResult (T := fun _ => False) h.coherent hunborn hu)).conseq
    (fun _ _ => id) (fun _ _ hmade => hmade.1 hmade.2) fun _ _ _ _ _ => id

/-! ### Counting off uses -/

section Use

variable {i : Nat} {x : ValueInfo} (h : Made sc done cur rest (n :: kids) s)
  (hd : sc.graph.nodes[n]? = some d) (ho : d.slot = some (.ofLocal i))
  (hi : (Slot.ofLocal i).local? = some i) (hx : s.ledger[i]? = some x) (hn : x.node = some n)

include h hd ho hi in
/-- Other entries are those of other nodes. -/
lemma Made.ne_of_ne {j : Nat} {z : ValueInfo} {m : NodeId} (hji : j ≠ i)
    (hz : s.ledger[j]? = some z) (hm : z.node = some m) : m ≠ n := by
  rintro rfl
  obtain ⟨-, e, he, hes, hj, -⟩ := h.coherent.agrees.named hz hm
  rw [hd] at he
  cases he
  rw [ho] at hes
  rw [← Option.some.inj hes, hi] at hj
  exact hji (Option.some.inj hj).symm

include h hd ho hi hx hn in
lemma Made.stocked_of_use :
    Stocked sc (done ++ [cur]) (fun n => usesOf sc.graph.nodes rest n + kids.count n)
      (s.ledger.setIfInBounds i x.afterUse) := by
  have huse := h.stocked.count hx hn
  rw [List.count_cons_self] at huse
  refine ⟨fun {j z m} hz hm => ?_, fun {m} hm hne => ?_⟩
  · rcases Agrees.set_cases hz with ⟨-, rfl⟩ | ⟨hji, hz⟩
    · unfold ValueInfo.afterUse at hm ⊢
      split at hm
      · cases hm
      · rename_i hu
        rw [if_neg hu]
        rw [show _ = x.node from rfl, hn] at hm
        cases hm
        dsimp only
        omega
    · have hmn := h.ne_of_ne hd ho hi hji.symm hz hm
      rw [h.stocked.count hz hm, List.count_cons_of_ne (Ne.symm hmn)]
  · have hle : kids.count m ≤ (n :: kids).count m := by
      rw [List.count_cons]
      omega
    obtain ⟨d', j, z, hd', hs', hz, hzm⟩ := h.stocked.alive hm (by omega)
    by_cases hij : i = j
    · subst hij
      rw [hx] at hz
      cases hz
      rw [hn] at hzm
      cases hzm
      refine ⟨d', i, x.afterUse, hd', hs', ?_, ?_⟩
      · rw [Array.getElem?_setIfInBounds, if_pos rfl, if_pos (Array.getElem?_eq_some_iff.mp hx).1]
      · rw [ValueInfo.afterUse, if_neg (by omega)]
        exact hn
    · exact ⟨d', j, z, hd', hs', by rw [Array.getElem?_setIfInBounds, if_neg hij, hz], hzm⟩

include h hd ho hi hx in
lemma Made.remains_of_use {regs : Registers} {mem : Memory}
    (hm : Remains sc (done ++ [cur]) (n :: kids) s regs mem)
    (hl : s'.ledger = s.ledger.setIfInBounds i x.afterUse)
    (how : ∀ q o, s'.owner (.gpr q) = some o → s.owner (.gpr q) = some o) :
    Remains sc (done ++ [cur]) kids s' regs mem := by
  obtain ⟨owner, hm, hown⟩ := hm
  refine ⟨owner, ?_, fun j z q hz hzq hq hnot => ?_⟩
  · rw [hl]
    refine hm.set (fun _ _ _ _ _ _ hp => hp) (fun m q hm' hq hp => ?_) fun m hm' hf => ?_
    · unfold ValueInfo.afterUse at hm' hq ⊢
      split at hm'
      · cases hm'
      · rename_i hu
        rw [if_neg hu] at hq ⊢
        exact hm.register (x := x) hx hm' hq hp
    · unfold ValueInfo.afterUse at hm' hf ⊢
      split at hm'
      · cases hm'
      · rename_i hu
        rw [if_neg hu] at hf ⊢
        exact hm.slot (x := x) hx hm' hf
  · rw [hl] at hz
    rcases Agrees.set_cases hz with ⟨rfl, rfl⟩ | ⟨hji, hz⟩
    · by_cases hu : x.useCount = 1
      · rw [ValueInfo.afterUse, if_pos hu] at hzq
        cases hzq
      · rw [ValueInfo.afterUse, if_neg hu] at hzq
        exact hown i x q hx hzq (how q _ hq) fun ⟨_, _, _, hone⟩ => hu hone
    · refine hown j z q hz hzq (how q _ hq) fun ⟨m, hmem, hzm, hone⟩ => ?_
      have hmn := h.ne_of_ne hd ho hi hji.symm hz hzm
      exact hnot ⟨m, (List.mem_cons.mp hmem).resolve_left hmn, hzm, hone⟩

end Use

lemma tidy_afterUse {x : ValueInfo} (h : Tidy x) : Tidy x.afterUse := by
  unfold ValueInfo.afterUse
  split
  · exact ⟨.inl rfl, fun hl => absurd rfl hl, fun hf => absurd rfl hf, nofun⟩
  · exact ⟨h.location, h.register, h.spill, h.somewhere⟩

lemma Made.does_useNode (hsc : sc.Staged blk) (h : Made sc done cur rest (n :: kids) s)
    (hn : n ∈ done ++ [cur]) :
    Does sc s (useNode n) (Remains sc (done ++ [cur]) (n :: kids) s)
      (fun _ s' => Made sc done cur rest kids s' ∧ s'.locks = s.locks)
      fun _ s' => Remains sc (done ++ [cur]) kids s' := by
  obtain ⟨d, i, x, hd, ho, hx, hxn⟩ := h.stocked.alive hn (by rw [List.count_cons_self]; omega)
  have huse := h.stocked.count hx hxn
  rw [List.count_cons_self] at huse
  have hi : (Slot.ofLocal i).local? = some i :=
    hsc.local?_ofLocal (h.size ▸ (Array.getElem?_eq_some_iff.mp hx).1)
  have hmade : ∀ s' : State, s'.ledger = s.ledger.setIfInBounds i x.afterUse →
      s'.facts = s.facts → s'.heard = s.heard →
      Coherent sc.graph cur (cur :: done.reverse) kids s' → Made sc done cur rest kids s' := by
    intro s' hl hf hh hcoh
    exact
      { coherent := hcoh
        nodes := h.nodes
        size := by rw [hl, Array.size_setIfInBounds, h.size]
        tidy := fun hz => tidy_set (fun _ _ => h.tidy) (tidy_afterUse (h.tidy hx)) _ _ (hl ▸ hz)
        stocked := hl ▸ h.stocked_of_use hd ho hi hx hxn
        told := told_of_operands h.told hh
        known := hf ▸ h.known }
  have hlive : (x.isAlive && x.useCount != 0) = true := by
    simp [ValueInfo.isAlive, hxn, huse]
  have hconsume : x.consume = .ok (decide (x.useCount = 1), { x with useCount := x.useCount - 1 }) := by
    rw [ValueInfo.consume, if_neg (by omega)]
  have hdoes : Does sc s (useNode n) (Remains sc (done ++ [cur]) (n :: kids) s)
      (fun _ s' => Coherent sc.graph cur (cur :: done.reverse) kids s' →
        Made sc done cur rest kids s')
      fun _ s' => Remains sc (done ++ [cur]) kids s' := by
    refine .silent ?_
    rw [useNode, leads_bind, leads_node hd, ho]
    dsimp only
    rw [leads_bind, leads_ledgerIndex hi hx, leads_bind, leads_infoAt hx, if_pos hlive, leads_bind,
      hconsume, leads_assume_ok]
    dsimp only
    split
    · rename_i hone
      have hafter : x.afterUse = .dead := by
        rw [ValueInfo.afterUse, if_pos (of_decide_eq_true hone)]
      rw [leads_bind]
      refine leads_releaseLocation h.coherent.gprs h.coherent.fprs h.coherent.agrees.nowhere
        fun b c _ _ hown _ => ?_
      have hkeep : ∀ s' : State, s'.ledger = s.ledger.setIfInBounds i .dead →
          s'.owner = ({ s with gprs := b, fprs := c } : State).owner → ∀ regs mem,
          Remains sc (done ++ [cur]) (n :: kids) s regs mem →
          Remains sc (done ++ [cur]) kids s' regs mem := by
        intro s' hl hs' regs mem hm
        refine h.remains_of_use hd ho hi hx hm (hafter ▸ hl) fun q o hq => ?_
        rw [hs', hown] at hq
        split at hq
        · cases hq
        · exact hq
      rw [leads_bind, setInfoAt, leads_modify, leads_ite]
      refine ⟨fun _ => ⟨hmade _ (by rw [hafter]) rfl rfl, .of_eq rfl rfl rfl List.prefix_rfl rfl,
        hkeep _ rfl rfl⟩, fun _ => ⟨hmade _ (by rw [hafter]) rfl ?_,
        .of_eq rfl rfl rfl (prefix_push _) rfl, hkeep _ rfl rfl⟩⟩
      exact heard_push (fun _ => rfl) rfl
    · rename_i hmany
      have hafter : x.afterUse = { x with useCount := x.useCount - 1 } := by
        rw [ValueInfo.afterUse, if_neg fun hone => hmany (decide_eq_true hone)]
      rw [setInfoAt, leads_modify]
      refine ⟨hmade _ (by rw [hafter]) rfl rfl, .of_eq rfl rfl rfl List.prefix_rfl rfl,
        fun regs mem hm => ?_⟩
      exact h.remains_of_use hd ho hi hx hm (by rw [hafter]) fun _ _ => id
  refine (hdoes.and (leads_useNode (T := fun _ => False) h.coherent)).conseq (fun _ _ => id)
    (fun _ _ hm => ⟨hm.1 hm.2.1, hm.2.2⟩) fun _ _ _ _ _ => id

/-- The uses of all operands are counted off. -/
lemma Made.does_useChildren (hsc : sc.Staged blk)
    (h : Made sc done cur rest (childrenOf sc.graph cur) s)
    (hd : sc.graph.nodes[cur]? = some d) :
    Does sc s (useChildren cur) (Remains sc (done ++ [cur]) (childrenOf sc.graph cur) s)
      (fun _ s' => Made sc done cur rest [] s' ∧ s'.locks = s.locks)
      fun _ s' => Remains sc (done ++ [cur]) [] s' := by
  have hchildren : childrenOf sc.graph cur = d.children.toList.map Edge.node := by
    rw [childrenOf, hd, Option.map_some, Option.getD_some]
  have hmem : ∀ e ∈ d.children.toList, e.node ∈ done ++ [cur] := fun e he =>
    List.mem_append_left _ (hsc.operand h.nodes hd (Array.mem_toList_iff.mp he))
  rw [hchildren] at h ⊢
  refine .after (finds_node hd) ?_
  refine (Does.forIn (fun es s' => (Made sc done cur rest (es.map Edge.node) s' ∧
      s'.locks = s.locks) ∧ ∀ e ∈ es, e.node ∈ done ++ [cur])
    (fun es s' => Remains sc (done ++ [cur]) (es.map Edge.node) s') ⟨⟨h, rfl⟩, hmem⟩ ?_).bind
      fun _ _ h => .pure h.1 fun _ _ => id
  rintro e es s₁ ⟨⟨h₁, hl₁⟩, hmem₁⟩
  refine (h₁.does_useNode hsc (hmem₁ e List.mem_cons_self)).bind ?_
  rintro _ s₂ ⟨h₂, hl₂⟩
  exact .pure ⟨rfl, ⟨h₂, hl₂.trans hl₁⟩, fun e he => hmem₁ e (List.mem_cons_of_mem _ he)⟩
    fun _ _ => id

end Lowering
end Speculation
