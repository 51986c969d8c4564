import Speculation.Proofs.Execution.Flags
import Speculation.Proofs.Integer.Emitting
import Speculation.Proofs.Integer.Registers
import Speculation.Proofs.Lowering.Results

/-!
Filling the operands of integer dataflow.

An operand of an integer operation ends up in a register whose low half is the integer, or the code
has been left because there is none. A value to be stored or returned ends up boxed.
-/

namespace Speculation

/-- The value is an integer, and it is the low half of the operand. -/
def Carries (v : Value) (o : Operand) (r : Registers) : Prop :=
  v.IsInteger ∧ (r.operand o).toUInt32.toInt32 = v.payload

namespace Lowering

variable {α : Type} {sc : Scene} {blk : Block} {done rest : List NodeId} {cur n : NodeId}
  {s s' s'' : State} {rs : List Gpr} {q : Gpr} {A B : Registers → Prop} {d : Node} {i : Nat}
  {x y : ValueInfo} {o : Slot} {format : DataFormat} {e : Edge} {v : Value}

lemma Rests.and (hA : Rests s A) (hB : Rests s B) : Rests s fun r => A r ∧ B r :=
  fun r r' hr ⟨h, h'⟩ => ⟨hA r r' hr h, hB r r' hr h'⟩

lemma Rests.carries {o : Operand} (h : Held s o) : Rests s (Carries v o) := by
  rintro r r' hr ⟨hi, hv⟩
  exact ⟨hi, by rw [Registers.operand_congr fun q hq => hr q (h q hq), hv]⟩

/-! ### Where operands are -/

lemma usesOf_cons_ne_zero {nodes : Array Node} (hd : nodes[cur]? = some d)
    (hc : Draft.countsUses d = true) (he : e ∈ d.children) :
    usesOf nodes (cur :: rest) e.node ≠ 0 := by
  have hpos : 0 < usesBy nodes cur e.node := by
    unfold usesBy
    rw [hd]
    simp only [hc, if_true]
    exact List.countP_pos_iff.mpr ⟨e, Array.mem_toList_iff.mpr he, by simp⟩
  rw [usesOf, List.map_cons, List.sum_cons]
  omega

/-- An operand is a constant, or the ledger knows where it is. -/
lemma Ready.found (h : Ready sc done cur rest s) (hn : n ∈ done)
    (hu : usesOf sc.graph.nodes (cur :: rest) n ≠ 0) (hv : sc.graph.valueConstant n = .ok none) :
    ∃ d i x, Entry sc.graph s n d i x ∧
      ((∃ q, x.location = .gpr q) ∨ x.location = .none ∧ x.spillFormat ≠ .none) := by
  obtain ⟨d, i, x, hd, hs, hx, hxn⟩ := h.stocked.alive hn hu
  obtain ⟨-, d', hd', -, hi, hc⟩ := h.coherent.agrees.named hx hxn
  rw [hd] at hd'
  cases hd'
  have hop := op_of_valueConstant_eq_none hd hv
  have hxc : x.isConstant = false := hc.symm.trans hop
  refine ⟨d, i, x, ⟨hd, hs, hi, hx, hxn, hxc, hop⟩, ?_⟩
  rcases (h.tidy hx).location with hl | hl
  · exact .inr ⟨hl, ((h.tidy hx).somewhere (by simp [hxn]) hxc).resolve_left (absurd hl)⟩
  · exact .inl hl

section Locate

variable {env : Env}

lemma finds_locate_constant (hv : env.graph.valueConstant n = .ok (some v)) :
    Finds env s (locate n) (.constant v) := by
  refine .of_leads ?_
  rw [locate, leads_bind, leads_graph, leads_bind, hv, leads_assume_ok]
  exact ⟨rfl, rfl⟩

lemma finds_locate_gpr (hv : env.graph.valueConstant n = .ok none) (he : Entry env.graph s n d i x)
    (hx : x.location = .gpr q) : Finds env s (locate n) (.gpr q x.registerFormat) := by
  refine .of_leads ?_
  rw [locate, leads_bind, leads_graph, leads_bind, hv, leads_assume_ok, leads_bind,
    leads_info he.node he.slot he.index he.entry]
  simp only [ValueInfo.isAlive, he.named, Option.isSome_some, Bool.not_true, Bool.false_eq_true,
    if_false, hx]
  exact ⟨rfl, rfl⟩

lemma finds_locate_spilled (hv : env.graph.valueConstant n = .ok none)
    (he : Entry env.graph s n d i x) (hx : x.location = .none) (hf : x.spillFormat ≠ .none) :
    Finds env s (locate n) (.spilled x.spillFormat) := by
  refine .of_leads ?_
  rw [locate, leads_bind, leads_graph, leads_bind, hv, leads_assume_ok, leads_bind,
    leads_info he.node he.slot he.index he.entry]
  simp only [ValueInfo.isAlive, he.named, Option.isSome_some, Bool.not_true, Bool.false_eq_true,
    if_false, hx, ValueInfo.isSpilled, bne_iff_ne, ne_eq, hf, not_false_eq_true, if_true]
  exact ⟨rfl, rfl⟩

lemma finds_mayBe {t : TypeSet} (h : e.node < s.facts.proven.size) :
    Finds env s (mayBe e t) ((s.facts.known e.node).intersects t) :=
  .of_leads (leads_mayBe.mpr ⟨fun _ => ⟨rfl, rfl⟩, fun hle => absurd h (Nat.not_lt.mpr hle)⟩)

lemma finds_provenIs {t : TypeSet} (h : e.node < s.facts.proven.size) :
    Finds env s (provenIs e t) ((s.facts.known e.node).subset t) :=
  .of_leads (leads_provenIs.mpr ⟨fun _ => ⟨rfl, rfl⟩, fun hle => absurd h (Nat.not_lt.mpr hle)⟩)

end Locate

/-! ### Integers -/

/-- Registers that are bound are among those that are handed out. -/
lemma index_of_owner (h : s.owner (.gpr q) = some o) : (RegisterClass.index? q).isSome = true := by
  simp only [State.owner, Bank.owner, Bank.entryAt, Option.bind_eq_some_iff] at h
  obtain ⟨_, ⟨k, hk, -⟩, -⟩ := h
  rw [hk]
  rfl

lemma Ready.alone (h : Ready sc done cur rest s) (he : Entry sc.graph s n d i x)
    (hx : x.location = .gpr q) {j : Nat} {z : ValueInfo} (hz : s.ledger[j]? = some z)
    (hzl : z.location = .gpr q) : z = x := by
  have hown := h.owner_of_location he.entry (by simp [hx])
  have hza := (h.coherent.agrees.resident hz (by simp [hzl])).1
  have hpj := h.owner_of_location hz (by simp [hzl])
  rw [hx] at hown
  rw [hzl, hown] at hpj
  obtain rfl := h.coherent.agrees.index_inj hz he.entry hza (by simp [he.named])
    (Option.some.inj hpj).symm
  rw [he.entry] at hz
  exact (Option.some.inj hz).symm

/-- What comes of filling an integer operand that is in a register. -/
structure Narrowed (sc : Scene) (done : List NodeId) (cur : NodeId) (rest : List NodeId)
    (s : State) (q : Gpr) (s' : State) : Prop where
  ready : Ready sc done cur rest s'
  reformatted : Reformatted s s'
  steady : Steady s s'
  firm : Firm s s'
  integral : Integral s' q

lemma Ready.does_intFromGpr {y : Node} (hsc : sc.Staged blk) (h : Ready sc done cur rest s)
    (hd : sc.graph.nodes[cur]? = some d) (ho : Owned sc.graph s e.node (.gpr q))
    (hp : format.Plain) (hi : format ≠ .js → Integral s q) (hA : Rests s A)
    (hkind : e.kind = .int32) (hn : e.node ∈ sc.nodes) (hy : sc.graph.nodes[e.node]? = some y)
    (hr : y.op.hasResult = true)
    (hbad : (sc.val e.node).isInt32 = false →
      Integer.faultOf sc.graph sc.val cur = some (cur, .badType)) :
    Does sc s (intFromGpr e q format)
      (At sc done s fun r => A r ∧ Holds format (r.gpr q) (sc.val e.node))
      (fun op s' => op.reg = q ∧ Narrowed sc done cur rest s q s')
      fun _ s' => At sc done s' fun r => A r ∧ Carries (sc.val e.node) (.reg q) r := by
  -- in the formats of integers there is nothing to do
  have hplain : format ≠ .js → Does sc s (pure (⟨q, format⟩ : GprOperand))
      (At sc done s fun r => A r ∧ Holds format (r.gpr q) (sc.val e.node))
      (fun op s' => op.reg = q ∧ Narrowed sc done cur rest s q s')
      fun _ s' => At sc done s' fun r => A r ∧ Carries (sc.val e.node) (.reg q) r := by
    intro hne
    refine .pure ⟨rfl, h, ⟨rfl, rfl⟩, .refl s, .of_ledger rfl, hi hne⟩ ?_
    rintro r mem ⟨hm, hr, hh⟩
    exact ⟨hm, hr, hh.low hne⟩
  obtain rfl | rfl | rfl := hp
  · -- once the value is known to be an integer, its format says so
    have hrefine : ∀ s₁, Ready sc done cur rest s₁ → Same s s₁ →
        Does sc s₁ (Lowering.refine e.node q .jsInt32 >>= fun _ => pure (⟨q, .jsInt32⟩ : GprOperand))
          (fun r mem => At sc done s (fun r => A r ∧ r.gpr q = (sc.val e.node).bits) r mem ∧
            (sc.val e.node).isInt32 = true)
          (fun op s' => op.reg = q ∧ Narrowed sc done cur rest s q s')
          fun _ s' => At sc done s' fun r => A r ∧ Carries (sc.val e.node) (.reg q) r := by
      intro s₁ h₁ hs₁
      have hdoes := h₁.does_refine (A := fun r => A r ∧ Carries (sc.val e.node) (.reg q) r)
        (ho.of_owner (by rw [hs₁.owner])) (.inr (.inl rfl))
      refine (hdoes.conseq ?_ (fun _ _ => id) fun _ _ _ _ _ => id).bind ?_
      · rintro r mem ⟨⟨hm, hr, hh⟩, hint⟩
        have hI := hsc.canonical_val hn hint
        have hm₁ : sc.Stands done s₁.ledger s₁.owner r mem := by
          rw [hs₁.ledger, hs₁.owner]
          exact hm
        exact ⟨stands_ownerBut hm₁, ⟨hh, hI⟩, hr, hI, by rw [Registers.operand, hh]; rfl⟩
      · rintro _ s₂ ⟨h₂, hr₂, hst₂, hi₂⟩
        obtain ⟨hfirm, hint⟩ := hi₂ (by simp)
        exact .pure ⟨rfl, h₂, ⟨hr₂.locks.trans hs₁.locks, hr₂.owner.trans hs₁.owner⟩,
          (Steady.of_same hs₁).trans hst₂, (Firm.of_ledger hs₁.ledger).trans hs₁.onward hfirm, hint⟩
          fun _ _ => id
    refine .after (finds_provenIs (h.known.lt_size hn hy hr)) ?_
    split
    · rename_i hp
      refine (hrefine s h (Same.refl s)).conseq ?_ (fun _ _ => id) fun _ _ _ _ _ => id
      rintro r mem ⟨hm, hA⟩
      have hp' : (s.facts.known e.node).subset .int32 = true := by simpa [hkind] using hp
      exact ⟨⟨hm, hA⟩, h.known.true' hn hy hr hp' hm.passes⟩
    · have hcmp : ∀ r mem, At sc done s (fun r => A r ∧ r.gpr q = (sc.val e.node).bits) r mem →
          ∃ r' mem', (Inst.cmp .s64 q (.reg .numberTag)).Steps r mem r' mem' ∧
            (At sc done s (fun r => A r ∧ r.gpr q = (sc.val e.node).bits) r' mem' ∧
              Cond.holds .b r'.flags r'.order = !(sc.val e.node).isInt32) := by
        rintro r mem ⟨hm, hr, hh⟩
        exact ⟨_, _, Inst.steps_cmp, ⟨hm.of_gprs rfl rfl fun _ _ => rfl, hA r _ (fun _ _ => rfl) hr, hh⟩,
          Cond.holds_b_sub_tag hm.tag hh⟩
      have hk : ExitKind.badType ≠ .argumentTypeCheck := by decide
      refine (h.does_emit hsc.linked (by simp [Inst.encode]) hcmp).bind ?_
      rintro _ s₁ ⟨h₁, hs₁⟩
      refine (h₁.does_guard hsc.linked hd hk ?_).bind ?_
      · rintro r mem ⟨⟨hm, -⟩, hc⟩ hb
        rw [hc] at hb
        have hm₁ : sc.Stands done s₁.ledger s₁.owner r mem := by
          rw [hs₁.ledger, hs₁.owner]
          exact hm
        exact h₁.departs hm.passes (hbad (by simpa using hb)) hm.framed (h₁.restores hm₁)
      · rintro _ s₂ ⟨h₂, hs₂⟩
        refine (hrefine s₂ h₂ (hs₁.trans hs₂)).conseq ?_ (fun _ _ => id) fun _ _ _ _ _ => id
        rintro r mem ⟨⟨ha, hc⟩, hb⟩
        rw [hc] at hb
        exact ⟨ha, by simpa using hb⟩
  · exact hplain (by simp)
  · exact hplain (by simp)

/-- A fresh register is set by an instruction. -/
lemma Ready.does_set {c : Inst} {B : UInt64 → Prop} (hsc : sc.Staged blk)
    (h : Ready sc done cur rest s') (hc : 3 ≤ c.encode.length) (hh : Handed s s' (.gpr q))
    (hA : Rests s A)
    (hstep : ∀ r mem, At sc done s' A r mem → ∃ w, c.Steps r mem (r.setGpr q w) mem ∧ B w) :
    Does sc s' (emit' c) (At sc done s' A)
      (fun _ s'' => Ready sc done cur rest s'' ∧ Same s' s'')
      fun _ s'' => At sc done s'' fun r => A r ∧ B (r.gpr q) := by
  refine (h.does_emit (S := At sc done s' fun r => A r ∧ B (r.gpr q)) hsc.linked hc
    fun r mem ha => ?_).conseq (fun _ _ => id) (fun _ _ => id) fun _ s'' hs r mem => hs.2.at
  obtain ⟨w, hw, hB⟩ := hstep r mem ha
  refine ⟨_, _, hw, ha.1.setGpr hh.taken.2 (lt_of_locked hh.taken.1) w, hA r _ (fun p hp => ?_) ha.2,
    ?_⟩
  · -- the register was not locked before
    rw [Registers.gpr_setGpr, if_neg]
    rintro rfl
    rw [hh.free] at hp
    exact absurd hp (Nat.lt_irrefl 0)
  · rw [Registers.gpr_setGpr, if_pos rfl]
    exact hB

/-- Nothing is in a register that was just taken. -/
lemma Ready.integral_of_taken (h : Ready sc done cur rest s) (ht : s.Taken (.gpr q)) :
    Integral s q := by
  intro j z hz hzl
  have hown := h.owner_of_location hz (by simp [hzl])
  rw [hzl, ht.2] at hown
  cases hown

/-- What comes of filling an integer operand. -/
structure Fetched (sc : Scene) (done : List NodeId) (cur : NodeId) (rest : List NodeId)
    (rs : List Gpr) (s : State) (n : NodeId) (q : Gpr) (s' : State) : Prop where
  ready : Ready sc done cur rest s'
  filled : Filled sc.graph s s' n (.gpr q)
  steady : Steady s s'
  locked : Locked (q :: rs) s'
  firm : Firm s s'
  integral : Integral s' q
  /-- Only a constant has no register of its own. -/
  owned (h : sc.graph.valueConstant n = .ok none) : Owned sc.graph s' n (.gpr q)

lemma Ready.does_fillInt (hsc : sc.Staged blk) (h : Ready sc done cur rest s) (hl : Locked rs s)
    (hrs : rs.length < 12) (hA : Rests s A) (hd : sc.graph.nodes[cur]? = some d)
    (hc : Draft.countsUses d = true) (he : e ∈ d.children) (hkind : e.kind = .int32)
    (hbad : (sc.val e.node).isInt32 = false →
      Integer.faultOf sc.graph sc.val cur = some (cur, .badType)) :
    Does sc s (fillInt e) (At sc done s A)
      (fun op s' => Fetched sc done cur rest rs s e.node op.reg s')
      fun op s' => At sc done s' fun r => A r ∧ Carries (sc.val e.node) (.reg op.reg) r := by
  have hdone := hsc.operand h.nodes hd he
  have hn : e.node ∈ sc.nodes := by
    rw [h.nodes]
    exact List.mem_append_left _ hdone
  have hcur : cur ∈ sc.nodes := by
    rw [h.nodes]
    simp
  obtain ⟨d', hd', hnode⟩ := hsc.node hcur
  rw [hd] at hd'
  cases hd'
  obtain ⟨y, hy, hr⟩ := hnode.operands he
  have hopen := h.known.open' hn hy hr
  refine .after (finds_mayBe (h.known.lt_size hn hy hr)) ?_
  simp only [hopen, if_true]
  obtain ⟨_ | v, hv⟩ : ∃ w, sc.graph.valueConstant e.node = .ok w :=
    ⟨_, Graph.valueConstant_of_node hy⟩
  · obtain ⟨d', i, x, hx, ⟨q, hq⟩ | ⟨hnone, hf⟩⟩ :=
      h.found hdone (usesOf_cons_ne_zero hd hc he) hv
    · -- it is in a register
      refine .after (finds_locate_gpr hv hx hq) ?_
      dsimp only
      have hown := h.owner_of_location hx.entry (by simp [hq])
      rw [hq] at hown
      have hqi : (RegisterClass.index? q).isSome = true := index_of_owner hown
      refine (h.does_lockGpr hl hqi).bind fun _ s₁ ⟨h₁, hlo, hst₁, hl₁⟩ => ?_
      have hx₁ : s₁.ledger[i]? = some x := by rw [hlo.ledger, hx.entry]
      have ho₁ : Owned sc.graph s₁ e.node (.gpr q) :=
        ⟨d', _, hx.node, hx.slot, by rw [hlo.owner, hown]⟩
      have hplain := (h.tidy hx.entry).register (by simp [hq])
      have hint : x.registerFormat ≠ .js → Integral s₁ q := by
        intro hne j z hz hzl
        rw [hlo.ledger] at hz
        rw [h.alone hx hq hz hzl]
        exact hne
      refine ((h₁.does_intFromGpr hsc hd ho₁ hplain hint (hA.onward hlo.onward) hkind hn hy hr hbad).conseq
        ?_ ?_ fun op _ hop r mem hr => ?_)
      · rintro r mem ⟨hm, hr⟩
        exact ⟨hm, hr, hm.register hx₁ hx.named hq (by rw [hlo.owner, hown])⟩
      · rintro op s₂ ⟨rfl, hnar⟩
        exact ⟨hnar.ready, ⟨hlo.onward.trans hnar.reformatted.onward,
          by rw [hnar.reformatted.locks]; exact hlo.more,
          .inr (ho₁.of_owner (by rw [hnar.reformatted.owner]))⟩, hst₁.trans hnar.steady,
          fun p hp => hl₁ p (by rwa [hnar.reformatted.locks] at hp),
          (Firm.of_ledger hlo.ledger).trans hlo.onward hnar.firm, hnar.integral,
          fun _ => ho₁.of_owner (by rw [hnar.reformatted.owner])⟩
      · rw [hop.1]
        exact hr
    · -- it is in its slot
      refine .after (finds_locate_spilled hv hx hnone hf) ?_
      have hplain := (h.tidy hx.entry).spill hf
      have hspilled : Does sc s
          (fillSpilledGpr e.node x.spillFormat >>= fun r => intFromGpr e r x.spillFormat)
          (At sc done s A) (fun op s' => Fetched sc done cur rest rs s e.node op.reg s')
          fun op s' => At sc done s' fun r => A r ∧ Carries (sc.val e.node) (.reg op.reg) r := by
        refine (h.does_fillSpilledGpr hsc hl hrs hA hx hnone rfl hplain).bind
          fun q s₁ ⟨h₁, hf₁, ho₁, hst₁, hl₁, hfirm₁, hint₁⟩ => ?_
        refine (h₁.does_intFromGpr hsc hd ho₁ hplain hint₁ (hA.onward hf₁.onward) hkind hn hy hr
          hbad).conseq (fun _ _ => id) ?_ fun op _ hop r mem hr => ?_
        · rintro op s₂ ⟨rfl, hnar⟩
          exact ⟨hnar.ready, hf₁.of_onward hnar.reformatted.onward, hst₁.trans hnar.steady,
            fun p hp => hl₁ p (by rwa [hnar.reformatted.locks] at hp),
            hfirm₁.trans hf₁.onward hnar.firm, hnar.integral,
            fun _ => ho₁.of_owner (by rw [hnar.reformatted.owner])⟩
        · rw [hop.1]
          exact hr
      revert hspilled
      obtain hf | hf | hf := hplain <;> rw [hf] <;> exact id
  · -- it is a constant
    obtain ⟨hint, hval⟩ := hsc.val_constant hn hv
    refine .after (finds_locate_constant hv) ?_
    simp only [hint.int32?]
    refine (h.does_allocGpr hsc hl hrs).bind fun q s₁ ⟨h₁, hh₁, hst₁, hl₁, hf₁⟩ => ?_
    refine (h₁.does_set (B := fun w => w.toUInt32.toInt32 = v.payload) hsc
      (by simp [Inst.encode, Encoding.uint64])
      hh₁ hA fun r mem _ => ⟨_, Inst.steps_movImm, low_extend _⟩).bind
        fun _ s₂ ⟨h₂, hs₂⟩ => ?_
    refine .pure ⟨h₂, (hh₁.of_same hs₂).filled, hst₁.trans (.of_same hs₂), fun p hp => hl₁ p ?_,
      hf₁.trans hh₁.onward (.of_ledger hs₂.ledger), h₂.integral_of_taken (hs₂.taken.mpr hh₁.taken),
      fun hnone => ?_⟩ ?_
    · rwa [hs₂.locks] at hp
    · rw [hv] at hnone
      cases hnone
    · rintro r mem ⟨hm, hr, hB⟩
      rw [hval]
      exact ⟨hm, hr, hint, hB⟩

/-! ### The other operand, and the register of the result -/

structure Offered (sc : Scene) (done : List NodeId) (cur : NodeId) (rest : List NodeId)
    (rs : List Gpr) (s : State) (n : NodeId) (o : Operand) (s' : State) : Prop where
  ready : Ready sc done cur rest s'
  onward : Onward s s'
  steady : Steady s s'
  locked : ∃ q, Locked (q :: rs) s'
  firm : Firm s s'
  held : Held s' o
  owned {q : Gpr} (h : o = .reg q) : Owned sc.graph s' n (.gpr q)

lemma Ready.does_immediate {c : Int32} {rhs : Operand} (h : Ready sc done cur rest s)
    (hl : Locked rs s) (hr : rhs = .imm c) {B : Operand → Registers → Prop}
    (hB : ∀ r, A r → B rhs r) :
    Does sc s (pure rhs) (At sc done s A) (fun o s' => Offered sc done cur rest rs s n o s')
      fun o s' => At sc done s' (B o) := by
  subst hr
  refine .pure ⟨h, Onward.refl s, .refl s, ⟨0, fun q hq => List.mem_cons_of_mem _ (hl q hq)⟩,
    .of_ledger rfl, nofun, nofun⟩ fun r mem ⟨hm, hr⟩ => ⟨hm, hB r hr⟩

lemma Ready.does_intRhs (hsc : sc.Staged blk) (h : Ready sc done cur rest s) (hl : Locked rs s)
    (hrs : rs.length < 12) (hA : Rests s A) (hd : sc.graph.nodes[cur]? = some d)
    (hc : Draft.countsUses d = true) (he : e ∈ d.children) (hkind : e.kind = .int32)
    (hbad : (sc.val e.node).isInt32 = false →
      Integer.faultOf sc.graph sc.val cur = some (cur, .badType)) :
    Does sc s (intRhs e) (At sc done s A) (fun o s' => Offered sc done cur rest rs s e.node o s')
      fun o s' => At sc done s' fun r => A r ∧ Carries (sc.val e.node) o r := by
  have hn : e.node ∈ sc.nodes := by
    rw [h.nodes]
    exact List.mem_append_left _ (hsc.operand h.nodes hd he)
  obtain ⟨y, hy, -⟩ := hsc.node hn
  obtain ⟨w, hv⟩ : ∃ w, sc.graph.int32Constant e.node = .ok w :=
    ⟨_, Graph.int32Constant_of_node hy⟩
  refine .after finds_graph (.after (finds_assume hv) ?_)
  rcases w with _ | c
  · have hnone := hsc.valueConstant_eq_none hn hv
    refine (h.does_fillInt hsc hl hrs hA hd hc he hkind hbad).bind fun op s₁ hf => ?_
    refine .pure ⟨hf.ready, hf.filled.onward, hf.steady, ⟨_, hf.locked⟩, hf.firm, ?_, ?_⟩
      fun _ _ => id
    · rintro q hq
      cases hq
      exact hf.filled.lock
    · rintro q hq
      cases hq
      exact hf.owned hnone
  · obtain ⟨hint, hval⟩ := hsc.val_int32Constant hn hv
    exact h.does_immediate hl rfl (B := fun o r => A r ∧ Carries (sc.val e.node) o r) fun r hr =>
      ⟨hr, hint, (low_immediate c).trans hval.symm⟩

/-- The register that gets the result of an integer operation. -/
structure Target (sc : Scene) (done : List NodeId) (cur : NodeId) (rest : List NodeId) (s : State)
    (n : NodeId) (r : Gpr) (reused : Bool) (s' : State) : Prop where
  ready : Ready sc done cur rest s'
  onward : Onward s s'
  steady : Steady s s'
  usable : Usable s' (childrenOf sc.graph cur) (.gpr r)
  /-- A register that is used again belongs to an operand that ends here. -/
  again (h : reused = true) : Owned sc.graph s' n (.gpr r) ∧ Integral s' r ∧
    usesOf sc.graph.nodes (cur :: rest) n = 1
  /-- Any other was free. -/
  fresh (h : reused = false) : s'.Taken (.gpr r) ∧ s.locks (.gpr r) = 0

/-- The integer is copied to a fresh register. -/
lemma Ready.does_copy {β : Type} {op : GprOperand} {k : Gpr → Lower β} {Q : β → State → Prop}
    {S : β → State → Condition} (hsc : sc.Staged blk) (h : Ready sc done cur rest s)
    (hl : Locked rs s) (hrs : rs.length < 12) (hA : Rests s A) (hlock : 0 < s.locks (.gpr op.reg))
    (hk : ∀ r s', Target sc done cur rest s n r false s' →
      Does sc s' (k r) (At sc done s' fun regs => A regs ∧ Carries v (.reg r) regs) Q S) :
    Does sc s (allocGpr >>= fun r => mov r op.reg >>= fun _ => k r)
      (At sc done s fun r => A r ∧ Carries v (.reg op.reg) r) Q S := by
  have hA' : Rests s fun r => A r ∧ Carries v (.reg op.reg) r :=
    hA.and (.carries fun q hq => by cases hq; exact hlock)
  refine (h.does_allocGpr hsc hl hrs).bind ?_
  rintro q s₁ ⟨h₁, hh₁, hst₁, -, -⟩
  have hne : q ≠ op.reg := by
    rintro rfl
    rw [hh₁.free] at hlock
    exact absurd hlock (Nat.lt_irrefl 0)
  rw [mov, if_neg hne]
  refine (h₁.does_set (B := fun w => v.IsInteger ∧ w.toUInt32.toInt32 = v.payload) hsc
    (by simp [Inst.encode]) hh₁ hA' fun r mem hv => ⟨_, Inst.steps_mov, hv.2.2⟩).bind ?_
  rintro _ s₂ ⟨h₂, hs₂⟩
  refine (hk q s₂ ⟨h₂, hh₁.onward.trans hs₂.onward, hst₁.trans (.of_same hs₂),
    h₂.coherent.usable (hs₂.taken.mpr hh₁.taken), by simp,
    fun _ => ⟨hs₂.taken.mpr hh₁.taken, hh₁.free⟩⟩).conseq ?_ (fun _ _ => id) fun _ _ _ _ _ => id
  rintro r mem ⟨hm, ⟨hr, -⟩, hB⟩
  exact ⟨hm, hr, hB⟩

lemma valueConstant_eq_none_of_op {g : Graph} (hd : g.nodes[n]? = some d)
    (hc : d.op.isConstant = false) : g.valueConstant n = .ok none := by
  rw [Graph.valueConstant_of_node hd, Op.value?_eq_none.mpr hc]

/-- A value may be overwritten only where its last use is, and no constant may. -/
lemma Ready.finds_canReuse (h : Ready sc done cur rest s)
    (hd : sc.graph.nodes[e.node]? = some d) :
    ∃ b, Finds sc.env s (canReuse e) b ∧ (b = true →
      d.op.isConstant = false ∧ usesOf sc.graph.nodes (cur :: rest) e.node = 1) := by
  rcases hi : d.slot.bind Slot.local? with _ | i
  · refine ⟨false, (finds_node hd).bind ?_, by simp⟩
    rw [hi]
    rfl
  rcases hx : s.ledger[i]? with _ | x
  · refine ⟨false, (finds_node hd).bind ?_, by simp⟩
    rw [hi]
    refine finds_get.bind ?_
    rw [hx]
    rfl
  refine ⟨x.isAlive && !x.isConstant && x.useCount == 1, (finds_node hd).bind ?_, fun hb => ?_⟩
  · rw [hi]
    refine finds_get.bind ?_
    rw [hx]
    rfl
  · simp only [Bool.and_eq_true, Bool.not_eq_true', beq_iff_eq, ValueInfo.isAlive] at hb
    obtain ⟨⟨ha, hxc⟩, hu⟩ := hb
    obtain ⟨m, hm⟩ := Option.isSome_iff_exists.mp ha
    obtain ⟨-, d', hd', hs', -, hc⟩ := h.coherent.agrees.named hx hm
    obtain ⟨o, ho, hoi⟩ := Option.bind_eq_some_iff.mp hi
    -- the entry at the slot of the operand is its own
    rw [h.coherent.formed.eq_ofLocal hd ho hoi] at ho
    obtain rfl := h.coherent.formed.slot_inj hd' hd hs' ho
    rw [hd] at hd'
    cases hd'
    exact ⟨hc.trans hxc, (h.stocked.count hx hm).symm.trans hu⟩

/-- A value that ends with the node is the only one that it uses its register for. -/
lemma Ready.does_intResultFrom {op : GprOperand} (hsc : sc.Staged blk)
    (h : Ready sc done cur rest s) (hl : Locked rs s) (hrs : rs.length < 12) (hA : Rests s A)
    (hn : e.node ∈ sc.nodes) (hk : e.node ∈ childrenOf sc.graph cur)
    (hlock : 0 < s.locks (.gpr op.reg)) (hint : Integral s op.reg)
    (hown : sc.graph.valueConstant e.node = .ok none → Owned sc.graph s e.node (.gpr op.reg)) :
    Does sc s (intResultFrom e op) (At sc done s fun r => A r ∧ Carries v (.reg op.reg) r)
      (fun p s' => Target sc done cur rest s e.node p.1 p.2 s')
      fun p s' => At sc done s' fun r => A r ∧ Carries v (.reg p.1) r := by
  obtain ⟨d, hd, -⟩ := hsc.node hn
  obtain ⟨b, hb, hlast⟩ := h.finds_canReuse hd
  refine .after hb ?_
  cases b with
  | true =>
    obtain ⟨hc, hu⟩ := hlast rfl
    have ho := hown (valueConstant_eq_none_of_op hd hc)
    obtain ⟨d', i, x, hx, hxl, -, -⟩ := h.coherent.entry_of_owned ho
    have hq : (RegisterClass.index? op.reg).isSome = true := by
      obtain ⟨_, _, _, _, hown⟩ := ho
      exact index_of_owner hown
    refine (h.does_lockGpr hl hq).bind fun _ s₁ ⟨h₁, hlo, hst, _⟩ => ?_
    refine .pure ⟨h₁, hlo.onward, hst, ⟨Nat.lt_of_le_of_lt (Nat.zero_le _) hlo.more, ?_⟩,
      fun _ => ⟨ho.of_owner (by rw [hlo.owner]), ?_, hu⟩, nofun⟩ fun _ _ => id
    · intro j z hz hzl
      rw [hlo.ledger] at hz
      rw [h.alone hx hxl hz hzl]
      exact ⟨e.node, hk, hx.named, (h.stocked.count hx.entry hx.named).trans hu⟩
    · exact Firm.of_ledger hlo.ledger _ hlock hint
  | false =>
    exact h.does_copy (n := e.node) hsc hl hrs hA hlock fun r s' ht => .pure ht fun _ _ => id

/-! ### Boxed values -/

/-- Nothing is locked between nodes. -/
lemma finds_isLockedGpr {env : Env} (hl : Locked [] s) : Finds env s (isLockedGpr q) false := by
  have hq : s.gprs.isLocked q = false := by
    by_contra hne
    refine List.not_mem_nil (hl q ?_)
    rcases hx : s.gprs.entryAt q with _ | x
    · simp [Bank.isLocked, hx] at hne
    · refine Nat.pos_of_ne_zero ?_
      simpa [Bank.isLocked, hx, State.locks, Bank.locksOf] using hne
  exact .of_leads ⟨hq, rfl⟩

structure Boxed (sc : Scene) (done : List NodeId) (cur : NodeId) (rest : List NodeId) (s : State)
    (q : Gpr) (s' : State) : Prop where
  ready : Ready sc done cur rest s'
  steady : Steady s s'
  lock : 0 < s'.locks (.gpr q)

lemma tag_or_payload (hv : v.IsInteger) :
    (Size.run .s64 .or v.payload.toUInt32.toUInt64 Value.numberTag).1 = v.bits := by
  rw [hv, Value.payload_ofInt32]
  show v.payload.toUInt32.toUInt64 ||| Value.numberTag = _
  rw [UInt64.or_comm]
  rfl

/-- A raw integer is boxed in its register. -/
lemma Ready.does_boxInt (hsc : sc.Staged blk) (h : Ready sc done cur rest s)
    (ho : Owned sc.graph s n (.gpr q)) (hlock : 0 < s.locks (.gpr q)) :
    Does sc s (boxInt n q false)
      (At sc done s fun r => Holds .int32 (r.gpr q) (sc.val n))
      (fun op s' => Boxed sc done cur rest s op.reg s')
      fun op s' => At sc done s' fun r => r.gpr op.reg = (sc.val n).bits := by
  refine (h.does_emit (S := fun r mem => sc.Stands done s.ledger (s.ownerBut q) r mem ∧
    Holds .jsInt32 (r.gpr q) (sc.val n)) hsc.linked (by simp [Inst.encode]) ?_).bind ?_
  · rintro r mem ⟨hm, hh, hint⟩
    refine ⟨_, _, Inst.steps_alu, ?_, ?_, hint⟩
    · exact ((stands_ownerBut hm).setFlags _).setGpr (if_pos rfl) (lt_of_locked hlock) _
    · rw [Registers.gpr_setGpr, if_pos rfl, hh, Registers.operand, hm.tag, tag_or_payload hint]
  · rintro _ s₁ ⟨h₁, hs₁⟩
    have hrefine := h₁.does_refine (A := fun r => r.gpr q = (sc.val n).bits)
      (ho.of_owner (by rw [hs₁.owner])) (.inr (.inl rfl) : DataFormat.Plain .jsInt32)
    refine (hrefine.conseq ?_ (fun _ _ => id) fun _ _ _ _ _ => id).bind ?_
    · rintro r mem ⟨hm, hh⟩
      unfold State.ownerBut
      rw [hs₁.ledger, hs₁.owner]
      exact ⟨hm, hh, hh.1⟩
    · rintro _ s₂ ⟨h₂, hr₂, hst₂, -⟩
      refine .pure ⟨h₂, (Steady.of_same hs₁).trans hst₂, ?_⟩ fun _ _ => id
      rw [hr₂.locks, hs₁.locks]
      exact hlock

lemma Ready.does_fillValue (hsc : sc.Staged blk) (h : Ready sc done cur rest s) (hl : Locked [] s)
    (hd : sc.graph.nodes[cur]? = some d) (hc : Draft.countsUses d = true) (he : e ∈ d.children) :
    Does sc s (fillValue e) (At sc done s fun _ => True)
      (fun op s' => Boxed sc done cur rest s op.reg s')
      fun op s' => At sc done s' fun r => r.gpr op.reg = (sc.val e.node).bits := by
  have hdone := hsc.operand h.nodes hd he
  have hn : e.node ∈ sc.nodes := by
    rw [h.nodes]
    exact List.mem_append_left _ hdone
  have hA : Rests s fun _ => True := fun _ _ _ => id
  obtain ⟨y, hy, -⟩ := hsc.node hn
  obtain ⟨_ | v, hv⟩ : ∃ w, sc.graph.valueConstant e.node = .ok w :=
    ⟨_, Graph.valueConstant_of_node hy⟩
  · obtain ⟨d', i, x, hx, ⟨q, hq⟩ | ⟨hnone, hf⟩⟩ :=
      h.found hdone (usesOf_cons_ne_zero hd hc he) hv
    · refine .after (finds_locate_gpr hv hx hq) ?_
      dsimp only
      have hown := h.owner_of_location hx.entry (by simp [hq])
      rw [hq] at hown
      refine .after (finds_isLockedGpr hl) ?_
      refine (h.does_lockGpr hl (index_of_owner hown)).bind fun _ s₁ ⟨h₁, hlo, hst₁, _⟩ => ?_
      have hx₁ : s₁.ledger[i]? = some x := by rw [hlo.ledger, hx.entry]
      have ho₁ : Owned sc.graph s₁ e.node (.gpr q) :=
        ⟨d', _, hx.node, hx.slot, by rw [hlo.owner, hown]⟩
      have hlock : 0 < s₁.locks (.gpr q) := Nat.lt_of_le_of_lt (Nat.zero_le _) hlo.more
      have hhold : ∀ r mem, At sc done s₁ (fun _ => True) r mem →
          Holds x.registerFormat (r.gpr q) (sc.val e.node) := fun r mem hm =>
        hm.1.register hx₁ hx.named hq (by rw [hlo.owner, hown])
      rcases (h.tidy hx.entry).register (by simp [hq]) with hf | hf | hf <;>
        rw [hf] at hhold ⊢
      · exact .pure ⟨h₁, hst₁, hlock⟩ fun r mem hm => ⟨hm.1, hhold r mem hm⟩
      · exact .pure ⟨h₁, hst₁, hlock⟩ fun r mem hm => ⟨hm.1, (hhold r mem hm).1⟩
      · refine (h₁.does_boxInt hsc ho₁ hlock).conseq (fun r mem hm => ⟨hm.1, hhold r mem hm⟩)
          (fun _ _ hb => ?_) fun _ _ _ _ _ => id
        exact ⟨hb.ready, hst₁.trans hb.steady, hb.lock⟩
    · refine .after (finds_locate_spilled hv hx hnone hf) ?_
      have hplain := (h.tidy hx.entry).spill hf
      have hfill := h.does_fillSpilledGpr hsc hl (by simp) hA hx hnone rfl hplain
      rcases hplain with hf | hf | hf <;> rw [hf] at hfill ⊢
      · refine hfill.bind fun q s₁ ⟨h₁, hf₁, _, hst₁, _, _, _⟩ => ?_
        exact .pure ⟨h₁, hst₁, hf₁.lock⟩ fun r mem ⟨hm, _, hh⟩ => ⟨hm, hh⟩
      · refine hfill.bind fun q s₁ ⟨h₁, hf₁, _, hst₁, _, _, _⟩ => ?_
        exact .pure ⟨h₁, hst₁, hf₁.lock⟩ fun r mem ⟨hm, _, hh⟩ => ⟨hm, hh.1⟩
      · refine hfill.bind fun q s₁ ⟨h₁, hf₁, ho₁, hst₁, _, _, _⟩ => ?_
        refine (h₁.does_boxInt hsc ho₁ hf₁.lock).conseq (fun r mem ⟨hm, _, hh⟩ => ⟨hm, hh⟩)
          (fun _ _ hb => ?_) fun _ _ _ _ _ => id
        exact ⟨hb.ready, hst₁.trans hb.steady, hb.lock⟩
  · obtain ⟨-, hval⟩ := hsc.val_constant hn hv
    refine .after (finds_locate_constant hv) ?_
    refine (h.does_allocGpr hsc hl (by simp)).bind fun q s₁ ⟨h₁, hh₁, hst₁, _, _⟩ => ?_
    refine (h₁.does_set (B := fun w => w = v.bits) hsc (by simp [Inst.encode, Encoding.uint64])
      hh₁ hA fun r mem _ => ⟨_, Inst.steps_movImm, rfl⟩).bind fun _ s₂ ⟨h₂, hs₂⟩ => ?_
    refine .pure ⟨h₂, hst₁.trans (.of_same hs₂), (hs₂.taken.mpr hh₁.taken).1⟩ ?_
    rintro r mem ⟨hm, -, hB⟩
    rw [hval]
    exact ⟨hm, hB⟩

end Lowering
end Speculation
