import Speculation.Proofs.Lowering.Operands

/-!
Results, calls and uses.

The result of a node may take over the register of an operand that ends with the node. From then on
until the operands have been consumed, two entries of the ledger name one register; `pending`
holds the operands of which this may be true, and consuming them empties it again.
-/

namespace Speculation
namespace Lowering

variable {α β : Type} {env : Env} {g : Graph} {s s' s'' : State} {cur n : NodeId}
  {before pending kids : List NodeId} {T : State → Prop} {l : Location} {r : Gpr} {f : Fpr}
  {d : Node} {o : Slot} {i : Nat} {x : ValueInfo} {e : Edge} {format : DataFormat}

def childrenOf (g : Graph) (n : NodeId) : List NodeId :=
  ((g.nodes[n]?.map fun d => d.children.toList.map Edge.node)).getD []

/-- The current node is about to get its one value. -/
structure Unborn (g : Graph) (cur : NodeId) (before : List NodeId) : Prop where
  fresh : cur ∉ before
  varying {d : Node} (h : g.nodes[cur]? = some d) : d.op.isConstant = false

/-- The register may hold the result: it is locked, and a value that is in it ends with the
node. -/
structure Usable (s : State) (kids : List NodeId) (l : Location) : Prop where
  locked : 0 < s.locks l
  dying {j : Nat} {z : ValueInfo} (hz : s.ledger[j]? = some z) (hl : z.location = l) :
    ∃ m ∈ kids, z.node = some m ∧ z.useCount = 1

lemma Usable.of_same (h : Usable s kids l) (hs : Same s s') : Usable s' kids l where
  locked := by
    rw [hs.locks]
    exact h.locked
  dying hz hl := by
    rw [hs.ledger] at hz
    exact h.dying hz hl

lemma Coherent.usable (h : Coherent g cur before [] s) (hl : s.Taken l) : Usable s kids l where
  locked := hl.1
  dying {j z} hz hzl := by
    have hne : l ≠ .none := by
      rintro rfl
      exact absurd hl.1 (Nat.lt_irrefl 0)
    obtain ⟨-, -, hown | ⟨_, hp, -⟩⟩ := h.agrees.resident hz (hzl ▸ hne)
    · rw [hzl, hl.2] at hown
      cases hown
    · cases hp

/-! ### Results -/

section Birth

variable {y : ValueInfo} (h : Coherent g cur before [] s) (hu : Unborn g cur before)
  (hd : g.nodes[cur]? = some d) (ho : d.slot = some (.ofLocal i))
  (hi : (Slot.ofLocal i).local? = some i) (hx : s.ledger[i]? = some x)

include h hu hd ho hx in
/-- Nothing is recorded yet for the current node. -/
lemma Coherent.unborn : x.node = none := by
  by_contra hne
  obtain ⟨m, hm⟩ := Option.ne_none_iff_exists'.mp hne
  obtain ⟨hb, e, he, hes, -⟩ := h.agrees.named hx hm
  obtain rfl := h.formed.slot_inj he hd hes ho
  exact hu.fresh hb

include h hu hd ho hi hx in
lemma Coherent.birth (hr : Usable s kids l) (hne : l ≠ .none) (ha : Aside s s')
    (hg : s'.gprs.Sound) (hf : s'.fprs.Sound) (hk : s'.Guarded)
    (hev : s'.events = s.events.push (.birth cur l format))
    (hl : s'.ledger = s.ledger.setIfInBounds i y)
    (hy : y = { node := some cur, useCount := y.useCount, registerFormat := format, location := l })
    (hfmt : Suits l format)
    (hown : ∀ q, s'.owner q = if q = l then some (.ofLocal i) else s.owner q) :
    Coherent g cur (cur :: before) kids s' := by
  refine h.change ha hev nofun hg hf hk ?_ ?_
  · rw [hl]
    refine h.agrees.birth hx (h.unborn hu hd ho hx) hd ho hi (hu.varying hd)
      (fun j z hz hzl => hr.dying hz hzl) hne hown ?_ ?_ ?_ ?_
    · rw [hy]
    · rw [hy]
    · rw [hy]
    · rw [hy]
      exact hfmt
  · rw [hl]
    refine mirrors_set h.formed h.now.mirrors hd ho hi hx (fun m hm => ?_) fun _ => ?_
    · simp [Replay.step, Replay.node?_setNode, hm]
    · rw [hy]
      simp [Replay.step, Replay.node?_setNode, ValueInfo.whereabouts, hne, ValueInfo.isSpilled]

end Birth

/-- After its result, the current node has a value, and its operands are still to be consumed. -/
abbrev Lowered (g : Graph) (cur : NodeId) (before kids : List NodeId) (s : State) : Prop :=
  Coherent g cur (cur :: before) kids s

/-- A node need not have a result. -/
lemma Coherent.lowered (h : Coherent g cur before [] s) : Lowered g cur before kids s :=
  h.mono (fun _ => List.mem_cons_of_mem _) nofun

lemma leads_setInfo_of {y : ValueInfo} {Q : Unit → State → Prop} (hs : Sighted env.graph s)
    (hd : env.graph.nodes[n]? = some d) (ho : d.slot = some o)
    (hQ : ∀ i x, o.local? = some i → s.ledger[i]? = some x →
      Q () { s with ledger := s.ledger.setIfInBounds i y }) :
    Leads env s (setInfo n y) Q T (Fault env.graph) := by
  rw [setInfo, leads_bind, leads_slotOf hd ho, leads_bind]
  exact leads_ledgerIndex_of hs fun i x hi hx => hQ i x hi hx

lemma leads_gprResult (h : Coherent env.graph cur before [] s) (hu : Unborn env.graph cur before)
    (hr : Usable s kids (.gpr r)) :
    Leads env s (gprResult r format) (fun _ s' => Lowered env.graph cur before kids s') T
      (Fault env.graph) := by
  rw [gprResult, leads_bind, leads_get, leads_bind, currentNode, leads_bind, leads_get, h.current]
  refine leads_node_of h.sighted fun d hd => ?_
  rw [leads_ite]
  refine ⟨fun _ => h.lowered, fun _ => ?_⟩
  rw [leads_bind]
  refine leads_slotOf_of h.sighted fun d' o hd' ho => ?_
  rw [leads_bind, leads_assume]
  refine ⟨fun y hy => ?_, fun _ _ => ⟨noDisagreement_breach _, h.sighted⟩⟩
  unfold ValueInfo.ofGpr at hy
  split at hy
  · rename_i hf
    cases hy
    rw [leads_bind]
    refine leads_setInfo_of h.sighted hd' ho fun i x hi hx => ?_
    have hoi := h.formed.eq_ofLocal hd' ho hi
    subst hoi
    refine h.birth hu hd' ho hi hx hr (by simp) ⟨rfl, rfl, rfl, rfl, rfl, rfl, rfl⟩ h.gprs.retain h.fprs
      (h.guarded.congr (fun q => by cases q <;> simp [State.locks]) rfl) rfl rfl rfl
      (.of_gprFormat hf) fun q => ?_
    cases q <;> simp [State.owner, Bank.owner_retain (present_of_locked hr.locked)]
  · cases hy

lemma leads_fprResult (h : Coherent env.graph cur before [] s) (hu : Unborn env.graph cur before)
    (hr : Usable s kids (.fpr f)) :
    Leads env s (fprResult f) (fun _ s' => Lowered env.graph cur before kids s') T
      (Fault env.graph) := by
  rw [fprResult, leads_bind, leads_get, leads_bind, currentNode, leads_bind, leads_get, h.current]
  refine leads_node_of h.sighted fun d hd => ?_
  rw [leads_ite]
  refine ⟨fun _ => h.lowered, fun _ => ?_⟩
  rw [leads_bind]
  refine leads_slotOf_of h.sighted fun d' o hd' ho => ?_
  rw [leads_bind]
  refine leads_setInfo_of h.sighted hd' ho fun i x hi hx => ?_
  have hoi := h.formed.eq_ofLocal hd' ho hi
  subst hoi
  refine h.birth hu hd' ho hi hx hr (by simp) ⟨rfl, rfl, rfl, rfl, rfl, rfl, rfl⟩ h.gprs h.fprs.retain
    (h.guarded.congr (fun q => by cases q <;> simp [State.locks]) rfl) rfl rfl rfl (.fpr f) fun q => ?_
  cases q <;> simp [State.owner, Bank.owner_retain (present_of_locked hr.locked)]

/-! ### Uses -/

/-- The register of a value that ends is unbound, if it is still its own. -/
lemma leads_releaseLocation {Q : Unit → State → Prop} {F : Failure → State → Prop}
    (hg : s.gprs.Sound) (hf : s.fprs.Sound) (hn : s.owner .none = none)
    (hQ : ∀ b c, Bank.Sound b → Bank.Sound c →
      (∀ q, ({ s with gprs := b, fprs := c } : State).owner q =
        if q = l ∧ s.owner q = some o then none else s.owner q) →
      ({ s with gprs := b, fprs := c } : State).locks = s.locks →
      Q () { s with gprs := b, fprs := c }) :
    Leads env s (releaseLocation o l) Q T F := by
  unfold releaseLocation
  cases l with
  | none =>
    refine hQ s.gprs s.fprs hg hf (fun q => ?_) rfl
    rw [if_neg]
    rintro ⟨rfl, ho⟩
    rw [hn] at ho
    cases ho
  | gpr r =>
    dsimp only
    rw [leads_bind, leads_get, leads_ite]
    refine ⟨fun ho => hQ _ s.fprs hg.release hf (fun q => ?_) ?_,
      fun ho => hQ _ _ hg hf (fun q => ?_) rfl⟩
    · cases q with
      | gpr r' =>
        by_cases hr : r' = r
        · subst hr
          simp [State.owner, Bank.owner_release, ho]
        · simp [State.owner, Bank.owner_release, hr]
      | none => simp [State.owner]
      | fpr f' => simp [State.owner]
    · funext q
      cases q <;> simp [State.locks]
    · rw [if_neg]
      rintro ⟨rfl, ho'⟩
      exact ho ho'
  | fpr f =>
    dsimp only
    rw [leads_bind, leads_get, leads_ite]
    refine ⟨fun ho => hQ s.gprs _ hg hf.release (fun q => ?_) ?_,
      fun ho => hQ _ _ hg hf (fun q => ?_) rfl⟩
    · cases q with
      | fpr f' =>
        by_cases hr : f' = f
        · subst hr
          simp [State.owner, Bank.owner_release, ho]
        · simp [State.owner, Bank.owner_release, hr]
      | none => simp [State.owner]
      | gpr r' => simp [State.owner]
    · funext q
      cases q <;> simp [State.locks]
    · rw [if_neg]
      rintro ⟨rfl, ho'⟩
      exact ho ho'

/-- An operand without an entry of its own that is about to end is consumed already. -/
lemma Coherent.consumed (h : Coherent g cur before (n :: pending) s)
    (hn : ∀ (j : Nat) (z : ValueInfo), s.ledger[j]? = some z → z.node = some n → z.useCount ≠ 1) :
    Coherent g cur before pending s :=
  h.adjust ⟨rfl, rfl, rfl, rfl, rfl, rfl, rfl⟩ rfl h.gprs h.fprs h.guarded (h.agrees.drop hn)
    h.now.mirrors

section Use

variable (h : Coherent env.graph cur before (n :: pending) s)
  (hd : env.graph.nodes[n]? = some d) (ho : d.slot = some (.ofLocal i))
  (hi : (Slot.ofLocal i).local? = some i) (hx : s.ledger[i]? = some x) (hn : x.node = some n)

include h hd ho hi hx in
/-- The entry of a node is the one at its slot. -/
lemma Coherent.eq_of_named {j : Nat} {z : ValueInfo} (hz : s.ledger[j]? = some z)
    (hm : z.node = some n) : z = x := by
  obtain ⟨-, e, he, hes, hj, -⟩ := h.agrees.named hz hm
  rw [hd] at he
  cases he
  rw [ho] at hes
  rw [← Option.some.inj hes, hi] at hj
  rw [← Option.some.inj hj, hx] at hz
  exact (Option.some.inj hz).symm

include h hd ho hi hx hn in
lemma Coherent.used (hu : x.useCount ≠ 1) {k : Nat} :
    Coherent env.graph cur before pending
      { s with ledger := s.ledger.setIfInBounds i { x with useCount := k } } := by
  have h' : Coherent env.graph cur before pending s := h.consumed fun j z hz hm => by
    rw [h.eq_of_named hd ho hi hx hz hm]
    exact hu
  refine h'.adjust ⟨rfl, rfl, rfl, rfl, rfl, rfl, rfl⟩ rfl h.gprs h.fprs h.guarded ?_ ?_
  · refine h'.agrees.stay hx rfl rfl rfl (fun hc => (h.agrees.constant hx hc).2)
      (fun hl => (h.agrees.resident hx hl).2.1) (.inr fun hl => ?_)
    obtain ⟨-, -, hown | ⟨m, -, -, hu'⟩⟩ := h'.agrees.resident hx hl
    · exact hown
    · exact absurd hu' hu
  · refine mirrors_set h.formed h.now.mirrors hd ho hi hx (fun _ _ => rfl) fun hc => ?_
    rw [Mirrors.node? h.now.mirrors hd hc ho hi hx hn, if_pos hn]
    rfl

include h hd ho hi hx hn in
/-- The last use. -/
lemma Coherent.ended {b : Bank Gpr} {c : Bank Fpr} (hb : b.Sound) (hc : c.Sound)
    (hown : ∀ q, ({ s with gprs := b, fprs := c } : State).owner q =
      if q = x.location ∧ s.owner q = some (.ofLocal i) then none else s.owner q)
    (hlocks : ({ s with gprs := b, fprs := c } : State).locks = s.locks) :
    Leads env { s with gprs := b, fprs := c, ledger := s.ledger.setIfInBounds i .dead }
      (unless x.isConstant do event (.death n))
      (fun _ s' => Coherent env.graph cur before pending s' ∧ s'.locks = s.locks) T
      (Fault env.graph) := by
  have hguarded : ({ s with gprs := b, fprs := c } : State).Guarded :=
    h.guarded.congr (congrFun hlocks) rfl
  have hagrees := h.agrees.die hx hn hown rfl
  obtain ⟨-, e, he, -, -, hec⟩ := h.agrees.named hx hn
  rw [hd] at he
  cases he
  rw [leads_ite]
  refine ⟨fun hxc => ?_, fun hxc => ?_⟩
  · refine ⟨h.adjust ⟨rfl, rfl, rfl, rfl, rfl, rfl, rfl⟩ rfl hb hc hguarded hagrees ?_, hlocks⟩
    refine mirrors_set h.formed h.now.mirrors hd ho hi hx (fun _ _ => rfl) fun hdc => ?_
    rw [hec, hxc] at hdc
    cases hdc
  · refine ⟨h.change ⟨rfl, rfl, rfl, rfl, rfl, rfl, rfl⟩ rfl nofun hb hc hguarded hagrees ?_, hlocks⟩
    refine mirrors_set h.formed h.now.mirrors hd ho hi hx (fun m hm => ?_) fun _ => ?_
    · simp [Replay.step, Replay.State.node?, Replay.lookup_filter_ne, hm]
    · simp [Replay.step, Replay.State.node?, Replay.lookup_filter_ne, ValueInfo.dead]

end Use

/-- A use of an operand settles it. -/
lemma leads_useNode (h : Coherent env.graph cur before (n :: pending) s) :
    Leads env s (useNode n)
      (fun _ s' => Coherent env.graph cur before pending s' ∧ s'.locks = s.locks) T
      (Fault env.graph) := by
  rw [useNode, leads_bind]
  refine leads_node_of h.sighted fun d hd => ?_
  split
  · rename_i o ho
    rw [leads_bind]
    refine leads_ledgerIndex_of h.sighted fun i x hi hx => ?_
    have hoi := h.formed.eq_ofLocal hd ho hi
    rw [leads_bind, leads_infoAt hx, leads_ite]
    refine ⟨fun hlive => ?_, fun hdead => ⟨h.consumed fun j z hz hm => ?_, rfl⟩⟩
    · simp only [Bool.and_eq_true, bne_iff_ne, ne_eq, ValueInfo.isAlive] at hlive
      obtain ⟨m, hm⟩ := Option.isSome_iff_exists.mp hlive.1
      obtain ⟨-, e, he, hes, -⟩ := h.agrees.named hx hm
      have hn : x.node = some n := by
        rw [hm, h.formed.slot_inj he hd hes (hoi ▸ ho)]
      rw [leads_bind, leads_assume]
      refine ⟨?_, fun _ _ => ⟨noDisagreement_breach _, h.sighted⟩⟩
      rintro ⟨last, y⟩ hy
      simp only [ValueInfo.consume, hlive.2, if_false, Except.ok.injEq, Prod.mk.injEq] at hy
      obtain ⟨rfl, rfl⟩ := hy
      rw [leads_ite]
      refine ⟨fun _ => ?_, fun hu => ?_⟩
      · rw [leads_bind]
        refine leads_releaseLocation h.gprs h.fprs h.agrees.nowhere fun b c hb hc hown hlocks => ?_
        exact h.ended hd (hoi ▸ ho) (hoi ▸ hi) hx hn hb hc (hoi ▸ hown) hlocks
      · exact ⟨h.used hd (hoi ▸ ho) (hoi ▸ hi) hx hn (by simpa using hu), rfl⟩
    · have hzx := h.eq_of_named hd (hoi ▸ ho) (hoi ▸ hi) hx hz hm
      rw [hzx] at hm ⊢
      simp only [Bool.and_eq_true, bne_iff_ne, ne_eq, ValueInfo.isAlive, hm, Option.isSome_some,
        true_and, not_not] at hdead
      rw [hdead]
      exact Nat.zero_ne_one
  · rename_i hnone
    refine ⟨h.consumed fun j z hz hm => ?_, rfl⟩
    obtain ⟨-, e, he, hes, -⟩ := h.agrees.named hz hm
    rw [hd] at he
    cases he
    exact absurd hes (hnone _)

lemma leads_useChildren (h : Coherent env.graph cur before (childrenOf env.graph cur) s) :
    Leads env s (useChildren cur)
      (fun _ s' => Coherent env.graph cur before [] s' ∧ s'.locks = s.locks) T
      (Fault env.graph) := by
  rw [useChildren, leads_bind]
  refine leads_node_of h.sighted fun d hd => ?_
  rw [childrenOf, hd, Option.map_some, Option.getD_some] at h
  refine leads_bind.mpr ((leads_forIn
    (fun rest s' => Coherent env.graph cur before (rest.map Edge.node) s' ∧ s'.locks = s.locks)
    ⟨h, rfl⟩ ?_).weaken ?_)
  · rintro e rest s' ⟨h', hl'⟩
    exact (leads_useNode h').then fun _ s'' ⟨h'', hl''⟩ => ⟨rfl, h'', hl''.trans hl'⟩
  · exact fun _ s' h' => h'

/-! ### Calls -/

lemma bound_nodup {R : Type} [RegisterClass R] [LawfulRegisterClass R] {b : Bank R} (hb : b.Sound) :
    (b.bound.map Prod.fst).Nodup := by
  have hall : (RegisterClass.allocatable : List R).Nodup := by
    rw [List.nodup_iff_getElem?_ne_getElem?]
    intro i j hij hj heq
    have hr := List.getElem?_eq_getElem hj
    have hi := LawfulRegisterClass.index?_eq_some.mpr (heq.trans hr)
    rw [LawfulRegisterClass.index?_eq_some.mpr hr] at hi
    exact absurd (Option.some.inj hi) (Nat.ne_of_gt hij)
  have hsub : (b.bound.map Prod.fst).Sublist (b.entries.toList.map BankEntry.register) := by
    unfold Bank.bound
    generalize b.entries.toList = es
    induction es with
    | nil => exact List.Sublist.refl _
    | cons x es ih =>
      rcases ho : x.owner with _ | o
      · simpa [ho] using ih.cons x.register
      · simpa [ho] using ih.cons_cons x.register
  rw [hb] at hsub
  exact hsub.nodup hall

/-- Save the values of a list of registers, which own them. -/
lemma leads_flush {R : Type} (loc : R → Location) (release : R → Lower Unit)
    (hinj : Function.Injective loc) {xs : List (R × Slot)} (h : Coherent env.graph cur before [] s)
    (hnodup : (xs.map Prod.fst).Nodup) (hxs : ∀ p ∈ xs, s.owner (loc p.1) = some p.2)
    (hrelease : ∀ r s, Coherent env.graph cur before [] s → ∃ b c, Bank.Sound b ∧ Bank.Sound c ∧
      (∀ q, ({ s with gprs := b, fprs := c } : State).owner q =
        if q = loc r then none else s.owner q) ∧
      (∀ q, ({ s with gprs := b, fprs := c } : State).locks q = s.locks q) ∧
      outcome (release r) env s = (.ok (), { s with gprs := b, fprs := c })) :
    Leads env s
      (forIn xs PUnit.unit fun p _ =>
        match p with
        | (r, o) => do
          release r
          spillSlot o (loc r)
          pure (ForInStep.yield PUnit.unit))
      (fun _ s' => Coherent env.graph cur before [] s') T (Fault env.graph) := by
  refine (leads_forIn (fun rest s' => Coherent env.graph cur before [] s' ∧
    (rest.map Prod.fst).Nodup ∧ ∀ p ∈ rest, s'.owner (loc p.1) = some p.2)
    ⟨h, hnodup, hxs⟩ ?_).weaken fun _ _ h => h.1
  rintro ⟨r, o⟩ rest s₁ ⟨h₁, hnd, hown⟩
  rw [List.map_cons, List.nodup_cons] at hnd
  obtain ⟨b, c, hb, hc, hbc, hlocks, hout⟩ := hrelease r s₁ h₁
  rw [leads_bind, Leads, hout]
  refine (h₁.leads_spillSlot (hown _ List.mem_cons_self) hb hc (h₁.guarded.congr hlocks rfl) hbc).then ?_
  rintro _ s₂ ⟨h₂, hg₂, hf₂, -⟩
  refine ⟨rfl, h₂, hnd.2, fun p hp => ?_⟩
  have hne : loc p.1 ≠ loc r := by
    intro heq
    exact hnd.1 (List.mem_map.mpr ⟨p, hp, hinj heq⟩)
  have ho₂ : s₂.owner (loc p.1) = ({ s₁ with gprs := b, fprs := c } : State).owner (loc p.1) := by
    rcases loc p.1 <;> simp [State.owner, hg₂, hf₂]
  rw [ho₂, hbc, if_neg hne]
  exact hown p (List.mem_cons_of_mem _ hp)

lemma leads_flushRegisters (h : Coherent env.graph cur before [] s) :
    Leads env s flushRegisters (fun _ s' => Coherent env.graph cur before [] s') T
      (Fault env.graph) := by
  rw [flushRegisters, leads_bind, leads_get]
  refine Leads.then (leads_flush .gpr (fun r => modifyGprs (·.release r))
    (fun _ _ => Location.gpr.inj) h (bound_nodup h.gprs)
    (fun p hp => h.gprs.mem_bound.mp hp) fun r s h => ?_) fun _ s₁ h₁ => ?_
  · refine ⟨s.gprs.release r, s.fprs, h.gprs.release, h.fprs, fun q => ?_, fun q => ?_, rfl⟩
    · cases q <;> simp [State.owner, Bank.owner_release]
    · cases q <;> simp [State.locks]
  rw [leads_bind, leads_get]
  refine Leads.then (leads_flush .fpr (fun r => modifyFprs (·.release r))
    (fun _ _ => Location.fpr.inj) h₁ (bound_nodup h₁.fprs)
    (fun p hp => h₁.fprs.mem_bound.mp hp) fun r s h => ?_) fun _ s₂ h₂ => h₂
  refine ⟨s.gprs, s.fprs.release r, h.gprs, h.fprs.release, fun q => ?_, fun q => ?_, rfl⟩
  · cases q <;> simp [State.owner, Bank.owner_release]
  · cases q <;> simp [State.locks]

lemma leads_callHelper {helper : Helper} {args : List Argument}
    (h : Coherent env.graph cur before [] s) :
    Leads env s (callHelper helper args) (fun _ s' => Coherent env.graph cur before [] s') T
      (Fault env.graph) := by
  refine (leads_flushRegisters h).then fun _ s₁ h₁ => ?_
  refine (Calm.setupArguments _).then h₁ (Same.refl s₁) fun _ s₂ h₂ hs₂ => ?_
  refine (Calm.emitCall _).then h₂ hs₂ fun _ s₃ h₃ hs₃ => ?_
  rw [leads_ite]
  exact ⟨fun _ => (Calm.exceptionCheck.keeps h₃).weaken fun _ _ h => h.1, fun _ => h₃⟩

lemma leads_callResultGpr (h : Coherent env.graph cur before [] s) :
    Leads env s callResultGpr
      (fun r s' => Coherent env.graph cur before [] s' ∧ s'.Taken (.gpr r)) T
      (Fault env.graph) := by
  refine (leads_allocGprPreferring h).then fun r s₁ ⟨h₁, hs₁⟩ => ?_
  exact (Calm.mov _ _).then h₁ (Same.refl s₁) fun _ s₂ h₂ hs₂ => ⟨h₂, hs₂.taken.mpr hs₁.taken⟩

lemma leads_callResultFpr (h : Coherent env.graph cur before [] s) :
    Leads env s callResultFpr
      (fun f s' => Coherent env.graph cur before [] s' ∧ s'.Taken (.fpr f)) T
      (Fault env.graph) := by
  refine (leads_allocFprPreferring h).then fun r s₁ ⟨h₁, hs₁⟩ => ?_
  exact (Calm.dmov _ _).then h₁ (Same.refl s₁) fun _ s₂ h₂ hs₂ => ⟨h₂, hs₂.taken.mpr hs₁.taken⟩

def slowPath (s : State) (entry done : Label) (exclude : List Gpr) (work : SlowWork) : SlowPath where
  entry := entry
  done := done
  gprs := (s.gprs.bound.map Prod.fst).filter fun r => !exclude.contains r
  fprs := s.fprs.bound.map Prod.fst
  node := s.current
  streamIndex := s.events.size
  ledger := s.ledger
  work := work

section SlowPaths

variable {entry done : Label} {exclude : List Gpr} {work : SlowWork}

/-- The registers that are saved are those that are bound, but for those that the slow path has for
itself. -/
lemma mem_kept (hg : s.gprs.Sound) (hf : s.fprs.Sound) {l : Location} :
    l ∈ (slowPath s entry done exclude work).kept ↔
      (∃ o, s.owner l = some o) ∧ ∀ r ∈ exclude, l ≠ .gpr r := by
  have hbound : ∀ {R : Type} [RegisterClass R] [LawfulRegisterClass R] {b : Bank R} {r : R},
      b.Sound → (r ∈ b.bound.map Prod.fst ↔ ∃ o, b.owner r = some o) := fun hb => by
    simp [← hb.mem_bound]
  rcases l with _ | r | f
  · simp [SlowPath.kept, State.owner]
  · simp only [SlowPath.kept, slowPath, List.mem_append, List.mem_map, Location.gpr.injEq,
      exists_eq_right, reduceCtorEq, and_false, exists_false, or_false, List.mem_filter]
    rw [← List.mem_map, hbound hg]
    simp only [State.owner, Bool.not_eq_true', List.contains_eq_mem, decide_eq_false_iff_not]
    exact and_congr_right fun _ => ⟨fun h q hq he => h (Location.gpr.inj he ▸ hq), fun h hr => h r hr rfl⟩
  · simp only [SlowPath.kept, slowPath, List.mem_append, List.mem_map, Location.fpr.injEq,
      exists_eq_right, reduceCtorEq, and_false, exists_false, false_or]
    rw [← List.mem_map, hbound hf]
    simp [State.owner]

lemma guards_slowPath (h : Coherent g cur before [] s) (hfree : ∀ r ∈ exclude, s.Taken (.gpr r))
    (hw : work.Formed exclude) : (slowPath s entry done exclude work).Guards where
  holds {l} hl := by
    obtain ⟨⟨o, ho⟩, -⟩ := (mem_kept h.gprs h.fprs).mp hl
    rcases l with _ | r | f
    · cases ho
    · exact Bank.mem_allocatable_of_owner ho
    · exact Bank.mem_allocatable_of_owner ho
  bound {l} hl := by
    obtain ⟨hne, i, x, hx, rfl⟩ := hl
    obtain ⟨-, -, ho | ⟨n, hn, -⟩⟩ := h.agrees.resident hx hne
    · refine (mem_kept h.gprs h.fprs).mpr ⟨⟨_, ho⟩, fun r hr he => ?_⟩
      rw [he, (hfree r hr).2] at ho
      cases ho
    · cases hn
  formed := ⟨exclude, hw⟩
  result {r} hr := by
    have hmem := hw.result hr
    exact ⟨Bank.mem_allocatable_of_locksOf (hfree r hmem).1,
      fun hl => ((mem_kept h.gprs h.fprs).mp hl).2 r hmem rfl⟩

/-- A slow path that is registered goes by what is to be seen here. -/
lemma leads_addSlowPath (h : Coherent env.graph cur before [] s)
    (hfree : ∀ r ∈ exclude, s.Taken (.gpr r)) (hw : work.Formed exclude) :
    Leads env s (addSlowPath entry done exclude work)
      (fun _ s' => Coherent env.graph cur before [] s' ∧ s'.owner = s.owner ∧
        s'.locks = s.locks) T (Fault env.graph) := by
  refine ⟨⟨h.formed, h.current, h.gprs, h.fprs, h.agrees, h.guarded,
    ⟨h.sighted.size, h.sighted.exits, ?_, ?_, h.sighted.caches⟩, h.now, h.stream, h.ledger⟩, rfl, rfl⟩
  · intro p hp
    rcases Array.mem_push.mp hp with hp | rfl
    · exact h.sighted.paths hp
    · exact h.now
  · intro p hp
    rcases Array.mem_push.mp hp with hp | rfl
    · exact h.sighted.guards hp
    · exact guards_slowPath h hfree hw

end SlowPaths

/-! ### Registers of dying operands -/

lemma leads_child (h : Coherent env.graph cur before pending s) :
    Leads env s (child i) (fun e s' => s' = s ∧ e.node ∈ childrenOf env.graph cur) T
      (Fault env.graph) := by
  rw [child, leads_bind, currentNode, leads_bind, leads_get, h.current]
  refine leads_node_of h.sighted fun d hd => ?_
  rw [leads_assume]
  refine ⟨fun e he => ⟨rfl, ?_⟩, fun _ _ => ⟨noDisagreement_breach _, h.sighted⟩⟩
  unfold Node.child Breach.get at he
  split at he
  · rename_i e' he'
    cases he
    rw [childrenOf, hd, Option.map_some, Option.getD_some]
    exact List.mem_map_of_mem (Array.mem_toList_iff.mpr (Array.mem_of_getElem? he'))
  · cases he

/-- A register may be overwritten if its operand ends with the node. -/
lemma leads_canReuse (h : Coherent env.graph cur before [] s)
    (hk : e.node ∈ kids) (hf : Filled env.graph s' s e.node l) :
    Leads env s (canReuse e) (fun b s' => s' = s ∧ (b = true → Usable s kids l)) T
      (Fault env.graph) := by
  rw [canReuse, leads_bind]
  refine leads_node_of h.sighted fun d hd => ?_
  split
  · rename_i i hi
    rw [leads_bind, leads_get]
    split
    · rename_i x hx
      have hlocked : 0 < s.locks l := Nat.lt_of_le_of_lt (Nat.zero_le _) hf.more
      refine ⟨rfl, fun hb => ⟨hlocked, fun {j z} hz hzl => ?_⟩⟩
      have hne : l ≠ .none := by
        rintro rfl
        exact absurd hlocked (Nat.lt_irrefl 0)
      obtain ⟨ha, -, hown | ⟨_, hp, -⟩⟩ := h.agrees.resident hz (hzl ▸ hne)
      · rw [hzl] at hown
        -- the value in the register is that of the operand
        obtain hnone | ⟨d', o, hd', ho, hl⟩ := hf.owner
        · rw [hnone] at hown
          cases hown
        rw [hd] at hd'
        cases hd'
        have hoj : o = .ofLocal j := Option.some.inj (hl.symm.trans hown)
        obtain ⟨m, hm⟩ := Option.isSome_iff_exists.mp ha
        obtain ⟨-, d', hd', hs', hj, -⟩ := h.agrees.named hz hm
        have hmn := h.formed.slot_inj hd' hd hs' (hoj ▸ ho)
        rw [ho, hoj, Option.bind_some, hj] at hi
        rw [Option.some.inj hi, hx] at hz
        rw [Option.some.inj hz] at hb
        simp only [Bool.and_eq_true, beq_iff_eq] at hb
        exact ⟨m, hmn ▸ hk, hm, hb.2⟩
      · cases hp
    · exact ⟨rfl, nofun⟩
  · exact ⟨rfl, nofun⟩

/-- The register of a 32-bit result: the operand's own if it ends with the node, else a fresh
one. -/
lemma leads_intResultFrom {op : GprOperand} (h : Coherent env.graph cur before [] s)
    (hk : e.node ∈ kids) (hf : Filled env.graph s' s e.node op.location) :
    Leads env s (intResultFrom e op)
      (fun a s' => Coherent env.graph cur before [] s' ∧ Usable s' kids (.gpr a.1)) T
      (Fault env.graph) := by
  refine (leads_canReuse h hk hf).then ?_
  rintro b _ ⟨rfl, hb⟩
  rw [leads_ite]
  refine ⟨fun hb' => ?_, fun _ => ?_⟩
  · refine (leads_lockGpr h).then fun _ s₁ ⟨h₁, hs₁⟩ => ⟨h₁, ?_, fun hz hl => ?_⟩
    · exact Nat.lt_of_le_of_lt (Nat.zero_le _) hs₁.more
    · rw [hs₁.ledger] at hz
      exact (hb hb').dying hz hl
  · refine (leads_allocGpr h).then fun r s₁ ⟨h₁, hs₁⟩ => ?_
    refine (Calm.mov _ _).then h₁ (Same.refl s₁) fun _ s₂ h₂ hs₂ => ⟨h₂, ?_⟩
    exact h₂.usable (hs₂.taken.mpr hs₁.taken)

/-- The right operand of an integer operation. -/
lemma leads_intRhs (h : Coherent env.graph cur before [] s) :
    Leads env s (intRhs e) (fun _ s' => Coherent env.graph cur before [] s' ∧ Onward s s')
      (Coherent env.graph cur before []) (Fault env.graph) := by
  rw [intRhs, leads_bind, leads_graph, leads_bind, leads_assume]
  refine ⟨fun c _ => ?_, fun b _ => ⟨noDisagreement_breach b, h.sighted⟩⟩
  split
  · exact ⟨h, Onward.refl s⟩
  · exact (leads_fillInt h).then fun _ _ ⟨h', hf⟩ => ⟨h', hf.onward⟩

end Lowering
end Speculation
