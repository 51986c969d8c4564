import Speculation.Proofs.Lowering.Calm

/-!
Handing out registers and moving values.

A value moves by a change of its ledger entry, of a bank and of the log at once. What a step has
locked stays locked and keeps its owner while later steps hand out more registers, so the
specifications say of each register they give what it may be used for: `Taken` if it is bound to
nothing, `Owned` if it holds the value of a node.
-/

namespace Speculation
namespace Lowering

variable {α β : Type} {env : Env} {g : Graph} {s s' s'' : State} {cur n : NodeId}
  {before pending : List NodeId} {T : State → Prop} {l : Location} {r : Gpr} {f : Fpr}
  {d : Node} {o : Slot} {i : Nat} {x : ValueInfo}

lemma Leads.then {x : Lower β} {f : β → Lower α} {P : β → State → Prop} {Q : α → State → Prop}
    {F : Failure → State → Prop} (hx : Leads env s x P T F)
    (hf : ∀ a s', P a s' → Leads env s' (f a) Q T F) : Leads env s (x >>= f) Q T F :=
  leads_bind.mpr (hx.weaken hf)

def Fault (g : Graph) (f : Failure) (s : State) : Prop := NoDisagreement f ∧ Sighted g s

/-- Go on after a calm step; nothing has changed since `s`. -/
lemma CalmIf.then {x : Lower β} {f : β → Lower α} {Q : α → State → Prop} (hx : Calm x)
    (h : Coherent env.graph cur before pending s') (hs : Same s s')
    (hf : ∀ a s'', Coherent env.graph cur before pending s'' → Same s s'' →
      Leads env s'' (f a) Q T (Fault env.graph)) :
    Leads env s' (x >>= f) Q T (Fault env.graph) := by
  refine Leads.then ((hx env s' h.sighted fun _ => h.sees).mono (fun _ _ => id) (fun _ => False.elim)
    fun _ _ => id) ?_
  rintro a s'' ⟨hsame, hs''⟩
  exact hf a s'' (h.same hsame hs'') (hs.trans hsame)

/-! ### Evaluating look-ups -/

lemma leads_graph {Q : Graph → State → Prop} {F : Failure → State → Prop} :
    Leads env s graph Q T F ↔ Q env.graph s := Iff.rfl

section Lookups

variable {F : Failure → State → Prop} (hd : env.graph.nodes[n]? = some d) (ho : d.slot = some o)
  (hi : o.local? = some i) (hx : s.ledger[i]? = some x)

include hd in
lemma leads_node {Q : Node → State → Prop} : Leads env s (node n) Q T F ↔ Q d s := by
  simp [node, leads_bind, Graph.node, Breach.get, hd]

include hd ho in
lemma leads_slotOf {Q : Slot → State → Prop} : Leads env s (slotOf n) Q T F ↔ Q o s := by
  simp [slotOf, leads_bind, leads_node hd, ho]

include hi hx in
lemma leads_ledgerIndex {Q : Nat → State → Prop} : Leads env s (ledgerIndex o) Q T F ↔ Q i s := by
  have hlt := (Array.getElem?_eq_some_iff.mp hx).1
  simp [ledgerIndex, hi, leads_bind, hlt]

include hx in
lemma leads_infoAt {Q : ValueInfo → State → Prop} : Leads env s (infoAt i) Q T F ↔ Q x s := by
  simp [infoAt, Array.getD_eq_getD_getElem?, hx]

include hd ho hi hx in
lemma leads_info {Q : ValueInfo → State → Prop} : Leads env s (info n) Q T F ↔ Q x s := by
  simp [info, leads_bind, leads_slotOf hd ho, leads_ledgerIndex hi hx, leads_infoAt hx]

include hd ho hi hx in
lemma leads_setInfo {y : ValueInfo} {Q : Unit → State → Prop} :
    Leads env s (setInfo n y) Q T F ↔ Q () { s with ledger := s.ledger.setIfInBounds i y } := by
  simp [setInfo, leads_bind, leads_slotOf hd ho, leads_ledgerIndex hi hx, setInfoAt]

lemma leads_event {e : Event} {Q : Unit → State → Prop} :
    Leads env s (event e) Q T F ↔ Q () { s with events := s.events.push e } := Iff.rfl

lemma leads_emit' {c : Inst} {Q : Unit → State → Prop} :
    Leads env s (emit' c) Q T F ↔ Q () { s with asm := s.asm.emit c } := Iff.rfl

end Lookups

/-! Looking something up finds it or fails. -/

lemma leads_node_of {Q : Node → State → Prop} (hs : Sighted env.graph s)
    (hQ : ∀ d, env.graph.nodes[n]? = some d → Q d s) :
    Leads env s (node n) Q T (Fault env.graph) := by
  rcases hd : env.graph.nodes[n]? with _ | d
  · have he : env.graph.node n = .error .outOfRange := by simp [Graph.node, Breach.get, hd]
    rw [node, leads_bind, leads_read, he]
    exact ⟨noDisagreement_breach _, hs⟩
  · exact (leads_node hd).mpr (hQ d hd)

lemma leads_slotOf_of {Q : Slot → State → Prop} (hs : Sighted env.graph s)
    (hQ : ∀ d o, env.graph.nodes[n]? = some d → d.slot = some o → Q o s) :
    Leads env s (slotOf n) Q T (Fault env.graph) := by
  rw [slotOf, leads_bind]
  refine leads_node_of hs fun d hd => ?_
  split
  · rename_i o ho
    exact hQ d o hd ho
  · exact ⟨nofun, hs⟩

lemma leads_ledgerIndex_of {Q : Nat → State → Prop} (hs : Sighted env.graph s)
    (hQ : ∀ i x, o.local? = some i → s.ledger[i]? = some x → Q i s) :
    Leads env s (ledgerIndex o) Q T (Fault env.graph) := by
  unfold ledgerIndex
  split
  · rename_i i hi
    rw [leads_bind, leads_get]
    split
    · rename_i hlt
      exact hQ i _ hi (Array.getElem?_eq_getElem hlt)
    · exact ⟨nofun, hs⟩
  · exact ⟨nofun, hs⟩

lemma leads_info_of {Q : ValueInfo → State → Prop} (hs : Sighted env.graph s)
    (hQ : ∀ d o i x, env.graph.nodes[n]? = some d → d.slot = some o → o.local? = some i →
      s.ledger[i]? = some x → Q x s) : Leads env s (info n) Q T (Fault env.graph) := by
  rw [info, leads_bind]
  refine leads_slotOf_of hs fun d o hd ho => ?_
  rw [leads_bind]
  refine leads_ledgerIndex_of hs fun i x hi hx => ?_
  exact (leads_infoAt hx).mpr (hQ d o i x hd ho hi hx)

/-! ### Changes of values -/

/-- Nothing changed but code, values, registers and the log. -/
structure Aside (s s' : State) : Prop where
  exits : s'.exits = s.exits
  views : s'.views = s.views
  slowPaths : s'.slowPaths = s.slowPaths
  caches : s'.caches = s.caches
  current : s'.current = s.current
  stream : s'.exitStream = s.exitStream
  exitLedger : s'.exitLedger = s.exitLedger

lemma Sighted.event {e : Event} (h : Sighted g s) (ha : Aside s s')
    (he : s'.events = s.events.push e) : Sighted g s' where
  size := by rw [ha.exits, ha.views, h.size]
  exits hx hl := by
    rw [ha.exits] at hx
    rw [ha.views] at hl
    rw [he]
    exact (h.exits hx hl).push e
  paths hp := by
    rw [ha.slowPaths] at hp
    rw [he]
    exact (h.paths hp).push e
  guards hp := h.guards (ha.slowPaths ▸ hp)
  caches hc := h.caches (ha.caches ▸ hc)

namespace Coherent

lemma change {before' pending' : List NodeId} {e : Event}
    (h : Coherent g cur before pending s) (ha : Aside s s') (he : s'.events = s.events.push e)
    (hr : e ≠ .reset) (hg : s'.gprs.Sound) (hf : s'.fprs.Sound) (hk : s'.Guarded)
    (hl : Agrees g before' pending' s'.ledger s'.owner)
    (hm : Mirrors g (Replay.step (Replay.after s.events.toList s.events.size) e) s'.ledger) :
    Coherent g cur before' pending' s' where
  formed := h.formed
  current := ha.current.trans h.current
  gprs := hg
  fprs := hf
  agrees := hl
  guarded := hk
  sighted := h.sighted.event ha he
  now := by
    rw [he, ha.current]
    exact h.now.event hr hm
  stream := ha.stream.trans h.stream
  ledger := ha.exitLedger.trans h.ledger

/-- A change that the log need not tell of. -/
lemma adjust {before' pending' : List NodeId} (h : Coherent g cur before pending s)
    (ha : Aside s s') (he : s'.events = s.events) (hg : s'.gprs.Sound) (hf : s'.fprs.Sound)
    (hk : s'.Guarded) (hl : Agrees g before' pending' s'.ledger s'.owner)
    (hm : Mirrors g (Replay.after s.events.toList s.events.size) s'.ledger) :
    Coherent g cur before' pending' s' where
  formed := h.formed
  current := ha.current.trans h.current
  gprs := hg
  fprs := hf
  agrees := hl
  guarded := hk
  sighted := by
    refine ⟨by rw [ha.exits, ha.views, h.sighted.size], fun hx hl => ?_, fun hp => ?_,
      fun hp => h.sighted.guards (ha.slowPaths ▸ hp), fun hc => h.sighted.caches (ha.caches ▸ hc)⟩
    · rw [ha.exits] at hx
      rw [ha.views] at hl
      rw [he]
      exact h.sighted.exits hx hl
    · rw [ha.slowPaths] at hp
      rw [he]
      exact h.sighted.paths hp
  now := by
    rw [he, ha.current]
    exact h.now.relabel hm
  stream := ha.stream.trans h.stream
  ledger := ha.exitLedger.trans h.ledger

/-- The banks and the guards change, but no owner. -/
lemma rebank (h : Coherent g cur before pending s) {b : Bank Gpr} {c : Bank Fpr}
    {gs : List Location} (hb : b.Sound) (hc : c.Sound)
    (hk : ({ s with gprs := b, fprs := c, guards := gs } : State).Guarded)
    (ho : ∀ q, ({ s with gprs := b, fprs := c, guards := gs } : State).owner q = s.owner q) :
    Coherent g cur before pending { s with gprs := b, fprs := c, guards := gs } := by
  refine h.adjust ⟨rfl, rfl, rfl, rfl, rfl, rfl, rfl⟩ rfl hb hc hk ?_ h.now.mirrors
  rw [funext ho]
  exact h.agrees

lemma mono {before' pending' : List NodeId} (h : Coherent g cur before pending s)
    (hb : ∀ n ∈ before, n ∈ before') (hp : ∀ n ∈ pending, n ∈ pending') :
    Coherent g cur before' pending' s :=
  h.adjust ⟨rfl, rfl, rfl, rfl, rfl, rfl, rfl⟩ rfl h.gprs h.fprs h.guarded
    (h.agrees.mono hb hp) h.now.mirrors

end Coherent

def Owned (g : Graph) (s : State) (n : NodeId) (l : Location) : Prop :=
  ∃ d o, g.nodes[n]? = some d ∧ d.slot = some o ∧ s.owner l = some o

lemma Owned.of_owner (h : Owned g s n l) (ho : s'.owner l = s.owner l) : Owned g s' n l := by
  obtain ⟨d, o, hd, hs, hl⟩ := h
  exact ⟨d, o, hd, hs, ho ▸ hl⟩

/-- The ledger entry `x`, at index `i`, of a value that is in no constant. -/
structure Entry (g : Graph) (s : State) (n : NodeId) (d : Node) (i : Nat) (x : ValueInfo) :
    Prop where
  node : g.nodes[n]? = some d
  slot : d.slot = some (.ofLocal i)
  index : (Slot.ofLocal i).local? = some i
  entry : s.ledger[i]? = some x
  named : x.node = some n
  varying : x.isConstant = false
  op : d.op.isConstant = false

lemma Coherent.entry_of_owned (h : Coherent g cur before [] s) (ho : Owned g s n l) :
    ∃ d i x, Entry g s n d i x ∧ x.location = l ∧ l ≠ .none ∧ x.registerFormat ≠ .none := by
  obtain ⟨d, o, hd, hs, hl⟩ := ho
  obtain ⟨i, x, rfl, hi, hx, hloc⟩ := h.agrees.bound hl
  have hne : l ≠ .none := by
    rintro rfl
    rw [h.agrees.nowhere] at hl
    cases hl
  obtain ⟨ha, hf, -⟩ := h.agrees.resident hx (hloc ▸ hne)
  obtain ⟨m, hm⟩ := Option.isSome_iff_exists.mp ha
  obtain ⟨-, e, he, hes, -, hc⟩ := h.agrees.named hx hm
  obtain rfl : m = n := h.formed.slot_inj he hd hes hs
  rw [hd] at he
  cases he
  have hxc : x.isConstant = false := by
    by_contra hxc
    exact hne (hloc ▸ (h.agrees.constant hx (by simpa using hxc)).1)
  exact ⟨d, i, x, ⟨hd, hs, hi, hx, hm, hxc, hc.trans hxc⟩, hloc, hne, hf.ne_none⟩

namespace Entry

variable {y : ValueInfo} {R : Replay.State} {format : DataFormat}

/-- The value went to its slot. -/
lemma mirrors_spill (h : Entry g s n d i x) (hg : g.Formed) (hm : Mirrors g R s.ledger)
    (hn : y.node = some n) (hl : y.location = .none) (hf : y.spillFormat = format)
    (hne : format ≠ .none) :
    Mirrors g (Replay.step R (.spill n (.ofLocal i) format)) (s.ledger.setIfInBounds i y) := by
  refine mirrors_set hg hm h.node h.slot h.index h.entry (fun m hm => ?_) fun _ => ?_
  · simp [Replay.step, Replay.node?_setNode, hm]
  · simp [Replay.step, Replay.node?_setNode, hn, ValueInfo.whereabouts, hl, ValueInfo.isSpilled, hf,
      hne]

/-- The value came to a register. -/
lemma mirrors_fill (h : Entry g s n d i x) (hg : g.Formed) (hm : Mirrors g R s.ledger)
    (hn : y.node = some n) (hl : y.location = l) (hf : y.registerFormat = format)
    (hs : y.spillFormat = x.spillFormat) (hne : l ≠ .none) :
    Mirrors g (Replay.step R (.fill n l format)) (s.ledger.setIfInBounds i y) := by
  refine mirrors_set hg hm h.node h.slot h.index h.entry (fun m hm => ?_) fun hc => ?_
  · simp [Replay.step, Replay.node?_setNode, hm]
  · have hR := Mirrors.node? hm h.node hc h.slot h.index h.entry h.named
    simp [Replay.step, Replay.node?_setNode, hR, hn, ValueInfo.whereabouts, hl, hne, hf,
      ValueInfo.isSpilled, hs]

end Entry

/-! ### Giving up registers -/

section Errors

variable {R : Type} [RegisterClass R] {b : Bank R} {q : R} {e : CompileError}

lemma noDisagreement_of_allocate (h : b.allocate = .error e) : NoDisagreement (.compile e) := by
  unfold Bank.allocate at h
  split at h
  · cases h
  · split at h
    · cases h
    · cases h
      nofun

lemma noDisagreement_of_allocatePreferring (h : b.allocatePreferring q = .error e) :
    NoDisagreement (.compile e) := by
  unfold Bank.allocatePreferring at h
  split at h
  · cases h
    nofun
  · split at h
    · exact noDisagreement_of_allocate h
    · cases h

lemma noDisagreement_of_lock (h : b.lock q = .error e) : NoDisagreement (.compile e) := by
  unfold Bank.lock at h
  split at h
  · cases h
  · cases h
    nofun

end Errors

/-- A value is saved whose register has just been unbound. -/
lemma Coherent.leads_spillSlot (h : Coherent env.graph cur before [] s) (ho : s.owner l = some o)
    {b : Bank Gpr} {c : Bank Fpr} {gs : List Location} (hb : b.Sound) (hc : c.Sound)
    (hk : ({ s with gprs := b, fprs := c, guards := gs } : State).Guarded)
    (hown : ∀ q, ({ s with gprs := b, fprs := c, guards := gs } : State).owner q =
      if q = l then none else s.owner q) :
    Leads env { s with gprs := b, fprs := c, guards := gs } (spillSlot o l)
      (fun _ s' => Coherent env.graph cur before [] s' ∧ s'.gprs = b ∧ s'.fprs = c ∧
        ∀ (j : Nat) (z : ValueInfo), s.ledger[j]? = some z → z.location ≠ l →
          s'.ledger[j]? = some z)
      T (Fault env.graph) := by
  obtain ⟨i, x, hoi, hi, hx, hxl⟩ := h.agrees.bound ho
  have hne : l ≠ .none := by
    rintro rfl
    rw [h.agrees.nowhere] at ho
    cases ho
  obtain ⟨ha, hf, -⟩ := h.agrees.resident hx (hxl ▸ hne)
  obtain ⟨n, hn⟩ := Option.isSome_iff_exists.mp ha
  obtain ⟨-, d, hd, hs, -, hdc⟩ := h.agrees.named hx hn
  have hxc : x.isConstant = false := by
    by_contra hxc
    exact hne (hxl ▸ (h.agrees.constant hx (by simpa using hxc)).1)
  have hentry : Entry env.graph s n d i x := ⟨hd, hs, hoi ▸ hi, hx, hn, hxc, hdc.trans hxc⟩
  have hothers : ∀ (y : ValueInfo) (j : Nat) (z : ValueInfo), s.ledger[j]? = some z →
      z.location ≠ l → (s.ledger.setIfInBounds i y)[j]? = some z := by
    intro y j z hz hzl
    have hij : i ≠ j := by
      rintro rfl
      rw [hx] at hz
      cases hz
      exact hzl hxl
    simpa [hij] using hz
  have hagrees : ∀ y : ValueInfo, y.node = x.node → y.isConstant = x.isConstant →
      y.location = .none → Agrees env.graph before [] (s.ledger.setIfInBounds i y)
        ({ s with gprs := b, fprs := c, guards := gs } : State).owner := fun y hyn hyc hyl =>
    h.agrees.leave hx (hxl ▸ hoi ▸ ho) (hxl ▸ hne) (hxl ▸ hown) hyn hyc hyl
      fun hc => absurd hc (by simp [hxc])
  have hx' : ({ s with gprs := b, fprs := c, guards := gs } : State).ledger[i]? = some x := hx
  rw [spillSlot, leads_bind, leads_ledgerIndex hi hx', leads_bind, leads_infoAt hx']
  simp only [hn, hxl, ne_eq, not_true_eq_false, if_false]
  split
  · -- it is in its slot already
    rename_i hsp
    rw [leads_bind]
    refine ⟨h.change ⟨rfl, rfl, rfl, rfl, rfl, rfl, rfl⟩ rfl nofun hb hc hk (hagrees _ rfl rfl rfl)
      (hoi ▸ hentry.mirrors_spill h.formed h.now.mirrors hn rfl rfl ?_), rfl, rfl, hothers _⟩
    simpa [ValueInfo.isSpilled] using hsp
  · have hspill : x.spill x.registerFormat =
        .ok { x.releaseRegisters with spillFormat := x.registerFormat } := by
      simp [ValueInfo.spill, hxc]
    have hrest : ∀ asm, Leads env { s with gprs := b, fprs := c, guards := gs, asm := asm }
        (do setInfoAt i (← assume (x.spill x.registerFormat))
            event (.spill n o x.registerFormat))
        (fun _ s' => Coherent env.graph cur before [] s' ∧ s'.gprs = b ∧ s'.fprs = c ∧
          ∀ (j : Nat) (z : ValueInfo), s.ledger[j]? = some z → z.location ≠ l →
            s'.ledger[j]? = some z)
        T (Fault env.graph) := by
      intro asm
      rw [hspill]
      exact ⟨h.change ⟨rfl, rfl, rfl, rfl, rfl, rfl, rfl⟩ rfl nofun hb hc hk (hagrees _ rfl rfl rfl)
        (hoi ▸ hentry.mirrors_spill h.formed h.now.mirrors hn rfl rfl hf.ne_none), rfl, rfl, hothers _⟩
    cases l with
    | none => exact absurd rfl hne
    | gpr r => exact hrest _
    | fpr r => exact hrest _

/-- A register has been handed out between `s` and `s'`. -/
structure Handed (s s' : State) (l : Location) : Prop where
  onward : Onward s s'
  taken : s'.Taken l
  free : s.locks l = 0
  /-- Values that were in no register are untouched. -/
  elsewhere {j : Nat} {z : ValueInfo} (hz : s.ledger[j]? = some z) (hl : z.location = .none) :
    s'.ledger[j]? = some z

lemma Handed.more (h : Handed s s' l) : s.locks l < s'.locks l := by
  rw [h.free]
  exact h.taken.1

/-- A register changes hands: its owner, if it has one, gives it up. -/
lemma Coherent.leads_vacate (h : Coherent env.graph cur before [] s) {b : Bank Gpr} {c : Bank Fpr}
    {gs : List Location} (hb : b.Sound) (hc : c.Sound)
    (hk : ({ s with gprs := b, fprs := c, guards := gs } : State).Guarded) (hne : l ≠ .none)
    (hown : ∀ q, ({ s with gprs := b, fprs := c, guards := gs } : State).owner q =
      if q = l then none else s.owner q)
    (hlocks : ∀ q, ({ s with gprs := b, fprs := c, guards := gs } : State).locks q =
      if q = l then 1 else s.locks q)
    (hfree : s.locks l = 0) {x : Lower α} {Q : α → State → Prop}
    (hx : ∀ s', Coherent env.graph cur before [] s' → Handed s s' l →
      Leads env s' x Q T (Fault env.graph)) :
    Leads env { s with gprs := b, fprs := c, guards := gs }
      (do if let some o := s.owner l then spillSlot o l
          x) Q T (Fault env.graph) := by
  have hhanded : ∀ s' : State, s'.gprs = b → s'.fprs = c →
      (∀ (j : Nat) (z : ValueInfo), s.ledger[j]? = some z → z.location ≠ l →
        s'.ledger[j]? = some z) → Handed s s' l := by
    intro s' hg hf hl
    have ho' : ∀ q, s'.owner q = if q = l then none else s.owner q := by
      intro q
      rw [← hown q]
      cases q <;> simp [State.owner, hg, hf]
    have hk' : ∀ q, s'.locks q = if q = l then 1 else s.locks q := by
      intro q
      rw [← hlocks q]
      cases q <;> simp [State.locks, hg, hf]
    refine ⟨⟨fun q => ?_, fun {q} hq => ?_⟩, ⟨?_, ?_⟩, hfree, fun hz hzl => hl _ _ hz ?_⟩
    · rw [hk' q]
      split
      · rename_i hq
        rw [hq, hfree]
        omega
      · exact Nat.le_refl _
    · have hql : q ≠ l := by
        rintro rfl
        omega
      rw [ho' q, if_neg hql]
    · rw [hk', if_pos rfl]
      exact Nat.one_pos
    · rw [ho', if_pos rfl]
    · rw [hzl]
      exact hne.symm
  split
  · rename_i o ho
    refine (h.leads_spillSlot ho hb hc hk hown).then ?_
    rintro _ s' ⟨h', hg, hf, hl⟩
    exact hx s' h' (hhanded s' hg hf hl)
  · rename_i hsome
    have ho : s.owner l = none := Option.eq_none_iff_forall_ne_some.mpr hsome
    refine hx _ (h.rebank hb hc hk fun q => ?_) (hhanded _ rfl rfl fun _ _ hz _ => hz)
    rw [hown]
    split
    · rename_i hq
      rw [hq, ho]
    · rfl

section Handing

variable {a : Bank.Allocation Gpr} {b : Bank Gpr} {a' : Bank.Allocation Fpr} {b' : Bank Fpr}

lemma Coherent.leads_handGpr (h : Coherent env.graph cur before [] s) (hb : Bank.Hands s.gprs a b) :
    Leads env { s with gprs := b, guards := .gpr a.register :: s.guards }
      (do if let some o := a.evicted then spillSlot o (.gpr a.register)
          return a.register)
      (fun r s' => Coherent env.graph cur before [] s' ∧ Handed s s' (.gpr r))
      T (Fault env.graph) := by
  have he : a.evicted = s.owner (.gpr a.register) := hb.evicted
  simp only [he]
  refine h.leads_vacate (l := .gpr a.register) (x := pure a.register) hb.sound h.fprs
    (h.guarded.holdGpr hb.adds) nofun (fun q => ?_) (fun q => ?_) hb.unlocked ?_
  · cases q <;> simp [State.owner, hb.owner]
  · cases q <;> simp [State.locks, hb.locks]
  · intro s' h' hs'
    exact ⟨h', hs'⟩

lemma Coherent.leads_handFpr (h : Coherent env.graph cur before [] s)
    (hb : Bank.Hands s.fprs a' b') :
    Leads env { s with fprs := b', guards := .fpr a'.register :: s.guards }
      (do if let some o := a'.evicted then spillSlot o (.fpr a'.register)
          return a'.register)
      (fun r s' => Coherent env.graph cur before [] s' ∧ Handed s s' (.fpr r))
      T (Fault env.graph) := by
  have he : a'.evicted = s.owner (.fpr a'.register) := hb.evicted
  simp only [he]
  refine h.leads_vacate (l := .fpr a'.register) (x := pure a'.register) h.gprs hb.sound
    (h.guarded.holdFpr hb.adds) nofun (fun q => ?_) (fun q => ?_) hb.unlocked ?_
  · cases q <;> simp [State.owner, hb.owner]
  · cases q <;> simp [State.locks, hb.locks]
  · intro s' h' hs'
    exact ⟨h', hs'⟩

end Handing

lemma leads_allocGpr (h : Coherent env.graph cur before [] s) :
    Leads env s allocGpr (fun r s' => Coherent env.graph cur before [] s' ∧ Handed s s' (.gpr r))
      T (Fault env.graph) := by
  rw [allocGpr, leads_bind, leads_get, leads_bind, leads_check]
  refine ⟨?_, fun e he => ⟨noDisagreement_of_allocate he, h.sighted⟩⟩
  rintro ⟨a, b⟩ hab
  exact h.leads_handGpr (h.gprs.allocate hab)

lemma leads_allocFpr (h : Coherent env.graph cur before [] s) :
    Leads env s allocFpr (fun r s' => Coherent env.graph cur before [] s' ∧ Handed s s' (.fpr r))
      T (Fault env.graph) := by
  rw [allocFpr, leads_bind, leads_get, leads_bind, leads_check]
  refine ⟨?_, fun e he => ⟨noDisagreement_of_allocate he, h.sighted⟩⟩
  rintro ⟨a, b⟩ hab
  exact h.leads_handFpr (h.fprs.allocate hab)

lemma leads_allocGprPreferring (h : Coherent env.graph cur before [] s) :
    Leads env s (allocGprPreferring r)
      (fun r s' => Coherent env.graph cur before [] s' ∧ Handed s s' (.gpr r))
      T (Fault env.graph) := by
  rw [allocGprPreferring, leads_bind, leads_get, leads_bind, leads_check]
  refine ⟨?_, fun e he => ⟨noDisagreement_of_allocatePreferring he, h.sighted⟩⟩
  rintro ⟨a, b⟩ hab
  exact h.leads_handGpr (h.gprs.allocatePreferring hab)

lemma leads_allocFprPreferring (h : Coherent env.graph cur before [] s) :
    Leads env s (allocFprPreferring f)
      (fun r s' => Coherent env.graph cur before [] s' ∧ Handed s s' (.fpr r))
      T (Fault env.graph) := by
  rw [allocFprPreferring, leads_bind, leads_get, leads_bind, leads_check]
  refine ⟨?_, fun e he => ⟨noDisagreement_of_allocatePreferring he, h.sighted⟩⟩
  rintro ⟨a, b⟩ hab
  exact h.leads_handFpr (h.fprs.allocatePreferring hab)

/-! ### Locks -/

/-- A register has been locked once more between `s` and `s'`, and nothing else has changed. -/
structure LockedOnce (s s' : State) (l : Location) : Prop where
  locks (q : Location) : s'.locks q = if q = l then s.locks q + 1 else s.locks q
  owner (q : Location) : s'.owner q = s.owner q
  ledger : s'.ledger = s.ledger

namespace LockedOnce

lemma more (h : LockedOnce s s' l) : s.locks l < s'.locks l := by
  rw [h.locks, if_pos rfl]
  omega

lemma onward (h : LockedOnce s s' l) : Onward s s' where
  locks q := by
    rw [h.locks]
    split <;> omega
  owner _ := h.owner _

end LockedOnce

lemma leads_lockGpr (h : Coherent env.graph cur before [] s) :
    Leads env s (lockGpr r)
      (fun _ s' => Coherent env.graph cur before [] s' ∧ LockedOnce s s' (.gpr r))
      T (Fault env.graph) := by
  rw [lockGpr, leads_bind, leads_get, leads_bind, leads_check]
  refine ⟨fun b hb => ?_, fun e he => ⟨noDisagreement_of_lock he, h.sighted⟩⟩
  obtain ⟨rfl, hr⟩ := Bank.lock_eq_ok hb
  have hentry := (h.gprs.entryAt_isSome).mpr hr
  refine ⟨h.rebank h.gprs.addLock h.fprs (h.guarded.holdGpr fun q => Bank.locksOf_addLock hentry)
    fun q => ?_, fun q => ?_, fun q => ?_, rfl⟩
  · cases q <;> simp [State.owner]
  · cases q <;> simp [State.locks, Bank.locksOf_addLock hentry]
  · cases q <;> simp [State.owner]

lemma leads_lockFpr (h : Coherent env.graph cur before [] s) :
    Leads env s (lockFpr f)
      (fun _ s' => Coherent env.graph cur before [] s' ∧ LockedOnce s s' (.fpr f))
      T (Fault env.graph) := by
  rw [lockFpr, leads_bind, leads_get, leads_bind, leads_check]
  refine ⟨fun b hb => ?_, fun e he => ⟨noDisagreement_of_lock he, h.sighted⟩⟩
  obtain ⟨rfl, hr⟩ := Bank.lock_eq_ok hb
  have hentry := (h.fprs.entryAt_isSome).mpr hr
  refine ⟨h.rebank h.gprs h.fprs.addLock (h.guarded.holdFpr fun q => Bank.locksOf_addLock hentry)
    fun q => ?_, fun q => ?_, fun q => ?_, rfl⟩
  · cases q <;> simp [State.owner]
  · cases q <;> simp [State.locks, Bank.locksOf_addLock hentry]
  · cases q <;> simp [State.owner]

def Held (s : State) (o : Operand) : Prop := ∀ q, o = .reg q → 0 < s.locks (.gpr q)

structure UnlockedOnce (s s' : State) (l : Location) : Prop where
  locks (q : Location) : s'.locks q = if q = l then s.locks q - 1 else s.locks q
  owner (q : Location) : s'.owner q = s.owner q

/-- A lock that is dropped after it was added has done nothing. -/
lemma Onward.unlock (h : Onward s s') (hl : s.locks l < s'.locks l)
    (hu : UnlockedOnce s' s'' l) : Onward s s'' where
  locks q := by
    have := h.locks q
    rw [hu.locks]
    split
    · rename_i hq
      subst hq
      omega
    · exact this
  owner hq := by rw [hu.owner, h.owner hq]

lemma Coherent.drop (h : Coherent g cur before pending s) (l : Location) :
    Coherent g cur before pending (s.drop l) := by
  have hguarded := h.guarded.drop (l := l)
  have howner := State.owner_drop (s := s) (l := l)
  cases l with
  | none => exact h.rebank h.gprs h.fprs hguarded howner
  | gpr r => exact h.rebank h.gprs.unlock h.fprs hguarded howner
  | fpr f => exact h.rebank h.gprs h.fprs.unlock hguarded howner

lemma leads_unlockGpr (h : Coherent env.graph cur before pending s) :
    Leads env s (unlockGpr r)
      (fun _ s' => Coherent env.graph cur before pending s' ∧ UnlockedOnce s s' (.gpr r))
      T (Fault env.graph) :=
  ⟨h.drop _, State.locks_drop, State.owner_drop⟩

lemma leads_unlockFpr (h : Coherent env.graph cur before pending s) :
    Leads env s (unlockFpr f)
      (fun _ s' => Coherent env.graph cur before pending s' ∧ UnlockedOnce s s' (.fpr f))
      T (Fault env.graph) :=
  ⟨h.drop _, State.locks_drop, State.owner_drop⟩

/-- At the end of a node no register is locked: each lock had its guard, and no guard is left. -/
lemma leads_dropGuards (h : Coherent env.graph cur before pending s) :
    Leads env s dropGuards
      (fun _ s' => Coherent env.graph cur before pending s' ∧ ∀ l, s'.locks l = 0)
      T (Fault env.graph) := by
  have hall : Coherent env.graph cur before pending (s.guards.foldl State.drop s) :=
    List.foldlRecOn s.guards State.drop h fun _ h' l _ => h'.drop l
  exact ⟨hall, hall.guarded.unlocked State.guards_dropAll⟩

/-! ### Values in registers -/

/-- An operand has been brought into a register between `s` and `s'`. The register is the
operand's own or was taken for it. -/
structure Filled (g : Graph) (s s' : State) (n : NodeId) (l : Location) : Prop where
  onward : Onward s s'
  more : s.locks l < s'.locks l
  owner : s'.owner l = none ∨ Owned g s' n l

lemma Handed.filled (h : Handed s s' l) : Filled g s s' n l :=
  ⟨h.onward, h.more, .inl h.taken.2⟩

lemma Filled.of_onward (h : Filled g s s' n l) (ho : Onward s' s'') : Filled g s s'' n l := by
  have hl : 0 < s'.locks l := Nat.lt_of_le_of_lt (Nat.zero_le _) h.more
  refine ⟨h.onward.trans ho, Nat.lt_of_lt_of_le h.more (ho.locks l), ?_⟩
  rw [ho.owner hl]
  exact h.owner.imp id fun hn => hn.of_owner (ho.owner hl)

lemma Filled.lock (h : Filled g s s' n l) : 0 < s'.locks l :=
  Nat.lt_of_le_of_lt (Nat.zero_le _) h.more

lemma Filled.mem {r : Gpr} (h : Filled g s s' n (.gpr r)) : r ∈ Gpr.allocatable :=
  Bank.mem_allocatable_of_locksOf (Nat.lt_of_le_of_lt (Nat.zero_le _) h.more)

lemma Handed.mem {r : Gpr} (h : Handed s s' (.gpr r)) : r ∈ Gpr.allocatable :=
  Bank.mem_allocatable_of_locksOf h.taken.1

/-- A register that changes hands is not that of an operand. -/
lemma Filled.ne_of_handed {q r : Gpr} (h : Filled g s s' n (.gpr q)) (hr : Handed s' s'' (.gpr r)) :
    q ≠ r := by
  rintro rfl
  have hmore := h.more
  rw [hr.free] at hmore
  exact Nat.not_lt_zero _ hmore

lemma Filled.of_same (h : Filled g s s' n l) (hs : Same s' s'') : Filled g s s'' n l :=
  h.of_onward hs.onward

lemma Handed.of_same (h : Handed s s' l) (hs : Same s' s'') : Handed s s'' l :=
  ⟨h.onward.trans hs.onward, hs.taken.mpr h.taken, h.free, fun hz hl => by
    rw [hs.ledger]
    exact h.elsewhere hz hl⟩

section Fill

variable {y : ValueInfo} {format : DataFormat} (h : Coherent g cur before [] s)
  (he : Entry g s n d i x) (ha : Aside s s') (hg : s'.gprs.Sound) (hf : s'.fprs.Sound)
  (hk : s'.Guarded) (hev : s'.events = s.events.push (.fill n l format))
  (hl : s'.ledger = s.ledger.setIfInBounds i y) (hyn : y.node = x.node)
  (hyc : y.isConstant = x.isConstant) (hyl : y.location = l) (hyf : y.registerFormat = format)
  (hys : y.spillFormat = x.spillFormat) (hne : l ≠ .none) (hfmt : Suits l format)

include h he ha hg hf hk hev hl hyn hyc hyl hyf hys hne hfmt

/-- A value that was in no register is in one that was taken for it. -/
lemma Coherent.enter (hx : x.location = .none) (hfree : s.owner l = none)
    (hown : ∀ q, s'.owner q = if q = l then some (.ofLocal i) else s.owner q) :
    Coherent g cur before [] s' := by
  refine h.change ha hev nofun hg hf hk ?_ ?_
  · rw [hl]
    exact h.agrees.enter he.entry (by simp [he.named]) hx he.varying hfree hne hown hyn
      (hyc.trans he.varying) hyl (hyf ▸ hfmt)
  · rw [hl]
    exact he.mirrors_fill h.formed h.now.mirrors (hyn.trans he.named) hyl hyf hys hne

/-- A value is in another format now, but in the same register. -/
lemma Coherent.reformat (hx : x.location = l) (hu : y.useCount = x.useCount)
    (hown : ∀ q, s'.owner q = s.owner q) : Coherent g cur before [] s' := by
  refine h.change ha hev nofun hg hf hk ?_ ?_
  · rw [hl, funext hown]
    refine h.agrees.stay he.entry hyn hyc (hyl.trans hx.symm) ?_ (fun _ => hyf ▸ hx ▸ hfmt) (.inl hu)
    intro hc
    rw [he.varying] at hc
    cases hc
  · rw [hl]
    exact he.mirrors_fill h.formed h.now.mirrors (hyn.trans he.named) hyl hyf hys hne

end Fill

end Lowering
end Speculation
