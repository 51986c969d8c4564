import Speculation.Proofs.Lowering.Accesses
import Speculation.Lowering.Program

/-!
Lowering node after node and block after block.

`Between` holds between the nodes of a block. One node keeps it, whether it is lowered, left out,
hinted, recorded as a constant or cut short, and so a whole block keeps it; the checks that
lowering makes of its own state never fail.
-/

namespace Speculation
namespace Lowering

variable {α β : Type} {env : Env} {g : Graph} {s s' s'' : State} {cur n id : NodeId} {b : BlockId}
  {blk : Block} {before pending kids : List NodeId} {T : State → Prop}
  {F : Failure → State → Prop}

/-! ### One node -/

lemma leads_bindPlaceholder (h : Coherent env.graph cur before [] s)
    (hu : Unborn env.graph cur before) :
    Leads env s bindPlaceholder (fun _ s' => Lowered env.graph cur before kids s') T
      (Fault env.graph) := by
  refine Calm.currentNode.then h (Same.refl s) fun d s₁ h₁ _ => ?_
  refine leads_ite.mpr ⟨fun _ => ?_, fun _ => h₁.lowered⟩
  refine Calm.get.then h₁ (Same.refl s₁) fun _ s₂ h₂ _ => ?_
  refine (Calm.info _).then h₂ (Same.refl s₂) fun x s₃ h₃ _ => ?_
  refine leads_ite.mpr ⟨fun _ => h₃.lowered, fun _ => ?_⟩
  refine (leads_allocGpr h₃).then fun r s₄ ⟨h₄, hs₄⟩ => ?_
  refine (Calm.discard (Calm.movImm _ _)).then h₄ (Same.refl s₄) fun _ s₅ h₅ hs₅ => ?_
  exact leads_gprResult h₅ hu (h₅.usable (hs₅.taken.mpr hs₄.taken))

/-- A node is lowered, or else a placeholder stands for its value; no register is locked then. -/
lemma leads_lowerCurrent {d : Node} (hu : Unborn env.graph cur before)
    (hd : Leads env s (lowerNode d.op) (fun _ s' => Lowered env.graph cur before kids s')
      (Coherent env.graph cur before []) (Fault env.graph)) :
    Leads env s (lowerCurrent d)
      (fun _ s' => Lowered env.graph cur before kids s' ∧ ∀ l, s'.locks l = 0) T
      (Fault env.graph) := by
  refine leads_tryCatch.mpr ?_
  have hlower : Leads env s (lowerNode d.op >>= fun _ => dropGuards)
      (fun _ s' => Lowered env.graph cur before kids s' ∧ ∀ l, s'.locks l = 0)
      (Coherent env.graph cur before []) (Fault env.graph) :=
    hd.then fun _ s₁ h₁ => leads_dropGuards h₁
  refine hlower.mono (fun _ _ => id) (fun s₁ h₁ => ?_) fun f s₁ h₁ => h₁
  refine (leads_dropGuards h₁).then fun _ s₂ ⟨h₂, _⟩ => ?_
  exact (leads_bindPlaceholder h₂ hu).then fun _ s₃ h₃ => leads_dropGuards h₃

/-! ### The checks -/

lemma leads_checkBound {bound : List (Location × Slot)} (h : Agrees g before [] s.ledger s.owner)
    (hb : ∀ p ∈ bound, s.owner p.1 = some p.2) :
    Leads env s (checkBound bound) (fun _ s' => s' = s) T F := by
  refine Leads.then (leads_forIn (fun rest s' => s' = s ∧ ∀ p ∈ rest, s.owner p.1 = some p.2)
    ⟨rfl, hb⟩ ?_) fun _ _ h' => h'.1
  rintro ⟨l, o⟩ rest _ ⟨rfl, hrest⟩
  obtain ⟨i, x, -, hi, hx, hl⟩ := h.bound (hrest _ List.mem_cons_self)
  rw [leads_bind, leads_ledgerIndex hi hx, leads_bind, leads_infoAt hx, if_pos hl]
  exact ⟨rfl, rfl, fun p hp => hrest p (List.mem_cons_of_mem _ hp)⟩

lemma leads_checkInfo {i : Nat} {x : ValueInfo} (h : Agrees g before [] s.ledger s.owner)
    (hx : s.ledger[i]? = some x) : Leads env s (checkInfo i x) (fun _ s' => s' = s) T F := by
  have hres : x.location ≠ .none → x.isAlive = true ∧ s.owner x.location = some (.ofLocal i) := by
    intro hl
    obtain ⟨ha, -, ho | ⟨_, hp, -⟩⟩ := h.resident hx hl
    · exact ⟨ha, ho⟩
    · cases hp
  rw [checkInfo, leads_bind, leads_get]
  split
  · rename_i r hr
    obtain ⟨ha, ho⟩ := hres (by simp [hr])
    rw [hr] at ho
    have ho' : s.gprs.owner r = some (.ofLocal i) := ho
    simp [ho', ha]
  · rename_i r hr
    obtain ⟨ha, ho⟩ := hres (by simp [hr])
    rw [hr] at ho
    have ho' : s.fprs.owner r = some (.ofLocal i) := ho
    simp [ho', ha]
  · simp

lemma leads_checkState (h : Agrees g before [] s.ledger s.owner) (hgs : s.gprs.Sound)
    (hfs : s.fprs.Sound) (hl : ∀ l, s.locks l = 0) :
    Leads env s checkState (fun _ s' => s' = s) T F := by
  have hg : s.gprs.anyLocked = false := hgs.anyLocked_eq_false.mpr fun r => hl (.gpr r)
  have hf : s.fprs.anyLocked = false := hfs.anyLocked_eq_false.mpr fun r => hl (.fpr r)
  rw [checkState, leads_bind, leads_get]
  simp only [hg, hf, Bool.or_self, Bool.false_eq_true, if_false]
  refine (leads_checkBound h fun p hp => ?_).then ?_
  · obtain ⟨q, hq, rfl⟩ := List.mem_map.mp hp
    exact hgs.mem_bound.mp hq
  rintro _ s₁ rfl
  refine (leads_checkBound h fun p hp => ?_).then ?_
  · obtain ⟨q, hq, rfl⟩ := List.mem_map.mp hp
    exact hfs.mem_bound.mp hq
  rintro _ s₁ rfl
  refine Leads.then (leads_forIn (fun rest s' => s' = s₁ ∧
    ∀ p ∈ rest, s₁.ledger[p.2]? = some p.1) ⟨rfl, fun p hp => ?_⟩ ?_) fun _ _ h' => h'.1
  · have := List.mem_zipIdx_iff_getElem?.mp hp
    simpa using this
  · rintro ⟨x, i⟩ rest _ ⟨rfl, hrest⟩
    refine (leads_checkInfo h (hrest _ List.mem_cons_self)).then ?_
    rintro _ _ rfl
    exact ⟨rfl, rfl, fun p hp => hrest p (List.mem_cons_of_mem _ hp)⟩

/-! ### Node after node -/

/-- The state between two nodes of block `b`. -/
structure Between (g : Graph) (b : BlockId) (before : List NodeId) (s : State) : Prop where
  formed : g.Formed
  reachable {blk : Block} (h : g.blocks[b]? = some blk) : blk.reachable = true
  gprs : s.gprs.Sound
  fprs : s.fprs.Sound
  agrees : Agrees g before [] s.ledger s.owner
  sighted : Sighted g s
  mirrors : Mirrors g (Replay.after s.events.toList s.events.size) s.ledger
  resets : s.events.toList.count .reset = resetsUpTo g b
  guarded : s.Guarded
  unlocked (l : Location) : s.locks l = 0
  stream : s.exitStream = none
  ledger : s.exitLedger = none

namespace Between

/-- A node of the block is taken up. -/
lemma coherent (h : Between g b before s) (hb : g.blocks[b]? = some blk) (hid : id ∈ blk.nodes)
    (pos : Nat) : Coherent g id before [] { s with position := pos, current := id } where
  formed := h.formed
  current := rfl
  gprs := h.gprs
  fprs := h.fprs
  agrees := h.agrees
  guarded := h.guarded
  sighted := ⟨h.sighted.size, h.sighted.exits, h.sighted.paths, h.sighted.guards,
    h.sighted.caches⟩
  now := by
    refine ⟨Nat.le_refl _, h.mirrors, nofun, fun _ => ⟨b, blk, hb, h.reachable hb, hid, ?_⟩⟩
    rw [List.take_of_length_le (Nat.le_of_eq Array.length_toList)]
    exact h.resets
  stream := h.stream
  ledger := h.ledger

/-- A node of the block is done with. -/
lemma of_coherent (h : Coherent g id before [] s) (hb : g.blocks[b]? = some blk)
    (hid : id ∈ blk.nodes) (hl : ∀ l, s.locks l = 0) : Between g b before s where
  formed := h.formed
  reachable hb' := by
    obtain ⟨c, blk', hc, hr, hid', -⟩ := h.now.block rfl
    rw [h.current] at hid'
    rw [← h.formed.disjoint hc hb hid' hid, hc] at hb'
    cases hb'
    exact hr
  gprs := h.gprs
  fprs := h.fprs
  agrees := h.agrees
  sighted := h.sighted
  mirrors := h.now.mirrors
  resets := by
    obtain ⟨c, blk', hc, -, hid', hcount⟩ := h.now.block rfl
    rw [List.take_of_length_le (Nat.le_of_eq Array.length_toList)] at hcount
    rw [h.current] at hid'
    rw [hcount, h.formed.disjoint hc hb hid' hid]
  guarded := h.guarded
  unlocked := hl
  stream := h.stream
  ledger := h.ledger

lemma mono {before' : List NodeId} (h : Between g b before s) (hb : ∀ n ∈ before, n ∈ before') :
    Between g b before' s :=
  { h with agrees := h.agrees.mono hb nofun }

/-- Only facts, code and what comes next have changed. -/
lemma of_same (h : Between g b before s) (hl : s'.ledger = s.ledger) (hg : s'.gprs = s.gprs)
    (hf : s'.fprs = s.fprs) (hk : s'.guards = s.guards) (he : s'.events = s.events)
    (hx : s'.exits = s.exits) (hv : s'.views = s.views) (hp : s'.slowPaths = s.slowPaths) (hc : s'.caches = s.caches)
    (hs : s'.exitStream = s.exitStream) (hxl : s'.exitLedger = s.exitLedger) : Between g b before s' where
  formed := h.formed
  reachable := h.reachable
  gprs := hg ▸ h.gprs
  fprs := hf ▸ h.fprs
  agrees := by
    have ho : s'.owner = s.owner := by
      funext l
      cases l <;> simp [State.owner, hg, hf]
    rw [hl, ho]
    exact h.agrees
  sighted := by
    refine ⟨by rw [hx, hv, h.sighted.size], fun hi hv' => ?_, fun hp' => ?_,
      fun hp' => h.sighted.guards (hp ▸ hp'), fun hc' => h.sighted.caches (hc ▸ hc')⟩
    · rw [hx] at hi
      rw [hv] at hv'
      rw [he]
      exact h.sighted.exits hi hv'
    · rw [hp] at hp'
      rw [he]
      exact h.sighted.paths hp'
  mirrors := by
    rw [he, hl]
    exact h.mirrors
  resets := he ▸ h.resets
  guarded := h.guarded.congr (State.locks_congr hg hf) hk
  unlocked l := (State.locks_congr hg hf l).trans (h.unlocked l)
  stream := hs.trans h.stream
  ledger := hxl.trans h.ledger

end Between

/-- What is known after a node does not touch values. -/
lemma leads_advance (h : Between env.graph b before s) :
    Leads env s (advance id) (fun _ s' => Between env.graph b before s') T (Fault env.graph) := by
  rw [advance, leads_bind, leads_get, leads_bind, leads_graph, leads_bind, leads_assume]
  exact ⟨fun _ _ => h.of_same rfl rfl rfl rfl rfl rfl rfl rfl rfl rfl rfl,
    fun _ _ => ⟨nofun, h.sighted⟩⟩

section Constant

variable {d : Node} {i : Nat} {x y : ValueInfo}

lemma Coherent.record (h : Coherent g cur before [] s) (hfresh : cur ∉ before)
    (hd : g.nodes[cur]? = some d) (ho : d.slot = some (.ofLocal i))
    (hi : (Slot.ofLocal i).local? = some i) (hx : s.ledger[i]? = some x)
    (hc : d.op.isConstant = true) {k : Nat} :
    Coherent g cur (cur :: before) []
      { s with ledger := s.ledger.setIfInBounds i (.ofConstant cur k) } := by
  have hxn : x.node = none := by
    by_contra hne
    obtain ⟨m, hm⟩ := Option.ne_none_iff_exists'.mp hne
    obtain ⟨hb, e, he, hes, -⟩ := h.agrees.named hx hm
    obtain rfl := h.formed.slot_inj he hd hes ho
    exact hfresh hb
  refine h.adjust ⟨rfl, rfl, rfl, rfl, rfl, rfl, rfl⟩ rfl h.gprs h.fprs h.guarded
    (h.agrees.record hx hxn hd ho hi hc rfl rfl rfl rfl) ?_
  refine mirrors_set h.formed h.now.mirrors hd ho hi hx (fun _ _ => rfl) fun hc' => ?_
  rw [hc] at hc'
  cases hc'

end Constant

lemma leads_finishNode (h : Coherent env.graph cur before [] s) (hb : env.graph.blocks[b]? = some blk)
    (hid : cur ∈ blk.nodes) (hl : ∀ l, s.locks l = 0) :
    Leads env s
      (do advance cur
          if (← read).assertState then checkState)
      (fun _ s' => Between env.graph b before s') T (Fault env.graph) := by
  rw [leads_bind, advance, leads_bind, leads_get, leads_bind, leads_graph, leads_bind, leads_assume]
  refine ⟨fun facts _ => ?_, fun _ _ => ⟨nofun, h.sighted⟩⟩
  have h' : Coherent env.graph cur before [] { s with facts } :=
    h.adjust ⟨rfl, rfl, rfl, rfl, rfl, rfl, rfl⟩ rfl h.gprs h.fprs h.guarded h.agrees
      h.now.mirrors
  have hdone : Between env.graph b before { s with facts } := Between.of_coherent h' hb hid hl
  refine leads_bind.mpr (leads_ite.mpr ⟨fun _ => ?_, fun _ => hdone⟩)
  refine (leads_checkState h'.agrees h'.gprs h'.fprs hl).weaken ?_
  rintro _ _ rfl
  exact hdone

lemma leads_generate {d : Node} (h : Coherent env.graph id before [] s)
    (hb : env.graph.blocks[b]? = some blk) (hid : id ∈ blk.nodes)
    (hu : Unborn env.graph id before) :
    Leads env s
      (do lowerCurrent d
          match d.op with
          | .phi _ => pure ()
          | _ => useChildren id
          advance id
          if (← read).assertState then checkState)
      (fun _ s' => Between env.graph b (id :: before) s') T (Fault env.graph) := by
  by_cases hphi : ∃ v, d.op = .phi v
  · obtain ⟨v, hv⟩ := hphi
    have hd : Leads env s (lowerNode d.op) (fun _ s' => Lowered env.graph id before [] s')
        (Coherent env.graph id before []) (Fault env.graph) := by
      rw [hv]
      exact h.lowered
    refine (leads_lowerCurrent hu hd).then fun _ s₁ ⟨h₁, hl₁⟩ => ?_
    simp only [hv]
    exact leads_finishNode h₁ hb hid hl₁
  · refine (leads_lowerCurrent hu (lowers_node h hu)).then fun _ s₁ ⟨h₁, hl₁⟩ => ?_
    split
    · rename_i v hv
      exact absurd ⟨v, hv⟩ hphi
    · refine (leads_useChildren h₁).then fun _ s₂ ⟨h₂, hl₂⟩ => ?_
      exact leads_finishNode h₂ hb hid (by rw [hl₂]; exact hl₁)

/-- One node keeps what holds between nodes. -/
lemma leads_lowerAt {pos : Nat} (h : Between env.graph b before s)
    (hb : env.graph.blocks[b]? = some blk) (hid : id ∈ blk.nodes) (hfresh : id ∉ before) :
    Leads env s (lowerAt pos id) (fun _ s' => Between env.graph b (id :: before) s') T
      (Fault env.graph) := by
  have hkeep := h.mono fun n (hn : n ∈ before) => List.mem_cons_of_mem id hn
  rw [lowerAt, leads_bind, leads_get, leads_ite]
  refine ⟨fun _ => ?_, fun _ => ?_⟩
  · exact leads_bind.mpr (leads_modify.mpr
      (leads_advance (hkeep.of_same rfl rfl rfl rfl rfl rfl rfl rfl rfl rfl rfl)))
  rw [leads_bind, leads_modify, leads_bind]
  have hc := h.coherent hb hid pos
  have hleft : Between env.graph b (id :: before) { s with position := pos, current := id } :=
    hkeep.of_same rfl rfl rfl rfl rfl rfl rfl rfl rfl rfl rfl
  refine leads_node_of hc.sighted fun d hd => ?_
  have hconstant : d.op.isConstant = true →
      Leads env { s with position := pos, current := id }
        (if d.slot.isSome then setInfo id (.ofConstant id d.refCount) else pure ())
        (fun _ s' => Between env.graph b (id :: before) s') T (Fault env.graph) := by
    intro hop
    refine leads_ite.mpr ⟨fun hs => ?_, fun _ => hleft⟩
    obtain ⟨o, ho⟩ := Option.isSome_iff_exists.mp hs
    refine leads_setInfo_of hc.sighted hd ho fun i x hi hx => ?_
    have hoi := h.formed.eq_ofLocal hd ho hi
    exact Between.of_coherent (hc.record hfresh hd (hoi ▸ ho) (hoi ▸ hi) hx hop) hb hid h.unlocked
  split
  · rename_i hop
    exact hconstant (by rw [hop]; rfl)
  · rename_i hop
    exact hconstant (by rw [hop]; rfl)
  · refine (Calm.assume _).then hc (Same.refl _) fun e s₁ h₁ hs₁ => ?_
    refine (Calm.variableOf _).then h₁ hs₁ fun v s₂ h₂ hs₂ => ?_
    refine (leads_operandEvent h₂ (by simp) fun _ _ => rfl).weaken fun _ s₃ ⟨h₃, hl₃⟩ => ?_
    refine (Between.of_coherent h₃ hb hid fun l => ?_).mono fun _ => List.mem_cons_of_mem _
    rw [hl₃, hs₂.locks]
    exact h.unlocked l
  · rename_i hnc hnd _
    have hu : Unborn env.graph id before := by
      refine ⟨hfresh, fun {d'} hd' => ?_⟩
      rw [hd] at hd'
      cases hd'
      cases hop : d.op <;> simp_all [Op.isConstant]
    refine leads_ite.mpr ⟨fun _ => ?_, fun _ => hleft⟩
    refine leads_bind.mpr (leads_get.mpr (leads_ite.mpr ⟨fun _ => ?_, fun _ => ?_⟩))
    · exact (Calm.comment _).then hc (Same.refl _) fun _ s₁ h₁ _ => leads_generate h₁ hb hid hu
    · exact leads_generate hc hb hid hu

end Lowering
end Speculation
