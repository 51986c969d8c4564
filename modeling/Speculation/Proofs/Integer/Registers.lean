import Speculation.Proofs.Integer.Emitting
import Speculation.Proofs.Lowering.Operands
import Mathlib.Data.List.Basic

/-!
Moving values of integer dataflow between registers and slots.

Handing out a register, spilling the value that was in it, loading a spilled value and changing the
format of one leave every value where the ledger has it. `At` is the relation between the two sides
in these specifications. The registers that are locked keep what they hold, so a condition that
rests on them survives.
-/

namespace Speculation

namespace Slot

lemma local?_ofLocal {j : Nat} (h : j < 2147483648) : (ofLocal j).local? = some j := by
  have hindex : (ofLocal j).index = -(j : Int) - 1 := by
    rw [ofLocal, signed_of_lt h]
  unfold local?
  rw [hindex, if_pos (by omega), show (-(-(j : Int) - 1) - 1).toNat = j by omega]

end Slot

lemma Scene.Staged.beyond {sc : Scene} {blk : Block} (hsc : sc.Staged blk) {n : NodeId} {d : Node}
    {i : Nat} (hd : sc.graph.nodes[n]? = some d) (hs : d.slot = some (.ofLocal i))
    (hi : (Slot.ofLocal i).local? = some i) : sc.graph.numVars ≤ i ∧ i < sc.graph.numLocals := by
  obtain ⟨j, hj, hv, hl⟩ := hsc.flow.beyond hd hs
  have hlocals := hsc.roomy.locals
  have harguments := hsc.roomy.arguments
  rw [hj, Slot.local?_ofLocal (by omega)] at hi
  cases hi
  exact ⟨hv, hl⟩

namespace Lowering

variable {α : Type} {sc : Scene} {blk : Block} {done rest : List NodeId} {cur n : NodeId}
  {s s' s'' : State} {rs : List Gpr} {q : Gpr} {A : Registers → Prop} {d : Node} {i : Nat}
  {x y : ValueInfo} {o : Slot} {format : DataFormat}

def Locked (rs : List Gpr) (s : State) : Prop := ∀ q, 0 < s.locks (.gpr q) → q ∈ rs

lemma Locked.exists_unlocked (h : Locked rs s) (hrs : rs.length < 12) :
    ∃ q : Gpr, q ∈ Gpr.allocatable ∧ s.locks (.gpr q) = 0 := by
  by_contra hno
  have hsub : Gpr.allocatable ⊆ rs := fun q hq =>
    h q (Nat.pos_of_ne_zero fun hz => hno ⟨q, hq, hz⟩)
  have hnodup : Gpr.allocatable.Nodup := by decide
  have := (List.subperm_of_subset hnodup hsub).length_le
  have hlen : Gpr.allocatable.length = 12 := rfl
  omega

/-- The condition rests on registers that are locked. -/
def Rests (s : State) (A : Registers → Prop) : Prop :=
  ∀ r r' : Registers, (∀ q, 0 < s.locks (.gpr q) → r'.gpr q = r.gpr q) → A r → A r'

lemma Rests.onward (h : Rests s A) (ho : Onward s s') : Rests s' A := fun r r' hr =>
  h r r' fun q hq => hr q (Nat.lt_of_lt_of_le hq (ho.locks _))

/-- Every value stands where the ledger has it, and `A` is true of the registers. -/
abbrev At (sc : Scene) (done : List NodeId) (s : State) (A : Registers → Prop) : Condition :=
  fun r mem => sc.Stands done s.ledger s.owner r mem ∧ A r

lemma Same.at (hs : Same s s') {r : Registers} {mem : Memory} (h : At sc done s A r mem) :
    At sc done s' A r mem := by
  unfold At
  rw [hs.ledger, hs.owner]
  exact h

/-- What is in the register, if anything is, is in a format of integers. -/
def Integral (s : State) (q : Gpr) : Prop :=
  ∀ (i : Nat) (x : ValueInfo), s.ledger[i]? = some x → x.location = .gpr q → x.registerFormat ≠ .js

lemma Integral.set (h : Integral s q) (hy : y.location = .gpr q → y.registerFormat ≠ .js)
    (hs : s'.ledger = s.ledger.setIfInBounds i y) : Integral s' q := by
  intro j z hz hzq
  rw [hs] at hz
  rcases Agrees.set_cases hz with ⟨-, rfl⟩ | ⟨-, hz⟩
  · exact hy hzq
  · exact h j z hz hzq

def Firm (s s' : State) : Prop := ∀ q, 0 < s.locks (.gpr q) → Integral s q → Integral s' q

lemma Firm.of_ledger (h : s'.ledger = s.ledger) : Firm s s' := by
  intro q _ hq
  unfold Integral
  rw [h]
  exact hq

lemma Firm.trans (h : Firm s s') (ho : Onward s s') (h' : Firm s' s'') : Firm s s'' :=
  fun q hq hi => h' q (Nat.lt_of_lt_of_le hq (ho.locks _)) (h q hq hi)

/-! ### Entries of the ledger -/

lemma cores_set {ledger : Array ValueInfo} (hx : ledger[i]? = some x) (hc : core y = core x) :
    (ledger.setIfInBounds i y).map core = ledger.map core := by
  apply Array.ext_getElem?
  intro j
  rw [Array.getElem?_map, Array.getElem?_map, Array.getElem?_setIfInBounds]
  by_cases hij : i = j
  · subst hij
    have hlt := (Array.getElem?_eq_some_iff.mp hx).1
    rw [if_pos rfl, if_pos hlt, hx, Option.map_some, Option.map_some, hc]
  · rw [if_neg hij]

lemma set_self {ledger : Array ValueInfo} (hx : ledger[i]? = some x) :
    ledger.setIfInBounds i x = ledger := by
  apply Array.ext_getElem?
  intro j
  rw [Array.getElem?_setIfInBounds]
  by_cases hij : i = j
  · subst hij
    have hlt := (Array.getElem?_eq_some_iff.mp hx).1
    rw [if_pos rfl, if_pos hlt, hx]
  · rw [if_neg hij]

lemma heard_push {e : Event} (he : ∀ R, (Replay.step R e).operands = R.operands)
    (hs : s'.events = s.events.push e) : s'.heard = s.heard := by
  have hlen : (s.events.push e).size = s.events.toList.length + 1 := by simp
  rw [State.heard, State.heard, hs, Array.toList_push, hlen, Replay.after_concat, he]
  simp

lemma tidy_set (ht : ∀ (j : Nat) (z : ValueInfo), s.ledger[j]? = some z → Tidy z) (hy : Tidy y) :
    ∀ (j : Nat) (z : ValueInfo), (s.ledger.setIfInBounds i y)[j]? = some z → Tidy z := by
  intro j z hz
  rcases Agrees.set_cases hz with ⟨-, rfl⟩ | ⟨-, hz⟩
  · exact hy
  · exact ht j z hz

lemma prefix_push {e : Event} (events : Array Event) :
    events.toList <+: (events.push e).toList := by
  rw [Array.toList_push]
  exact List.prefix_append _ _

/-! ### Spilling -/

/-- A value gives up its register, which its bank has already unbound. -/
lemma Ready.does_spillSlot (hsc : sc.Staged blk) (h : Ready sc done cur rest s)
    (ho : s.owner (.gpr q) = some o) {b : Bank Gpr} {gs : List Location}
    (hown : ∀ l, ({ s with gprs := b, guards := gs } : State).owner l =
      if l = .gpr q then none else s.owner l) :
    Does sc { s with gprs := b, guards := gs } (spillSlot o (.gpr q)) (At sc done s A)
      (fun _ s' => Steady s s' ∧ s'.gprs = b ∧
        (∀ (j : Nat) (z : ValueInfo), s'.ledger[j]? = some z → Tidy z) ∧ Firm s s')
      fun _ s' => At sc done s' A := by
  obtain ⟨i, x, hoi, hi, hx, hxl⟩ := h.coherent.agrees.bound ho
  obtain ⟨ha, hf, -⟩ := h.coherent.agrees.resident hx (by simp [hxl])
  obtain ⟨n, hn⟩ := Option.isSome_iff_exists.mp ha
  obtain ⟨-, d, hd, hs, -, -⟩ := h.coherent.agrees.named hx hn
  obtain ⟨hv, hlocals⟩ := hsc.beyond hd hs (hoi ▸ hi)
  have hxc : x.isConstant = false := by
    by_contra hxc
    have := (h.coherent.agrees.constant hx (by simpa using hxc)).1
    rw [hxl] at this
    cases this
  have htidy := h.tidy hx
  have hother : ∀ (j : Nat) (z : ValueInfo) (p : Gpr), j ≠ i → s.ledger[j]? = some z →
      z.location = .gpr p → ({ s with gprs := b, guards := gs } : State).owner (.gpr p) = some (.ofLocal j) →
      s.owner (.gpr p) = some (.ofLocal j) := by
    intro j z p _ _ _ hp
    rw [hown] at hp
    split at hp
    · cases hp
    · exact hp
  have hx' : ({ s with gprs := b, guards := gs } : State).ledger[i]? = some x := hx
  have ho' : s.owner (.gpr q) = some (.ofLocal i) := hoi ▸ ho
  refine .after (finds_ledgerIndex hi hx') (.after (finds_infoAt hx') ?_)
  simp only [hn, hxl, ne_eq, not_true_eq_false, if_false]
  split
  · -- it is in its slot already
    rename_i hsp
    have hne : x.spillFormat ≠ .none := by simpa [ValueInfo.isSpilled] using hsp
    refine .silent ⟨⟨⟨cores_set hx rfl, rfl, heard_push (fun _ => rfl) rfl⟩, rfl,
      tidy_set (fun _ _ => h.tidy) ?_, fun p _ hp => hp.set (fun hl => by cases hl) rfl⟩,
      .of_eq rfl rfl rfl (prefix_push _) rfl, ?_⟩
    · exact ⟨.inl rfl, fun hl => absurd rfl hl, htidy.spill, fun _ _ => .inr hne⟩
    · rintro r mem ⟨hm, hA⟩
      exact ⟨hm.set hother (fun _ _ _ hl => by cases hl) fun m hm' hf' =>
        hm.slot (x := x) hx hm' hf', hA⟩
  · rename_i hsp
    have hnone : x.spillFormat = .none := by simpa [ValueInfo.isSpilled] using hsp
    have hspill : x.spill x.registerFormat =
        .ok { x.releaseRegisters with spillFormat := x.registerFormat } := by
      simp [ValueInfo.spill, hxc]
    refine (does_inst (S := fun r mem => (sc.Stands done s.ledger s.owner r mem ∧
      sc.word mem (.ofLocal i) = some (r.gpr q)) ∧ A r) hsc.linked (by simp [Inst.encode]) ?_).bind ?_
    · rintro r mem ⟨hm, hA⟩
      have haddr : r.address (FrameLayout.address o) = sc.address (.ofLocal i) := by
        rw [← hoi, Scene.address, ← hm.framed.frame]
        rfl
      have hmap := hm.framed.mapped hlocals
      refine ⟨_, _, Inst.steps_store ?_, ⟨?_, ?_⟩, hA⟩
      · rw [haddr]
        exact Memory.write_fst hmap (Scene.room_local hsc.roomy hlocals)
      · rw [haddr]
        exact hm.store hsc.roomy h.size hv hx hnone _
      · rw [haddr]
        exact Scene.word_store_self hsc.roomy hlocals hmap
    · rintro _ _ rfl
      refine .after (finds_assume hspill) (.silent ⟨⟨⟨cores_set hx rfl, rfl,
        heard_push (fun _ => rfl) rfl⟩, rfl, tidy_set (fun _ _ => h.tidy) ?_,
        fun p _ hp => hp.set (fun hl => by cases hl) rfl⟩, .of_eq rfl rfl rfl (prefix_push _) rfl, ?_⟩)
      · exact ⟨.inl rfl, fun hl => absurd rfl hl, fun _ => htidy.register (by simp [hxl]),
          fun _ _ => .inr hf.ne_none⟩
      · rintro r mem ⟨⟨hm, hw⟩, hA⟩
        exact ⟨hm.set hother (fun _ _ _ hl => by cases hl) fun m hm' _ =>
          ⟨_, hw, hm.register hx hm' hxl ho'⟩, hA⟩

/-! ### Handing out registers -/

lemma Ready.does_allocGpr (hsc : sc.Staged blk) (h : Ready sc done cur rest s) (hl : Locked rs s)
    (hrs : rs.length < 12) :
    Does sc s allocGpr (At sc done s A)
      (fun r s' => Ready sc done cur rest s' ∧ Handed s s' (.gpr r) ∧ Steady s s' ∧
        Locked (r :: rs) s' ∧ Firm s s')
      fun _ s' => At sc done s' A := by
  obtain ⟨q, hq, hz⟩ := hl.exists_unlocked hrs
  have hindex : (RegisterClass.index? q).isSome = true := by
    clear hz
    revert q
    decide
  obtain ⟨a, b, hab⟩ := h.coherent.gprs.exists_allocate hindex hz
  have hb := h.coherent.gprs.allocate hab
  have hown : ∀ l, ({ s with gprs := b, guards := .gpr a.register :: s.guards } : State).owner l =
      if l = .gpr a.register then none else s.owner l := by
    intro l
    cases l <;> simp [State.owner, hb.owner]
  have hdoes : Does sc s allocGpr (At sc done s A)
      (fun r s' => r = a.register ∧ Steady s s' ∧ s'.gprs = b ∧
        (∀ (j : Nat) (z : ValueInfo), s'.ledger[j]? = some z → Tidy z) ∧ Firm s s')
      fun _ s' => At sc done s' A := by
    refine .after finds_get (.after (finds_check hab) ?_)
    refine Does.bind (Q := fun _ s' => s' = { s with gprs := b, guards := .gpr a.register :: s.guards }) (S := fun _ _ => At sc done s A)
      (.silent ⟨rfl, .of_eq rfl rfl rfl List.prefix_rfl rfl, fun _ _ => id⟩) ?_
    rintro _ _ rfl
    dsimp only
    split
    · rename_i o ho
      have ho' : s.owner (.gpr a.register) = some o := hb.evicted.symm.trans ho
      exact (h.does_spillSlot hsc ho' hown).bind fun _ s' hs => .pure ⟨rfl, hs⟩ fun _ _ => id
    · refine .pure ⟨rfl, ⟨rfl, rfl, rfl⟩, rfl, fun _ _ => h.tidy, .of_ledger rfl⟩
        fun r mem hm => ⟨?_, hm.2⟩
      refine hm.1.of_owner fun p o hp => ?_
      rw [hown] at hp
      split at hp
      · cases hp
      · exact hp
  refine (hdoes.and (leads_allocGpr (T := fun _ => False) h.coherent)).conseq (fun _ _ => id) ?_
    fun _ _ _ _ _ => id
  rintro r s' ⟨⟨rfl, hs, hg, ht, hf⟩, hc, hh⟩
  refine ⟨h.move hc hs ht, hh, hs, fun p hp => ?_, hf⟩
  have hlocks : s'.locks (.gpr p) = if p = a.register then 1 else s.locks (.gpr p) := by
    have hk := hb.locks p
    rw [← hg] at hk
    exact hk
  rw [hlocks] at hp
  split at hp
  · rename_i hpa
    exact hpa ▸ List.mem_cons_self
  · exact List.mem_cons_of_mem _ (hl p hp)

lemma Ready.does_lockGpr (h : Ready sc done cur rest s) (hl : Locked rs s)
    (hq : (RegisterClass.index? q).isSome = true) :
    Does sc s (lockGpr q) (At sc done s A)
      (fun _ s' => Ready sc done cur rest s' ∧ LockedOnce s s' (.gpr q) ∧ Steady s s' ∧
        Locked (q :: rs) s')
      fun _ s' => At sc done s' A := by
  have hlock : s.gprs.lock q = .ok (s.gprs.addLock q) := by
    obtain ⟨k, hk⟩ := Option.isSome_iff_exists.mp hq
    simp [Bank.lock, hk]
  have hdoes : Does sc s (lockGpr q) (At sc done s A)
      (fun _ s' => Steady s s' ∧ ∀ (j : Nat) (z : ValueInfo), s'.ledger[j]? = some z → Tidy z)
      fun _ s' => At sc done s' A := by
    refine .after finds_get (.after (finds_check hlock) (.silent ⟨⟨⟨rfl, rfl, rfl⟩, fun _ _ => h.tidy⟩,
      .of_eq rfl rfl rfl List.prefix_rfl rfl, fun r mem ⟨hm, hA⟩ => ⟨?_, hA⟩⟩))
    refine hm.of_owner fun p o hp => ?_
    simpa [State.owner] using hp
  refine (hdoes.and (leads_lockGpr (T := fun _ => False) h.coherent)).conseq (fun _ _ => id) ?_
    fun _ _ _ _ _ => id
  rintro _ s' ⟨⟨hs, ht⟩, hc, hlo⟩
  refine ⟨h.move hc hs ht, hlo, hs, fun p hp => ?_⟩
  rw [hlo.locks] at hp
  split at hp
  · rename_i hpq
    cases hpq
    exact List.mem_cons_self
  · exact List.mem_cons_of_mem _ (hl p hp)

/-! ### Formats -/

lemma gprFormat_of_plain (h : format.Plain) : ValueInfo.gprFormat format = true := by
  obtain rfl | rfl | rfl := h <;> rfl

lemma ne_none_of_plain (h : format.Plain) : format ≠ .none := by
  obtain rfl | rfl | rfl := h <;> nofun

/-- A register that is locked is one of those that are handed out. -/
lemma lt_of_locked (h : 0 < s.locks (.gpr q)) : q.val < 12 := by
  have hpresent : (s.gprs.entryAt q).isSome := present_of_locked h
  unfold Bank.entryAt at hpresent
  by_contra hge
  simp [RegisterClass.index?, hge] at hpresent

def State.ownerBut (s : State) (q : Gpr) (l : Location) : Option Slot :=
  if l = .gpr q then none else s.owner l

lemma stands_ownerBut {r : Registers} {mem : Memory}
    (h : sc.Stands done s.ledger s.owner r mem) :
    sc.Stands done s.ledger (s.ownerBut q) r mem := by
  refine h.of_owner fun p o hp => ?_
  unfold State.ownerBut at hp
  split at hp
  · cases hp
  · exact hp

/-- The format of a value in a register is changed to what the register now holds. -/
lemma Ready.does_refine (h : Ready sc done cur rest s) (ho : Owned sc.graph s n (.gpr q))
    (hp : format.Plain) :
    Does sc s (refine n q format)
      (fun r mem => sc.Stands done s.ledger (s.ownerBut q) r mem ∧
        Holds format (r.gpr q) (sc.val n) ∧ A r)
      (fun _ s' => Ready sc done cur rest s' ∧ Reformatted s s' ∧ Steady s s' ∧
        (format ≠ .js → Firm s s' ∧ Integral s' q))
      fun _ s' => At sc done s' A := by
  obtain ⟨d, i, x, he, hxl, -, -⟩ := h.coherent.entry_of_owned ho
  have hown : s.owner (.gpr q) = some (.ofLocal i) := by
    rw [← hxl]
    exact h.owner_of_location he.entry (by simp [hxl])
  have halone : ∀ {j : Nat} {z : ValueInfo}, s.ledger[j]? = some z → z.location = .gpr q → j = i := by
    intro j z hz hzl
    have hza := (h.coherent.agrees.resident hz (by simp [hzl])).1
    have hpj := h.owner_of_location hz (by simp [hzl])
    rw [hzl, hown] at hpj
    exact h.coherent.agrees.index_inj hz he.entry hza (by simp [he.named])
      (Option.some.inj hpj).symm
  have hstands : ∀ y : ValueInfo, y.node = x.node → y.location = .gpr q →
      y.registerFormat = format → y.spillFormat = x.spillFormat → ∀ r mem,
      sc.Stands done s.ledger (s.ownerBut q) r mem → Holds format (r.gpr q) (sc.val n) →
      sc.Stands done (s.ledger.setIfInBounds i y) s.owner r mem := by
    intro y hyn hyl hyf hys r mem hm hq
    refine hm.set (fun j z p hji hz hzl hpj => ?_) (fun m p hm' hp' _ => ?_) fun m hm' hf => ?_
    · -- no other value is in this register
      unfold State.ownerBut
      rw [if_neg, hpj]
      intro hpq
      cases hpq
      exact hji (halone hz hzl)
    · rw [hyl] at hp'
      cases hp'
      rw [hyn, he.named] at hm'
      cases hm'
      rw [hyf]
      exact hq
    · rw [hyn] at hm'
      rw [hys] at hf ⊢
      exact hm.slot he.entry hm' hf
  have hdoes : Does sc s (refine n q format)
      (fun r mem => sc.Stands done s.ledger (s.ownerBut q) r mem ∧
        Holds format (r.gpr q) (sc.val n) ∧ A r)
      (fun _ s' => Steady s s' ∧ (∀ (j : Nat) (z : ValueInfo), s'.ledger[j]? = some z → Tidy z) ∧
        (format ≠ .js → Firm s s' ∧ Integral s' q))
      fun _ s' => At sc done s' A := by
    refine .after (finds_info he.node he.slot he.index he.entry) ?_
    split
    · rename_i hf
      refine .pure ⟨.refl s, fun _ _ => h.tidy, fun hne => ⟨.of_ledger rfl, fun j z hz hzl => ?_⟩⟩
        fun r mem ⟨hm, hq, hA⟩ => ⟨?_, hA⟩
      · rw [halone hz hzl, he.entry] at hz
        cases hz
        rwa [hf]
      · rw [← set_self he.entry]
        exact hstands x rfl hxl hf rfl r mem hm hq
    · have hfill : x.fillGpr q format = .ok { x with registerFormat := format, location := .gpr q } := by
        simp [ValueInfo.fillGpr, gprFormat_of_plain hp]
      refine .after (finds_assume hfill) (.silent ?_)
      rw [leads_bind, leads_setInfo he.node he.slot he.index he.entry]
      refine ⟨⟨⟨cores_set he.entry rfl, rfl, heard_push (fun _ => rfl) rfl⟩,
        tidy_set (fun _ _ => h.tidy) ?_, fun hne => ⟨fun p _ hi => hi.set (fun _ => hne) rfl, ?_⟩⟩,
        .of_eq rfl rfl rfl (prefix_push _) rfl, ?_⟩
      · exact ⟨.inr ⟨q, rfl⟩, fun _ => hp, (h.tidy he.entry).spill, fun _ _ => .inl nofun⟩
      · intro j z hz hzl
        rcases Agrees.set_cases hz with ⟨-, rfl⟩ | ⟨hji, hz⟩
        · exact hne
        · exact absurd (halone hz hzl) hji.symm
      · rintro r mem ⟨hm, hq, hA⟩
        refine ⟨(hstands { x with registerFormat := format, location := .gpr q } rfl rfl rfl rfl r mem
          hm hq).of_owner fun p o hpo => ?_, hA⟩
        simpa [State.owner] using hpo
  refine (hdoes.and (leads_refine (T := fun _ => False) h.coherent ho)).conseq (fun _ _ => id) ?_
    fun _ _ _ _ _ => id
  rintro _ s' ⟨⟨hs, ht, hi⟩, hc, hr⟩
  exact ⟨h.move hc hs ht, hr, hs, hi⟩

/-- A value that was in its slot only is bound to the register it was loaded into. -/
lemma Ready.does_bindGpr (h : Ready sc done cur rest s) (he : Entry sc.graph s n d i x)
    (hx : x.location = .none) (hq : s.Taken (.gpr q)) (hp : format.Plain) :
    Does sc s (bindGpr n q format)
      (fun r mem => sc.Stands done s.ledger s.owner r mem ∧ Holds format (r.gpr q) (sc.val n) ∧ A r)
      (fun _ s' => Ready sc done cur rest s' ∧ s'.locks = s.locks ∧
        (∀ l, s'.owner l = if l = .gpr q then some (.ofLocal i) else s.owner l) ∧ Steady s s' ∧
        (∀ p ≠ q, Integral s p → Integral s' p) ∧ (format ≠ .js → Integral s' q))
      fun _ s' => At sc done s' A := by
  have hvacant : ∀ {j : Nat} {z : ValueInfo}, s.ledger[j]? = some z → z.location ≠ .gpr q := by
    intro j z hz hzl
    have hown := h.owner_of_location hz (by simp [hzl])
    rw [hzl, hq.2] at hown
    cases hown
  have hfill : x.fillGpr q format = .ok { x with registerFormat := format, location := .gpr q } := by
    simp [ValueInfo.fillGpr, gprFormat_of_plain hp]
  have hdoes : Does sc s (bindGpr n q format)
      (fun r mem => sc.Stands done s.ledger s.owner r mem ∧ Holds format (r.gpr q) (sc.val n) ∧ A r)
      (fun _ s' => Steady s s' ∧ (∀ (j : Nat) (z : ValueInfo), s'.ledger[j]? = some z → Tidy z) ∧
        (∀ p ≠ q, Integral s p → Integral s' p) ∧ (format ≠ .js → Integral s' q))
      fun _ s' => At sc done s' A := by
    refine .after (finds_slotOf he.node he.slot) (.after
      (finds_info he.node he.slot he.index he.entry) (.after (finds_assume hfill) (.silent ?_)))
    rw [leads_bind, leads_setInfo he.node he.slot he.index he.entry]
    refine ⟨⟨⟨cores_set he.entry rfl, rfl, heard_push (fun _ => rfl) rfl⟩,
      tidy_set (fun _ _ => h.tidy) ?_, fun p hp hi => hi.set (fun hl => ?_) rfl,
      fun hne j z hz hzl => ?_⟩, .of_eq rfl rfl rfl (prefix_push _) rfl, ?_⟩
    · exact ⟨.inr ⟨q, rfl⟩, fun _ => hp, (h.tidy he.entry).spill, fun _ _ => .inl nofun⟩
    · cases hl
      exact absurd rfl hp
    · rcases Agrees.set_cases hz with ⟨-, rfl⟩ | ⟨-, hz⟩
      · exact hne
      · exact absurd hzl (hvacant hz)
    · rintro r mem ⟨hm, hh, hA⟩
      refine ⟨hm.set (fun j z p _ hz hzl hpj => ?_) (fun m p hm' hp' _ => ?_) fun m hm' hf => ?_, hA⟩
      · have hown : (s.gprs.retain q (.ofLocal i)
            ({ x with registerFormat := format, location := .gpr q } : ValueInfo).spillOrder).owner p
              = some (.ofLocal j) := hpj
        rw [Bank.owner_retain (present_of_locked hq.1)] at hown
        split at hown
        · -- the register held nothing
          rename_i hpq
          exact absurd (hpq ▸ hzl) (hvacant hz)
        · exact hown
      · cases hp'
        rw [show _ = x.node from rfl, he.named] at hm'
        cases hm'
        exact hh
      · exact hm.slot (x := x) he.entry hm' hf
  refine (hdoes.and (leads_bindGpr (T := fun _ => False) h.coherent he hx hq)).conseq
    (fun _ _ => id) ?_ fun _ _ _ _ _ => id
  rintro _ s' ⟨⟨hs, ht, hi⟩, hc, hlocks, hown⟩
  exact ⟨h.move hc hs ht, hlocks, hown, hs, hi⟩

/-- A word that is loaded, whole or only its low half, holds the value that the slot holds. -/
lemma exists_read {mem : Memory} {w : UInt64} {v : Value} {width : Width}
    (hw : sc.word mem o = some w) (hh : Holds format w v)
    (hwidth : width = .w64 ∨ width = .w32 ∧ format = .int32) :
    ∃ k, mem.read? width.bytes (sc.address o) = some k ∧ Holds format (UInt64.ofNat k) v := by
  obtain ⟨k, hk, rfl⟩ := Option.map_eq_some_iff.mp hw
  obtain rfl | ⟨rfl, rfl⟩ := hwidth
  · exact ⟨k, hk, hh⟩
  · refine ⟨_, Memory.read?_half hk, ?_, hh.2⟩
    have hlow : (UInt64.ofNat k).toNat < 4294967296 := by
      rw [hh.1, UInt32.toNat_toUInt64]
      exact v.payload.toUInt32.toNat_lt
    rw [← hh.1]
    apply UInt64.toNat_inj.mp
    rw [UInt64.toNat_ofNat'] at hlow ⊢
    rw [UInt64.toNat_ofNat']
    omega

/-- A spilled value is loaded. -/
lemma Ready.does_fillSpilledGpr (hsc : sc.Staged blk) (h : Ready sc done cur rest s)
    (hl : Locked rs s) (hrs : rs.length < 12) (hA : Rests s A) (he : Entry sc.graph s n d i x)
    (hx : x.location = .none) (hf : x.spillFormat = format) (hp : format.Plain) :
    Does sc s (fillSpilledGpr n format) (At sc done s A)
      (fun r s' => Ready sc done cur rest s' ∧ Filled sc.graph s s' n (.gpr r) ∧
        Owned sc.graph s' n (.gpr r) ∧ Steady s s' ∧ Locked (r :: rs) s' ∧ Firm s s' ∧
        (format ≠ .js → Integral s' r))
      fun r s' => At sc done s' fun regs => A regs ∧ Holds format (regs.gpr r) (sc.val n) := by
  have hdoes : Does sc s (fillSpilledGpr n format) (At sc done s A)
      (fun r s' => Ready sc done cur rest s' ∧ Steady s s' ∧ Locked (r :: rs) s' ∧ Firm s s' ∧
        (format ≠ .js → Integral s' r))
      fun r s' => At sc done s' fun regs => A regs ∧ Holds format (regs.gpr r) (sc.val n) := by
    refine (h.does_allocGpr hsc hl hrs).bind ?_
    rintro q s₁ ⟨h₁, hs₁, hst₁, hl₁, hf₁⟩
    have he₁ : Entry sc.graph s₁ n d i x := { he with entry := hs₁.elsewhere he.entry hx }
    refine .after (finds_slotOf he.node he.slot) ?_
    obtain ⟨-, hlocals⟩ := hsc.beyond he.node he.slot he.index
    have hqlt := lt_of_locked hs₁.taken.1
    have hload : ∀ width : Width, (width = .w64 ∨ width = .w32 ∧ format = .int32) →
        Does sc s₁ (load width q (FrameLayout.address (.ofLocal i)) >>= fun _ =>
            bindGpr n q format >>= fun _ => pure q) (At sc done s₁ A)
          (fun r s' => Ready sc done cur rest s' ∧ Steady s s' ∧ Locked (r :: rs) s' ∧ Firm s s' ∧
            (format ≠ .js → Integral s' r))
          fun r s' => At sc done s' fun regs => A regs ∧ Holds format (regs.gpr r) (sc.val n) := by
      intro width hwidth
      refine (h₁.does_emit (S := fun r mem => sc.Stands done s₁.ledger s₁.owner r mem ∧
        Holds format (r.gpr q) (sc.val n) ∧ A r ∧ Holds format (r.gpr q) (sc.val n)) hsc.linked
        (by simp [Inst.encode]) ?_).bind ?_
      · rintro r mem ⟨hm, hA₁⟩
        have haddr : r.address (FrameLayout.address (.ofLocal i)) = sc.address (.ofLocal i) := by
          rw [Scene.address, ← hm.framed.frame]
          rfl
        obtain ⟨w, hw, hh⟩ := hm.slot he₁.entry he.named (by rw [hf]; exact ne_none_of_plain hp)
        rw [hf] at hh
        obtain ⟨k, hk, hhk⟩ := exists_read hw hh hwidth
        have hhq : Holds format ((r.setGpr q (UInt64.ofNat k)).gpr q) (sc.val n) := by
          rw [Registers.gpr_setGpr, if_pos rfl]
          exact hhk
        refine ⟨_, _, Inst.steps_load (by rw [haddr]; exact hk), hm.setGpr hs₁.taken.2 hqlt _, hhq,
          hA r _ (fun p hp => ?_) hA₁, hhq⟩
        -- the register was not locked before
        rw [Registers.gpr_setGpr, if_neg]
        rintro rfl
        rw [hs₁.free] at hp
        exact absurd hp (Nat.lt_irrefl 0)
      · rintro _ s₂ ⟨h₂, hs₂⟩
        have he₂ : Entry sc.graph s₂ n d i x := { he₁ with entry := hs₂.ledger ▸ he₁.entry }
        have hbind := h₂.does_bindGpr (A := fun regs => A regs ∧ Holds format (regs.gpr q) (sc.val n))
          he₂ hx (hs₂.taken.mpr hs₁.taken) hp
        rw [hs₂.ledger, hs₂.owner] at hbind
        refine hbind.bind ?_
        rintro _ s₃ ⟨h₃, hlocks, -, hst₃, hkept, hi₃⟩
        refine .pure ⟨h₃, hst₁.trans ((Steady.of_same hs₂).trans hst₃), fun p hp => hl₁ p ?_,
          fun p hp hi => hkept p ?_ ?_, hi₃⟩ fun _ _ => id
        · rwa [hlocks, hs₂.locks] at hp
        · -- the register was not locked before
          rintro rfl
          rw [hs₁.free] at hp
          exact absurd hp (Nat.lt_irrefl 0)
        · exact Firm.of_ledger hs₂.ledger p (Nat.lt_of_lt_of_le hp (hs₁.onward.locks _)) (hf₁ p hp hi)
    obtain rfl | rfl | rfl := hp
    · exact hload .w64 (.inl rfl)
    · exact hload .w64 (.inl rfl)
    · exact hload .w32 (.inr ⟨rfl, rfl⟩)
  refine (hdoes.and (leads_fillSpilledGpr (T := fun _ => False) h.coherent he hx)).conseq
    (fun _ _ => id) ?_ fun _ _ _ _ _ => id
  rintro r s' ⟨⟨h', hs, hl', hi⟩, -, hfilled, howned⟩
  exact ⟨h', hfilled, howned, hs, hl', hi⟩

end Lowering
end Speculation
