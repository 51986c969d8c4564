import Speculation.Proofs.Execution.Flags
import Speculation.Proofs.Lowering.Results
import Speculation.Proofs.Running.Stands

/-!
Filling operands while code is running.

A register that is handed out is free for the code that follows: the value that was in it has gone to
its slot, and nothing else has moved. So a fill brings its operand into a register and leaves the
values where the ledger has them, and the operands that were filled before keep their registers and
what is in them.
-/

namespace Speculation

open Lowering

/-- What was locked in `s` holds the same word, what is known of values is the same, no value has come
to be kept as storage, and the frame is where it was. Memory has changed at most in the slots of
values. -/
structure Spares (g : Graph) (s : State) (r : Registers) (mem : Memory) (s' : State) (r' : Registers)
    (mem' : Memory) : Prop where
  facts : s'.facts = s.facts
  word {l : Location} (h : 0 < s.locks l) : r'.word l = r.word l
  plain {n : NodeId} (h : Plain s.ledger n) : Plain s'.ledger n
  frame : r'.gpr .frame = r.gpr .frame
  memory : Confined g r mem mem'

/-- What was locked still is, besides. -/
structure Preserves (g : Graph) (s : State) (r : Registers) (mem : Memory) (s' : State)
    (r' : Registers) (mem' : Memory) : Prop extends Spares g s r mem s' r' mem' where
  onward : Onward s s'

section Spares

variable {g : Graph} {s s' s'' : State} {r r' r'' : Registers} {mem mem' mem'' : Memory} {q : Gpr}

namespace Spares

/-- Neither a register nor memory has changed. -/
lemma of_facts (hf : s'.facts = s.facts) (hp : ∀ {n}, Plain s.ledger n → Plain s'.ledger n) :
    Spares g s r mem s' r mem :=
  ⟨hf, fun _ => rfl, hp, rfl, .refl g r mem⟩

lemma trans (h : Spares g s r mem s' r' mem') (hl : ∀ l, s.locks l ≤ s'.locks l)
    (h' : Spares g s' r' mem' s'' r'' mem'') : Spares g s r mem s'' r'' mem'' where
  facts := h'.facts.trans h.facts
  word hq := (h'.word (Nat.lt_of_lt_of_le hq (hl _))).trans (h.word hq)
  plain hn := h'.plain (h.plain hn)
  frame := h'.frame.trans h.frame
  memory := h.memory.trans h'.memory h.frame

/-- No register has changed. -/
lemma trans_self (h : Spares g s r mem s' r mem') (h' : Spares g s' r mem' s'' r mem'') :
    Spares g s r mem s'' r mem'' where
  facts := h'.facts.trans h.facts
  word _ := rfl
  plain hn := h'.plain (h.plain hn)
  frame := rfl
  memory := h.memory.trans h'.memory rfl

lemma then_facts (h : Spares g s r mem s' r' mem') (hf : s''.facts = s'.facts)
    (hp : ∀ {n}, Plain s'.ledger n → Plain s''.ledger n) : Spares g s r mem s'' r' mem' :=
  { h with facts := hf.trans h.facts, plain := fun hn => hp (h.plain hn) }

lemma setFlags (h : Spares g s r mem s' r' mem') (f : Flags) :
    Spares g s r mem s' { r' with flags := f } mem' :=
  { h with word := fun {l} hl => by rw [← h.word hl]; cases l <;> rfl }

end Spares

namespace Preserves

/-- Neither a register nor memory has changed. -/
lemma of_onward (h : Onward s s') (hf : s'.facts = s.facts)
    (hp : ∀ {n}, Plain s.ledger n → Plain s'.ledger n) : Preserves g s r mem s' r mem :=
  ⟨.of_facts hf hp, h⟩

lemma refl (g : Graph) (s : State) (r : Registers) (mem : Memory) : Preserves g s r mem s r mem :=
  .of_onward (.refl s) rfl id

lemma of_same (h : Same s s') : Preserves g s r mem s' r mem :=
  .of_onward h.onward h.facts fun hn => h.ledger ▸ hn

lemma trans (h : Preserves g s r mem s' r' mem') (h' : Preserves g s' r' mem' s'' r'' mem'') :
    Preserves g s r mem s'' r'' mem'' :=
  ⟨h.toSpares.trans h.onward.locks h'.toSpares, h.onward.trans h'.onward⟩

lemma setFlags (h : Preserves g s r mem s' r' mem') (f : Flags) :
    Preserves g s r mem s' { r' with flags := f } mem' :=
  ⟨h.toSpares.setFlags f, h.onward⟩

lemma gpr (h : Preserves g s r mem s' r' mem') (hq : 0 < s.locks (.gpr q)) : r'.gpr q = r.gpr q :=
  h.word (l := .gpr q) hq

end Preserves

end Spares

namespace Represents

variable {format : DataFormat} {w : UInt64} {v : Value}

/-- In the formats of integers the low half of the word is the integer. -/
lemma low (h : Represents format w v) (hf : format = .int32 ∨ format = .jsInt32) :
    ∃ i, v = .ofInt32 i ∧ low w = i := by
  rcases hf with rfl | rfl
  · obtain ⟨i, hv, rfl⟩ := h
    exact ⟨i, hv, low_extend i⟩
  · obtain ⟨rfl, i, rfl⟩ := h
    exact ⟨i, rfl, Value.toInt32_bits_ofInt32 i⟩

/-- In the formats of other values there are no integers. -/
lemma isInt32_eq_false (h : Represents format w v) (hi : format ≠ .int32) (hj : format ≠ .js)
    (hji : format ≠ .jsInt32) : v.isInt32 = false := by
  cases format with
  | none => exact h.elim
  | int32 => exact absurd rfl hi
  | double => exact Value.isInt32_of_double? h
  | boolean =>
    obtain ⟨b, rfl, -⟩ := h
    exact Value.isInt32_of_isBoolean (Value.isBoolean_ofBool b)
  | cell => exact Value.isInt32_of_isCell h.2
  | storage => exact Value.isInt32_of_isNumber_eq_false h.2
  | js => exact absurd rfl hj
  | jsInt32 => exact absurd rfl hji
  | jsDouble => exact Value.isInt32_of_isDouble h.2
  | jsCell => exact Value.isInt32_of_isCell h.2
  | jsBoolean => exact Value.isInt32_of_isBoolean h.2

end Represents

lemma Lowering.Handed.word_setGpr {s s' : State} {q : Gpr} {l : Location} {r : Registers}
    (h : Handed s s' (.gpr q)) (hl : 0 < s.locks l) (w : UInt64) :
    (r.setGpr q w).word l = r.word l := by
  rcases l with _ | p | f
  · rfl
  · have hpq : p ≠ q := by
      rintro rfl
      rw [h.free] at hl
      exact Nat.lt_irrefl 0 hl
    show (r.setGpr q w).gpr p = r.gpr p
    rw [Registers.gpr_setGpr, if_neg hpq]
  · rfl

section Handed

variable {g : Graph} {s s₁ s₂ s' : State} {q : Gpr} {r r' : Registers} {mem mem' : Memory}

/-- A register that was handed out gets a word. -/
lemma Spares.setGpr (hp : Spares g s r mem s' r' mem') (h : Handed s₁ s₂ (.gpr q))
    (hlocks : ∀ l, s.locks l ≤ s₁.locks l) (w : UInt64) :
    Spares g s r mem s' (r'.setGpr q w) mem' where
  facts := hp.facts
  word hl := (h.word_setGpr (Nat.lt_of_lt_of_le hl (hlocks _)) w).trans (hp.word hl)
  plain := hp.plain
  frame := by
    have hq : q ≠ .frame := (Location.ne_of_mem (Bank.mem_allocatable_of_locksOf h.taken.1)).1
    rw [Registers.gpr_setGpr, if_neg hq.symm]
    exact hp.frame
  memory := hp.memory

/-- A register that nobody held gets a word. -/
lemma Spares.setFree (hp : Spares g s r mem s' r' mem') (hfree : s.locks (.gpr q) = 0)
    (hq : q ≠ .frame) (w : UInt64) : Spares g s r mem s' (r'.setGpr q w) mem' :=
  { hp with
    word := fun {l} hl => by
      refine Eq.trans ?_ (hp.word hl)
      rcases l with _ | p | f
      · rfl
      · have hpq : p ≠ q := by
          rintro rfl
          rw [hfree] at hl
          exact Nat.lt_irrefl 0 hl
        show (r'.setGpr q w).gpr p = r'.gpr p
        rw [Registers.gpr_setGpr, if_neg hpq]
      · rfl
    frame := by
      rw [Registers.gpr_setGpr, if_neg hq.symm]
      exact hp.frame }

lemma Preserves.setGpr (hp : Preserves g s r mem s' r' mem') (h : Handed s s₂ (.gpr q)) (w : UInt64) :
    Preserves g s r mem s' (r'.setGpr q w) mem' :=
  ⟨hp.toSpares.setGpr h (fun _ => Nat.le_refl _) w, hp.onward⟩

end Handed

namespace Course

variable {α β : Type} {k : Course} {ls : List Label} {s s' s'' : State} {r r' : Registers}
  {mem mem' : Memory} {t t' : Moment} {q : Gpr} {l : Location} {o : Slot} {i : Nat} {x : ValueInfo}
  {n : NodeId} {d : Node} {e : Edge} {format : DataFormat} {w : UInt64}
  {T : State → Moment → Prop}

lemma Reaches.of_unseen (h : k.Reaches s t s' t') (hu : Unseen s' s'') : k.Reaches s t s'' t' := by
  have hasm : s''.asm = s'.asm := congrArg (·.1) hu
  exact h.trans (.of_offset (by rw [hasm])) hu.proceeds

structure Brings (k : Course) (s : State) (r : Registers) (mem : Memory) (n : NodeId) (l : Location)
    (s' : State) (r' : Registers) (mem' : Memory) : Prop where
  filled : Filled k.env.graph s s' n l
  preserves : Preserves k.env.graph s r mem s' r' mem'
  stands : Stands k.val s'.ledger r' mem'

/-! ### Handing out registers -/

/-- A value has gone to its slot, or was there. No register has changed, what was in place still is, and
so is what was in the slot of a value that is in no register. -/
structure Evicts (g : Graph) (s : State) (r : Registers) (mem : Memory) (s' : State) (mem' : Memory) :
    Prop extends Spares g s r mem s' r mem' where
  equipped : Equipped s'.ledger r mem'
  stands {val : NodeId → Value} (h : Stands val s.ledger r mem) : Stands val s'.ledger r mem'
  slot {i : Nat} {x : ValueInfo} (hx : s.ledger[i]? = some x) (hl : x.location = .none) :
    mem'.read? 8 (r.slot i) = mem.read? 8 (r.slot i)

section Spilling

variable (hk : k.Sound) (hm : ∃ ps, s.asm.Made ps)
  (hs : Coherent k.env.graph k.cur k.before [] s) (h : Equipped s.ledger r mem)
  {b : Bank Gpr} {c : Bank Fpr} {gs : List Location}
include hk hm hs h

/-- A value goes to its slot; its bank has unbound the register already. -/
lemma leads_spillSlot (ho : s.owner l = some o) :
    Leads k.env { s with gprs := b, fprs := c, guards := gs } (spillSlot o l)
      (fun _ s' => ∃ mem', k.Reaches s ⟨.next, r, mem⟩ s' ⟨.next, r, mem'⟩ ∧
        Evicts k.env.graph s r mem s' mem')
      (fun _ => False) fun _ _ => True := by
  obtain ⟨i, x, hoi, hi, hx, hxl⟩ := hs.agrees.bound ho
  subst hxl
  have hne : x.location ≠ .none := by
    intro hl
    rw [hl, hs.agrees.nowhere] at ho
    cases ho
  obtain ⟨n, hn⟩ : ∃ n, x.node = some n :=
    Option.isSome_iff_exists.mp (hs.agrees.resident hx hne).1
  have hconst : x.isConstant = false := by
    by_contra hc
    exact hne (hs.agrees.constant hx (by simpa using hc)).1
  have hx' : ({ s with gprs := b, fprs := c, guards := gs } : State).ledger[i]? = some x := hx
  have hlt : ∀ {j : Nat} {z : ValueInfo}, s.ledger[j]? = some z → j < s.ledger.size :=
    fun hz => (Array.getElem?_eq_some_iff.mp hz).1
  rw [spillSlot, leads_bind, leads_ledgerIndex hi hx', leads_bind, leads_infoAt hx']
  simp only [hn, ne_eq, not_true_eq_false, if_false]
  split
  · -- it is in its slot already
    rw [leads_bind]
    refine ⟨mem, .of_offset rfl, .of_facts rfl fun hp => hp.set fun hm =>
      ⟨DataFormat.noConfusion, (hp hx hm).2⟩, ?_, fun hst => ?_, fun _ _ => rfl⟩
    · exact { h with
        small := by rw [Array.size_setIfInBounds]; exact h.small
        mapped := fun hj => h.mapped (by rwa [Array.size_setIfInBounds] at hj) }
    · exact hst.set (fun _ _ hl => absurd rfl hl) (fun _ hl => Location.noConfusion hl)
        fun _ hm' hf => hst.slot (x := x) hx hm' hf
  · rename_i hsp
    have hnone : x.spillFormat = .none := by simpa [ValueInfo.isSpilled] using hsp
    have hspill : x.spill x.registerFormat =
        .ok { x.releaseRegisters with spillFormat := x.registerFormat } := by
      simp [ValueInfo.spill, hconst]
    have hmap := h.mapped (hlt hx)
    obtain ⟨-, d, hd, hslot, -⟩ := hs.agrees.named hx hn
    have hconf := Confined.stored hmap hd hslot (r.word x.location)
    have hstands : ∀ {val}, Stands val s.ledger r mem → Stands val (s.ledger.setIfInBounds i
        { x.releaseRegisters with spillFormat := x.registerFormat }) r
        (r.stored mem i (r.word x.location)) := by
      intro val hst
      refine (hst.store hx hnone).set (fun _ _ hl => absurd rfl hl)
        (fun _ hl => Location.noConfusion hl) fun m hm' _ => ?_
      have hmn : m = n := Option.some.inj (hm'.symm.trans hn)
      exact ⟨_, Registers.read?_stored_self hmap, hmn ▸ hst.register hx hn hne⟩
    have hother : ∀ {j : Nat} {z : ValueInfo}, s.ledger[j]? = some z → z.location = .none →
        (r.stored mem i (r.word x.location)).read? 8 (r.slot j) = mem.read? 8 (r.slot j) := by
      intro j z hz hzl
      have hji : j ≠ i := by
        rintro rfl
        exact hne (Option.some.inj (hx.symm.trans hz) ▸ hzl)
      exact Registers.read?_stored_of_ne hmap (Nat.lt_of_lt_of_le (hlt hx) h.small)
        (Nat.lt_of_lt_of_le (hlt hz) h.small) hji
    have hrest : ∀ c' : Inst, c'.Steps r mem r (r.stored mem i (r.word x.location)) →
        Leads k.env { s with gprs := b, fprs := c, guards := gs, asm := s.asm.emit c' }
          (do setInfoAt i (← assume (x.spill x.registerFormat))
              event (.spill n o x.registerFormat))
          (fun _ s' => ∃ mem', k.Reaches s ⟨.next, r, mem⟩ s' ⟨.next, r, mem'⟩ ∧
            Evicts k.env.graph s r mem s' mem')
          (fun _ => False) fun _ _ => True := by
      intro c' hc'
      rw [hspill]
      refine ⟨_, (reaches_emit hk hm hc').of_unseen rfl, ⟨rfl, fun _ => rfl,
        fun hp => hp.set fun hm => ⟨DataFormat.noConfusion, (hp hx hm).1⟩, rfl, hconf⟩, ?_, hstands,
        hother⟩
      exact { h with
        small := by rw [Array.size_setIfInBounds]; exact h.small
        mapped := fun hj => Registers.mapped_stored hmap
          (h.mapped (by rwa [Array.size_setIfInBounds] at hj)) }
    have hslot : r.slot i = r.address (FrameLayout.address o) := by rw [hoi, Registers.slot]
    have hfst : (mem.write 8 (r.slot i) (r.word x.location).toNat).1 = true :=
      (Memory.write_of_mapped hmap _).1
    rw [Registers.stored, hslot] at hrest
    rw [hslot] at hfst
    rcases hl : x.location with _ | p | f
    · exact absurd hl hne
    · rw [hl] at hfst hrest
      exact hrest _ (Inst.steps_store hfst)
    · rw [hl] at hfst hrest
      exact hrest _ (Inst.steps_storeD hfst)

/-- A register changes hands. -/
lemma leads_vacate {a : α} {ev : Option Slot} (he : ev = s.owner l) :
    Leads k.env { s with gprs := b, fprs := c, guards := gs }
      (do if let some o := ev then spillSlot o l
          return a)
      (fun a' s' => a' = a ∧ ∃ mem', k.Reaches s ⟨.next, r, mem⟩ s' ⟨.next, r, mem'⟩ ∧
        Evicts k.env.graph s r mem s' mem')
      (fun _ => True) fun _ _ => True := by
  split
  · rename_i o
    refine Leads.then ((leads_spillSlot hk hm hs h he.symm).mono (fun _ _ => id) (fun _ _ => trivial)
      fun _ _ => id) fun _ s' hs' => ?_
    exact ⟨rfl, hs'⟩
  · exact ⟨rfl, mem, .of_offset rfl, .of_facts rfl id, h, id, fun _ _ => rfl⟩

end Spilling

namespace Wp

lemma vacateGpr {Q : Gpr → State → Moment → Prop} (hk : k.Sound) (h : Equipped s.ledger r mem)
    (hQ : ∀ q s' mem', Handed s s' (.gpr q) → Evicts k.env.graph s r mem s' mem' →
      Q q s' ⟨.next, r, mem'⟩) : k.Wp ls s allocGpr ⟨.next, r, mem⟩ Q T := by
  refine .of_leads leads_allocGpr Extending.allocGpr fun hm hs => ?_
  rw [Lowering.allocGpr, leads_bind, leads_get, leads_bind, leads_check]
  refine ⟨?_, fun _ _ => trivial⟩
  rintro ⟨a, b⟩ hab
  have he : a.evicted = s.owner (.gpr a.register) := (hs.gprs.allocate hab).evicted
  refine (leads_vacate hk hm hs h he).weaken ?_
  rintro q s' ⟨rfl, mem', hr, hev⟩
  exact ⟨_, hr, fun _ hh => hQ _ s' mem' hh hev⟩

/-- A register is handed out, and all values are in place. -/
lemma allocGpr {Q : Gpr → State → Moment → Prop} (hk : k.Sound) (h : Stands k.val s.ledger r mem)
    (hQ : ∀ q s' mem', Handed s s' (.gpr q) → Preserves k.env.graph s r mem s' r mem' →
      Stands k.val s'.ledger r mem' → Q q s' ⟨.next, r, mem'⟩) :
    k.Wp ls s allocGpr ⟨.next, r, mem⟩ Q T :=
  .vacateGpr hk h.equipped fun q s' mem' hh he =>
    hQ q s' mem' hh ⟨he.toSpares, hh.onward⟩ (he.stands h)

/-- So is the register for the result of a call. -/
lemma allocGprPreferring {p : Gpr} {Q : Gpr → State → Moment → Prop} (hk : k.Sound)
    (h : Stands k.val s.ledger r mem)
    (hQ : ∀ q s' mem', Handed s s' (.gpr q) → Preserves k.env.graph s r mem s' r mem' →
      Stands k.val s'.ledger r mem' → Q q s' ⟨.next, r, mem'⟩) :
    k.Wp ls s (allocGprPreferring p) ⟨.next, r, mem⟩ Q T := by
  refine .of_leads leads_allocGprPreferring (Extending.allocGprPreferring p) fun hm hs => ?_
  rw [Lowering.allocGprPreferring, leads_bind, leads_get, leads_bind, leads_check]
  refine ⟨?_, fun _ _ => trivial⟩
  rintro ⟨a, b⟩ hab
  have he : a.evicted = s.owner (.gpr a.register) := (hs.gprs.allocatePreferring hab).evicted
  refine (leads_vacate hk hm hs h.equipped he).weaken ?_
  rintro q s' ⟨rfl, mem', hr, hev⟩
  exact ⟨_, hr, fun _ hh => hQ _ s' mem' hh ⟨hev.toSpares, hh.onward⟩ (hev.stands h)⟩

lemma lockGpr {Q : Unit → State → Moment → Prop}
    (hQ : ∀ s', LockedOnce s s' (.gpr q) → s'.facts = s.facts → Q () s' t) :
    k.Wp ls s (lockGpr q) t Q T := by
  refine .of_leads leads_lockGpr (Extending.lockGpr q) fun _ _ => ?_
  rw [Lowering.lockGpr, leads_bind, leads_get, leads_bind, leads_check]
  refine ⟨fun b _ => ⟨t, .of_offset rfl, fun _ hl => hQ _ hl rfl⟩, fun _ _ => trivial⟩

/-- A lock is dropped. -/
lemma unlockGpr {Q : Unit → State → Moment → Prop}
    (hQ : ∀ s', UnlockedOnce s s' (.gpr q) → s'.facts = s.facts → s'.ledger = s.ledger →
      Q () s' t) : k.Wp ls s (unlockGpr q) t Q T :=
  .of_leads leads_unlockGpr (Extending.unlockGpr q) fun _ _ =>
    ⟨t, .of_offset rfl, fun _ hl => hQ _ hl rfl rfl⟩

/-! ### Values in registers -/

/-- A value is entered in another format. -/
lemma relabel {Q : Unit → State → Moment → Prop} {σ : Spot} (ho : Owned k.env.graph s n (.gpr q))
    (hne : format ≠ .storage)
    (hQ : ∀ s', Reformatted s s' → Spares k.env.graph s r mem s' r mem →
      (∃ d i x, Entry k.env.graph s n d i x ∧ x.location = .gpr q ∧ s'.ledger =
        s.ledger.setIfInBounds i { x with registerFormat := format, location := .gpr q }) →
      Q () s' ⟨σ, r, mem⟩) :
    k.Wp ls s (Lowering.refine n q format) ⟨σ, r, mem⟩ Q T := by
  refine .of_leads (fun hs => leads_refine hs ho) (Extending.refine' n q format) fun _ hs => ?_
  obtain ⟨d, i, x, he, hx, -, -⟩ := hs.entry_of_owned ho
  rw [Lowering.refine, leads_bind, leads_info he.node he.slot he.index he.entry, leads_ite]
  refine ⟨fun hf => ⟨_, .refl _ _, fun _ hr => hQ _ hr (.of_facts rfl id) ⟨d, i, x, he, hx, ?_⟩⟩,
    fun _ => ?_⟩
  · obtain ⟨hlt, hget⟩ := Array.getElem?_eq_some_iff.mp he.entry
    rw [← hf, ← hx, Array.setIfInBounds_def, dif_pos hlt]
    subst hget
    exact (Array.set_getElem_self hlt).symm
  · rw [leads_bind, leads_assume]
    refine ⟨fun y hy => ?_, fun _ _ => trivial⟩
    unfold ValueInfo.fillGpr at hy
    split at hy
    · cases hy
      rw [leads_bind, leads_setInfo he.node he.slot he.index he.entry]
      refine ⟨_, .of_offset rfl, fun _ hr => hQ _ hr (.of_facts rfl fun hp => ?_)
        ⟨d, i, x, he, hx, rfl⟩⟩
      exact hp.set fun hm => ⟨hne, (hp he.entry hm).2⟩
    · cases hy

lemma reformat {Q : Unit → State → Moment → Prop} (ho : Owned k.env.graph s n (.gpr q))
    (h : ∀ d i x, Entry k.env.graph s n d i x → x.location = .gpr q →
      Stands k.val
        (s.ledger.setIfInBounds i { x with registerFormat := format, location := .gpr q }) r mem)
    (hne : format ≠ .storage)
    (hQ : ∀ s', Reformatted s s' → Spares k.env.graph s r mem s' r mem →
      Stands k.val s'.ledger r mem → Q () s' ⟨.next, r, mem⟩) :
    k.Wp ls s (Lowering.refine n q format) ⟨.next, r, mem⟩ Q T :=
  .relabel ho hne fun s' hr hp ⟨d, i, x, he, hx, hled⟩ => hQ s' hr hp (hled ▸ h d i x he hx)

/-- What is known of a value changes the format that it is in. -/
lemma refine {Q : Unit → State → Moment → Prop} (h : Stands k.val s.ledger r mem)
    (ho : Owned k.env.graph s n (.gpr q)) (hrep : Represents format (r.gpr q) (k.val n))
    (hne : format ≠ .storage)
    (hQ : ∀ s', Reformatted s s' → Spares k.env.graph s r mem s' r mem →
      Stands k.val s'.ledger r mem → Q () s' ⟨.next, r, mem⟩) :
    k.Wp ls s (refine n q format) ⟨.next, r, mem⟩ Q T :=
  .reformat ho (fun _ _ _ he _ => h.fill he hrep) hne hQ

lemma enterGpr {Q : Unit → State → Moment → Prop} (he : Entry k.env.graph s n d i x)
    (hx : x.location = .none) (hq : s.Taken (.gpr q)) (hf : x.spillFormat = format)
    (hQ : ∀ s', s'.locks = s.locks → Spares k.env.graph s r mem s' r mem →
      s'.ledger = s.ledger.setIfInBounds i { x with registerFormat := format, location := .gpr q } →
      (∀ l, s'.owner l = if l = .gpr q then some (.ofLocal i) else s.owner l) →
      Q () s' ⟨.next, r, mem⟩) : k.Wp ls s (bindGpr n q format) ⟨.next, r, mem⟩ Q T := by
  refine .of_leads (fun hs => leads_bindGpr hs he hx hq) (Extending.bindGpr n q format)
    fun _ hs => ?_
  rw [Lowering.bindGpr, leads_bind, leads_slotOf he.node he.slot, leads_bind,
    leads_info he.node he.slot he.index he.entry, leads_bind, leads_assume]
  refine ⟨fun y hy => ?_, fun _ _ => trivial⟩
  unfold ValueInfo.fillGpr at hy
  split at hy
  · cases hy
    rw [leads_bind, leads_setInfo he.node he.slot he.index he.entry]
    refine ⟨_, .of_offset rfl, fun _ hr => hQ _ hr.1 (.of_facts rfl fun hp => ?_) rfl hr.2⟩
    exact hp.set fun hm => ⟨hf ▸ (hp he.entry hm).2, (hp he.entry hm).2⟩
  · cases hy

end Wp

/-- A raw integer or boolean is all there is in the word. -/
lemma lt_half {v : Value} (h : Represents format w v) (hf : format = .int32 ∨ format = .boolean) :
    w.toNat < 4294967296 := by
  rcases hf with rfl | rfl
  · obtain ⟨i, -, rfl⟩ := h
    exact i.toUInt32.toNat_lt
  · obtain ⟨b, -, rfl⟩ := h
    cases b <;> decide

namespace Wp

lemma loadSpilledGpr {Q : Gpr → State → Moment → Prop} (hk : k.Sound)
    (h : Equipped s.ledger r mem) (he : Entry k.env.graph s n d i x) (hx : x.location = .none)
    (hf : x.spillFormat = format) (hne : format ≠ .none)
    (hw : mem.read? 8 (r.slot i) = some w.toNat)
    (hhalf : format = .int32 ∨ format = .boolean → w.toNat < 4294967296)
    (hQ : ∀ q s' mem', Filled k.env.graph s s' n (.gpr q) → Owned k.env.graph s' n (.gpr q) →
      Preserves k.env.graph s r mem s' (r.setGpr q w) mem' → Equipped s'.ledger (r.setGpr q w) mem' →
      (∀ {val}, Stands val s.ledger r mem → Represents format w (val n) →
        Stands val s'.ledger (r.setGpr q w) mem') →
      s.locks (.gpr q) = 0 → Q q s' ⟨.next, r.setGpr q w, mem'⟩) :
    k.Wp ls s (fillSpilledGpr n format) ⟨.next, r, mem⟩ Q T := by
  refine .bind (.vacateGpr hk h fun q s₁ mem₁ hh hev => ?_)
  have he₁ : Entry k.env.graph s₁ n d i x := { he with entry := hh.elsewhere he.entry hx }
  have hw₁ : mem₁.read? 8 (r.slot i) = some w.toNat := (hev.slot he.entry hx).trans hw
  refine .look (P := (· = .ofLocal i)) (F := fun _ _ => True)
    (fun _ => (leads_slotOf he₁.node he₁.slot).mpr ⟨rfl, rfl⟩) fun o ho => ?_
  have hslot : r.address (FrameLayout.address o) = r.slot i := by rw [ho, Registers.slot]
  have hself : (r.setGpr q w).gpr q = w := by rw [Registers.gpr_setGpr, if_pos rfl]
  have hbind : ∀ s₂, k.Follows s₁ s₂ → k.Wp ls s₂ (Lowering.bindGpr n q format >>= fun _ => Pure.pure q)
      ⟨.next, r.setGpr q w, mem₁⟩ Q T := by
    intro s₂ h₂
    have hh₂ := hh.of_same h₂.toSame
    have he₂ : Entry k.env.graph s₂ n d i x := { he with entry := hh₂.elsewhere he.entry hx }
    refine .intro fun hs₂ _ => ?_
    refine .bind (.enterGpr he₂ hx hh₂.taken hf fun s₃ hl₃ hp₃ hled ho₃ => .pure ?_)
    have hfilled := hh₂.filled_of_bound he hl₃ ho₃
    have hp : Spares k.env.graph s r mem s₃ r mem₁ := hev.toSpares.then_facts
      (hp₃.facts.trans h₂.facts) fun hn => hp₃.plain (h₂.ledger ▸ hn)
    refine hQ q s₃ mem₁ hfilled ⟨d, _, he.node, he.slot, by rw [ho₃, if_pos rfl]⟩
      (Preserves.setGpr ⟨hp, hfilled.onward⟩ hh w) ?_ (fun hst hrep => ?_) hh.free
    · have heq := hev.equipped.setGpr (Bank.mem_allocatable_of_locksOf hh.taken.1) w
      rw [hled, h₂.ledger]
      exact { heq with
        small := by rw [Array.size_setIfInBounds]; exact heq.small
        mapped := fun hj => heq.mapped (by rwa [Array.size_setIfInBounds] at hj) }
    · have hst₂ : Stands _ s₂.ledger (r.setGpr q w) mem₁ :=
        Stands.setGpr (h₂.ledger ▸ hev.stands hst) hs₂ hh₂.taken w
      exact hled ▸ hst₂.fill he₂ (hself.symm ▸ hrep)
  have hload : format = .int32 ∨ format = .boolean →
      k.Wp ls s₁ (Lowering.load .w32 q (FrameLayout.address o) >>= fun _ =>
        Lowering.bindGpr n q format >>= fun _ => Pure.pure q) ⟨.next, r, mem₁⟩ Q T := by
    intro hformat
    have hread : mem₁.read? 4 (r.address (FrameLayout.address o)) =
        some (w.toNat % 4294967296) := by
      rw [hslot]
      exact Memory.read?_half hw₁
    refine .bind (.emit' hk rfl (Inst.steps_load hread) fun s₂ h₂ => ?_)
    rw [Nat.mod_eq_of_lt (hhalf hformat), UInt64.ofNat_toNat]
    exact hbind s₂ h₂
  dsimp only
  split
  · exact hload (.inl rfl)
  · exact hload (.inr rfl)
  · exact fun _ _ _ => trivial
  · exact absurd rfl hne
  · have hread : mem₁.read? 8 (r.address (FrameLayout.address o)) = some w.toNat := by
      rw [hslot]
      exact hw₁
    refine .bind (.emit' hk rfl (Inst.steps_load hread) fun s₂ h₂ => ?_)
    rw [UInt64.ofNat_toNat]
    exact hbind s₂ h₂

/-- A value is loaded from its slot. -/
lemma fillSpilledGpr {Q : Gpr → State → Moment → Prop} (hk : k.Sound)
    (h : Stands k.val s.ledger r mem) (he : Entry k.env.graph s n d i x) (hx : x.location = .none)
    (hf : x.spillFormat = format) (hne : format ≠ .none)
    (hQ : ∀ q s' r' mem', k.Brings s r mem n (.gpr q) s' r' mem' → Owned k.env.graph s' n (.gpr q) →
      Represents format (r'.gpr q) (k.val n) → s.locks (.gpr q) = 0 → Q q s' ⟨.next, r', mem'⟩) :
    k.Wp ls s (fillSpilledGpr n format) ⟨.next, r, mem⟩ Q T := by
  obtain ⟨w, hw, hrep⟩ := h.slot he.entry he.named (hf ▸ hne)
  rw [hf] at hrep
  refine .loadSpilledGpr hk h.equipped he hx hf hne hw (lt_half hrep)
    fun q s' mem' hfilled ho hp _ hst hfree =>
      hQ q s' _ mem' ⟨hfilled, hp, hst h hrep⟩ ho ?_ hfree
  rw [Registers.gpr_setGpr, if_pos rfl]
  exact hrep

end Wp

/-! ### Integers -/

/-- What makes the lowering treat the operand of an edge as an integer, or as a constant, is true of
its value. -/
structure Honest (k : Course) (facts : Facts) (e : Edge) : Prop where
  constant {v : Value} (h : k.env.graph.valueConstant e.node = .ok (some v)) : k.val e.node = v
  integer (h : (k.val e.node).isInt32 = true) : ∃ i, k.val e.node = .ofInt32 i
  proven (h : e.kind = .knownInt32 ∨ (facts.known e.node).subset .int32 = true) :
    (k.val e.node).isInt32 = true

/-- An integer is in the register of an operand: its low half, and all of it if the operand is raw. -/
structure HoldsInt (r : Registers) (op : GprOperand) (i : Int32) : Prop where
  low : low (r.gpr op.reg) = i
  raw (h : op.format = .int32) : r.gpr op.reg = i.toUInt32.toUInt64

/-- An operand was brought into a register as an integer. If it is not raw, then the register is that of
the value: the one it was in, or one that was free. -/
structure BringsInt (k : Course) (s : State) (r : Registers) (mem : Memory) (n : NodeId)
    (op : GprOperand) (i : Int32) (s' : State) (r' : Registers) (mem' : Memory) : Prop
    extends k.Brings s r mem n (.gpr op.reg) s' r' mem', HoldsInt r' op i where
  own (h : op.format ≠ .int32) : Owned k.env.graph s' n (.gpr op.reg) ∧
    (s.locks (.gpr op.reg) = 0 ∨ ∃ d i x, Entry k.env.graph s n d i x ∧ x.location = .gpr op.reg)

lemma HoldsInt.of_represents {op : GprOperand} {i : Int32}
    (h : Represents op.format (r.gpr op.reg) (.ofInt32 i)) (hf : op.format = .int32 ∨ op.format = .jsInt32) :
    HoldsInt r op i where
  low := by
    obtain ⟨j, hj, hlow⟩ := h.low hf
    exact hlow.trans (Value.ofInt32_injective hj).symm
  raw hraw := by
    rw [hraw] at h
    obtain ⟨j, hj, hword⟩ := h
    rw [Value.ofInt32_injective hj, hword]

namespace Wp

/-- A value in a register is made an integer there, or the machine leaves. -/
lemma intFromGpr {Q : GprOperand → State → Moment → Prop} (hk : k.Sound)
    (h : Stands k.val s.ledger r mem) (hhonest : k.Honest s.facts e)
    (ho : Owned k.env.graph s e.node (.gpr q))
    (hrep : Represents format (r.gpr q) (k.val e.node))
    (hQ : ∀ i op s' r', k.val e.node = .ofInt32 i → op.reg = q →
      Preserves k.env.graph s r mem s' r' mem →
      Stands k.val s'.ledger r' mem → HoldsInt r' op i → Q op s' ⟨.next, r', mem⟩)
    (hx : (k.val e.node).isInt32 = false → ∀ op s' r', op.reg = q → Onward s s' →
      Q op s' ⟨.exit .badType, r', mem⟩)
    (hT : (k.val e.node).isInt32 = false → ∀ s' r', T s' ⟨.exit .badType, r', mem⟩) :
    k.Wp ls s (intFromGpr e q format) ⟨.next, r, mem⟩ Q T := by
  have hplain : format = .int32 ∨ format = .jsInt32 →
      k.Wp ls s (Pure.pure (⟨q, format⟩ : GprOperand)) ⟨.next, r, mem⟩ Q T := by
    intro hf
    obtain ⟨i, hv, -⟩ := hrep.low hf
    exact .pure (hQ i _ s r hv rfl (.refl _ s r mem) h (.of_represents (hv ▸ hrep) hf))
  -- once the value is known to be an integer, its format says so
  have hrefine : ∀ s₁ r₁, k.Follows s s₁ → r₁.gpr = r.gpr →
      Preserves k.env.graph s r mem s₁ r₁ mem → Stands k.val s₁.ledger r₁ mem → (k.val e.node).isInt32 = true → format = .js →
      k.Wp ls s₁ (Lowering.refine e.node q .jsInt32 >>= fun _ =>
        Pure.pure (⟨q, .jsInt32⟩ : GprOperand)) ⟨.next, r₁, mem⟩ Q T := by
    intro s₁ r₁ hf₁ hr₁ hp₁ h₁ hint hjs
    obtain ⟨i, hv⟩ := hhonest.integer hint
    have hbits : r₁.gpr q = (k.val e.node).bits := by
      rw [hr₁]
      rw [hjs] at hrep
      exact hrep
    have ho₁ : Owned k.env.graph s₁ e.node (.gpr q) := ho.of_owner (by rw [hf₁.toSame.owner])
    refine .bind (.refine h₁ ho₁ ⟨hbits, i, hv⟩ nofun fun s₂ hr₂ hp₂ h₂ => .pure ?_)
    exact hQ i _ s₂ r₁ hv rfl (hp₁.trans ⟨hp₂, hr₂.onward⟩) h₂
      (.of_represents ⟨hv ▸ hbits, i, rfl⟩ (.inr rfl))
  unfold Lowering.intFromGpr
  split
  · exact hplain (.inl rfl)
  · exact hplain (.inr rfl)
  · refine .look (fun _ => looks_provenIs) fun p hp => ?_
    refine .ite (fun hc => ?_) fun _ => ?_
    · have hc : e.kind = .knownInt32 ∨ (s.facts.known e.node).subset .int32 = true := by
        simpa [hp] using hc
      exact hrefine s r (.refl s) rfl (.refl _ s r mem) h (hhonest.proven hc) rfl
    · have hbelow := Cond.holds_b_sub_tag h.numberTag hrep
      refine .bind (.emit' hk rfl Inst.steps_cmp fun s₁ h₁ => ?_)
      refine .bind (.guard' hk (by decide) (fun hb s₂ h₂ => ?_) fun hb s₂ h₂ => ?_)
      · -- it is not an integer, and the machine is away
        have hint : (k.val e.node).isInt32 = false := by
          have hb' := hbelow.symm.trans hb
          simpa using hb'
        have h₂ := h₁.trans h₂
        have ho₂ : Owned k.env.graph s₂ e.node (.gpr q) :=
          ho.of_owner (by rw [h₂.toSame.owner])
        refine .bind (.away (fun hs => leads_refine (T := fun _ => False) hs ho₂) (Extending.refine' _ _ _) nofun
          (fun _ s₃ hr₃ => .pure ?_) fun s₃ => hT hint s₃ _)
        exact hx hint _ s₃ _ rfl (h₂.onward.trans hr₃.onward)
      · have h₂ := h₁.trans h₂
        have hint : (k.val e.node).isInt32 = true := by
          have hb' := hbelow.symm.trans hb
          simpa using hb'
        refine hrefine s₂ _ h₂ rfl ((Preserves.of_same h₂.toSame).setFlags _) ?_ hint rfl
        rw [h₂.ledger]
        exact h.setFlags _
  · rename_i hi hji hj
    have hint := hrep.isInt32_eq_false hi hj hji
    exact .terminate hk (by decide) fun s₁ _ => hT hint s₁ r

/-- An operand is filled as an integer, or the machine leaves. -/
lemma fillInt {Q : GprOperand → State → Moment → Prop} (hk : k.Sound)
    (h : Stands k.val s.ledger r mem) (hhonest : k.Honest s.facts e)
    (hQ : ∀ i op s' r' mem', k.val e.node = .ofInt32 i →
      k.BringsInt s r mem e.node op i s' r' mem' → Q op s' ⟨.next, r', mem'⟩)
    (hx : (k.val e.node).isInt32 = false → ∀ op s' r' mem',
      Filled k.env.graph s s' e.node (.gpr op.reg) → Confined k.env.graph r mem mem' →
      Q op s' ⟨.exit .badType, r', mem'⟩)
    (hT : ((s.facts.known e.node).intersects .int32 = true → (k.val e.node).isInt32 = false) →
      ∀ s' r' mem', Confined k.env.graph r mem mem' → T s' ⟨.exit .badType, r', mem'⟩) :
    k.Wp ls s (fillInt e) ⟨.next, r, mem⟩ Q T := by
  unfold Lowering.fillInt
  refine .look (fun _ => looks_mayBe) fun b hb => ?_
  refine .ite (fun hmay => ?_) fun hmay => ?_
  case refine_2 =>
    refine .bind (.terminate hk (by decide) fun s₁ _ => hT (fun hi => ?_) s₁ r mem (.refl _ r mem))
    exact absurd (hb.trans hi) hmay
  have hbad : (k.val e.node).isInt32 = false → ∀ s' r' mem', Confined k.env.graph r mem mem' →
      T s' ⟨.exit .badType, r', mem'⟩ := fun hint => hT fun _ => hint
  refine .look leads_locate_found fun w hw => ?_
  cases w with
  | constant v =>
    have hv := hhonest.constant hw
    dsimp only
    split
    · rename_i i hi
      obtain ⟨j, hj⟩ := hhonest.integer (hv ▸ Value.isInt32_of_int32?_eq_some hi)
      have hij : j = i := by
        rw [← hv, hj, Value.int32?_ofInt32] at hi
        exact Option.some.inj hi
      refine .bind (.allocGpr hk h fun q s₁ mem₁ hh hp₁ h₁ => ?_)
      refine .bind (.discard (.movImm hk fun _ s₂ h₂ => .intro fun hs₂ _ => .pure ?_))
      have hh₂ := hh.of_same h₂.toSame
      have hst : Stands k.val s₂.ledger (r.setGpr q i.toUInt32.toUInt64) mem₁ := by
        refine Stands.setGpr ?_ hs₂ hh₂.taken _
        rw [h₂.ledger]
        exact h₁
      have hp₂ := (hp₁.trans (.of_same h₂.toSame)).setGpr hh i.toUInt32.toUInt64
      have hword : (r.setGpr q i.toUInt32.toUInt64).gpr q = i.toUInt32.toUInt64 := by
        rw [Registers.gpr_setGpr, if_pos rfl]
      exact hQ j _ s₂ _ mem₁ hj ⟨⟨hh₂.filled, hp₂, hst⟩,
        .of_represents ⟨j, rfl, hword.trans (by rw [hij])⟩ (.inl rfl), fun h => absurd rfl h⟩
    · rename_i hnone
      refine .terminate hk (by decide) fun s₁ _ => hbad ?_ s₁ r mem (.refl _ r mem)
      rw [hv]
      exact Value.isInt32_of_int32?_eq_none hnone
  | gpr q format =>
    obtain ⟨d, i, x, he, hl, hf⟩ := hw
    refine .intro fun hs _ => .bind (.lockGpr fun s₁ hl₁ hf₁ => ?_)
    have ho : Owned k.env.graph s₁ e.node (.gpr q) :=
      (hs.owned_of_entry he hl nofun).of_owner (hl₁.owner _)
    have hrep : Represents format (r.gpr q) (k.val e.node) := by
      have hword := h.register he.entry he.named (by simp [hl])
      rwa [hl, hf] at hword
    have hp₁ : Preserves k.env.graph s r mem s₁ r mem :=
      .of_onward hl₁.onward hf₁ fun hn => hl₁.ledger ▸ hn
    have hfilled : Filled k.env.graph s s₁ e.node (.gpr q) := ⟨hl₁.onward, hl₁.more, .inr ho⟩
    refine .intFromGpr hk (hl₁.ledger ▸ h) (hf₁ ▸ hhonest) ho hrep ?_ ?_ ?_
    · rintro i op s₂ r₂ hv rfl hp₂ h₂ hint
      exact hQ i op s₂ r₂ mem hv ⟨⟨hfilled.of_onward hp₂.onward, hp₁.trans hp₂, h₂⟩, hint, fun _ =>
        ⟨ho.of_owner (hp₂.onward.owner hfilled.lock), .inr ⟨d, _, x, he, hl⟩⟩⟩
    · rintro hint op s₂ r₂ rfl hon
      exact hx hint op s₂ r₂ mem (hfilled.of_onward hon) (.refl _ r mem)
    · exact fun hint s₂ r₂ => hbad hint s₂ r₂ mem (.refl _ r mem)
  | fpr f =>
    obtain ⟨d, i, x, he, hl⟩ := hw
    refine .terminate hk (by decide) fun s₁ _ => hbad ?_ s₁ r mem (.refl _ r mem)
    have hrep := h.register he.entry he.named (by simp [hl])
    rw [h.double he.entry hl] at hrep
    exact hrep.isInt32_eq_false nofun nofun nofun
  | spilled format =>
    obtain ⟨d, i, x, he, hl, hf, hne⟩ := hw
    have hdouble : format = .double → (k.val e.node).isInt32 = false := by
      rintro rfl
      obtain ⟨w, -, hrep⟩ := h.slot he.entry he.named (hf ▸ nofun)
      rw [hf] at hrep
      exact hrep.isInt32_eq_false nofun nofun nofun
    split
    any_goals cases ‹Residence.spilled format = _›
    · exact .terminate hk (by decide) fun s₁ _ => hbad (hdouble rfl) s₁ r mem (.refl _ r mem)
    · refine .bind (.fillSpilledGpr hk h he hl hf hne fun q s₁ r₁ mem₁ hb₁ ho₁ hrep₁ hfree => ?_)
      refine .intFromGpr hk hb₁.stands (hb₁.preserves.facts ▸ hhonest) ho₁ hrep₁ ?_ ?_ ?_
      · rintro i op s₂ r₂ hv rfl hp₂ h₂ hint
        exact hQ i op s₂ r₂ mem₁ hv
          ⟨⟨hb₁.filled.of_onward hp₂.onward, hb₁.preserves.trans hp₂, h₂⟩, hint, fun _ =>
            ⟨ho₁.of_owner (hp₂.onward.owner hb₁.filled.lock), .inl hfree⟩⟩
      · rintro hint op s₂ r₂ rfl hon
        exact hx hint op s₂ r₂ mem₁ (hb₁.filled.of_onward hon) hb₁.preserves.memory
      · exact fun hint s₂ r₂ => hbad hint s₂ r₂ mem₁ hb₁.preserves.memory

/-- The right operand of an integer operation is an immediate or in a register. -/
lemma intRhs {Q : Operand → State → Moment → Prop} (hk : k.Sound)
    (h : Stands k.val s.ledger r mem) (hhonest : k.Honest s.facts e)
    (hQ : ∀ i o s' r' mem', k.val e.node = .ofInt32 i →
      Preserves k.env.graph s r mem s' r' mem' → Stands k.val s'.ledger r' mem' → Held s' o →
      low (r'.operand o) = i → Q o s' ⟨.next, r', mem'⟩)
    (hx : (k.val e.node).isInt32 = false → ∀ o s' r' mem', Onward s s' →
      Confined k.env.graph r mem mem' → Q o s' ⟨.exit .badType, r', mem'⟩)
    (hT : ((s.facts.known e.node).intersects .int32 = true → (k.val e.node).isInt32 = false) →
      ∀ s' r' mem', Confined k.env.graph r mem mem' → T s' ⟨.exit .badType, r', mem'⟩) :
    k.Wp ls s (intRhs e) ⟨.next, r, mem⟩ Q T := by
  unfold Lowering.intRhs
  refine .look (P := (· = k.env.graph)) (F := fun _ _ => False) (fun _ => ⟨rfl, rfl⟩) ?_
  rintro g rfl
  refine .look (fun _ => looks_assume) fun c hc => ?_
  split
  · rename_i i
    have hv : ∃ v, k.env.graph.valueConstant e.node = .ok (some v) ∧ v.int32? = some i := by
      obtain ⟨d, hd, hi⟩ := Graph.int32Constant_eq_ok.mp hc
      unfold Op.int32? at hi
      split at hi
      · rename_i v hop
        exact ⟨v, by rw [Graph.valueConstant_of_node hd, hop]; rfl, hi⟩
      · cases hi
    obtain ⟨v, hconst, hint⟩ := hv
    have hval := hhonest.constant hconst
    obtain ⟨j, hj⟩ := hhonest.integer (hval ▸ Value.isInt32_of_int32?_eq_some hint)
    have hij : j = i := by
      rw [← hval, hj, Value.int32?_ofInt32] at hint
      exact Option.some.inj hint
    exact .pure (hQ i _ s r mem (hij ▸ hj) (.refl _ s r mem) h (by simp [Held]) (low_immediate i))
  · refine .bind (.fillInt hk h hhonest ?_ ?_ hT)
    · intro i op s₁ r₁ mem₁ hv hb
      refine .pure (hQ i _ s₁ r₁ mem₁ hv hb.preserves hb.stands ?_ hb.low)
      rintro q hq
      cases hq
      exact hb.filled.lock
    · intro hint op s₁ r₁ mem₁ hf hm
      exact .pure (hx hint _ s₁ r₁ mem₁ hf.onward hm)

end Wp
end Course
end Speculation
