import Speculation.Proofs.Execution.Straight
import Speculation.Proofs.Running.Operands

/-!
Boxed operands while code is running.

A fill of a boxed value leaves the word that is the value in a register. A raw integer or boolean is
boxed where it is, unless someone else holds the register; the ledger entry changes with it.
-/

namespace Speculation

open Lowering

/-- An instruction that has an effect leads there. -/
lemma Inst.steps_of_effect {i : Inst} {r r' : Registers} {mem mem' : Memory}
    (h : i.effect r mem = some (r', mem')) : i.Steps r mem r' mem' := by
  rintro c m hc hn rfl rfl
  exact Site.goes_of_execute hc hn
    (World.runs_execute_of_effect (t := c.past m i) (w := c.around m) _ h)

namespace Represents

variable {format : DataFormat} {w : UInt64} {v : Value}

/-- In most formats the word is the value. -/
lemma eq_bits (h : Represents format w v) (hi : format ≠ .int32) (hb : format ≠ .boolean)
    (hd : format ≠ .double) : w = v.bits := by
  cases format with
  | none => exact h.elim
  | int32 => exact absurd rfl hi
  | boolean => exact absurd rfl hb
  | double => exact absurd rfl hd
  | js => exact h
  | _ => exact h.1

lemma or_numberTag (h : Represents .int32 w v) : w ||| Value.numberTag = v.bits := by
  obtain ⟨i, rfl, rfl⟩ := h
  exact UInt64.or_comm _ _

lemma or_false (h : Represents .boolean w v) : w ||| 6 = v.bits := by
  obtain ⟨b, rfl, rfl⟩ := h
  cases b <;> rfl

lemma sub_numberTag (h : Represents .double w v) : w - Value.numberTag = v.bits := by
  have h : v.double? = some ⟨w⟩ := h
  unfold Value.double? at h
  split at h
  · have hw : v.bits - Value.doubleOffset = w := congrArg Double.bits (Option.some.inj h)
    have htag : Value.numberTag = -Value.doubleOffset := rfl
    rw [← hw, htag, UInt64.sub_neg, UInt64.sub_add_cancel]
  · cases h

lemma jsInt32_of_int32 (h : Represents .int32 w v) : Represents .jsInt32 v.bits v :=
  let ⟨i, hv, _⟩ := h
  ⟨rfl, i, hv⟩

lemma jsBoolean_of_boolean (h : Represents .boolean w v) : Represents .jsBoolean v.bits v := by
  obtain ⟨b, rfl, -⟩ := h
  exact ⟨rfl, Value.isBoolean_ofBool b⟩

end Represents

lemma Stands.convert {val : NodeId → Value} {g : Graph} {cur n : NodeId} {before : List NodeId}
    {s : State} {r : Registers} {mem : Memory} {d : Node} {i : Nat} {x : ValueInfo} {q : Gpr}
    {format : DataFormat} {w : UInt64} (h : Stands val s.ledger r mem)
    (hs : Coherent g cur before [] s) (he : Entry g s n d i x) (hl : x.location = .gpr q)
    (hrep : Represents format w (val n)) :
    Stands val (s.ledger.setIfInBounds i { x with registerFormat := format, location := .gpr q })
      (r.setGpr q w) mem := by
  have howner : s.owner (.gpr q) = some (.ofLocal i) := by
    obtain ⟨-, -, ho | ⟨_, hp, -⟩⟩ := hs.agrees.resident he.entry (by simp [hl])
    · rwa [hl] at ho
    · cases hp
  obtain ⟨hf, hn, hm, -⟩ := Location.ne_of_mem (Bank.mem_allocatable_of_owner howner)
  have hframe : (r.setGpr q w).gpr .frame = r.gpr .frame := by
    rw [Registers.gpr_setGpr, if_neg hf.symm]
  -- no other value is in the register
  have hword : ∀ {j : Nat} {z : ValueInfo}, j ≠ i → s.ledger[j]? = some z → z.location ≠ .none →
      (r.setGpr q w).word z.location = r.word z.location := by
    intro j z hji hz hzl
    have hzq : z.location ≠ .gpr q := by
      intro heq
      obtain ⟨ha, -, ho | ⟨_, hp, -⟩⟩ := hs.agrees.resident hz hzl
      · rw [heq, howner] at ho
        exact hji (hs.agrees.index_inj hz he.entry ha (by simp [he.named])
          (Option.some.inj ho).symm)
      · cases hp
    rcases hloc : z.location with _ | p | f
    · rfl
    · have hpq : p ≠ q := fun hpq => hzq (hloc.trans (congrArg Location.gpr hpq))
      show (r.setGpr q w).gpr p = r.gpr p
      rw [Registers.gpr_setGpr, if_neg hpq]
    · rfl
  exact {
    numberTag := by
      rw [Registers.gpr_setGpr, if_neg hn.symm]
      exact h.numberTag
    tagMask := by
      rw [Registers.gpr_setGpr, if_neg hm.symm]
      exact h.tagMask
    small := by
      rw [Array.size_setIfInBounds]
      exact h.small
    mapped := fun hj => by
      rw [Registers.slot_eq hframe]
      exact h.mapped (by rwa [Array.size_setIfInBounds] at hj)
    register := fun {j z m} hz hm hzl => by
      rcases Agrees.set_cases hz with ⟨rfl, rfl⟩ | ⟨hij, hz⟩
      · have hmn : m = n := Option.some.inj (hm.symm.trans he.named)
        rw [hmn]
        show Represents format ((r.setGpr q w).gpr q) (val n)
        rwa [Registers.gpr_setGpr, if_pos rfl]
      · rw [hword (Ne.symm hij) hz hzl]
        exact h.register hz hm hzl
    double := fun {j z f} hz hzl => by
      rcases Agrees.set_cases hz with ⟨rfl, rfl⟩ | ⟨-, hz⟩
      · cases hzl
      · exact h.double hz hzl
    slot := fun {j z m} hz hm hzf => by
      rw [Registers.slot_eq hframe]
      rcases Agrees.set_cases hz with ⟨rfl, rfl⟩ | ⟨-, hz⟩
      · exact h.slot (x := x) he.entry hm hzf
      · exact h.slot hz hm hzf }

namespace Course

variable {k : Course} {ls : List Label} {s s' : State} {r r' : Registers} {mem mem' : Memory}
  {t : Moment} {q : Gpr} {f : Fpr} {n : NodeId} {e : Edge} {format : DataFormat} {w : UInt64}
  {T : State → Moment → Prop}

structure Boxes (k : Course) (s : State) (r : Registers) (mem : Memory) (n : NodeId) (q : Gpr)
    (s' : State) (r' : Registers) (mem' : Memory) : Prop where
  spares : Spares k.env.graph s r mem s' r' mem'
  stands : Stands k.val s'.ledger r' mem'
  bits : r'.gpr q = (k.val n).bits

namespace Wp

/-- An operation on the tag of numbers, or on an immediate, changes a register that was taken. -/
lemma alu64Taken {Q : Unit → State → Moment → Prop} {op : AluOp} {tag : Operand} (hk : k.Sound)
    (h : Stands k.val s.ledger r mem) (ht : s.Taken (.gpr q))
    (hQ : ∀ s' f, k.Follows s s' →
      Stands k.val s'.ledger (({ r with flags := f } : Registers).setGpr q
        (Size.s64.run op (r.gpr q) (r.operand tag)).1) mem →
      Q () s' ⟨.next, ({ r with flags := f } : Registers).setGpr q
        (Size.s64.run op (r.gpr q) (r.operand tag)).1, mem⟩) :
    k.Wp ls s (alu64 op q tag) ⟨.next, r, mem⟩ Q T :=
  .intro fun hs _ => .emit' hk rfl Inst.steps_alu fun s₁ h₁ =>
    hQ s₁ _ h₁ (h₁.ledger ▸ (h.setFlags _).setGpr hs ht _)

/-- A raw integer or boolean is boxed in its register, or in a fresh one if its own is shared. -/
lemma boxGpr {Q : GprOperand → State → Moment → Prop} {tag : Operand} {shared : Bool}
    {s₀ : State} {r₀ : Registers} {mem₀ : Memory} (hk : k.Sound) (h : Stands k.val s.ledger r mem)
    (hp : Spares k.env.graph s₀ r₀ mem₀ s r mem) (hlocks : ∀ l, s₀.locks l ≤ s.locks l)
    (ho : Owned k.env.graph s n (.gpr q)) (hshared : shared = false → s₀.locks (.gpr q) = 0)
    (htag : ∀ p, tag = .reg p → p = .numberTag)
    (hbits : r.gpr q ||| r.operand tag = (k.val n).bits)
    (hrep : Represents format (k.val n).bits (k.val n)) (hne : format ≠ .storage)
    (hQ : ∀ op s' r' mem', k.Boxes s₀ r₀ mem₀ n op.reg s' r' mem' → Q op s' ⟨.next, r', mem'⟩) :
    k.Wp ls s (boxGpr n q shared tag format) ⟨.next, r, mem⟩ Q T := by
  refine .ite (fun _ => ?_) fun hs => ?_
  · refine .bind (.allocGpr hk h fun t s₁ mem₁ hh hp₁ h₁ => .bind (.mov hk fun s₂ h₂ => ?_))
    refine .intro fun hs₂ _ => ?_
    have hh₂ := hh.of_same h₂.toSame
    have htaken := Location.ne_of_mem (Bank.mem_allocatable_of_locksOf hh₂.taken.1)
    have hst : Stands k.val s₂.ledger (r.setGpr t (r.gpr q)) mem₁ :=
      Stands.setGpr (h₂.ledger ▸ h₁) hs₂ hh₂.taken _
    have hself : (r.setGpr t (r.gpr q)).gpr t = r.gpr q := by rw [Registers.gpr_setGpr, if_pos rfl]
    have hoperand : (r.setGpr t (r.gpr q)).operand tag = r.operand tag := by
      refine Registers.operand_congr fun p hp => ?_
      rw [Registers.gpr_setGpr, if_neg (htag p hp ▸ htaken.2.1.symm)]
    refine .bind (.alu64Taken hk hst hh₂.taken fun s₃ f h₃ hst₃ => ?_)
    refine .bind (.unlockGpr fun s₄ h₄ hf₄ hl₄ => .pure (hQ _ _ _ _ ⟨?_, ?_, ?_⟩))
    · have hp₄ := (hp.trans hlocks hp₁.toSpares).then_facts (hf₄.trans (h₃.facts.trans h₂.facts))
        fun hn => hl₄ ▸ h₃.ledger ▸ h₂.ledger ▸ hn
      exact ((hp₄.setGpr hh hlocks _).setFlags f).setGpr hh hlocks _
    · rw [hl₄]
      exact hst₃
    · rw [Registers.gpr_setGpr, if_pos rfl, hself, hoperand]
      exact hbits
  · refine .intro fun hs₀ _ => .bind (.emit' hk rfl Inst.steps_alu fun s₁ h₁ => ?_)
    refine .intro fun hs₁ _ => ?_
    have ho₁ : Owned k.env.graph s₁ n (.gpr q) := ho.of_owner (by rw [h₁.toSame.owner])
    have hbits₁ : (Size.s64.run .or (r.gpr q) (r.operand tag)).1 = (k.val n).bits := hbits
    refine .bind (.reformat ho₁ (fun d i x he hx => ?_) hne fun s₂ hr₂ hp₂ h₂ => ?_)
    · have hst := h.setFlags (Size.s64.run .or (r.gpr q) (r.operand tag)).2
      rw [← h₁.ledger] at hst
      exact hst.convert hs₁ he hx (hbits₁ ▸ hrep)
    · obtain ⟨_, _, -, -, howner⟩ := ho
      have hframe := (Location.ne_of_mem (Bank.mem_allocatable_of_owner howner)).1
      have hfree : s₀.locks (.gpr q) = 0 := hshared (by simpa using hs)
      have hspares := (hp.setFlags (Size.s64.run .or (r.gpr q) (r.operand tag)).2).setFree hfree hframe
        (Size.s64.run .or (r.gpr q) (r.operand tag)).1
      refine .pure (hQ _ _ _ _ ⟨hspares.then_facts (hp₂.facts.trans h₁.facts) fun hn =>
        hp₂.plain (h₁.ledger ▸ hn), h₂, ?_⟩)
      rw [Registers.gpr_setGpr, if_pos rfl]
      exact hbits₁

lemma lockFpr {Q : Unit → State → Moment → Prop}
    (hQ : ∀ s', LockedOnce s s' (.fpr f) → s'.facts = s.facts → Q () s' t) :
    k.Wp ls s (lockFpr f) t Q T := by
  refine .of_leads leads_lockFpr (Extending.lockFpr f) fun _ _ => ?_
  rw [Lowering.lockFpr, leads_bind, leads_get, leads_bind, leads_check]
  exact ⟨fun b _ => ⟨t, .of_offset rfl, fun _ hl => hQ _ hl rfl⟩, fun _ _ => trivial⟩

lemma unlockFpr {Q : Unit → State → Moment → Prop}
    (hQ : ∀ s', UnlockedOnce s s' (.fpr f) → s'.facts = s.facts → s'.ledger = s.ledger →
      Q () s' t) : k.Wp ls s (unlockFpr f) t Q T :=
  .of_leads leads_unlockFpr (Extending.unlockFpr f) fun _ _ =>
    ⟨t, .of_offset rfl, fun _ hl => hQ _ hl rfl rfl⟩

end Wp

lemma Boxes.of_sub {b : Flags} {s₁ s₂ : State} (hh : Handed s₁ s₂ (.gpr q))
    (hlocks : ∀ l, s.locks l ≤ s₁.locks l) (hp : Spares k.env.graph s r mem s' r mem')
    (hn : r.gpr .numberTag = Value.numberTag) (hrep : Represents .double w (k.val n))
    (h : Stands k.val s'.ledger (({ r.setGpr q w with flags := b } : Registers).setGpr q
      (Size.s64.run .sub ((r.setGpr q w).gpr q) ((r.setGpr q w).operand (.reg .numberTag))).1)
      mem') :
    k.Boxes s r mem n q s' (({ r.setGpr q w with flags := b } : Registers).setGpr q
      (Size.s64.run .sub ((r.setGpr q w).gpr q) ((r.setGpr q w).operand (.reg .numberTag))).1)
      mem' where
  spares := ((hp.setGpr hh hlocks w).setFlags b).setGpr hh hlocks _
  stands := h
  bits := by
    have hne := (Location.ne_of_mem (Bank.mem_allocatable_of_locksOf hh.taken.1)).2.1
    have hq : (r.setGpr q w).gpr q = w := by rw [Registers.gpr_setGpr, if_pos rfl]
    have htag : (r.setGpr q w).operand (.reg .numberTag) = Value.numberTag := by
      show (r.setGpr q w).gpr .numberTag = _
      rw [Registers.gpr_setGpr, if_neg hne.symm, hn]
    rw [Registers.gpr_setGpr, if_pos rfl, hq, htag]
    exact hrep.sub_numberTag

namespace Wp

lemma boxValue {Q : GprOperand → State → Moment → Prop} (hk : k.Sound)
    (h : Stands k.val s.ledger r mem)
    (hconst : ∀ v, k.env.graph.valueConstant e.node = .ok (some v) → k.val e.node = v)
    (hQ : ∀ op s' r' mem', k.Boxes s r mem e.node op.reg s' r' mem' → Q op s' ⟨.next, r', mem'⟩) :
    k.Wp ls s (fillValue e) ⟨.next, r, mem⟩ Q T := by
  have hfalse : ∀ p, falseImm = .reg p → p = .numberTag := nofun
  have htag : ∀ p, Operand.reg .numberTag = .reg p → p = .numberTag := fun p hp => by
    cases hp
    rfl
  -- a value in a register of its own is relabelled, boxed there, or boxed already
  have hbox : ∀ (shared : Bool) {format : DataFormat} {q : Gpr} s₁ r₁ mem₁, Spares k.env.graph s r mem s₁ r₁ mem₁ →
      (∀ l, s.locks l ≤ s₁.locks l) → Stands k.val s₁.ledger r₁ mem₁ →
      Owned k.env.graph s₁ e.node (.gpr q) → (shared = false → s.locks (.gpr q) = 0) →
      Represents format (r₁.gpr q) (k.val e.node) →
      (format = .int32 → k.Wp ls s₁ (boxInt e.node q shared) ⟨.next, r₁, mem₁⟩ Q T) ∧
      (format = .boolean → k.Wp ls s₁ (boxBoolean e.node q shared) ⟨.next, r₁, mem₁⟩ Q T) ∧
      (format = .cell → k.Wp ls s₁ (Lowering.refine e.node q .jsCell >>= fun _ =>
        Pure.pure (⟨q, .jsCell⟩ : GprOperand)) ⟨.next, r₁, mem₁⟩ Q T) ∧
      (format ≠ .int32 → format ≠ .boolean → format ≠ .double →
        k.Boxes s r mem e.node q s₁ r₁ mem₁) := by
    intro shared format q s₁ r₁ mem₁ hp₁ hlocks₁ h₁ ho₁ hshared hrep
    refine ⟨?_, ?_, ?_, fun hi hb hd => ⟨hp₁, h₁, hrep.eq_bits hi hb hd⟩⟩
    · rintro rfl
      have hbits : r₁.gpr q ||| r₁.operand (.reg .numberTag) = (k.val e.node).bits := by
        rw [← hrep.or_numberTag, ← h₁.numberTag]
        rfl
      exact .boxGpr hk h₁ hp₁ hlocks₁ ho₁ hshared htag hbits hrep.jsInt32_of_int32
        nofun hQ
    · rintro rfl
      have hbits : r₁.gpr q ||| r₁.operand falseImm = (k.val e.node).bits := hrep.or_false
      exact .boxGpr hk h₁ hp₁ hlocks₁ ho₁ hshared hfalse hbits hrep.jsBoolean_of_boolean
        nofun hQ
    · rintro rfl
      have hrep' : Represents .jsCell (r₁.gpr q) (k.val e.node) := hrep
      exact .bind (.refine h₁ ho₁ hrep' nofun fun s₂ hr₂ hp₂ h₂ =>
        .pure (hQ _ _ _ _ ⟨hp₁.then_facts hp₂.facts hp₂.plain, h₂, hrep.1⟩))
  unfold Lowering.fillValue
  refine .look leads_locate_found fun w hw => ?_
  cases w with
  | constant v =>
    have hv := hconst v hw
    refine .bind (.allocGpr hk h fun q s₁ mem₁ hh hp₁ h₁ => ?_)
    refine .bind (.discard (.movImm hk fun _ s₂ h₂ => .intro fun hs₂ _ => .pure ?_))
    have hst : Stands k.val s₂.ledger (r.setGpr q v.bits) mem₁ :=
      Stands.setGpr (h₂.ledger ▸ h₁) hs₂ (hh.of_same h₂.toSame).taken _
    refine hQ _ _ _ _ ⟨((hp₁.trans (.of_same h₂.toSame)).setGpr hh _).toSpares, hst, ?_⟩
    rw [Registers.gpr_setGpr, if_pos rfl, hv]
  | gpr q format =>
    obtain ⟨d, i, x, he, hl, hf⟩ := hw
    refine .look (P := fun b => b = s.gprs.isLocked q) (F := fun _ _ => False)
      (fun _ => ⟨rfl, rfl⟩) fun shared hshared => ?_
    refine .intro fun hs _ => .bind (.lockGpr fun s₁ hl₁ hf₁ => ?_)
    have ho : Owned k.env.graph s₁ e.node (.gpr q) :=
      (hs.owned_of_entry he hl nofun).of_owner (hl₁.owner _)
    have hrep : Represents format (r.gpr q) (k.val e.node) := by
      have hword := h.register he.entry he.named (by simp [hl])
      rwa [hl, hf] at hword
    have hfree : shared = false → s.locks (.gpr q) = 0 := by
      rintro rfl
      exact Bank.locksOf_eq_zero hshared.symm
    obtain ⟨hint, hbool, hcell, hboxed⟩ := hbox (q := q) shared s₁ r mem
      (.of_facts hf₁ fun hn => hl₁.ledger ▸ hn)
      hl₁.onward.locks (hl₁.ledger ▸ h) ho hfree hrep
    split
    · exact .pure (hQ _ _ _ _ (hboxed nofun nofun nofun))
    · exact .pure (hQ _ _ _ _ (hboxed nofun nofun nofun))
    · exact .pure (hQ _ _ _ _ (hboxed nofun nofun nofun))
    · exact .pure (hQ _ _ _ _ (hboxed nofun nofun nofun))
    · exact .pure (hQ _ _ _ _ (hboxed nofun nofun nofun))
    · exact hcell rfl
    · exact hint rfl
    · exact hbool rfl
    · exact fun _ _ _ => trivial
    · exact fun _ _ _ => trivial
    · exact fun _ _ _ => trivial
  | fpr f =>
    obtain ⟨d, i, x, he, hl⟩ := hw
    have hrep : Represents .double (r.fpr f).bits (k.val e.node) := by
      have hword := h.register he.entry he.named (by simp [hl])
      rwa [h.double he.entry hl, hl] at hword
    refine .bind (.lockFpr fun s₁ hl₁ hf₁ => ?_)
    refine .bind (.allocGpr hk (hl₁.ledger ▸ h) fun q s₂ mem₂ hh hp₂ h₂ => ?_)
    have hmov : (Inst.movDToG q f).effect r mem₂ = some (r.setGpr q (r.fpr f).bits, mem₂) := rfl
    refine .bind (.emit' hk rfl (Inst.steps_of_effect hmov) fun s₃ h₃ => .intro fun hs₃ _ => ?_)
    have hh₃ := hh.of_same h₃.toSame
    have hst : Stands k.val s₃.ledger (r.setGpr q (r.fpr f).bits) mem₂ :=
      Stands.setGpr (h₃.ledger ▸ h₂) hs₃ hh₃.taken _
    refine .bind (.alu64Taken hk hst hh₃.taken fun s₄ b h₄ hst₄ => ?_)
    refine .bind (.unlockFpr fun s₅ h₅ hf₅ hl₅ => .pure (hQ _ _ _ _ ?_))
    have hp₂' : Spares k.env.graph s r mem s₂ r mem₂ :=
      (Spares.of_facts hf₁ fun hn => hl₁.ledger ▸ hn).trans hl₁.onward.locks hp₂.toSpares
    exact .of_sub hh hl₁.onward.locks (hp₂'.then_facts (hf₅.trans (h₄.facts.trans h₃.facts))
      fun hn => hl₅ ▸ h₄.ledger ▸ h₃.ledger ▸ hn) h.numberTag hrep (hl₅ ▸ hst₄)
  | spilled format =>
    obtain ⟨d, i, x, he, hl, hf, hne⟩ := hw
    split
    any_goals cases ‹Residence.spilled format = _›
    · refine .bind (.allocGpr hk h fun q s₁ mem₁ hh hp₁ h₁ => ?_)
      have he₁ : Entry k.env.graph s₁ e.node d i x := { he with entry := hh.elsewhere he.entry hl }
      obtain ⟨w, hw, hrep⟩ := h₁.slot he₁.entry he₁.named (hf ▸ nofun)
      rw [hf] at hrep
      refine .look (P := (· = .ofLocal i)) (F := fun _ _ => True)
        (fun _ => (leads_slotOf he₁.node he₁.slot).mpr ⟨rfl, rfl⟩) ?_
      rintro _ rfl
      refine .bind (.emit' hk rfl (Inst.steps_load hw) fun s₂ h₂ => .intro fun hs₂ _ => ?_)
      have hh₂ := hh.of_same h₂.toSame
      rw [UInt64.ofNat_toNat]
      have hst : Stands k.val s₂.ledger (r.setGpr q w) mem₁ :=
        Stands.setGpr (h₂.ledger ▸ h₁) hs₂ hh₂.taken _
      refine .bind (.alu64Taken hk hst hh₂.taken fun s₃ b h₃ hst₃ => .pure (hQ _ _ _ _ ?_))
      exact .of_sub hh (fun _ => Nat.le_refl _)
        (hp₁.toSpares.then_facts (h₃.facts.trans h₂.facts) fun hn => h₃.ledger ▸ h₂.ledger ▸ hn)
        h.numberTag hrep hst₃
    · refine .bind (.fillSpilledGpr hk h he hl hf hne fun q s₁ r₁ mem₁ hb₁ ho₁ hrep₁ hfree => ?_)
      obtain ⟨hint, hbool, hcell, hboxed⟩ := hbox false s₁ r₁ mem₁
        hb₁.preserves.toSpares hb₁.preserves.onward.locks hb₁.stands ho₁ (fun _ => hfree) hrep₁
      split
      · exact hint rfl
      · exact hbool rfl
      · exact hcell rfl
      · exact .pure (hQ _ _ _ _ (hboxed ‹_› ‹_› ‹_›))

/-- An operand is filled as a boxed value and held. -/
lemma fillValue {Q : GprOperand → State → Moment → Prop} (hk : k.Sound)
    (h : Stands k.val s.ledger r mem)
    (hconst : ∀ v, k.env.graph.valueConstant e.node = .ok (some v) → k.val e.node = v)
    (hQ : ∀ op s' r' mem', k.Brings s r mem e.node (.gpr op.reg) s' r' mem' →
      r'.gpr op.reg = (k.val e.node).bits → Q op s' ⟨.next, r', mem'⟩) :
    k.Wp ls s (fillValue e) ⟨.next, r, mem⟩ Q T := by
  have hbox : k.Wp ls s (Lowering.fillValue e) ⟨.next, r, mem⟩ (fun op s' t' => ∃ r' mem',
      t' = ⟨.next, r', mem'⟩ ∧ k.Boxes s r mem e.node op.reg s' r' mem') T :=
    .boxValue hk h hconst fun op s' r' mem' hb => ⟨r', mem', rfl, hb⟩
  refine (hbox.and leads_fillValue).weaken ?_
  rintro op s' _ ⟨⟨r', mem', rfl, hb⟩, -, hf⟩
  exact hQ op s' r' mem' ⟨hf, ⟨hb.spares, hf.onward⟩, hb.stands⟩ hb.bits

end Wp

end Course
end Speculation
