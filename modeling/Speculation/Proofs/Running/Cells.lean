import Speculation.Proofs.Running.Results

/-!
Cells and loops while code is running.

An operand that is filled as a cell is one, or the machine leaves. A loop is lowered once, and its code
is run as often as it takes: what is shown of one pass, from any registers that the loop may be entered
with, is true of the whole loop as long as each pass that comes back has come nearer to the end.
-/

namespace Speculation

open Lowering

namespace Value

variable {v : Value}

lemma isCell_of_ne_empty (h : v ≠ .empty) : v.isCell = (v.bits &&& cellMask == 0) := by
  have hne : v.bits ≠ 0 := fun hz => h (congrArg Value.mk hz)
  rw [isCell, bne_iff_ne.mpr hne, Bool.true_and]

end Value

namespace Cond

variable {a b : UInt64} {d : Option Ordering}

lemma holds_e_sub64 : e.holds (Size.s64.run .sub a b).2 d = decide (a = b) := by
  show (a.toBitVec - b.toBitVec == 0#64) = _
  rw [Bool.eq_iff_iff, beq_iff_eq, decide_eq_true_iff, ← UInt64.toBitVec_inj, BitVec.sub_eq_iff_eq_add,
    BitVec.zero_add]

lemma holds_ne_and64 : ne.holds (Size.s64.run .and a b).2 d = decide (a &&& b ≠ 0) := by
  show (!(a.toBitVec &&& b.toBitVec == 0#64)) = _
  rw [Bool.eq_iff_iff, Bool.not_eq_true', decide_eq_true_iff, beq_eq_false_iff_ne, ne_eq, ne_eq,
    ← UInt64.toBitVec_inj]
  rfl

lemma holds_ne_and_mask {r : Registers} {q : Gpr} {v : Value} (hm : r.gpr .tagMask = Value.cellMask) (hq : r.gpr q = v.bits)
    (hne : v ≠ .empty) :
    ne.holds (Size.s64.run .and (r.gpr q) (r.operand (.reg .tagMask))).2 d = !v.isCell := by
  have hmask : r.operand (.reg .tagMask) = Value.cellMask := hm
  rw [holds_ne_and64, hq, hmask, Value.isCell_of_ne_empty hne, decide_not, beq_eq_decide]

end Cond

namespace Represents

variable {format : DataFormat} {w : UInt64} {v : Value}

lemma cell (h : Represents format w v) (hf : format = .cell ∨ format = .jsCell) :
    w = v.bits ∧ v.isCell = true := by
  rcases hf with rfl | rfl <;> exact h

lemma isCell_eq_false (h : Represents format w v) (hc : format ≠ .cell) (hjc : format ≠ .jsCell)
    (hj : format ≠ .js) (hst : format ≠ .storage) : v.isCell = false := by
  cases format with
  | none => exact h.elim
  | int32 =>
    obtain ⟨i, rfl, -⟩ := h
    exact Value.isCell_of_isInt32 (Value.isInt32_ofInt32 i)
  | double => exact Value.isCell_of_double? h
  | boolean =>
    obtain ⟨b, rfl, -⟩ := h
    exact Value.isCell_of_isBoolean (Value.isBoolean_ofBool b)
  | cell => exact absurd rfl hc
  | storage => exact absurd rfl hst
  | js => exact absurd rfl hj
  | jsInt32 =>
    obtain ⟨-, i, rfl⟩ := h
    exact Value.isCell_of_isInt32 (Value.isInt32_ofInt32 i)
  | jsDouble => exact Value.isCell_of_isDouble h.2
  | jsCell => exact absurd rfl hjc
  | jsBoolean => exact Value.isCell_of_isBoolean h.2

end Represents

namespace Course

variable {α β : Type} {k : Course} {ls : List Label} {s s' : State} {r r' : Registers}
  {mem mem' : Memory} {t : Moment} {q : Gpr} {l : Label} {n : NodeId} {e : Edge}
  {format : DataFormat} {T : State → Moment → Prop}

/-- What makes the lowering treat the operand of an edge as a cell, or as a constant, is true of its
value. -/
structure Fair (k : Course) (facts : Facts) (e : Edge) : Prop where
  constant {v : Value} (h : k.env.graph.valueConstant e.node = .ok (some v)) : k.val e.node = v
  proven (h : e.kind = .knownCell ∨ (facts.known e.node).subset .cell = true) :
    (k.val e.node).isCell = true

namespace Wp

/-- A value in a register is found to be a cell, or the machine leaves. -/
lemma cellFromGpr {Q : GprOperand → State → Moment → Prop} (hk : k.Sound)
    (h : Stands k.val s.ledger r mem) (hfair : k.Fair s.facts e)
    (ho : Owned k.env.graph s e.node (.gpr q))
    (hrep : Represents format (r.gpr q) (k.val e.node)) (hplain : format ≠ .storage)
    (hempty : k.val e.node ≠ .empty)
    (hQ : (k.val e.node).isCell = true → ∀ op s' r', op.reg = q →
      Preserves k.env.graph s r mem s' r' mem → Stands k.val s'.ledger r' mem →
      r'.gpr q = (k.val e.node).bits → Q op s' ⟨.next, r', mem⟩)
    (hx : (k.val e.node).isCell = false → ∀ op s' r', op.reg = q → Onward s s' →
      Q op s' ⟨.exit .badType, r', mem⟩)
    (hT : (k.val e.node).isCell = false → ∀ s' r', T s' ⟨.exit .badType, r', mem⟩) :
    k.Wp ls s (cellFromGpr e q format) ⟨.next, r, mem⟩ Q T := by
  have hboxed : format = .cell ∨ format = .jsCell →
      k.Wp ls s (Pure.pure (⟨q, format⟩ : GprOperand)) ⟨.next, r, mem⟩ Q T := by
    intro hf
    obtain ⟨hbits, hcell⟩ := hrep.cell hf
    exact .pure (hQ hcell _ s r rfl (.refl _ s r mem) h hbits)
  -- once the value is known to be a cell, its format says so
  have hrefine : ∀ s₁ r₁, k.Follows s s₁ → r₁.gpr = r.gpr →
      Preserves k.env.graph s r mem s₁ r₁ mem → Stands k.val s₁.ledger r₁ mem →
      (k.val e.node).isCell = true → format = .js →
      k.Wp ls s₁ (Lowering.refine e.node q .jsCell >>= fun _ =>
        Pure.pure (⟨q, .jsCell⟩ : GprOperand)) ⟨.next, r₁, mem⟩ Q T := by
    intro s₁ r₁ hf₁ hr₁ hp₁ h₁ hcell hjs
    have hbits : r₁.gpr q = (k.val e.node).bits := by
      rw [hr₁]
      rw [hjs] at hrep
      exact hrep
    have ho₁ : Owned k.env.graph s₁ e.node (.gpr q) := ho.of_owner (by rw [hf₁.toSame.owner])
    refine .bind (.refine h₁ ho₁ ⟨hbits, hcell⟩ nofun fun s₂ hr₂ hp₂ h₂ => .pure ?_)
    exact hQ hcell _ s₂ r₁ rfl (hp₁.trans ⟨hp₂, hr₂.onward⟩) h₂ hbits
  unfold Lowering.cellFromGpr
  split
  · exact hboxed (.inl rfl)
  · exact hboxed (.inr rfl)
  · refine .look (fun _ => looks_provenIs) fun p hp => ?_
    refine .ite (fun hc => ?_) fun _ => ?_
    · have hc : e.kind = .knownCell ∨ (s.facts.known e.node).subset .cell = true := by
        simpa [hp] using hc
      exact hrefine s r (.refl s) rfl (.refl _ s r mem) h (hfair.proven hc) rfl
    · have htest : Cond.ne.holds (Size.s64.run .and (r.gpr q) (r.operand (.reg .tagMask))).2 r.order =
          !(k.val e.node).isCell := Cond.holds_ne_and_mask h.tagMask hrep hempty
      refine .bind (.emit' hk rfl Inst.steps_test fun s₁ h₁ => ?_)
      refine .bind (.guard' hk (by decide) (fun hb s₂ h₂ => ?_) fun hb s₂ h₂ => ?_)
      · -- it is no cell, and the machine is away
        have hcell : (k.val e.node).isCell = false := by
          have hb' := htest.symm.trans hb
          simpa using hb'
        have h₂ := h₁.trans h₂
        have ho₂ : Owned k.env.graph s₂ e.node (.gpr q) :=
          ho.of_owner (by rw [h₂.toSame.owner])
        refine .bind (.away (fun hs => leads_refine (T := fun _ => False) hs ho₂)
          (Extending.refine' _ _ _) nofun (fun _ s₃ hr₃ => .pure ?_) fun s₃ => hT hcell s₃ _)
        exact hx hcell _ s₃ _ rfl (h₂.onward.trans hr₃.onward)
      · have h₂ := h₁.trans h₂
        have hcell : (k.val e.node).isCell = true := by
          have hb' := htest.symm.trans hb
          simpa using hb'
        refine hrefine s₂ _ h₂ rfl ((Preserves.of_same h₂.toSame).setFlags _) ?_ hcell rfl
        rw [h₂.ledger]
        exact h.setFlags _
  · rename_i hc hjc hj
    have hcell := hrep.isCell_eq_false hc hjc hj hplain
    exact .terminate hk (by decide) fun s₁ _ => hT hcell s₁ r

/-- An operand is filled as a cell, or the machine leaves. -/
lemma fillCell {Q : GprOperand → State → Moment → Prop} (hk : k.Sound)
    (h : Stands k.val s.ledger r mem) (hfair : k.Fair s.facts e) (hplain : Plain s.ledger e.node)
    (hempty : k.val e.node ≠ .empty)
    (hQ : (k.val e.node).isCell = true → ∀ op s' r' mem',
      k.Brings s r mem e.node (.gpr op.reg) s' r' mem' → r'.gpr op.reg = (k.val e.node).bits →
      Q op s' ⟨.next, r', mem'⟩)
    (hx : (k.val e.node).isCell = false → ∀ op s' r' mem',
      Filled k.env.graph s s' e.node (.gpr op.reg) → Confined k.env.graph r mem mem' →
      Q op s' ⟨.exit .badType, r', mem'⟩)
    (hT : ((s.facts.known e.node).intersects .cell = true → (k.val e.node).isCell = false) →
      ∀ s' r' mem', Confined k.env.graph r mem mem' → T s' ⟨.exit .badType, r', mem'⟩) :
    k.Wp ls s (fillCell e) ⟨.next, r, mem⟩ Q T := by
  unfold Lowering.fillCell
  refine .look (fun _ => looks_mayBe) fun b hb => ?_
  refine .ite (fun hmay => ?_) fun hmay => ?_
  case refine_2 =>
    refine .bind (.terminate hk (by decide) fun s₁ _ => hT (fun hi => ?_) s₁ r mem (.refl _ r mem))
    exact absurd (hb.trans hi) hmay
  have hbad : (k.val e.node).isCell = false → ∀ s' r' mem', Confined k.env.graph r mem mem' →
      T s' ⟨.exit .badType, r', mem'⟩ := fun hcell => hT fun _ => hcell
  refine .look leads_locate_found fun w hw => ?_
  cases w with
  | constant v =>
    have hv := hfair.constant hw
    dsimp only
    split
    · rename_i c hc
      have hcell : v.isCell = true ∧ v.bits = c := by
        unfold Value.cell? at hc
        split at hc
        · exact ⟨‹_›, Option.some.inj hc⟩
        · cases hc
      refine .bind (.allocGpr hk h fun q s₁ mem₁ hh hp₁ h₁ => ?_)
      refine .bind (.discard (.movImm hk fun _ s₂ h₂ => .intro fun hs₂ _ => .pure ?_))
      have hh₂ := hh.of_same h₂.toSame
      have hst : Stands k.val s₂.ledger (r.setGpr q c) mem₁ := by
        refine Stands.setGpr ?_ hs₂ hh₂.taken _
        rw [h₂.ledger]
        exact h₁
      have hp₂ := (hp₁.trans (.of_same h₂.toSame)).setGpr hh c
      refine hQ (hv ▸ hcell.1) _ s₂ _ mem₁ ⟨hh₂.filled, hp₂, hst⟩ ?_
      rw [Registers.gpr_setGpr, if_pos rfl, hv]
      exact hcell.2.symm
    · rename_i hnone
      refine .terminate hk (by decide) fun s₁ _ => hbad ?_ s₁ r mem (.refl _ r mem)
      rw [hv]
      unfold Value.cell? at hnone
      split at hnone
      · cases hnone
      · exact Bool.eq_false_iff.mpr ‹_›
  | gpr q format =>
    obtain ⟨d, i, x, he, hl, hf⟩ := hw
    refine .intro fun hs _ => .bind (.lockGpr fun s₁ hl₁ hf₁ => ?_)
    have ho : Owned k.env.graph s₁ e.node (.gpr q) :=
      (hs.owned_of_entry he hl nofun).of_owner (hl₁.owner _)
    have hrep : Represents format (r.gpr q) (k.val e.node) := by
      have hword := h.register he.entry he.named (by simp [hl])
      rwa [hl, hf] at hword
    have hp₁ : Preserves k.env.graph s r mem s₁ r mem :=
      .of_onward hl₁.onward hf₁ fun hn => hl₁.ledger ▸ hn
    have hfilled : Filled k.env.graph s s₁ e.node (.gpr q) := ⟨hl₁.onward, hl₁.more, .inr ho⟩
    refine .cellFromGpr hk (hl₁.ledger ▸ h) (hf₁ ▸ hfair) ho hrep
      (hf ▸ (hplain he.entry he.named).1) hempty ?_ ?_ ?_
    · rintro hcell op s₂ r₂ rfl hp₂ h₂ hbits
      exact hQ hcell op s₂ r₂ mem ⟨hfilled.of_onward hp₂.onward, hp₁.trans hp₂, h₂⟩ hbits
    · rintro hcell op s₂ r₂ rfl hon
      exact hx hcell op s₂ r₂ mem (hfilled.of_onward hon) (.refl _ r mem)
    · exact fun hcell s₂ r₂ => hbad hcell s₂ r₂ mem (.refl _ r mem)
  | fpr f =>
    obtain ⟨d, i, x, he, hl⟩ := hw
    refine .terminate hk (by decide) fun s₁ _ => hbad ?_ s₁ r mem (.refl _ r mem)
    have hrep := h.register he.entry he.named (by simp [hl])
    rw [h.double he.entry hl] at hrep
    exact hrep.isCell_eq_false nofun nofun nofun nofun
  | spilled format =>
    obtain ⟨d, i, x, he, hl, hf, hne⟩ := hw
    have hdouble : format = .double → (k.val e.node).isCell = false := by
      rintro rfl
      obtain ⟨w, -, hrep⟩ := h.slot he.entry he.named (hf ▸ nofun)
      rw [hf] at hrep
      exact hrep.isCell_eq_false nofun nofun nofun nofun
    split
    any_goals cases ‹Residence.spilled format = _›
    · exact .terminate hk (by decide) fun s₁ _ => hbad (hdouble rfl) s₁ r mem (.refl _ r mem)
    · refine .bind (.fillSpilledGpr hk h he hl hf hne fun q s₁ r₁ mem₁ hb₁ ho₁ hrep₁ _ => ?_)
      refine .cellFromGpr hk hb₁.stands (hb₁.preserves.facts ▸ hfair) ho₁ hrep₁
        (hf ▸ (hplain he.entry he.named).2) hempty ?_ ?_ ?_
      · rintro hcell op s₂ r₂ rfl hp₂ h₂ hbits
        exact hQ hcell op s₂ r₂ mem₁ ⟨hb₁.filled.of_onward hp₂.onward, hb₁.preserves.trans hp₂, h₂⟩
          hbits
      · rintro hcell op s₂ r₂ rfl hon
        exact hx hcell op s₂ r₂ mem₁ (hb₁.filled.of_onward hon) hb₁.preserves.memory
      · exact fun hcell s₂ r₂ => hbad hcell s₂ r₂ mem₁ hb₁.preserves.memory

end Wp

namespace Ends

variable {Q : State → Moment → Prop} {x : Lower Unit}

lemma bindLabel {y : Lower Label} {f : Label → Lower Unit} {P : Label → State → Prop} (hcalm : Calm y)
    (hcode : Aimed k.env s → Leads k.env s y (fun l s' => Proceeds k.env s s' ∧ s'.IsCode l)
      (fun _ => False) fun _ _ => True)
    (hnew : Leads k.env s y (fun l s' => l = s.asm.labels.size ∧ s'.asm.offset = s.asm.offset ∧ P l s')
      (fun _ => False) fun _ _ => False)
    (hf : ∀ l s', k.Follows s s' → P l s' → l ∉ ls → k.Ends (l :: ls) s' (f l) t Q T) :
    k.Ends ls s (y >>= f) t Q T := by
  intro hs ha hl
  have hcalm := hcalm k.env s hs.sighted fun _ => hs.sees
  refine leads_bind.mpr (((hcalm.and (hcode ha)).and hnew).mono ?_ (fun _ h => h.2.elim)
    fun _ _ _ => trivial)
  rintro l s' ⟨⟨⟨hsame, hsight⟩, hp, hcode⟩, rfl, hoffset, hP⟩
  have hfresh : s.asm.labels.size ∉ ls := fun hmem => Nat.lt_irrefl _ (hl _ hmem).lt
  have hls : ∀ l ∈ s.asm.labels.size :: ls, s'.IsCode l :=
    List.forall_mem_cons.mpr ⟨hcode, fun l hm => hp.isCode (hl l hm)⟩
  refine (hf _ s' ⟨hsame, hp⟩ hP hfresh (hs.same hsame hsight) (hp.aimed ha) hls).mono ?_ ?_
    fun _ _ => id
  · rintro b s'' ⟨hp', t', hr, hq⟩
    exact ⟨hp.trans hp', t', (Reaches.of_offset hoffset).trans hr hp', hq⟩
  · rintro s'' ⟨hp', t', hr, hq⟩
    exact ⟨hp.trans hp', t', (Reaches.of_offset hoffset).trans hr hp', hq⟩

lemma bindNewLabel {f : Label → Lower Unit}
    (hf : ∀ l s', k.Follows s s' → l ∉ ls → k.Ends (l :: ls) s' (f l) t Q T) :
    k.Ends ls s (newLabel >>= f) t Q T :=
  .bindLabel (P := fun _ _ => True) Calm.newLabel
    (fun ha => (Extending.leads_newLabel ha).mono (fun _ _ => id) (fun _ => id) fun _ _ _ => trivial)
    ⟨rfl, rfl, trivial⟩ fun l s' h _ => hf l s' h

lemma bindHere {f : Label → Lower Unit}
    (hf : ∀ l s', k.Follows s s' → s'.asm.labels[l]? = some (some s'.asm.offset) → l ∉ ls →
      k.Ends (l :: ls) s' (f l) t Q T) : k.Ends ls s (here >>= f) t Q T :=
  .bindLabel Calm.here
    (fun ha => (Extending.leads_here ha).mono (fun _ _ h => ⟨h.1, h.2.1⟩) (fun _ => id)
      fun _ _ _ => trivial)
    ⟨rfl, rfl, Array.getElem?_push_size⟩ hf

/-- **Loops.** If the code that comes now either leads on or back to its beginning, and in the latter
case with less left to do, then it leads on. -/
lemma loop {P : Nat → Registers → Memory → Prop} (hl : s.asm.labels[l]? = some (some s.asm.offset))
    (hpass : ∀ m r mem, P m r mem → k.Ends ls s x ⟨.next, r, mem⟩
      (fun s' t' => Q s' t' ∨ t'.spot = .label l ∧ ∃ m' < m, P m' t'.registers t'.memory) T)
    {m : Nat} (hP : P m r mem) : k.Ends ls s x ⟨.next, r, mem⟩ Q T := by
  induction m using Nat.strong_induction_on generalizing r mem with
  | _ m ih =>
    intro hs ha hls
    have hfirst := hpass m r mem hP hs ha hls
    have hagain := fun m' hm r' mem' hP' => @ih m' hm r' mem' hP' hs ha hls
    -- the lowering has one outcome, whatever is in the registers
    unfold Leads at hfirst hagain ⊢
    split
    · rename_i s' hout
      rw [hout] at hfirst
      simp only [hout] at hagain
      obtain ⟨hp, t', hreach, hq | ⟨hspot, m', hm, hP'⟩⟩ := hfirst
      · exact ⟨hp, t', hreach, hq⟩
      · obtain ⟨-, t'', hreach', hq⟩ := hagain m' hm _ _ hP'
        refine ⟨hp, t'', fun he o ho => ?_, hq⟩
        obtain ⟨n, o₁, hgo, ho₁⟩ := hreach he o ho
        rw [hspot] at ho₁
        have hback : o₁ = s.asm.offset :=
          Option.some.inj (Option.some.inj (ho₁.symm.trans ((hp.toExtends.trans he).labels hl)))
        obtain ⟨n', o₂, hgo', ho₂⟩ := hreach' he o₁ hback
        exact ⟨n + n', o₂, hgo.trans hgo', ho₂⟩
    · rename_i s' hout
      rw [hout] at hfirst
      exact hfirst
    · trivial

end Ends
end Course
end Speculation
