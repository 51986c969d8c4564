import Speculation.Proofs.Running.Operands

/-!
Integer division and remainder.
-/

namespace Speculation

open Lowering

/-- An operation has put an integer into a register, with its high half clear. Nothing else has
changed but the scratch register and the flags. -/
structure Registers.Gives (q : Gpr) (z : Int) (r r' : Registers) : Prop where
  result : r'.gpr q = (Int32.ofInt z).toUInt32.toUInt64
  gpr {p : Gpr} (hq : p ≠ q) (hs : p ≠ .scratch) : r'.gpr p = r.gpr p
  fpr : r'.fpr = r.fpr

namespace Registers.Gives

variable {r r' r'' : Registers} {q p : Gpr} {z z' : Int}

lemma of_setGpr (hr : ∀ p, p ≠ q → p ≠ .scratch → r'.gpr p = r.gpr p) (hf : r'.fpr = r.fpr) :
    r.Gives q z (r'.setGpr q (Int32.ofInt z).toUInt32.toUInt64) where
  result := by rw [gpr_setGpr, if_pos rfl]
  gpr hq hs := by rw [gpr_setGpr, if_neg hq, hr _ hq hs]
  fpr := by
    funext f
    rw [fpr_setGpr, hf]

lemma of_flags {f : Flags} (h : Gives q z { r with flags := f } r') : r.Gives q z r' :=
  ⟨h.result, h.gpr, h.fpr⟩

end Registers.Gives

/-- An operation on integers has ended as it should: its result is in the register, or the machine
leaves. -/
def Moment.Shows (t : Moment) (res : Except ExitKind Int) (q : Gpr) (r : Registers) (mem : Memory) :
    Prop :=
  t.memory = mem ∧ match res with
    | .ok z => t.spot = .next ∧ r.Gives q z t.registers
    | .error kind => t.spot = .exit kind

lemma Moment.Shows.of_flags {t : Moment} {res : Except ExitKind Int} {q : Gpr} {r : Registers}
    {mem : Memory} {f : Flags} (h : t.Shows res q { r with flags := f } mem) :
    t.Shows res q r mem := by
  cases res with
  | ok z => exact ⟨h.1, h.2.1, h.2.2.of_flags⟩
  | error kind => exact h

namespace Integer

/-- The quotient of two integers toward zero, zero if the divisor is. Where it is not wanted
modulo `2 ^ 32` it has to be exact. -/
def quotient (truncate negZero : Bool) (x y : Int) : Except ExitKind Int :=
  if truncate then .ok (x.tdiv y)
  else if y = 0 ∨ (x = -2147483648 ∧ y = -1) ∨ ¬y ∣ x then .error .overflow
  else if negZero ∧ x = 0 ∧ y < 0 then .error .negativeZero
  else .ok (x.tdiv y)

def remainder (truncate negZero : Bool) (x y : Int) : Except ExitKind Int :=
  if truncate then .ok (if y = 0 then 0 else x.tmod y)
  else if y = 0 ∨ (x = -2147483648 ∧ y = -1) then .error .overflow
  else if negZero ∧ x < 0 ∧ x.tmod y = 0 then .error .negativeZero
  else .ok (x.tmod y)

section

variable {x y : Int} {a b : Int32} {negZero : Bool}

lemma quotient_exact (hy : y ≠ 0) (hm : ¬(x = -2147483648 ∧ y = -1))
    (hn : ¬(negZero = true ∧ x = 0 ∧ y < 0)) :
    quotient false negZero x y = if y ∣ x then .ok (x.tdiv y) else .error .overflow := by
  unfold quotient
  rw [if_neg Bool.false_ne_true, if_neg hn]
  by_cases hd : y ∣ x <;> simp [hy, hm, hd]

lemma remainder_exact (hy : y ≠ 0) (hm : ¬(x = -2147483648 ∧ y = -1)) :
    remainder false negZero x y =
      if negZero = true ∧ x < 0 ∧ x.tmod y = 0 then .error .negativeZero else .ok (x.tmod y) := by
  unfold remainder
  rw [if_neg Bool.false_ne_true, if_neg fun h => h.elim hy hm]

/-- The guards of a division see the words, and the quotient is of the integers in them. -/
lemma toInt_zero_iff : a.toInt = 0 ↔ a = 0 := Int32.toInt_inj (y := 0)

lemma toInt_unfit_iff :
    a.toInt = -2147483648 ∧ b.toInt = -1 ↔ a = Int32.minValue ∧ b = -1 :=
  and_congr (Int32.toInt_inj (y := Int32.minValue)) (Int32.toInt_inj (y := -1))

end

end Integer

namespace Course

variable {k : Course} {ls : List Label} {s : State} {r r' : Registers} {mem : Memory} {q x y : Gpr}
  {T : State → Moment → Prop}

namespace Wp

/-- A copy of the dividend is divided. -/
lemma divide {β : Type} {f : Unit → Lower β} {Q : β → State → Moment → Prop} {rem : Bool}
    (hk : k.Sound) (hy : q ≠ y) (hzero : low (r.gpr y) ≠ 0)
    (hfits : ¬(low (r.gpr x) = Int32.minValue ∧ low (r.gpr y) = -1))
    (hf : ∀ s' r', r.Gives q (if rem then (low (r.gpr x)).toInt.tmod (low (r.gpr y)).toInt
      else (low (r.gpr x)).toInt.tdiv (low (r.gpr y)).toInt) r' →
      k.Wp ls s' (f ()) ⟨.next, r', mem⟩ Q T) :
    k.Wp ls s (Lowering.mov q x >>= fun _ => Lowering.emit' (.div32 rem q y) >>= f)
      ⟨.next, r, mem⟩ Q T := by
  refine .bind (.mov hk fun s₁ _ => ?_)
  have hdiv : divide? rem (low (r.gpr x)) (low (r.gpr y)) = some _ := divide?_eq_some hzero hfits
  have hq : (r.setGpr q (r.gpr x)).gpr q = r.gpr x := by rw [Registers.gpr_setGpr, if_pos rfl]
  have hy' : (r.setGpr q (r.gpr x)).gpr y = r.gpr y := by rw [Registers.gpr_setGpr, if_neg hy.symm]
  refine .bind (.emit' hk rfl (Inst.steps_div32 (by rw [hq, hy']; exact hdiv)) fun s₂ _ => ?_)
  refine hf s₂ _ (.of_setGpr (fun p hp _ => ?_) rfl)
  rw [Registers.gpr_setGpr, if_neg hp]

/-- A copy of an integer is negated. -/
lemma negate {β : Type} {f : Unit → Lower β} {Q : β → State → Moment → Prop} (hk : k.Sound)
    (hf : ∀ s' r', r.Gives q (-(low (r.gpr x)).toInt) r' →
      r'.flags = (Size.s32.run .sub 0 (r.gpr x)).2 → k.Wp ls s' (f ()) ⟨.next, r', mem⟩ Q T) :
    k.Wp ls s (Lowering.mov q x >>= fun _ => Lowering.emit' (.neg32 q) >>= f)
      ⟨.next, r, mem⟩ Q T := by
  refine .bind (.mov hk fun s₁ _ => .bind (.emit' hk rfl Inst.steps_neg32 fun s₂ _ => ?_))
  have hq : (r.setGpr q (r.gpr x)).gpr q = r.gpr x := by rw [Registers.gpr_setGpr, if_pos rfl]
  rw [hq, Size.run_neg]
  refine hf s₂ _ (.of_setGpr (fun p hp _ => ?_) rfl) rfl
  show (r.setGpr q (r.gpr x)).gpr p = r.gpr p
  rw [Registers.gpr_setGpr, if_neg hp]

lemma divTruncating (hk : k.Sound) (hy : q ≠ y) :
    k.Wp ls s (divTruncating q x y) ⟨.next, r, mem⟩ (fun _ _ t => t.Shows
      (Integer.quotient true false (low (r.gpr x)).toInt (low (r.gpr y)).toInt) q r mem) T := by
  rw [Integer.quotient, if_pos rfl]
  refine .bindNewLabel fun nonzero s₁ _ h₁ => ?_
  refine .bindNewLabel fun divide s₂ _ h₂ => ?_
  refine .bindNewLabel fun done s₃ _ h₃ => ?_
  simp only [List.mem_cons, not_or] at h₂ h₃
  refine .bind (.emit' hk rfl Inst.steps_test fun s₄ _ => ?_)
  refine .bind (.jcc hk (by simp) (fun hc s₅ _ => ?_) fun hc s₅ _ => ?_)
  · -- the divisor is not zero
    simp only [Registers.operand, Cond.holds_ne_and_self, decide_eq_true_eq] at hc
    iterate 2 refine .bind (.skip (by simp) (by simp) (by simp) fun _ _ _ => ?_)
    refine .bind (.attach fun s₈ _ => ?_)
    rw [if_pos rfl]
    refine .bind (.emit' hk rfl Inst.steps_cmp fun s₉ _ => ?_)
    refine .bind (.jcc hk (by simp) (fun hc' s₁₀ _ => ?_) fun hc' s₁₀ _ => ?_)
    all_goals simp only [Registers.operand, Cond.holds_ne_sub, low_immediate, decide_eq_true_eq, decide_eq_false_iff_not, not_not, Registers.gpr_flags] at hc'
    · refine .bind (.skip (by simp) (by simp) (by simp) fun _ s₁₁ _ => ?_)
      iterate 2 refine .bind (.skip (by simp) (by simp) (by simp) fun _ _ _ => ?_)
      refine .bind (.attach fun s₁₄ _ => ?_)
      rw [if_pos rfl]
      refine .divide hk hy hc (fun hm => hc' hm.2) fun s₁₅ r' hr' => .attach fun s₁₆ _ => ?_
      rw [if_neg (Spot.next_ne_label _)]
      exact ⟨rfl, rfl, hr'.of_flags.of_flags⟩
    · -- the divisor is minus one
      refine .negate hk fun s₁₁ r' hr' _ => ?_
      refine .bind (.jmp hk (by simp) fun s₁₂ _ => ?_)
      iterate 3 refine .bind (.skip (by simp) (by simp) (by simp) fun _ _ _ => ?_)
      refine .attach fun s₁₆ _ => ?_
      rw [if_pos rfl, hc', show (-1 : Int32).toInt = -1 from rfl, Int.tdiv_neg, Int.tdiv_one]
      exact ⟨rfl, rfl, hr'.of_flags.of_flags⟩
  · -- the divisor is zero
    simp only [Registers.operand, Cond.holds_ne_and_self, decide_eq_false_iff_not, not_not] at hc
    refine .bind (.discard (.movImm hk fun _ s₆ _ => ?_))
    refine .bind (.jmp hk (by simp) fun s₇ _ => ?_)
    iterate 9 refine .bind (.skip (by simp) (by simp) (by simp) fun _ _ _ => ?_)
    refine .attach fun s₁₇ _ => ?_
    rw [if_pos rfl, hc, Int32.toInt_zero, Int.tdiv_zero]
    exact ⟨rfl, rfl, .of_setGpr (fun _ _ _ => rfl) rfl⟩

lemma modTruncating (hk : k.Sound) (hy : q ≠ y) :
    k.Wp ls s (modTruncating q x y) ⟨.next, r, mem⟩ (fun _ _ t => t.Shows
      (Integer.remainder true false (low (r.gpr x)).toInt (low (r.gpr y)).toInt) q r mem) T := by
  rw [Integer.remainder, if_pos rfl]
  refine .bindNewLabel fun divide s₁ _ h₁ => ?_
  refine .bindNewLabel fun isZero s₂ _ h₂ => ?_
  refine .bindNewLabel fun done s₃ _ h₃ => ?_
  simp only [List.mem_cons, not_or] at h₂ h₃
  refine .bind (.emit' hk rfl Inst.steps_test fun s₄ _ => ?_)
  refine .bind (.jcc hk (by simp) (fun hc s₅ _ => ?_) fun hc s₅ _ => ?_)
  all_goals simp only [Registers.operand, Cond.holds_e_and_self, decide_eq_true_eq,
    decide_eq_false_iff_not] at hc
  · -- the divisor is zero
    iterate 2 refine .bind (.skip (by simp) (by simp) (by simp) fun _ _ _ => ?_)
    refine .bind (.attach fun s₆ _ => ?_)
    rw [if_pos rfl]
    refine .bind (.discard (.movImm hk fun _ s₇ _ => ?_))
    refine .bind (.jmp hk (by simp) fun s₈ _ => ?_)
    iterate 3 refine .bind (.skip (by simp) (by simp) (by simp) fun _ _ _ => ?_)
    refine .attach fun s₉ _ => ?_
    rw [if_pos rfl, hc, Int32.toInt_zero, if_pos rfl]
    exact ⟨rfl, rfl, .of_setGpr (fun _ _ _ => rfl) rfl⟩
  · refine .bind (.emit' hk rfl Inst.steps_cmp fun s₆ _ => ?_)
    refine .bind (.jcc hk (by simp) (fun hc' s₇ _ => ?_) fun hc' s₇ _ => ?_)
    all_goals simp only [Registers.operand, Cond.holds_ne_sub, low_immediate, decide_eq_true_eq,
      decide_eq_false_iff_not, not_not, Registers.gpr_flags] at hc'
    · refine .bind (.attach fun s₈ _ => ?_)
      rw [if_neg fun h => h₂.1 (Spot.label.inj h).symm]
      iterate 2 refine .bind (.skip (by simp) (by simp) (by simp) fun _ _ _ => ?_)
      refine .bind (.attach fun s₉ _ => ?_)
      rw [if_pos rfl]
      refine .divide hk hy hc (fun hm => hc' hm.2) fun s₁₀ r' hr' => .attach fun s₁₁ _ => ?_
      have hzero : (low (r.gpr y)).toInt ≠ 0 := fun h => hc (Int32.toInt_inj.mp h)
      rw [if_neg (Spot.next_ne_label _), if_neg hzero]
      exact ⟨rfl, rfl, hr'.of_flags.of_flags⟩
    · -- the divisor is minus one
      refine .bind (.attach fun s₈ _ => ?_)
      rw [if_neg (Spot.next_ne_label _)]
      refine .bind (.discard (.movImm hk fun _ s₉ _ => ?_))
      refine .bind (.jmp hk (by simp) fun s₁₀ _ => ?_)
      iterate 3 refine .bind (.skip (by simp) (by simp) (by simp) fun _ _ _ => ?_)
      refine .attach fun s₁₁ _ => ?_
      rw [if_pos rfl, hc', show (-1 : Int32).toInt = -1 from rfl, if_neg (by decide), Int.tmod_neg,
        Int.tmod_one]
      exact ⟨rfl, rfl, .of_setGpr (fun _ _ _ => rfl) rfl⟩

/-- The machine leaves where there is no quotient. -/
lemma divisionGuards {Q : Unit → State → Moment → Prop} (hk : k.Sound)
    (hout : low (r.gpr y) = 0 ∨ (low (r.gpr x) = Int32.minValue ∧ low (r.gpr y) = -1) →
      ∀ s' r', Q () s' ⟨.exit .overflow, r', mem⟩)
    (hok : low (r.gpr y) ≠ 0 → ¬(low (r.gpr x) = Int32.minValue ∧ low (r.gpr y) = -1) →
      ∀ s' f, Q () s' ⟨.next, { r with flags := f }, mem⟩) :
    k.Wp ls s (divisionGuards x y) ⟨.next, r, mem⟩ Q T := by
  refine .bind (.emit' hk rfl Inst.steps_test fun s₁ _ => ?_)
  refine .bind (.guard hk (by decide) (fun hc e s₂ _ _ => ?_) fun hc e s₂ _ he => ?_)
  all_goals simp only [Registers.operand, Cond.holds_e_and_self, decide_eq_true_eq,
    decide_eq_false_iff_not] at hc
  · refine .bindNewLabel fun ok s₃ _ _ => ?_
    iterate 4 refine .bind (.skip (by simp) (by simp) (by simp) fun _ _ _ => ?_)
    refine .attach fun s₄ _ => ?_
    rw [if_neg (Spot.exit_ne_label _ _)]
    exact hout (.inl hc) s₄ _
  · refine .bindNewLabel fun ok s₃ h₃ _ => ?_
    refine .bind (.emit' hk rfl Inst.steps_cmp fun s₄ h₄ => ?_)
    refine .bind (.jcc hk (by simp) (fun hc' s₅ _ => ?_) fun hc' s₅ h₅ => ?_)
    all_goals simp only [Registers.operand, Cond.holds_ne_sub, low_immediate, decide_eq_true_eq,
      decide_eq_false_iff_not, not_not, Registers.gpr_flags] at hc'
    · iterate 2 refine .bind (.skip (by simp) (by simp) (by simp) fun _ _ _ => ?_)
      refine .attach fun s₆ _ => ?_
      rw [if_pos rfl]
      exact hok hc (fun hm => hc' hm.2) s₆ _
    · refine .bind (.emit' hk rfl Inst.steps_cmp fun s₆ h₆ => ?_)
      have he₆ := he.extends ((((h₃.trans h₄).trans h₅).trans h₆).proceeds.toExtends)
      refine .bind (.jccExit hk he₆ (fun hc'' s₇ _ => ?_) fun hc'' s₇ _ => ?_)
      all_goals
        simp only [Registers.operand, Cond.holds_e_sub, low_immediate, decide_eq_true_eq,
          decide_eq_false_iff_not, Registers.gpr_flags] at hc''
        refine .attach fun s₈ _ => ?_
      · rw [if_neg (Spot.exit_ne_label _ _)]
        exact hout (.inr ⟨hc'', hc'⟩) s₈ _
      · rw [if_neg (Spot.next_ne_label _)]
        exact hok hc (fun hm => hc'' hm.1) s₈ _

/-- A quotient that is not exact leaves a remainder. -/
lemma divideExactly {Q : Unit → State → Moment → Prop} (hk : k.Sound) (hx : q ≠ x) (hy : q ≠ y)
    (hxs : x ≠ .scratch) (hys : y ≠ .scratch) (hqs : q ≠ .scratch) (hzero : low (r.gpr y) ≠ 0)
    (hfits : ¬(low (r.gpr x) = Int32.minValue ∧ low (r.gpr y) = -1))
    (hQ : ∀ s' t, t.Shows (if (low (r.gpr y)).toInt ∣ (low (r.gpr x)).toInt
      then .ok ((low (r.gpr x)).toInt.tdiv (low (r.gpr y)).toInt) else .error .overflow) q r mem →
      Q () s' t) :
    k.Wp ls s (do
      Lowering.mov q x
      Lowering.emit' (.div32 false q y)
      Lowering.mov .scratch x
      Lowering.emit' (.div32 true .scratch y)
      test32 .scratch (.reg .scratch)
      Lowering.guard' .overflow .ne) ⟨.next, r, mem⟩ Q T := by
  refine .divide hk hy hzero hfits fun s₁ r₁ h₁ => ?_
  have hx₁ : r₁.gpr x = r.gpr x := h₁.gpr hx.symm hxs
  have hy₁ : r₁.gpr y = r.gpr y := h₁.gpr hy.symm hys
  refine .divide hk hys.symm (by rwa [hy₁]) (by rwa [hx₁, hy₁]) fun s₂ r₂ h₂ => ?_
  rw [if_pos rfl, hx₁, hy₁] at h₂
  have hgives : r.Gives q ((low (r.gpr x)).toInt.tdiv (low (r.gpr y)).toInt) r₂ :=
    ⟨(h₂.gpr hqs hqs).trans h₁.result, fun hp hs => (h₂.gpr hs hs).trans (h₁.gpr hp hs),
      h₂.fpr.trans h₁.fpr⟩
  have hrest : low (r₂.gpr .scratch) = 0 ↔ (low (r.gpr y)).toInt ∣ (low (r.gpr x)).toInt := by
    rw [h₂.result, low_extend, ← Int32.toInt_mod, Int32.ofInt_toInt, ← Int32.toInt_inj,
      Int32.toInt_mod, Int32.toInt_zero]
    exact Int.dvd_iff_tmod_eq_zero.symm
  refine .bind (.emit' hk rfl Inst.steps_test fun s₃ _ => ?_)
  refine .guard' hk (by decide) (fun hc s₄ _ => ?_) fun hc s₄ _ => ?_
  all_goals simp only [Registers.operand, Cond.holds_ne_and_self, decide_eq_true_eq,
    decide_eq_false_iff_not, not_not, ne_eq, hrest] at hc
  · rw [if_neg hc] at hQ
    exact hQ s₄ _ ⟨rfl, rfl⟩
  · rw [if_pos hc] at hQ
    exact hQ s₄ _ ⟨rfl, rfl, ⟨hgives.result, hgives.gpr, hgives.fpr⟩⟩

lemma divExact {negZero : Bool} (hk : k.Sound) (hx : q ≠ x) (hy : q ≠ y) (hxs : x ≠ .scratch)
    (hys : y ≠ .scratch) (hqs : q ≠ .scratch) :
    k.Wp ls s (divExact negZero q x y) ⟨.next, r, mem⟩ (fun _ _ t => t.Shows
      (Integer.quotient false negZero (low (r.gpr x)).toInt (low (r.gpr y)).toInt) q r mem) T := by
  unfold Lowering.divExact
  refine .bind (.divisionGuards hk (fun hbad s₁ r₁ => ?_) fun hzero hfits s₁ f => ?_)
  · have hshows : Integer.quotient false negZero (low (r.gpr x)).toInt (low (r.gpr y)).toInt =
        .error .overflow := by
      unfold Integer.quotient
      rw [if_neg Bool.false_ne_true, if_pos]
      rw [Integer.toInt_zero_iff, ← or_assoc, Integer.toInt_unfit_iff]
      exact .inl hbad
    rw [hshows]
    refine .ite (fun _ => .bindNewLabel fun nonzero s₂ _ _ => ?_) fun _ => ?_
    · iterate 10 refine .bind (.skip (by simp) (by simp) (by simp) fun _ _ _ => ?_)
      exact .skip (by simp) (by simp) (by simp) fun _ _ _ => ⟨rfl, rfl⟩
    · iterate 5 refine .bind (.skip (by simp) (by simp) (by simp) fun _ _ _ => ?_)
      exact .skip (by simp) (by simp) (by simp) fun _ _ _ => ⟨rfl, rfl⟩
  · have hy0 := Integer.toInt_zero_iff.not.mpr hzero
    have hm := Integer.toInt_unfit_iff.not.mpr hfits
    have hdivide : ∀ ls' s' g,
        ¬(negZero = true ∧ (low (r.gpr x)).toInt = 0 ∧ (low (r.gpr y)).toInt < 0) →
        k.Wp ls' s' (do
          Lowering.mov q x
          Lowering.emit' (.div32 false q y)
          Lowering.mov .scratch x
          Lowering.emit' (.div32 true .scratch y)
          test32 .scratch (.reg .scratch)
          Lowering.guard' .overflow .ne) ⟨.next, { r with flags := g }, mem⟩ (fun _ _ t => t.Shows
            (Integer.quotient false negZero (low (r.gpr x)).toInt (low (r.gpr y)).toInt) q r mem)
          T := by
      intro ls' s' g hn
      rw [Integer.quotient_exact hy0 hm hn]
      exact .divideExactly hk hx hy hxs hys hqs hzero hfits fun s₂ t ht => ht.of_flags
    refine .ite (fun hneg => .bindNewLabel fun nonzero s₂ _ _ => ?_) fun hneg => ?_
    · refine .bind (.emit' hk rfl Inst.steps_test fun s₃ _ => ?_)
      refine .bind (.jcc hk (by simp) (fun hc s₄ _ => ?_) fun hc s₄ _ => ?_)
      all_goals simp only [Registers.operand, Cond.holds_ne_and_self, decide_eq_true_eq,
        decide_eq_false_iff_not, not_not, ne_eq, Registers.gpr_flags] at hc
      · iterate 2 refine .bind (.skip (by simp) (by simp) (by simp) fun _ _ _ => ?_)
        refine .bind (.attach fun s₅ _ => ?_)
        rw [if_pos rfl]
        exact hdivide _ s₅ _ fun h => hc (Integer.toInt_zero_iff.mp h.2.1)
      · refine .bind (.emit' hk rfl Inst.steps_test fun s₅ _ => ?_)
        refine .bind (.guard' hk (by decide) (fun hc' s₆ _ => ?_) fun hc' s₆ _ => ?_)
        all_goals simp only [Registers.operand, Cond.holds_s_and_self, decide_eq_true_eq,
          decide_eq_false_iff_not, Registers.gpr_flags] at hc'
        · -- a zero is divided by a negative integer
          have hx0 := Integer.toInt_zero_iff.mpr hc
          have hshows : Integer.quotient false negZero (low (r.gpr x)).toInt
              (low (r.gpr y)).toInt = .error .negativeZero := by
            unfold Integer.quotient
            rw [if_neg Bool.false_ne_true, if_neg, if_pos ⟨hneg, hx0, hc'⟩]
            simp [hx0, hy0]
          rw [hshows]
          iterate 6 refine .bind (.skip (by simp) (by simp) (by simp) fun _ _ _ => ?_)
          exact .skip (by simp) (by simp) (by simp) fun _ _ _ => ⟨rfl, rfl⟩
        · refine .bind (.attach fun s₇ _ => ?_)
          rw [if_neg (Spot.next_ne_label _)]
          exact hdivide _ s₇ _ fun h => hc' h.2.2
    · exact hdivide _ s₁ f fun h => hneg h.1

lemma modExact {negZero : Bool} (hk : k.Sound) (hx : q ≠ x) (hy : q ≠ y) (hxs : x ≠ .scratch) :
    k.Wp ls s (modExact negZero q x y) ⟨.next, r, mem⟩ (fun _ _ t => t.Shows
      (Integer.remainder false negZero (low (r.gpr x)).toInt (low (r.gpr y)).toInt) q r mem) T := by
  unfold Lowering.modExact
  refine .bind (.divisionGuards hk (fun hbad s₁ r₁ => ?_) fun hzero hfits s₁ f => ?_)
  · have hshows : Integer.remainder false negZero (low (r.gpr x)).toInt (low (r.gpr y)).toInt =
        .error .overflow := by
      unfold Integer.remainder
      rw [if_neg Bool.false_ne_true, if_pos]
      rwa [Integer.toInt_zero_iff, Integer.toInt_unfit_iff]
    rw [hshows]
    iterate 2 refine .bind (.skip (by simp) (by simp) (by simp) fun _ _ _ => ?_)
    refine .ite (fun _ => .bindNewLabel fun done s₂ _ _ => ?_) fun _ => .pure ⟨rfl, rfl⟩
    iterate 4 refine .bind (.skip (by simp) (by simp) (by simp) fun _ _ _ => ?_)
    refine .attach fun s₃ _ => ?_
    rw [if_neg (Spot.exit_ne_label _ _)]
    exact ⟨rfl, rfl⟩
  · have hy0 := Integer.toInt_zero_iff.not.mpr hzero
    have hm := Integer.toInt_unfit_iff.not.mpr hfits
    rw [Integer.remainder_exact hy0 hm]
    refine .divide hk hy hzero hfits fun s₂ r₂ h₂ => ?_
    have hgives : r.Gives q ((low (r.gpr x)).toInt.tmod (low (r.gpr y)).toInt) r₂ := h₂.of_flags
    have hrest : low (r₂.gpr q) = 0 ↔ (low (r.gpr x)).toInt.tmod (low (r.gpr y)).toInt = 0 := by
      rw [hgives.result, low_extend, ← Int32.toInt_mod, Int32.ofInt_toInt, ← Int32.toInt_inj,
        Int32.toInt_mod, Int32.toInt_zero]
    have hx₂ : r₂.gpr x = r.gpr x := hgives.gpr hx.symm hxs
    refine .ite (fun hneg => .bindNewLabel fun done s₃ _ _ => ?_) fun hneg => .pure ?_
    · refine .bind (.emit' hk rfl Inst.steps_test fun s₄ _ => ?_)
      refine .bind (.jcc hk (by simp) (fun hc s₅ _ => ?_) fun hc s₅ _ => ?_)
      all_goals simp only [Registers.operand, Cond.holds_ne_and_self, decide_eq_true_eq,
        decide_eq_false_iff_not, not_not, ne_eq, hrest] at hc
      · iterate 2 refine .bind (.skip (by simp) (by simp) (by simp) fun _ _ _ => ?_)
        refine .attach fun s₆ _ => ?_
        rw [if_pos rfl, if_neg fun h => hc h.2.2]
        exact ⟨rfl, rfl, ⟨hgives.result, hgives.gpr, hgives.fpr⟩⟩
      · refine .bind (.emit' hk rfl Inst.steps_test fun s₆ _ => ?_)
        refine .bind (.guard' hk (by decide) (fun hc' s₇ _ => ?_) fun hc' s₇ _ => ?_)
        all_goals
          simp only [Registers.operand, Cond.holds_s_and_self, decide_eq_true_eq,
            decide_eq_false_iff_not, Registers.gpr_flags, hx₂] at hc'
          refine .attach fun s₈ _ => ?_
        · rw [if_neg (Spot.exit_ne_label _ _), if_pos ⟨hneg, hc', hc⟩]
          exact ⟨rfl, rfl⟩
        · rw [if_neg (Spot.next_ne_label _), if_neg fun h => hc' h.2.1]
          exact ⟨rfl, rfl, ⟨hgives.result, hgives.gpr, hgives.fpr⟩⟩
    · rw [if_neg fun h => hneg h.1]
      exact ⟨rfl, rfl, hgives⟩

end Wp
end Course
end Speculation
