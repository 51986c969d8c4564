import Speculation.Proofs.Running.Division

/-!
Integer operations that have one exact result.

Multiplication, negation and absolute value compute modulo `2 ^ 32`; unless that is what is wanted,
the code leaves where the exact result does not fit, or where it would be a negative zero. The least
and the greatest of two integers always fit.
-/

namespace Speculation

open Lowering

namespace Integer

/-- What becomes of an exact result. Where it is not wanted modulo `2 ^ 32` it has to fit, and must
not be a negative zero if that makes a difference. -/
def exactly (truncate negZero : Bool) (z : Int) (minusZero : Prop) [Decidable minusZero] :
    Except ExitKind Int :=
  if truncate then .ok z
  else if z < -2147483648 ∨ 2147483648 ≤ z then .error .overflow
  else if negZero ∧ minusZero then .error .negativeZero
  else .ok z

section

variable {truncate negZero : Bool} {z : Int} {minusZero : Prop} [Decidable minusZero]

lemma exactly_truncate : exactly true negZero z minusZero = .ok z := rfl

lemma exactly_overflow (h : z < -2147483648 ∨ 2147483648 ≤ z) :
    exactly false negZero z minusZero = .error .overflow := by
  rw [exactly, if_neg Bool.false_ne_true, if_pos h]

lemma exactly_fits (h : ¬(z < -2147483648 ∨ 2147483648 ≤ z)) :
    exactly false negZero z minusZero =
      if negZero ∧ minusZero then .error .negativeZero else .ok z := by
  rw [exactly, if_neg Bool.false_ne_true, if_neg h]

lemma ofInt_eq_zero_iff (h : ¬(z < -2147483648 ∨ 2147483648 ≤ z)) :
    Int32.ofInt z = 0 ↔ z = 0 := by
  rw [← Int32.toInt_inj, Int32.toInt_ofInt_of_le (by omega) (by omega), Int32.toInt_zero]

/-- Only the absolute value of the least integer looks negative. -/
lemma ofInt_abs_neg_iff {a : Int32} :
    (Int32.ofInt |a.toInt|).toInt < 0 ↔ 2147483648 ≤ |a.toInt| := by
  have hlt := a.toInt_lt
  have hle := a.le_toInt
  have habs : |a.toInt| ≤ 2147483648 := abs_le.mpr ⟨by omega, by omega⟩
  have hpos := abs_nonneg a.toInt
  rw [Int32.toInt_ofInt, Int.bmod_def, show Int32.size = 4294967296 from rfl]
  split <;> omega

end

end Integer

namespace Lowering

def mulCode (truncate negZero : Bool) (q x : Gpr) (o : Operand) : Lower Unit := do
  mov q x
  alu32 .mul q o
  unless truncate do guard' .overflow .o
  if negZero && !truncate then
    let done ← newLabel
    test32 q (.reg q)
    jcc .ne done
    mov .scratch x
    alu32 .or .scratch o
    guard' .negativeZero .s
    attach done

lemma mulInt_eq (n : Node) (a b : Edge) : mulInt n a b = (do
    let op1 ← fillInt a
    let src ← intRhs b
    let q ← allocGpr
    mulCode n.flags.canTruncate n.flags.needsNegZero q op1.reg src
    gprResult q .int32) := by
  unfold mulInt mulCode guardsNegZero
  cases n.flags.canTruncate <;> cases n.flags.needsNegZero <;> simp

def negateCode (truncate negZero : Bool) (q x : Gpr) : Lower Unit := do
  mov q x
  emit' (.neg32 q)
  unless truncate do guard' .overflow .o
  if negZero && !truncate then
    test32 q (.reg q)
    guard' .negativeZero .e

lemma negateInt_eq (n : Node) (a : Edge) : (do
    let op1 ← fillInt a
    let q ← allocGpr
    mov q op1.reg
    emit' (.neg32 q)
    unless n.flags.canTruncate do guard' .overflow .o
    if guardsNegZero n then
      test32 q (.reg q)
      guard' .negativeZero .e
    gprResult q .int32) = (do
    let op1 ← fillInt a
    let q ← allocGpr
    negateCode n.flags.canTruncate n.flags.needsNegZero q op1.reg
    gprResult q .int32) := by
  unfold negateCode guardsNegZero
  cases n.flags.canTruncate <;> cases n.flags.needsNegZero <;> simp

def absCode (truncate : Bool) (q x : Gpr) : Lower Unit := do
  mov q x
  mov .scratch x
  alu32 .sar .scratch (.imm 31)
  alu32 .add q (.reg .scratch)
  alu32 .xor q (.reg .scratch)
  unless truncate do
    test32 q (.reg q)
    guard' .overflow .s

lemma absInt_eq (n : Node) (a : Edge) : (do
    let op1 ← fillInt a
    let q ← allocGpr
    mov q op1.reg
    mov .scratch op1.reg
    alu32 .sar .scratch (.imm 31)
    alu32 .add q (.reg .scratch)
    alu32 .xor q (.reg .scratch)
    unless n.flags.canTruncate do
      test32 q (.reg q)
      guard' .overflow .s
    gprResult q .int32) = (do
    let op1 ← fillInt a
    let q ← allocGpr
    absCode n.flags.canTruncate q op1.reg
    gprResult q .int32) := by
  unfold absCode
  cases n.flags.canTruncate <;> simp

def minMaxCode (isMin : Bool) (q x y : Gpr) : Lower Unit := do
  let done ← newLabel
  emit' (.zext32 q x)
  cmp32 x (.reg y)
  jcc (if isMin then .le else .ge) done
  emit' (.zext32 q y)
  attach done

lemma minMaxInt_eq (isMin : Bool) (a b : Edge) : (do
    let op1 ← fillInt a
    let op2 ← fillInt b
    let q ← allocGpr
    let done ← newLabel
    emit' (.zext32 q op1.reg)
    cmp32 op1.reg (.reg op2.reg)
    jcc (if isMin then .le else .ge) done
    emit' (.zext32 q op2.reg)
    attach done
    gprResult q .int32) = (do
    let op1 ← fillInt a
    let op2 ← fillInt b
    let q ← allocGpr
    minMaxCode isMin q op1.reg op2.reg
    gprResult q .int32) := by
  simp [minMaxCode]

namespace Calm

lemma mulCode {truncate negZero : Bool} {q x : Gpr} {o : Operand} :
    Calm (mulCode truncate negZero q x o) := by
  unfold Lowering.mulCode
  repeat' with_reducible first | refine bind ?_ fun _ => ?_ | refine ite ?_ ?_
  all_goals simp

lemma negateCode {truncate negZero : Bool} {q x : Gpr} : Calm (negateCode truncate negZero q x) := by
  unfold Lowering.negateCode
  repeat' with_reducible first | refine bind ?_ fun _ => ?_ | refine ite ?_ ?_
  all_goals simp

lemma absCode {truncate : Bool} {q x : Gpr} : Calm (absCode truncate q x) := by
  unfold Lowering.absCode
  repeat' with_reducible first | refine bind ?_ fun _ => ?_ | refine ite ?_ ?_
  all_goals simp

lemma minMaxCode {isMin : Bool} {q x y : Gpr} : Calm (minMaxCode isMin q x y) := by
  unfold Lowering.minMaxCode
  repeat' with_reducible first | refine bind ?_ fun _ => ?_ | refine ite ?_ ?_
  all_goals simp

end Calm
end Lowering

lemma Registers.Gives.congr {r r' r'' : Registers} {q : Gpr} {z : Int} (h : r.Gives q z r')
    (hq : q ≠ .scratch) (hg : ∀ p, p ≠ .scratch → r''.gpr p = r'.gpr p) (hf : r''.fpr = r'.fpr) :
    r.Gives q z r'' where
  result := (hg q hq).trans h.result
  gpr hp hs := (hg _ hs).trans (h.gpr hp hs)
  fpr := hf.trans h.fpr

namespace Course

variable {k : Course} {ls : List Label} {s : State} {r r' : Registers} {mem : Memory} {q x y : Gpr}
  {o : Operand} {T : State → Moment → Prop} {truncate negZero : Bool}

namespace Wp

lemma multiply {β : Type} {f : Unit → Lower β} {Q : β → State → Moment → Prop} (hk : k.Sound)
    (ho : ∀ p, o = .reg p → q ≠ p)
    (hf : ∀ s' r', r.Gives q ((low (r.gpr x)).toInt * (low (r.operand o)).toInt) r' →
      r'.flags = (Size.s32.run .mul (r.gpr x) (r.operand o)).2 →
      k.Wp ls s' (f ()) ⟨.next, r', mem⟩ Q T) :
    k.Wp ls s (Lowering.mov q x >>= fun _ => alu32 .mul q o >>= f) ⟨.next, r, mem⟩ Q T := by
  refine .bind (.mov hk fun s₁ _ => .bind (.emit' hk rfl Inst.steps_alu fun s₂ _ => ?_))
  have hq : (r.setGpr q (r.gpr x)).gpr q = r.gpr x := by rw [Registers.gpr_setGpr, if_pos rfl]
  have ho' : (r.setGpr q (r.gpr x)).operand o = r.operand o :=
    Registers.operand_congr fun p hp => by rw [Registers.gpr_setGpr, if_neg (ho p hp).symm]
  rw [hq, ho', Size.run_mul]
  refine hf s₂ _ (.of_setGpr (fun p hp _ => ?_) rfl) rfl
  show (r.setGpr q (r.gpr x)).gpr p = r.gpr p
  rw [Registers.gpr_setGpr, if_neg hp]

lemma mulNegZero {X Y : Int} (hk : k.Sound) (hg : r.Gives q (X * Y) r')
    (hfits : ¬(X * Y < -2147483648 ∨ 2147483648 ≤ X * Y)) (hqs : q ≠ .scratch) (hq : q ≠ x)
    (hx : x ≠ .scratch) (ho : ∀ p, o = .reg p → q ≠ p ∧ p ≠ .scratch)
    (hX : (low (r.gpr x)).toInt = X) (hY : (low (r.operand o)).toInt = Y) :
    k.Wp ls s (do
      let done ← newLabel
      test32 q (.reg q)
      Lowering.jcc .ne done
      Lowering.mov .scratch x
      alu32 .or .scratch o
      Lowering.guard' .negativeZero .s
      Lowering.attach done) ⟨.next, r', mem⟩ (fun _ _ t => t.Shows
        (if X * Y = 0 ∧ (X < 0 ∨ Y < 0) then .error .negativeZero else .ok (X * Y)) q r mem) T := by
  have hzero : low (r'.gpr q) = 0 ↔ X * Y = 0 := by
    rw [hg.result, low_extend, Integer.ofInt_eq_zero_iff hfits]
  refine .bindNewLabel fun done s₁ _ _ => ?_
  refine .bind (.emit' hk rfl Inst.steps_test fun s₂ _ => ?_)
  refine .bind (.jcc hk (by simp) (fun hc s₃ _ => ?_) fun hc s₃ _ => ?_)
  all_goals simp only [Registers.operand, Cond.holds_ne_and_self, decide_eq_true_eq,
    decide_eq_false_iff_not, not_not, ne_eq, hzero] at hc
  · iterate 3 refine .bind (.skip (by simp) (by simp) (by simp) fun _ _ _ => ?_)
    refine .attach fun s₄ _ => ?_
    rw [if_pos rfl, if_neg fun h => hc h.1]
    exact ⟨rfl, rfl, ⟨hg.result, hg.gpr, hg.fpr⟩⟩
  · refine .bind (.mov hk fun s₃ _ => .bind (.emit' hk rfl Inst.steps_alu fun s₄ _ => ?_))
    have hx' : r'.gpr x = r.gpr x := hg.gpr hq.symm hx
    have ho' : ∀ f w, ({ r' with flags := f }.setGpr .scratch w).operand o = r.operand o :=
      fun f w => Registers.operand_congr fun p hp => by
        rw [Registers.gpr_setGpr, if_neg (ho p hp).2, Registers.gpr_flags,
          hg.gpr (ho p hp).1.symm (ho p hp).2]
    refine .bind (.guard' hk (by decide) (fun hc' s₅ _ => ?_) fun hc' s₅ _ => ?_)
    all_goals
      simp only [Cond.holds_s_or, Registers.flags_setGpr, Registers.gpr_setGpr, Registers.gpr_flags,
        ho', hx', hX, hY, if_true, decide_eq_true_eq, decide_eq_false_iff_not] at hc'
      refine .attach fun s₆ _ => ?_
    · rw [if_neg (Spot.exit_ne_label _ _), if_pos ⟨hc, hc'⟩]
      exact ⟨rfl, rfl⟩
    · rw [if_neg (Spot.next_ne_label _), if_neg fun h => hc' h.2]
      exact ⟨rfl, rfl, hg.congr hqs (fun p hp => by simp [hp]) rfl⟩

lemma mulCode (hk : k.Sound) (hqs : q ≠ .scratch) (hq : q ≠ x) (hx : x ≠ .scratch)
    (ho : ∀ p, o = .reg p → q ≠ p ∧ p ≠ .scratch) :
    k.Wp ls s (mulCode truncate negZero q x o) ⟨.next, r, mem⟩ (fun _ _ t => t.Shows
      (Integer.exactly truncate negZero ((low (r.gpr x)).toInt * (low (r.operand o)).toInt)
        ((low (r.gpr x)).toInt * (low (r.operand o)).toInt = 0 ∧
          ((low (r.gpr x)).toInt < 0 ∨ (low (r.operand o)).toInt < 0))) q r mem) T := by
  unfold Lowering.mulCode
  refine .multiply hk (fun p hp => (ho p hp).1) fun s₁ r₁ hg hflags => ?_
  cases truncate with
  | true =>
    rw [Integer.exactly_truncate]
    refine .bind (.pure (.ite (fun h => ?_) fun _ => .pure ⟨rfl, rfl, hg⟩))
    simp at h
  | false =>
    refine .bind (.guard' hk (by decide) (fun hc s₂ _ => ?_) fun hc s₂ _ => ?_)
    all_goals
      simp only [hflags, Cond.holds_o_mul, decide_eq_true_eq, decide_eq_false_iff_not] at hc
    · rw [Integer.exactly_overflow (by omega)]
      refine .ite (fun _ => .bindNewLabel fun done s₃ _ _ => ?_) fun _ => .pure ⟨rfl, rfl⟩
      iterate 5 refine .bind (.skip (by simp) (by simp) (by simp) fun _ _ _ => ?_)
      refine .attach fun s₄ _ => ?_
      rw [if_neg (Spot.exit_ne_label _ _)]
      exact ⟨rfl, rfl⟩
    · rw [Integer.exactly_fits (by omega)]
      refine .ite (fun hn => ?_) fun hn => .pure ?_
      all_goals simp only [Bool.not_false, Bool.and_true] at hn
      · rw [hn]
        simp only [true_and]
        exact .mulNegZero hk hg (by omega) hqs hq hx ho rfl rfl
      · rw [if_neg fun h => hn h.1]
        exact ⟨rfl, rfl, hg⟩

lemma negateCode (hk : k.Sound) :
    k.Wp ls s (negateCode truncate negZero q x) ⟨.next, r, mem⟩ (fun _ _ t => t.Shows
      (Integer.exactly truncate negZero (-(low (r.gpr x)).toInt) ((low (r.gpr x)).toInt = 0))
      q r mem) T := by
  have hlt := Int32.toInt_lt (low (r.gpr x))
  have hle := Int32.le_toInt (low (r.gpr x))
  have hmin : low (r.gpr x) = Int32.minValue ↔ (low (r.gpr x)).toInt = -2147483648 :=
    Int32.toInt_inj.symm
  unfold Lowering.negateCode
  refine .negate hk fun s₁ r₁ hg hflags => ?_
  cases truncate with
  | true =>
    rw [Integer.exactly_truncate]
    refine .bind (.pure (.ite (fun h => ?_) fun _ => .pure ⟨rfl, rfl, hg⟩))
    simp at h
  | false =>
    refine .bind (.guard' hk (by decide) (fun hc s₂ _ => ?_) fun hc s₂ _ => ?_)
    all_goals
      simp only [hflags, Cond.holds_o_neg, decide_eq_true_eq, decide_eq_false_iff_not, hmin] at hc
    · rw [Integer.exactly_overflow (by omega)]
      refine .ite (fun _ => ?_) fun _ => .pure ⟨rfl, rfl⟩
      refine .bind (.skip (by simp) (by simp) (by simp) fun _ _ _ => ?_)
      exact .skip (by simp) (by simp) (by simp) fun _ _ _ => ⟨rfl, rfl⟩
    · have hfits : ¬(-(low (r.gpr x)).toInt < -2147483648 ∨ 2147483648 ≤ -(low (r.gpr x)).toInt) := by
        omega
      rw [Integer.exactly_fits hfits]
      refine .ite (fun hn => ?_) fun hn => .pure ?_
      all_goals simp only [Bool.not_false, Bool.and_true] at hn
      · have hzero : low (r₁.gpr q) = 0 ↔ (low (r.gpr x)).toInt = 0 := by
          rw [hg.result, low_extend, Integer.ofInt_eq_zero_iff hfits, Int.neg_eq_zero]
        refine .bind (.emit' hk rfl Inst.steps_test fun s₃ _ => ?_)
        refine .guard' hk (by decide) (fun hc s₄ _ => ?_) fun hc s₄ _ => ?_
        all_goals simp only [Registers.operand, Cond.holds_e_and_self, decide_eq_true_eq,
          decide_eq_false_iff_not, hzero] at hc
        · rw [if_pos ⟨hn, hc⟩]
          exact ⟨rfl, rfl⟩
        · rw [if_neg fun h => hc h.2]
          exact ⟨rfl, rfl, ⟨hg.result, hg.gpr, hg.fpr⟩⟩
      · rw [if_neg fun h => hn h.1]
        exact ⟨rfl, rfl, hg⟩

lemma minMaxCode {isMin : Bool} (hk : k.Sound) (hqs : q ≠ .scratch) (hx : q ≠ x) (hy : q ≠ y) :
    k.Wp ls s (minMaxCode isMin q x y) ⟨.next, r, mem⟩ (fun _ _ t => t.Shows
      (.ok (if isMin then min (low (r.gpr x)).toInt (low (r.gpr y)).toInt
        else max (low (r.gpr x)).toInt (low (r.gpr y)).toInt)) q r mem) T := by
  have hextend : ∀ p, r.Gives q (low (r.gpr p)).toInt (r.setGpr q (r.gpr p).toUInt32.toUInt64) :=
    fun p => by
      have hword : (r.gpr p).toUInt32.toUInt64 =
          (Int32.ofInt (low (r.gpr p)).toInt).toUInt32.toUInt64 := by
        rw [Int32.ofInt_toInt]
        rfl
      rw [hword]
      exact .of_setGpr (fun _ _ _ => rfl) rfl
  refine .bindNewLabel fun done s₁ _ _ => ?_
  refine .bind (.emit' hk rfl Inst.steps_zext32 fun s₂ _ => ?_)
  refine .bind (.emit' hk rfl Inst.steps_cmp fun s₃ _ => ?_)
  refine .bind (.jcc hk (by simp) (fun hc s₄ _ => ?_) fun hc s₄ _ => ?_)
  · refine .bind (.skip (by simp) (by simp) (by simp) fun _ _ _ => .attach fun s₅ _ => ?_)
    rw [if_pos rfl]
    have hres : (if isMin then min (low (r.gpr x)).toInt (low (r.gpr y)).toInt
        else max (low (r.gpr x)).toInt (low (r.gpr y)).toInt) = (low (r.gpr x)).toInt := by
      cases isMin <;> simp [Registers.operand, hx.symm, hy.symm] at hc ⊢ <;> omega
    rw [hres]
    exact ⟨rfl, rfl, (hextend x).congr hqs (fun p _ => rfl) rfl⟩
  · refine .bind (.emit' hk rfl Inst.steps_zext32 fun s₅ _ => .attach fun s₆ _ => ?_)
    rw [if_neg (Spot.next_ne_label _)]
    have hres : (if isMin then min (low (r.gpr x)).toInt (low (r.gpr y)).toInt
        else max (low (r.gpr x)).toInt (low (r.gpr y)).toInt) = (low (r.gpr y)).toInt := by
      cases isMin <;> simp [Registers.operand, hx.symm, hy.symm] at hc ⊢ <;> omega
    rw [hres]
    refine ⟨rfl, rfl, (hextend y).congr hqs (fun p _ => ?_) rfl⟩
    simp only [Registers.gpr_setGpr, Registers.gpr_flags, if_neg hy.symm]
    split <;> rfl

lemma absCode (hk : k.Sound) (hqs : q ≠ .scratch) (hx : q ≠ x) :
    k.Wp ls s (absCode truncate q x) ⟨.next, r, mem⟩ (fun _ _ t => t.Shows
      (Integer.exactly truncate false |(low (r.gpr x)).toInt| False) q r mem) T := by
  refine .bind (.mov hk fun s₁ _ => .bind (.mov hk fun s₂ _ => ?_))
  refine .bind (.emit' hk rfl Inst.steps_alu fun s₃ _ => ?_)
  refine .bind (.emit' hk rfl Inst.steps_alu fun s₄ _ => ?_)
  refine .bind (.emit' hk rfl Inst.steps_alu fun s₅ _ => ?_)
  generalize hm : (Size.s32.run .sar (r.gpr x) (31 : Int64).toUInt64).1 = m
  have hg : ∀ r', (∀ p, p ≠ q → p ≠ .scratch → r'.gpr p = r.gpr p) → r'.fpr = r.fpr →
      r'.gpr q = (Size.s32.run .xor (Size.s32.run .add (r.gpr x) m).1 m).1 →
      r.Gives q |(low (r.gpr x)).toInt| r' := fun r' hp hf hr =>
    ⟨hr.trans (Size.run_abs hm.symm), fun hp' hs => hp _ hp' hs, hf⟩
  refine .ite (fun ht => .pure ⟨rfl, ?_⟩) fun ht => ?_
  · rw [ht, Integer.exactly_truncate]
    refine ⟨rfl, hg _ (fun p hp hs => by simp [hp, hs]) rfl ?_⟩
    simp [Registers.operand, hqs, hqs.symm, hx.symm, hm]
  · rw [Bool.eq_false_iff.mpr ht]
    refine .bind (.emit' hk rfl Inst.steps_test fun s₆ _ => ?_)
    refine .guard' hk (by decide) (fun hc s₇ _ => ?_) fun hc s₇ _ => ?_
    all_goals simp [Registers.operand, hqs, hqs.symm, hx.symm, hm, Size.run_abs hm.symm,
      Integer.ofInt_abs_neg_iff, -Int32.toInt_ofInt] at hc
    · rw [Integer.exactly_overflow (.inr hc)]
      exact ⟨rfl, rfl⟩
    · have hpos := abs_nonneg (low (r.gpr x)).toInt
      rw [Integer.exactly_fits (by omega), if_neg fun h => h.2]
      refine ⟨rfl, rfl, hg _ (fun p hp hs => by simp [hp, hs]) rfl ?_⟩
      simp [Registers.operand, hqs, hqs.symm, hx.symm, hm]

end Wp
end Course
end Speculation
