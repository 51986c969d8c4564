import Speculation.Proofs.Running.Exact
import Speculation.Proofs.Running.Results

/-!
Integer arithmetic while code is running.
-/

namespace Speculation

open Lowering

namespace Course

variable {k : Course} {ls : List Label} {s s' : State} {r r' : Registers} {mem mem' : Memory}
  {t : Moment} {q : Gpr} {a b : Edge} {x y : Int32} {xs : List Int32} {d : Node} {facts : Facts}
  {Q : State → Moment → Prop} {T : State → Moment → Prop}

def Integers (g : Graph) (val : NodeId → Value) (facts : Facts) (d : Node) (xs : List Int32) : Prop :=
  ∀ (j : Nat) (x : Int32), xs[j]? = some x →
    ∃ e, d.children[j]? = some e ∧ isInt e = true ∧ Integral g val facts e x

lemma arithMode_int32 (ha : isInt a = true) (hb : isInt b = true) : arithMode a b = .int32 := by
  simp [arithMode, ha, hb]

namespace Ends

section Operands

variable (hk : k.Sound) (h : Stands k.val s.ledger r mem) (ha : Integral k.env.graph k.val s.facts a x)
include hk h ha

lemma operand {f : GprOperand → Gpr → Lower Unit}
    (hf : ∀ op q s' r' mem', Apart q [op.reg] → s'.Taken (.gpr q) → Stands k.val s'.ledger r' mem' →
      low (r'.gpr op.reg) = x → k.Ends ls s' (f op q) ⟨.next, r', mem'⟩ Q T) :
    k.Ends ls s (do
      let op1 ← Lowering.fillInt a
      let q ← Lowering.allocGpr
      f op1 q) ⟨.next, r, mem⟩ Q T := by
  refine .bind (.fillIntegral hk h ha fun op1 s₁ r₁ mem₁ hb₁ hlow₁ => ?_)
  refine .bind (.allocGpr hk hb₁.stands fun q s₂ mem₂ hh hp₂ h₂ => ?_)
  have hlocked : ∀ p ∈ [op1.reg], 0 < s₁.locks (.gpr p) := by
    simpa using hb₁.filled.lock
  exact hf op1 q s₂ r₁ mem₂ (.of_handed hh hlocked) hh.taken h₂ hlow₁

lemma operands {f : GprOperand → GprOperand → Gpr → Lower Unit} (hb : Integral k.env.graph k.val s.facts b y)
    (hf : ∀ op op' q s' r' mem', Apart q [op.reg, op'.reg] → s'.Taken (.gpr q) →
      Stands k.val s'.ledger r' mem' → low (r'.gpr op.reg) = x → low (r'.gpr op'.reg) = y →
      k.Ends ls s' (f op op' q) ⟨.next, r', mem'⟩ Q T) :
    k.Ends ls s (do
      let op1 ← Lowering.fillInt a
      let op2 ← Lowering.fillInt b
      let q ← Lowering.allocGpr
      f op1 op2 q) ⟨.next, r, mem⟩ Q T := by
  refine .bind (.fillIntegral hk h ha fun op1 s₁ r₁ mem₁ hb₁ hlow₁ => ?_)
  have hb' : Integral k.env.graph k.val s₁.facts b y := hb₁.preserves.facts ▸ hb
  refine .bind (.fillIntegral hk hb₁.stands hb' fun op2 s₂ r₂ mem₂ hb₂ hlow₂ => ?_)
  refine .bind (.allocGpr hk hb₂.stands fun q s₃ mem₃ hh hp₃ h₃ => ?_)
  have hlocked : ∀ p ∈ [op1.reg, op2.reg], 0 < s₂.locks (.gpr p) := by
    simpa using And.intro (hb₁.filled.of_onward hb₂.preserves.onward).lock hb₂.filled.lock
  -- the second fill has left the first operand alone
  have hlow : low (r₂.gpr op1.reg) = x := by
    rw [hb₂.preserves.gpr hb₁.filled.lock]
    exact hlow₁
  exact hf op1 op2 q s₃ r₂ mem₃ (.of_handed hh hlocked) hh.taken h₃ hlow hlow₂

/-- The second operand may be an immediate. -/
lemma rhs {f : GprOperand → Operand → Gpr → Lower Unit} (hb : Integral k.env.graph k.val s.facts b y)
    (hf : ∀ op o q s' r' mem', Apart q [op.reg] → (∀ p, o = .reg p → Apart q [p]) →
      s'.Taken (.gpr q) → Stands k.val s'.ledger r' mem' → low (r'.gpr op.reg) = x →
      low (r'.operand o) = y → k.Ends ls s' (f op o q) ⟨.next, r', mem'⟩ Q T) :
    k.Ends ls s (do
      let op1 ← Lowering.fillInt a
      let src ← Lowering.intRhs b
      let q ← Lowering.allocGpr
      f op1 src q) ⟨.next, r, mem⟩ Q T := by
  refine .bind (.fillIntegral hk h ha fun op1 s₁ r₁ mem₁ hb₁ hlow₁ => ?_)
  have hb' : Integral k.env.graph k.val s₁.facts b y := hb₁.preserves.facts ▸ hb
  refine .bind (.rhsIntegral hk hb₁.stands hb' fun o s₂ r₂ mem₂ hp₂ h₂ ho hlow₂ => ?_)
  refine .bind (.allocGpr hk h₂ fun q s₃ mem₃ hh hp₃ h₃ => ?_)
  have hleft : ∀ p ∈ [op1.reg], 0 < s₂.locks (.gpr p) := by
    simpa using (hb₁.filled.of_onward hp₂.onward).lock
  have hright : ∀ p', o = .reg p' → ∀ p ∈ [p'], 0 < s₂.locks (.gpr p) := by
    intro p' hp'
    simpa using ho p' hp'
  have hlow : low (r₂.gpr op1.reg) = x := by
    rw [hp₂.gpr hb₁.filled.lock]
    exact hlow₁
  exact hf op1 o q s₃ r₂ mem₃ (.of_handed hh hleft) (fun p' hp' => .of_handed hh (hright p' hp'))
    hh.taken h₃ hlow hlow₂

end Operands

section Node

variable (hd : k.env.graph.nodes[k.cur]? = some d)
include hd

lemma node {f : Node → Lower Unit} (hf : k.Ends ls s (f d) t Q T) :
    k.Ends ls s (Lowering.currentNode >>= f) t Q T :=
  .currentNode fun d' hd' => by
    cases hd.symm.trans hd'
    exact hf

lemma integer {j : Nat} {f : Edge → Lower Unit} (hx : Integers k.env.graph k.val facts d xs)
    (hj : xs[j]? = some x)
    (hf : ∀ e, isInt e = true → Integral k.env.graph k.val facts e x → k.Ends ls s (f e) t Q T) :
    k.Ends ls s (Lowering.child j >>= f) t Q T :=
  .child fun d' e' hd' he' => by
    cases hd.symm.trans hd'
    obtain ⟨e, he, hint, hval⟩ := hx j x hj
    cases he.symm.trans he'
    exact hf e' hint hval

variable (hk : k.Sound) (hu : Unborn k.env.graph k.cur k.before) (h : Stands k.val s.ledger r mem)
include hk hu h

lemma lowerMul (hx : Integers k.env.graph k.val s.facts d [x, y]) :
    k.Ends ls s Lowering.lowerMul ⟨.next, r, mem⟩ (k.Computes (Integer.exactly
      d.flags.canTruncate d.flags.needsNegZero (x.toInt * y.toInt)
      (x.toInt * y.toInt = 0 ∧ (x.toInt < 0 ∨ y.toInt < 0)))) T := by
  refine .node hd (.integer hd hx rfl fun a hai ha => .integer hd hx rfl fun b hbi hb => ?_)
  rw [arithMode_int32 hai hbi]
  show k.Ends ls s (mulInt d a b) ⟨.next, r, mem⟩ _ T
  rw [mulInt_eq]
  refine .rhs hk h ha hb fun op o q s₁ r₁ mem₁ hq ho ht h₁ hlow hlow' => ?_
  subst hlow hlow'
  have hop : op.reg ∈ [op.reg] := List.mem_cons_self
  exact .shown hu ht h₁ .mulCode (.mulCode hk hq.scratch (hq.ne hop) (hq.operand hop) fun p hp =>
    ⟨(ho p hp).ne List.mem_cons_self, (ho p hp).operand List.mem_cons_self⟩)

lemma lowerNegate (hx : Integers k.env.graph k.val s.facts d [x]) :
    k.Ends ls s Lowering.lowerNegate ⟨.next, r, mem⟩ (k.Computes (Integer.exactly
      d.flags.canTruncate d.flags.needsNegZero (-x.toInt) (x.toInt = 0))) T := by
  refine .node hd (.integer hd hx rfl fun a hai ha => ?_)
  have hkind : a.kind = .int32 ∨ a.kind = .knownInt32 := by simpa [isInt] using hai
  have hcode : k.Ends ls s (do
      let op1 ← Lowering.fillInt a
      let q ← Lowering.allocGpr
      negateCode d.flags.canTruncate d.flags.needsNegZero q op1.reg
      Lowering.gprResult q .int32) ⟨.next, r, mem⟩ (k.Computes (Integer.exactly
        d.flags.canTruncate d.flags.needsNegZero (-x.toInt) (x.toInt = 0))) T := by
    refine .operand hk h ha fun op q s₁ r₁ mem₁ hq ht h₁ hlow => ?_
    subst hlow
    exact .shown hu ht h₁ .negateCode (.negateCode hk)
  rw [← negateInt_eq] at hcode
  rcases hkind with hkind | hkind <;> rw [hkind] <;> exact hcode

lemma lowerAbs (hx : Integers k.env.graph k.val s.facts d [x]) :
    k.Ends ls s Lowering.lowerAbs ⟨.next, r, mem⟩ (k.Computes (Integer.exactly
      d.flags.canTruncate false |x.toInt| False)) T := by
  refine .node hd (.integer hd hx rfl fun a hai ha => ?_)
  rw [if_pos hai, absInt_eq]
  refine .operand hk h ha fun op q s₁ r₁ mem₁ hq ht h₁ hlow => ?_
  subst hlow
  exact .shown hu ht h₁ .absCode (.absCode hk hq.scratch (hq.ne List.mem_cons_self))

lemma lowerMinMax (isMin : Bool) (hx : Integers k.env.graph k.val s.facts d [x, y]) :
    k.Ends ls s (Lowering.lowerMinMax isMin) ⟨.next, r, mem⟩ (k.Computes (.ok
      (if isMin then min x.toInt y.toInt else max x.toInt y.toInt))) T := by
  refine .integer hd hx rfl fun a hai ha => .integer hd hx rfl fun b hbi hb => ?_
  rw [if_pos (arithMode_int32 hai hbi), minMaxInt_eq]
  refine .operands hk h ha hb fun op op' q s₁ r₁ mem₁ hq ht h₁ hlow hlow' => ?_
  subst hlow hlow'
  have hop : op.reg ∈ [op.reg, op'.reg] := List.mem_cons_self
  have hop' : op'.reg ∈ [op.reg, op'.reg] := List.mem_cons_of_mem _ List.mem_cons_self
  exact .shown hu ht h₁ .minMaxCode (.minMaxCode hk hq.scratch (hq.ne hop) (hq.ne hop'))

lemma lowerDiv (hx : Integers k.env.graph k.val s.facts d [x, y]) :
    k.Ends ls s Lowering.lowerDiv ⟨.next, r, mem⟩ (k.Computes (Integer.quotient
      d.flags.canTruncate d.flags.needsNegZero x.toInt y.toInt)) T := by
  refine .node hd (.integer hd hx rfl fun a hai ha => .integer hd hx rfl fun b hbi hb => ?_)
  rw [arithMode_int32 hai hbi]
  refine .operands hk h ha hb fun op op' q s₁ r₁ mem₁ hq ht h₁ hlow hlow' => ?_
  subst hlow hlow'
  have hop : op.reg ∈ [op.reg, op'.reg] := List.mem_cons_self
  have hop' : op'.reg ∈ [op.reg, op'.reg] := List.mem_cons_of_mem _ List.mem_cons_self
  refine .ite (fun hc => ?_) fun hc => ?_
  · rw [hc]
    exact .shown hu ht h₁ .divTruncating (.divTruncating hk (hq.ne hop'))
  · have hneg : guardsNegZero d = d.flags.needsNegZero := by simp [guardsNegZero, hc]
    rw [Bool.eq_false_iff.mpr hc, hneg]
    exact .shown hu ht h₁ .divExact (.divExact hk (hq.ne hop) (hq.ne hop') (hq.operand hop)
      (hq.operand hop') hq.scratch)

lemma lowerMod (hx : Integers k.env.graph k.val s.facts d [x, y]) :
    k.Ends ls s Lowering.lowerMod ⟨.next, r, mem⟩ (k.Computes (Integer.remainder
      d.flags.canTruncate d.flags.needsNegZero x.toInt y.toInt)) T := by
  refine .node hd (.integer hd hx rfl fun a hai ha => .integer hd hx rfl fun b hbi hb => ?_)
  rw [arithMode_int32 hai hbi]
  refine .operands hk h ha hb fun op op' q s₁ r₁ mem₁ hq ht h₁ hlow hlow' => ?_
  subst hlow hlow'
  have hop : op.reg ∈ [op.reg, op'.reg] := List.mem_cons_self
  have hop' : op'.reg ∈ [op.reg, op'.reg] := List.mem_cons_of_mem _ List.mem_cons_self
  refine .ite (fun hc => ?_) fun hc => ?_
  · rw [hc]
    exact .shown hu ht h₁ .modTruncating (.modTruncating hk (hq.ne hop'))
  · have hneg : guardsNegZero d = d.flags.needsNegZero := by simp [guardsNegZero, hc]
    rw [Bool.eq_false_iff.mpr hc, hneg]
    exact .shown hu ht h₁ .modExact (.modExact hk (hq.ne hop) (hq.ne hop') (hq.operand hop))

end Node

end Ends
end Course
end Speculation
