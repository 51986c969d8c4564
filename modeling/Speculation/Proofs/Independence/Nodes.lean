import Speculation.Lowering.Block
import Speculation.Proofs.Independence.Operands

/-!
Lowering a node in two lowerings.
-/

namespace Speculation
namespace Lowering
namespace Similar

variable {c : Twins} {ls : List (Label × Label)} {e a b : Edge}

/-! ### Arithmetic -/

@[simp] lemma intRhs (h : c.Shares e.node) : Similar c ls Eq (intRhs e) (intRhs e) := by
  refine bindGraph ?_
  rw [h.int32Constant]
  refine bindEq (assume _) fun c => ?_
  split
  · exact pureEq _
  · exact bindEq (fillInt h) fun _ => pureEq _

@[simp] lemma intResultFrom (h : c.Shares e.node) (op : GprOperand) :
    Similar c ls Eq (intResultFrom e op) (intResultFrom e op) := by
  unfold Lowering.intResultFrom
  with_reducible repeat' first
    | refine bindChild fun _ _ => ?_ | refine bindCurrentNode fun _ _ => ?_
    | refine bindNewLabel fun _ _ => ?_ | refine bindHere fun _ _ => ?_ | refine bindGuard fun _ _ _ => ?_
    | refine bindEq ?_ fun _ => ?_ | refine ite ?_ ?_ | split
  all_goals simp [*]

@[simp] lemma doubleBinary (op : DoubleOp) (ha : c.Shares a.node) (hb : c.Shares b.node) :
    Similar c ls Eq (doubleBinary op a b) (doubleBinary op a b) := by
  unfold Lowering.doubleBinary
  with_reducible repeat' first
    | refine bindChild fun _ _ => ?_ | refine bindCurrentNode fun _ _ => ?_
    | refine bindNewLabel fun _ _ => ?_ | refine bindHere fun _ _ => ?_ | refine bindGuard fun _ _ _ => ?_
    | refine bindEq ?_ fun _ => ?_ | refine ite ?_ ?_ | split
  all_goals simp [*]

@[simp] lemma doubleUnary (op : DoubleUnary) (ha : c.Shares a.node) :
    Similar c ls Eq (doubleUnary op a) (doubleUnary op a) := by
  unfold Lowering.doubleUnary
  with_reducible repeat' first
    | refine bindChild fun _ _ => ?_ | refine bindCurrentNode fun _ _ => ?_
    | refine bindNewLabel fun _ _ => ?_ | refine bindHere fun _ _ => ?_ | refine bindGuard fun _ _ _ => ?_
    | refine bindEq ?_ fun _ => ?_ | refine ite ?_ ?_ | split
  all_goals simp [*]

@[simp] lemma valueResult (operands : List Gpr) :
    Similar c ls Eq (valueResult operands) (valueResult operands) :=
  bindEq (forIn fun _ _ => bindEq (unlockGpr _) fun _ => pureEq _) fun _ =>
    bindEq callResultGpr fun _ => gprResult _ _

@[simp] lemma genericBinary (op : Option GenericArith) (ha : c.Shares a.node) (hb : c.Shares b.node) :
    Similar c ls Eq (genericBinary op a b) (genericBinary op a b) := by
  unfold Lowering.genericBinary
  with_reducible repeat' first
    | refine bindChild fun _ _ => ?_ | refine bindCurrentNode fun _ _ => ?_
    | refine bindNewLabel fun _ _ => ?_ | refine bindHere fun _ _ => ?_ | refine bindGuard fun _ _ _ => ?_
    | refine bindEq ?_ fun _ => ?_ | refine ite ?_ ?_ | split
  all_goals simp [*]

@[simp] lemma onlyLeftConstant (ha : c.Shares a.node) (hb : c.Shares b.node) :
    Similar c ls Eq (onlyLeftConstant a b) (onlyLeftConstant a b) := by
  refine bindGraph ?_
  rw [ha.int32Constant, hb.int32Constant]
  refine bindEq (assume _) fun x => ?_
  split
  · exact bindEq (assume _) fun _ => pureEq _
  · exact pureEq _

@[simp] lemma addInt (n : Node) (ha : c.Shares a.node) (hb : c.Shares b.node) :
    Similar c ls Eq (addInt n a b) (addInt n a b) := by
  refine bindEq (onlyLeftConstant ha hb) fun swap => ?_
  cases swap
  all_goals
    with_reducible repeat' first | refine bindEq ?_ fun _ => ?_ | refine ite ?_ ?_ | split
  all_goals simp [*]

@[simp] lemma lowerAdd :
    Similar c ls Eq (lowerAdd) (lowerAdd) := by
  unfold Lowering.lowerAdd
  with_reducible repeat' first
    | refine bindChild fun _ _ => ?_ | refine bindCurrentNode fun _ _ => ?_
    | refine bindNewLabel fun _ _ => ?_ | refine bindHere fun _ _ => ?_ | refine bindGuard fun _ _ _ => ?_
    | refine bindEq ?_ fun _ => ?_ | refine ite ?_ ?_ | split
  all_goals simp [*]

@[simp] lemma subInt (n : Node) (ha : c.Shares a.node) (hb : c.Shares b.node) :
    Similar c ls Eq (subInt n a b) (subInt n a b) := by
  unfold Lowering.subInt
  with_reducible repeat' first
    | refine bindChild fun _ _ => ?_ | refine bindCurrentNode fun _ _ => ?_
    | refine bindNewLabel fun _ _ => ?_ | refine bindHere fun _ _ => ?_ | refine bindGuard fun _ _ _ => ?_
    | refine bindEq ?_ fun _ => ?_ | refine ite ?_ ?_ | split
  all_goals simp [*]

@[simp] lemma lowerSub :
    Similar c ls Eq (lowerSub) (lowerSub) := by
  unfold Lowering.lowerSub
  with_reducible repeat' first
    | refine bindChild fun _ _ => ?_ | refine bindCurrentNode fun _ _ => ?_
    | refine bindNewLabel fun _ _ => ?_ | refine bindHere fun _ _ => ?_ | refine bindGuard fun _ _ _ => ?_
    | refine bindEq ?_ fun _ => ?_ | refine ite ?_ ?_ | split
  all_goals simp [*]

@[simp] lemma mulInt (n : Node) (ha : c.Shares a.node) (hb : c.Shares b.node) :
    Similar c ls Eq (mulInt n a b) (mulInt n a b) := by
  unfold Lowering.mulInt
  with_reducible repeat' first
    | refine bindChild fun _ _ => ?_ | refine bindCurrentNode fun _ _ => ?_
    | refine bindNewLabel fun _ _ => ?_ | refine bindHere fun _ _ => ?_ | refine bindGuard fun _ _ _ => ?_
    | refine bindEq ?_ fun _ => ?_ | refine ite ?_ ?_ | split
  all_goals simp [*]

@[simp] lemma lowerMul :
    Similar c ls Eq (lowerMul) (lowerMul) := by
  unfold Lowering.lowerMul
  with_reducible repeat' first
    | refine bindChild fun _ _ => ?_ | refine bindCurrentNode fun _ _ => ?_
    | refine bindNewLabel fun _ _ => ?_ | refine bindHere fun _ _ => ?_ | refine bindGuard fun _ _ _ => ?_
    | refine bindEq ?_ fun _ => ?_ | refine ite ?_ ?_ | split
  all_goals simp [*]

@[simp] lemma lowerNegate :
    Similar c ls Eq (lowerNegate) (lowerNegate) := by
  unfold Lowering.lowerNegate
  with_reducible repeat' first
    | refine bindChild fun _ _ => ?_ | refine bindCurrentNode fun _ _ => ?_
    | refine bindNewLabel fun _ _ => ?_ | refine bindHere fun _ _ => ?_ | refine bindGuard fun _ _ _ => ?_
    | refine bindEq ?_ fun _ => ?_ | refine ite ?_ ?_ | split
  all_goals simp [*]

@[simp] lemma divisionGuards (dividend divisor : Gpr) :
    Similar c ls Eq (divisionGuards dividend divisor) (divisionGuards dividend divisor) := by
  unfold Lowering.divisionGuards
  with_reducible repeat' first
    | refine bindChild fun _ _ => ?_ | refine bindCurrentNode fun _ _ => ?_
    | refine bindNewLabel fun _ _ => ?_ | refine bindHere fun _ _ => ?_ | refine bindGuard fun _ _ _ => ?_
    | refine bindEq ?_ fun _ => ?_ | refine ite ?_ ?_ | split
  all_goals simp [*]

@[simp] lemma divTruncating (r x y : Gpr) :
    Similar c ls Eq (divTruncating r x y) (divTruncating r x y) := by
  unfold Lowering.divTruncating
  with_reducible repeat' first
    | refine bindChild fun _ _ => ?_ | refine bindCurrentNode fun _ _ => ?_
    | refine bindNewLabel fun _ _ => ?_ | refine bindHere fun _ _ => ?_ | refine bindGuard fun _ _ _ => ?_
    | refine bindEq ?_ fun _ => ?_ | refine ite ?_ ?_ | split
  all_goals simp [*]

@[simp] lemma divExact (negZero : Bool) (r x y : Gpr) :
    Similar c ls Eq (divExact negZero r x y) (divExact negZero r x y) := by
  unfold Lowering.divExact
  with_reducible repeat' first
    | refine bindChild fun _ _ => ?_ | refine bindCurrentNode fun _ _ => ?_
    | refine bindNewLabel fun _ _ => ?_ | refine bindHere fun _ _ => ?_ | refine bindGuard fun _ _ _ => ?_
    | refine bindEq ?_ fun _ => ?_ | refine ite ?_ ?_ | split
  all_goals simp [*]

@[simp] lemma lowerDiv :
    Similar c ls Eq (lowerDiv) (lowerDiv) := by
  unfold Lowering.lowerDiv
  with_reducible repeat' first
    | refine bindChild fun _ _ => ?_ | refine bindCurrentNode fun _ _ => ?_
    | refine bindNewLabel fun _ _ => ?_ | refine bindHere fun _ _ => ?_ | refine bindGuard fun _ _ _ => ?_
    | refine bindEq ?_ fun _ => ?_ | refine ite ?_ ?_ | split
  all_goals simp [*]

@[simp] lemma modTruncating (r x y : Gpr) :
    Similar c ls Eq (modTruncating r x y) (modTruncating r x y) := by
  unfold Lowering.modTruncating
  with_reducible repeat' first
    | refine bindChild fun _ _ => ?_ | refine bindCurrentNode fun _ _ => ?_
    | refine bindNewLabel fun _ _ => ?_ | refine bindHere fun _ _ => ?_ | refine bindGuard fun _ _ _ => ?_
    | refine bindEq ?_ fun _ => ?_ | refine ite ?_ ?_ | split
  all_goals simp [*]

@[simp] lemma modExact (negZero : Bool) (r x y : Gpr) :
    Similar c ls Eq (modExact negZero r x y) (modExact negZero r x y) := by
  unfold Lowering.modExact
  with_reducible repeat' first
    | refine bindChild fun _ _ => ?_ | refine bindCurrentNode fun _ _ => ?_
    | refine bindNewLabel fun _ _ => ?_ | refine bindHere fun _ _ => ?_ | refine bindGuard fun _ _ _ => ?_
    | refine bindEq ?_ fun _ => ?_ | refine ite ?_ ?_ | split
  all_goals simp [*]

@[simp] lemma lowerMod :
    Similar c ls Eq (lowerMod) (lowerMod) := by
  unfold Lowering.lowerMod
  with_reducible repeat' first
    | refine bindChild fun _ _ => ?_ | refine bindCurrentNode fun _ _ => ?_
    | refine bindNewLabel fun _ _ => ?_ | refine bindHere fun _ _ => ?_ | refine bindGuard fun _ _ _ => ?_
    | refine bindEq ?_ fun _ => ?_ | refine ite ?_ ?_ | split
  all_goals simp [*]

@[simp] lemma lowerAbs :
    Similar c ls Eq (lowerAbs) (lowerAbs) := by
  unfold Lowering.lowerAbs
  with_reducible repeat' first
    | refine bindChild fun _ _ => ?_ | refine bindCurrentNode fun _ _ => ?_
    | refine bindNewLabel fun _ _ => ?_ | refine bindHere fun _ _ => ?_ | refine bindGuard fun _ _ _ => ?_
    | refine bindEq ?_ fun _ => ?_ | refine ite ?_ ?_ | split
  all_goals simp [*]

@[simp] lemma lowerMinMax (isMin : Bool) :
    Similar c ls Eq (lowerMinMax isMin) (lowerMinMax isMin) := by
  unfold Lowering.lowerMinMax
  with_reducible repeat' first
    | refine bindChild fun _ _ => ?_ | refine bindCurrentNode fun _ _ => ?_
    | refine bindNewLabel fun _ _ => ?_ | refine bindHere fun _ _ => ?_ | refine bindGuard fun _ _ _ => ?_
    | refine bindEq ?_ fun _ => ?_ | refine ite ?_ ?_ | split
  all_goals simp [*]

@[simp] lemma lowerSqrt :
    Similar c ls Eq (lowerSqrt) (lowerSqrt) := by
  unfold Lowering.lowerSqrt
  with_reducible repeat' first
    | refine bindChild fun _ _ => ?_ | refine bindCurrentNode fun _ _ => ?_
    | refine bindNewLabel fun _ _ => ?_ | refine bindHere fun _ _ => ?_ | refine bindGuard fun _ _ _ => ?_
    | refine bindEq ?_ fun _ => ?_ | refine ite ?_ ?_ | split
  all_goals simp [*]

@[simp] lemma lowerBit (op : BitOp) : Similar c ls Eq (lowerBit op) (lowerBit op) := by
  refine bindChild fun a ha => bindChild fun b hb => bindEq (fillInt ha) fun op1 => bindGraph ?_
  rw [hb.int32Constant]
  refine bindEq (assume _) fun c => ?_
  split
  all_goals
    with_reducible repeat' first | refine bindEq ?_ fun _ => ?_ | refine ite ?_ ?_ | split
  all_goals simp [*]

/-! ### Conversions -/

@[simp] lemma lowerValueToInt32 :
    Similar c ls Eq (lowerValueToInt32) (lowerValueToInt32) := by
  unfold Lowering.lowerValueToInt32
  with_reducible repeat' first
    | refine bindChild fun _ _ => ?_ | refine bindCurrentNode fun _ _ => ?_
    | refine bindNewLabel fun _ _ => ?_ | refine bindHere fun _ _ => ?_ | refine bindGuard fun _ _ _ => ?_
    | refine bindEq ?_ fun _ => ?_ | refine ite ?_ ?_ | split
  all_goals simp [*]

@[simp] lemma lowerUInt32ToNumber :
    Similar c ls Eq (lowerUInt32ToNumber) (lowerUInt32ToNumber) := by
  unfold Lowering.lowerUInt32ToNumber
  with_reducible repeat' first
    | refine bindChild fun _ _ => ?_ | refine bindCurrentNode fun _ _ => ?_
    | refine bindNewLabel fun _ _ => ?_ | refine bindHere fun _ _ => ?_ | refine bindGuard fun _ _ _ => ?_
    | refine bindEq ?_ fun _ => ?_ | refine ite ?_ ?_ | split
  all_goals simp [*]

@[simp] lemma lowerInt32ToDouble :
    Similar c ls Eq (lowerInt32ToDouble) (lowerInt32ToDouble) := by
  unfold Lowering.lowerInt32ToDouble
  with_reducible repeat' first
    | refine bindChild fun _ _ => ?_ | refine bindCurrentNode fun _ _ => ?_
    | refine bindNewLabel fun _ _ => ?_ | refine bindHere fun _ _ => ?_ | refine bindGuard fun _ _ _ => ?_
    | refine bindEq ?_ fun _ => ?_ | refine ite ?_ ?_ | split
  all_goals simp [*]

@[simp] lemma lowerDoubleAsInt32 :
    Similar c ls Eq (lowerDoubleAsInt32) (lowerDoubleAsInt32) := by
  unfold Lowering.lowerDoubleAsInt32
  with_reducible repeat' first
    | refine bindChild fun _ _ => ?_ | refine bindCurrentNode fun _ _ => ?_
    | refine bindNewLabel fun _ _ => ?_ | refine bindHere fun _ _ => ?_ | refine bindGuard fun _ _ _ => ?_
    | refine bindEq ?_ fun _ => ?_ | refine ite ?_ ?_ | split
  all_goals simp [*]

/-! ### Comparisons and branches -/

/-- The branch that goes with a comparison is a node of the block. -/
lemma fusableBranch : Similar c ls
    (fun x y => x = y ∧ ∀ t f, x = some (t, f) → c.Target t ∧ c.Target f) fusableBranch fusableBranch := by
  refine bindGraph (bindGet fun w s₁ s₂ hs _ => bindCurrentNode fun d _ => ite (pure ⟨rfl, by simp⟩) ?_)
  rw [hs.block₁, hs.block₂, hs.position, hs.current, c.block_eq]
  rcases hb : c.e₁.graph.block c.block with _ | blk
  · exact throw _
  simp only [Lowering.assume, pure_bind]
  rcases hn : blk.nodes[s₁.position + 1]? with _ | next
  · exact pure ⟨rfl, by simp⟩
  have hm := Twins.member_of_block hb (Array.mem_of_getElem? hn)
  refine bindNode hm fun d hd => ?_
  split
  · rename_i t f hop
    refine bindEq (assume _) fun e => ite (pure ⟨rfl, ?_⟩) (pure ⟨rfl, by simp⟩)
    intro t' f' heq
    cases heq
    exact ⟨⟨next, d, hm, hd, by simp [hop, Op.targets]⟩, ⟨next, d, hm, hd, by simp [hop, Op.targets]⟩⟩
  · exact pure ⟨rfl, by simp⟩

/-- The outcome of a comparison goes to blocks that the block may go on to. -/
def Aims (c : Twins) : CompareTarget → Prop
  | .branch t f => c.Target t ∧ c.Target f
  | .value _ => True

@[simp] lemma finishCompare (k : Cond) {target : CompareTarget} (h : Aims c target) :
    Similar c ls Eq (finishCompare k target) (finishCompare k target) := by
  cases target with
  | branch t f => exact branch k h.1 h.2
  | value r => exact bindEq (emit' _) fun _ => bindEq (alu64 _ _ _) fun _ => gprResult _ _

@[simp] lemma masqueradeGuard (cells : List Gpr) :
    Similar c ls Eq (masqueradeGuard cells) (masqueradeGuard cells) := by
  refine bindRead ?_
  rw [c.noMasquerades]
  refine ite (guardWatchpoint _) (bindEq (forIn fun x _ => ?_) fun _ => pureEq _)
  with_reducible repeat' refine bindEq ?_ fun _ => ?_
  all_goals simp

@[simp] lemma guardOther (v : Gpr) : Similar c ls Eq (guardOther v) (guardOther v) := by
  unfold Lowering.guardOther
  with_reducible repeat' refine bindEq ?_ fun _ => ?_
  all_goals simp

@[simp] lemma objectOrOtherEq (ha : c.Shares a.node) (hb : c.Shares b.node) {target : CompareTarget}
    (h : Aims c target) :
    Similar c ls Eq (objectOrOtherEq a b target) (objectOrOtherEq a b target) := by
  unfold Lowering.objectOrOtherEq
  cases target with
  | value r =>
    with_reducible repeat' first | refine bindNewLabel fun _ _ => ?_ | refine bindEq ?_ fun _ => ?_
    all_goals simp [*]
  | branch t f =>
    obtain ⟨ht, hf⟩ := h
    with_reducible repeat' first
      | refine bindNewLabel fun _ _ => ?_ | refine bindBlockLabel ht fun _ _ _ => ?_
      | refine bindBlockLabel hf fun _ _ _ => ?_ | refine bindEq ?_ fun _ => ?_
    all_goals simp [*]

@[simp] lemma genericCompare (op : Comparison) (ha : c.Shares a.node) (hb : c.Shares b.node)
    {fused : Option (BlockId × BlockId)} (h : ∀ t f, fused = some (t, f) → c.Target t ∧ c.Target f) :
    Similar c ls Eq (genericCompare op a b fused) (genericCompare op a b fused) := by
  unfold Lowering.genericCompare
  rcases fused with _ | ⟨t, f⟩
  · with_reducible repeat' refine bindEq ?_ fun _ => ?_
    all_goals simp [*]
  · obtain ⟨ht, hf⟩ := h t f rfl
    with_reducible repeat' refine bindEq ?_ fun _ => ?_
    all_goals simp [*]

@[simp] lemma compareInto (op : Comparison) (ha : c.Shares a.node) (hb : c.Shares b.node)
    {target : CompareTarget} (h : Aims c target) :
    Similar c ls Eq (compareInto op a b target) (compareInto op a b target) := by
  unfold Lowering.compareInto
  with_reducible repeat' first | refine bindEq ?_ fun _ => ?_ | refine ite ?_ ?_
  all_goals simp [*]

@[simp] lemma lowerCompare (op : Comparison) :
    Similar c ls Eq (lowerCompare op) (lowerCompare op) := by
  refine bindChild fun a ha => bindChild fun b hb => fusableBranch.bind ?_
  rintro fused _ ⟨rfl, h⟩
  refine ite (bindEq (modify fun _ _ _ hs => ?skip) fun _ => ?_) ?_
  case skip => exact { hs with puts := { hs.puts with }, skipNext := rfl }
  all_goals
    refine ite (genericCompare op ha hb h) ?_
    rcases fused with _ | ⟨t, f⟩
    · exact bindEq allocGpr fun r => compareInto op ha hb (show Aims c (.value r) from trivial)
    · exact compareInto op ha hb (show Aims c (.branch t f) from h t f rfl)

@[simp] lemma compareZero (f : Fpr) : Similar c ls Eq (compareZero f) (compareZero f) :=
  bindEq (discard_movImm _ _) fun _ => bindEq (emit' _) fun _ => emit' _


@[simp] lemma lowerNot :
    Similar c ls Eq (lowerNot) (lowerNot) := by
  unfold Lowering.lowerNot
  with_reducible repeat' first
    | refine bindChild fun _ _ => ?_ | refine bindCurrentNode fun _ _ => ?_
    | refine bindNewLabel fun _ _ => ?_ | refine bindHere fun _ _ => ?_ | refine bindGuard fun _ _ _ => ?_
    | refine bindEq ?_ fun _ => ?_ | refine ite ?_ ?_ | split
  all_goals simp [*]

@[simp] lemma lowerBranch {t f : BlockId} (ht : c.Target t) (hf : c.Target f) :
    Similar c ls Eq (lowerBranch t f) (lowerBranch t f) := by
  unfold Lowering.lowerBranch
  with_reducible repeat' first
    | refine bindChild fun _ _ => ?_ | refine bindBlockLabel hf fun _ _ _ => ?_
    | refine bindEq ?_ fun _ => ?_ | split
  all_goals simp [*]

/-! ### Locals, calls, switches and returns -/

@[simp] lemma lowerGetLocal (v : VarId) :
    Similar c ls Eq (lowerGetLocal v) (lowerGetLocal v) := by
  unfold Lowering.lowerGetLocal
  with_reducible repeat' first
    | refine bindChild fun _ _ => ?_ | refine bindCurrentNode fun _ _ => ?_
    | refine bindNewLabel fun _ _ => ?_ | refine bindHere fun _ _ => ?_ | refine bindGuard fun _ _ _ => ?_
    | refine bindEq ?_ fun _ => ?_ | refine ite ?_ ?_ | split
  all_goals simp [*]

@[simp] lemma storeBoxed (op : GprOperand) (raw : DataFormat) (tag : Operand) (x : Address) :
    Similar c ls Eq (storeBoxed op raw tag x) (storeBoxed op raw tag x) := by
  unfold Lowering.storeBoxed
  with_reducible repeat' first
    | refine bindChild fun _ _ => ?_ | refine bindCurrentNode fun _ _ => ?_
    | refine bindNewLabel fun _ _ => ?_ | refine bindHere fun _ _ => ?_ | refine bindGuard fun _ _ _ => ?_
    | refine bindEq ?_ fun _ => ?_ | refine ite ?_ ?_ | split
  all_goals simp [*]

@[simp] lemma lowerSetLocal (v : VarId) :
    Similar c ls Eq (lowerSetLocal v) (lowerSetLocal v) := by
  unfold Lowering.lowerSetLocal
  with_reducible repeat' first
    | refine bindChild fun _ _ => ?_ | refine bindCurrentNode fun _ _ => ?_
    | refine bindNewLabel fun _ _ => ?_ | refine bindHere fun _ _ => ?_ | refine bindGuard fun _ _ _ => ?_
    | refine bindEq ?_ fun _ => ?_ | refine ite ?_ ?_ | split
  all_goals simp [*]

@[simp] lemma storeOutgoing (f : FrameLayout) {xs : List (Edge × Nat)}
    (h : ∀ x ∈ xs, c.Shares x.1.node) :
    Similar c ls Eq (storeOutgoing f xs) (storeOutgoing f xs) := by
  induction xs with
  | nil => exact pureEq _
  | cons x rest ih =>
    obtain ⟨e, i⟩ := x
    exact bindEq (fillValue (h _ List.mem_cons_self)) fun j => bindEq (store64 _ _) fun _ =>
      bindEq (unlockGpr _) fun _ => ih fun y hy => h y (List.mem_cons_of_mem _ hy)

@[simp] lemma lowerCall : Similar c ls Eq lowerCall lowerCall := by
  refine bindCurrentNode fun n hn => bindRead ?_
  rw [c.frame]
  refine bindEq (storeOutgoing _ fun x hx => hn _ ?_) fun _ => bindEq flushRegisters fun _ =>
    bindEq (discard_movImm _ _) fun _ => bindEq (store64 _ _) fun _ => bindEq (store64 _ _) fun _ =>
    bindEq (mov _ _) fun _ => bindEq (alu64 _ _ _) fun _ => (emitReloc_call _).bind fun o o' ho =>
    bindEq (modify fun _ _ _ hs => ?_) fun _ => bindEq exceptionCheck fun _ =>
    bindEq callResultGpr fun _ => gprResult _ _
  · have hmem := List.fst_mem_of_mem_zipIdx hx
    simpa using hmem
  · exact { hs with puts := { hs.puts with calls := hs.puts.calls.push ⟨ho, rfl⟩ } }

@[simp] lemma lowerSwitch {data : SwitchData} (h : c.Target data.fallthrough) :
    Similar c ls Eq (lowerSwitch data) (lowerSwitch data) := by
  refine bindEq (modify fun _ _ _ hs => ?_) fun _ => bindChild fun e he => ?_
  · exact { hs with
      puts := { hs.puts with switches := hs.puts.switches.push hs.current.symm } }
  have hgeneric : ∀ helper : Helper, Similar c ls Eq
      (do
        let j ← Lowering.fillValue e
        Lowering.callHelper helper [.imm (UInt64.ofNat data.table), .gpr j.reg]
        Lowering.emit' (.jmpReg .result))
      (do
        let j ← Lowering.fillValue e
        Lowering.callHelper helper [.imm (UInt64.ofNat data.table), .gpr j.reg]
        Lowering.emit' (.jmpReg .result)) := fun helper =>
    bindEq (fillValue he) fun _ => bindEq (callHelper _ _) fun _ => emit' _
  dsimp only
  split
  · exact hgeneric _
  · refine ite (bindRead ?_) (hgeneric _)
    rw [c.dense]
    split
    · exact fail _
    · with_reducible repeat' first
        | refine bindBlockLabel h fun _ _ _ => ?_ | refine bindEq ?_ fun _ => ?_ | refine ite ?_ ?_
      all_goals simp [*]

@[simp] lemma lowerReturn : Similar c ls Eq lowerReturn lowerReturn := by
  refine bindCurrentNode fun n hn => ?_
  split
  · rename_i e he
    have he := hn e (Array.mem_of_getElem? he)
    with_reducible repeat' refine bindEq ?_ fun _ => ?_
    all_goals simp [*]
  · exact bindEq (discard_movImm _ _) fun _ => emit' _

@[simp] lemma lowerThrow : Similar c ls Eq lowerThrow lowerThrow :=
  bindChild fun _ he => bindEq (fillValue he) fun _ => bindEq (callHelper _ _) fun _ =>
    bindRead (jmp Twins.known_exception)

/-! ### Heap accesses -/

@[simp] lemma compareShape (cell : Gpr) (shape : UInt8) :
    Similar c ls Eq (compareShape cell shape) (compareShape cell shape) := by
  unfold Lowering.compareShape
  with_reducible repeat' first
    | refine bindChild fun _ _ => ?_ | refine bindCurrentNode fun _ _ => ?_
    | refine bindNewLabel fun _ _ => ?_ | refine bindHere fun _ _ => ?_ | refine bindGuard fun _ _ _ => ?_
    | refine bindEq ?_ fun _ => ?_ | refine ite ?_ ?_ | split
  all_goals simp [*]

@[simp] lemma testFlags (cell : Gpr) (flags : UInt8) :
    Similar c ls Eq (testFlags cell flags) (testFlags cell flags) := by
  unfold Lowering.testFlags
  with_reducible repeat' first
    | refine bindChild fun _ _ => ?_ | refine bindCurrentNode fun _ _ => ?_
    | refine bindNewLabel fun _ _ => ?_ | refine bindHere fun _ _ => ?_ | refine bindGuard fun _ _ _ => ?_
    | refine bindEq ?_ fun _ => ?_ | refine ite ?_ ?_ | split
  all_goals simp [*]

@[simp] lemma guardStructures (t : Gpr) {l m : Label} (h : (l, m) ∈ ls) (set : List UInt64) :
    Similar c ls Eq (guardStructures t l set) (guardStructures t m set) := by
  induction set with
  | nil => exact pureEq _
  | cons x rest ih =>
    cases rest with
    | nil => exact bindEq (discard_movImm _ _) fun _ => bindEq (cmp64 _ _) fun _ => guard' _ _
    | cons y rest =>
      exact bindEq (discard_movImm _ _) fun _ => bindEq (cmp64 _ _) fun _ =>
        bindEq (jcc _ (.inl h)) fun _ => ih

@[simp] lemma lowerCheckStructure (set : List UInt64) :
    Similar c ls Eq (lowerCheckStructure set) (lowerCheckStructure set) := by
  refine bindChild fun e he => bindGet fun w s₁ s₂ hs _ => ?_
  have hchecked : s₂.facts.isStructureChecked e.node set = s₁.facts.isStructureChecked e.node set := by
    rw [Facts.isStructureChecked, Facts.isStructureChecked, Array.getD_eq_getD_getElem?,
      Array.getD_eq_getD_getElem?, (hs.facts he).structures]
  rw [hchecked]
  with_reducible repeat' first
    | refine bindNewLabel fun _ _ => ?_ | refine bindEq ?_ fun _ => ?_ | refine ite ?_ ?_
  all_goals simp [*]

@[simp] lemma lowerCheckArray (mode : ArrayMode) :
    Similar c ls Eq (lowerCheckArray mode) (lowerCheckArray mode) := by
  refine bindChild fun e he => bindGet fun w s₁ s₂ hs _ => ?_
  have hvalid : s₂.facts.isArrayValidated e.node mode = s₁.facts.isArrayValidated e.node mode := by
    rw [Facts.isArrayValidated, Facts.isArrayValidated, Breach.get_congr (hs.facts he).arrayModes]
  rw [hvalid]
  with_reducible repeat' first
    | refine bindEq ?_ fun _ => ?_ | refine ite ?_ ?_ | split
  all_goals simp [*]

@[simp] lemma lowerArrayify (mode : ArrayMode) :
    Similar c ls Eq (lowerArrayify mode) (lowerArrayify mode) := by
  unfold Lowering.lowerArrayify
  with_reducible repeat' first
    | refine bindChild fun _ _ => ?_ | refine bindCurrentNode fun _ _ => ?_
    | refine bindNewLabel fun _ _ => ?_ | refine bindHere fun _ _ => ?_ | refine bindGuard fun _ _ _ => ?_
    | refine bindEq ?_ fun _ => ?_ | refine ite ?_ ?_ | split
  all_goals simp [*]

@[simp] lemma lowerGetStorage :
    Similar c ls Eq (lowerGetStorage) (lowerGetStorage) := by
  unfold Lowering.lowerGetStorage
  with_reducible repeat' first
    | refine bindChild fun _ _ => ?_ | refine bindCurrentNode fun _ _ => ?_
    | refine bindNewLabel fun _ _ => ?_ | refine bindHere fun _ _ => ?_ | refine bindGuard fun _ _ _ => ?_
    | refine bindEq ?_ fun _ => ?_ | refine ite ?_ ?_ | split
  all_goals simp [*]

@[simp] lemma lowerGetArrayLength (mode : ArrayMode) :
    Similar c ls Eq (lowerGetArrayLength mode) (lowerGetArrayLength mode) := by
  unfold Lowering.lowerGetArrayLength
  with_reducible repeat' first
    | refine bindChild fun _ _ => ?_ | refine bindCurrentNode fun _ _ => ?_
    | refine bindNewLabel fun _ _ => ?_ | refine bindHere fun _ _ => ?_ | refine bindGuard fun _ _ _ => ?_
    | refine bindEq ?_ fun _ => ?_ | refine ite ?_ ?_ | split
  all_goals simp [*]

@[simp] lemma guardBounds (mode : ArrayMode) (base storage index : Gpr) :
    Similar c ls Eq (guardBounds mode base storage index) (guardBounds mode base storage index) := by
  unfold Lowering.guardBounds
  with_reducible repeat' first
    | refine bindChild fun _ _ => ?_ | refine bindCurrentNode fun _ _ => ?_
    | refine bindNewLabel fun _ _ => ?_ | refine bindHere fun _ _ => ?_ | refine bindGuard fun _ _ _ => ?_
    | refine bindEq ?_ fun _ => ?_ | refine ite ?_ ?_ | split
  all_goals simp [*]

@[simp] lemma stringAccess :
    Similar c ls Eq (stringAccess) (stringAccess) := by
  unfold Lowering.stringAccess
  with_reducible repeat' first
    | refine bindChild fun _ _ => ?_ | refine bindCurrentNode fun _ _ => ?_
    | refine bindNewLabel fun _ _ => ?_ | refine bindHere fun _ _ => ?_ | refine bindGuard fun _ _ _ => ?_
    | refine bindEq ?_ fun _ => ?_ | refine ite ?_ ?_ | split
  all_goals simp [*]

@[simp] lemma lowerCharCodeAt :
    Similar c ls Eq (lowerCharCodeAt) (lowerCharCodeAt) := by
  unfold Lowering.lowerCharCodeAt
  with_reducible repeat' first
    | refine bindChild fun _ _ => ?_ | refine bindCurrentNode fun _ _ => ?_
    | refine bindNewLabel fun _ _ => ?_ | refine bindHere fun _ _ => ?_ | refine bindGuard fun _ _ _ => ?_
    | refine bindEq ?_ fun _ => ?_ | refine ite ?_ ?_ | split
  all_goals simp [*]

@[simp] lemma lowerCharAt : Similar c ls Eq lowerCharAt lowerCharAt := by
  refine bindEq stringAccess fun ⟨i, st⟩ => bindEq allocGpr fun r => bindNewLabel fun _ _ =>
    bindNewLabel fun _ _ => bindEq (load _ _ _) fun _ => bindEq (cmp32 _ _) fun _ =>
    bindEq (jcc _ (by simp)) fun _ => bindRead ?_
  rw [c.context]
  with_reducible repeat' refine bindEq ?_ fun _ => ?_
  all_goals simp

@[simp] lemma lowerGetByVal (mode : ArrayMode) :
    Similar c ls Eq (lowerGetByVal mode) (lowerGetByVal mode) := by
  unfold Lowering.lowerGetByVal
  with_reducible repeat' first
    | refine bindChild fun _ _ => ?_ | refine bindCurrentNode fun _ _ => ?_
    | refine bindNewLabel fun _ _ => ?_ | refine bindHere fun _ _ => ?_ | refine bindGuard fun _ _ _ => ?_
    | refine bindEq ?_ fun _ => ?_ | refine ite ?_ ?_ | split
  all_goals simp [*]

@[simp] lemma lowerPutByVal (mode : ArrayMode) :
    Similar c ls Eq (lowerPutByVal mode) (lowerPutByVal mode) := by
  unfold Lowering.lowerPutByVal
  with_reducible repeat' first
    | refine bindChild fun _ _ => ?_ | refine bindCurrentNode fun _ _ => ?_
    | refine bindNewLabel fun _ _ => ?_ | refine bindHere fun _ _ => ?_ | refine bindGuard fun _ _ _ => ?_
    | refine bindEq ?_ fun _ => ?_ | refine ite ?_ ?_ | split
  all_goals simp [*]

lemma cacheCheck (base tmp : Gpr) {l m : Label} (h : c.Known ls l m) :
    Similar c ls (Shifted c.t₁.asm.offset c.t₂.asm.offset) (cacheCheck base tmp l)
      (cacheCheck base tmp m) :=
  bindEq (load64 _ _) fun _ => (emit _).bind fun _ _ ho => bindEq (cmp64 _ _) fun _ =>
    bindEq (jcc _ h) fun _ => pure ho

@[simp] lemma addCache (kind : CacheKind) (ident : Nat) {imm imm' access access' : Nat}
    (hi : Shifted c.t₁.asm.offset c.t₂.asm.offset imm imm')
    (ha : Shifted c.t₁.asm.offset c.t₂.asm.offset access access') (base expected value : Gpr) :
    Similar c ls Eq (addCache kind ident imm access base expected value)
      (addCache kind ident imm' access' base expected value) := by
  refine bindCurrentNode fun d _ => modify fun _ _ _ hs => ?_
  exact { hs with puts := { hs.puts with caches := hs.puts.caches.push ⟨rfl, hi, ha⟩ } }

@[simp] lemma lowerGetById (ident : Nat) :
    Similar c ls Eq (lowerGetById ident) (lowerGetById ident) := by
  refine bindChild fun e he => ite ?_ ?_
  · refine bindEq (fillCell he) fun b => bindEq allocGpr fun r => bindNewLabel fun _ _ =>
      bindNewLabel fun _ _ => (cacheCheck _ _ (by simp)).bind fun _ _ hi =>
      (emit _).bind fun _ _ ha => ?_
    with_reducible repeat' refine bindEq ?_ fun _ => ?_
    all_goals simp [*]
  · with_reducible repeat' refine bindEq ?_ fun _ => ?_
    all_goals simp [*]

@[simp] lemma lowerPutById (ident : Nat) :
    Similar c ls Eq (lowerPutById ident) (lowerPutById ident) := by
  refine bindChild fun e he => bindChild fun v hv => ite ?_ ?_
  · refine bindEq (fillCell he) fun b => bindEq (fillValue hv) fun v => bindEq allocGpr fun r =>
      bindNewLabel fun _ _ => bindNewLabel fun _ _ =>
      (cacheCheck _ _ (by simp)).bind fun _ _ hi => (emit _).bind fun _ _ ha => ?_
    with_reducible repeat' refine bindEq ?_ fun _ => ?_
    all_goals simp [*]
  · with_reducible repeat' refine bindEq ?_ fun _ => ?_
    all_goals simp [*]

@[simp] lemma lowerCheckHasInstance :
    Similar c ls Eq (lowerCheckHasInstance) (lowerCheckHasInstance) := by
  unfold Lowering.lowerCheckHasInstance
  with_reducible repeat' first
    | refine bindChild fun _ _ => ?_ | refine bindCurrentNode fun _ _ => ?_
    | refine bindNewLabel fun _ _ => ?_ | refine bindHere fun _ _ => ?_ | refine bindGuard fun _ _ _ => ?_
    | refine bindEq ?_ fun _ => ?_ | refine ite ?_ ?_ | split
  all_goals simp [*]

@[simp] lemma walkPrototypes (r cell proto : Gpr) {l l' m m' k k' : Label} (hl : (l, l') ∈ ls)
    (hm : (m, m') ∈ ls) (hk : (k, k') ∈ ls) : Similar c ls Eq (walkPrototypes r cell proto l m k)
      (walkPrototypes r cell proto l' m' k') := by
  unfold Lowering.walkPrototypes
  with_reducible repeat' first | refine bindHere fun _ _ => ?_ | refine bindEq ?_ fun _ => ?_
  all_goals simp [hl, hm, hk]

@[simp] lemma lowerInstanceOf : Similar c ls Eq lowerInstanceOf lowerInstanceOf := by
  refine bindChild fun v hv => bindChild fun p hp => ?_
  with_reducible repeat' first
    | refine bindNewLabel fun _ _ => ?_ | refine bindEq ?_ fun _ => ?_ | refine ite ?_ ?_
  all_goals simp [*]

/-! ### All nodes -/

/-- Two lowerings of a node of their block are alike. -/
lemma lowerNode {op : Op} (h : ∀ b ∈ op.targets, c.Target b) :
    Similar c ls Eq (lowerNode op) (lowerNode op) := by
  cases op with
  | branch t f => exact lowerBranch (h t (by simp [Op.targets])) (h f (by simp [Op.targets]))
  | jump b => exact jumpToBlock (h b (by simp [Op.targets]))
  | switch data => exact lowerSwitch (h _ (by simp [Op.targets]))
  | _ => simp [Lowering.lowerNode]

end Similar
end Lowering
end Speculation
