import Speculation.Proofs.Integer.Operands

/-!
Operations on integers.

The machine's 32-bit instruction computes what the operation does, and its overflow flag says whether
the result fits. `Computed` is what holds right after the instruction. Where the result overflows and
that matters, the code is left with every operand as it was: a sum that was computed over an operand
is taken back first.
-/

namespace Speculation

namespace Integer

open Lowering

def aluOf : Op → AluOp
  | .arithSub => .sub
  | .bit op => bitAlu op
  | _ => .add

lemma saddOverflow_eq (a b : BitVec 32) :
    BitVec.saddOverflow a b = overflows (a.toInt + b.toInt) := by
  unfold BitVec.saddOverflow overflows
  rw [Bool.or_comm]
  simp only [Nat.add_one_sub_one, Int.reducePow, ge_iff_le]
  congr 1

lemma ssubOverflow_eq (a b : BitVec 32) :
    BitVec.ssubOverflow a b = overflows (a.toInt - b.toInt) := by
  unfold BitVec.ssubOverflow overflows
  rw [Bool.or_comm]
  simp only [Nat.add_one_sub_one, Int.reducePow, ge_iff_le]
  congr 1

/-- The low five bits of a shift count. -/
lemma toNat_and_31 (b : BitVec 32) : (b &&& 31#32).toNat = b.toNat % 32 := by
  rw [BitVec.toNat_and]
  exact Nat.and_two_pow_sub_one_eq_mod _ 5

lemma toNat_smod_32 (b : BitVec 32) : ((b &&& 31#32).smod 32#32).toNat = b.toNat % 32 := by
  have hlt : b.toNat % 32 < 32 := Nat.mod_lt _ (by decide)
  have hmsb : (b &&& 31#32).msb = false := by
    rw [BitVec.msb_eq_false_iff_two_mul_lt, toNat_and_31]
    omega
  rw [BitVec.smod, hmsb]
  simp only [show (32#32).msb = false from rfl]
  rw [BitVec.umod_eq, BitVec.toNat_umod, toNat_and_31]
  simp

/-- The instruction computes what the operation does. -/
lemma run_arith {op : Op} {x y : UInt64} {res : Int32 × Bool}
    (h : arith op x.toUInt32.toInt32 y.toUInt32.toInt32 = some res) :
    (Size.run .s32 (aluOf op) x y).1 = res.1.toUInt32.toUInt64 ∧
      (Size.run .s32 (aluOf op) x y).2.overflow = res.2 := by
  cases op <;> simp only [arith, reduceCtorEq] at h
  case arithAdd =>
    cases h
    exact ⟨rfl, saddOverflow_eq _ _⟩
  case arithSub =>
    cases h
    exact ⟨rfl, ssubOverflow_eq _ _⟩
  case bit op =>
    cases h
    refine ⟨congrArg (fun a : BitVec 32 => (UInt32.ofBitVec a).toUInt64) ?_, by cases op <;> rfl⟩
    cases op
    case and => rfl
    case or => rfl
    case xor => rfl
    case lShift =>
      show x.toUInt32.toBitVec <<< (y.toUInt32.toBitVec.toNat % 32) =
        x.toUInt32.toBitVec <<< ((y.toUInt32.toBitVec &&& 31#32).smod 32#32)
      rw [BitVec.shiftLeft_eq', toNat_smod_32]
    case rShift =>
      show x.toUInt32.toBitVec.sshiftRight (y.toUInt32.toBitVec.toNat % 32) =
        x.toUInt32.toBitVec.sshiftRight' ((y.toUInt32.toBitVec &&& 31#32).smod 32#32)
      rw [BitVec.sshiftRight_eq', toNat_smod_32]
    case uRShift =>
      show x.toUInt32.toBitVec >>> (y.toUInt32.toBitVec.toNat % 32) =
        x.toUInt32.toBitVec >>> ((y.toUInt32.toBitVec &&& 31#32) % 32#32)
      rw [BitVec.ushiftRight_eq', BitVec.toNat_umod, toNat_and_31]
      simp

/-- Only five bits of a shift count matter. -/
lemma arith_and_31 {op : BitOp} (h : isShift op = true) (i c : Int32) :
    arith (.bit op) i (c &&& 31) = arith (.bit op) i c := by
  have hc : c &&& 31 &&& 31 = c &&& 31 := by rw [Int32.and_assoc, Int32.and_self]
  cases op <;> simp only [isShift, Bool.false_eq_true] at h <;> simp only [arith, bitwise, hc]
  have hu : (c &&& 31).toUInt32 &&& 31 = c.toUInt32 &&& 31 := congrArg Int32.toUInt32 hc
  rw [hu]

/-- The order of summands does not matter. -/
lemma arith_add_comm (i j : Int32) : arith .arithAdd i j = arith .arithAdd j i := by
  simp only [arith, Int32.add_comm i j, Int.add_comm i.toInt]

end Integer

/-- The value is an integer, and to the operation the low half of the operand is as good. -/
def Acts (op : Op) (v : Value) (o : Operand) (r : Registers) : Prop :=
  v.IsInteger ∧ ∀ i, Integer.arith op i (r.operand o).toUInt32.toInt32 = Integer.arith op i v.payload

lemma Carries.acts {v : Value} {o : Operand} {r : Registers} (h : Carries v o r) (op : Op) :
    Acts op v o r :=
  ⟨h.1, fun i => by rw [h.2]⟩

structure Scene.Operates (sc : Scene) (cur : NodeId) (d : Node) (v w : Value)
    (res : Int32 × Bool) : Prop where
  node : sc.graph.nodes[cur]? = some d
  arith : Integer.arith d.op v.payload w.payload = some res
  value : sc.val cur = .ofInt32 res.1
  bad (h : v.isInt32 = false ∨ w.isInt32 = false) :
    Integer.faultOf sc.graph sc.val cur = some (cur, .badType)
  good (hv : v.isInt32 = true) (hw : w.isInt32 = true) :
    Integer.faultOf sc.graph sc.val cur =
      if res.2 && !d.flags.canTruncate then some (cur, .overflow) else none

namespace Scene

variable {sc : Scene} {cur : NodeId} {d : Node} {v w : Value} {res : Int32 × Bool}

lemma Operates.swap (h : sc.Operates cur d v w res) (hop : d.op = .arithAdd) :
    sc.Operates cur d w v res where
  node := h.node
  arith := by
    have := h.arith
    rw [hop] at this ⊢
    rw [Integer.arith_add_comm, this]
  value := h.value
  bad hb := h.bad hb.symm
  good hv hw := h.good hw hv

lemma Operates.fault_overflow (h : sc.Operates cur d v w res) (hc : d.flags.canTruncate = false)
    (hv : v.IsInteger) (hw : w.IsInteger) (ho : res.2 = true) :
    Integer.faultOf sc.graph sc.val cur = some (cur, .overflow) := by
  rw [h.good hv.isInt32 hw.isInt32, ho, hc]
  rfl

lemma Staged.operates {blk : Block} {a b : Edge} (h : sc.Staged blk) (hn : cur ∈ sc.nodes) (hd : sc.graph.nodes[cur]? = some d)
    (hg : d.shouldGenerate = true) (hb : Integer.Binary sc.graph d a b) :
    ∃ res, sc.Operates cur d (sc.val a.node) (sc.val b.node) res := by
  obtain ⟨res, hres⟩ := hb.arith_isSome (sc.val a.node).payload (sc.val b.node).payload
  refine ⟨res, hd, hres, ?_, fun hbad => ?_, fun hv hw => ?_⟩
  · rw [h.val_eq hn hd, hb.compute_eq hres]
  · rw [faultOf_eq hd hg, hb.fault_badType hbad]
    rfl
  · rw [faultOf_eq hd hg, hb.fault_of_integers hv hw hres]
    split <;> rfl

end Scene

namespace Lowering

variable {sc : Scene} {blk : Block} {done rest : List NodeId} {cur n : NodeId} {s s' : State}
  {rs : List Gpr} {r q : Gpr} {A B : Registers → Prop} {d : Node} {e a b : Edge} {v w : Value}
  {src : Operand} {res : Int32 × Bool}

lemma Rests.acts {op : Op} (h : Held s src) : Rests s (Acts op w src) := by
  rintro regs regs' hr ⟨hi, hw⟩
  refine ⟨hi, fun i => ?_⟩
  rw [Registers.operand_congr fun q hq => hr q (h q hq), hw]

/-- The operation was computed into a register. -/
structure Computed (sc : Scene) (done : List NodeId) (s : State) (v w : Value)
    (res : Int32 × Bool) (r : Gpr) (regs : Registers) (mem : Memory) : Prop where
  stands : sc.Stands done s.ledger (s.ownerBut r) regs mem
  left : v.IsInteger
  right : w.IsInteger
  result : regs.gpr r = res.1.toUInt32.toUInt64
  overflow : regs.flags.overflow = res.2

lemma Computed.same {regs : Registers} {mem : Memory} (h : Computed sc done s v w res r regs mem)
    (hs : Same s s') : Computed sc done s' v w res r regs mem := by
  refine { h with stands := ?_ }
  unfold State.ownerBut
  rw [hs.ledger, hs.owner]
  exact h.stands

lemma Ready.does_alu (src : Operand) (hsc : sc.Staged blk) (h : Ready sc done cur rest s)
    (hlock : 0 < s.locks (.gpr r)) (hop : sc.Operates cur d v w res)
    (hB : ∀ regs regs' : Registers, (∀ q ≠ r, regs'.gpr q = regs.gpr q) → B regs → B regs') :
    Does sc s (alu32 (Integer.aluOf d.op) r src)
      (At sc done s fun regs => B regs ∧ Carries v (.reg r) regs ∧ Acts d.op w src regs)
      (fun _ s' => Ready sc done cur rest s' ∧ Same s s')
      fun _ s' regs mem => Computed sc done s' v w res r regs mem ∧ B regs := by
  refine (h.does_emit (S := fun regs mem => Computed sc done s v w res r regs mem ∧ B regs)
    hsc.linked (by simp [Inst.encode]) ?_).conseq (fun _ _ => id) (fun _ _ => id)
    fun _ s' hs regs mem hm => ⟨hm.1.same hs.2, hm.2⟩
  rintro regs mem ⟨hm, hb, ⟨hv, hcarry⟩, hw, hact⟩
  have harith : Integer.arith d.op (regs.gpr r).toUInt32.toInt32
      (regs.operand src).toUInt32.toInt32 = some res := by
    rw [hact, show (regs.gpr r).toUInt32.toInt32 = v.payload from hcarry, hop.arith]
  obtain ⟨hres, hover⟩ := Integer.run_arith harith
  refine ⟨_, _, Inst.steps_alu, ⟨?_, hv, hw, ?_, hover⟩, hB _ _ (fun p hp => ?_) hb⟩
  · exact ((stands_ownerBut hm).setFlags _).setGpr (if_pos rfl) (lt_of_locked hlock) _
  · rw [Registers.gpr_setGpr, if_pos rfl, hres]
  · rw [Registers.gpr_setGpr, if_neg hp]
    rfl

/-! ### Overflow -/

/-- No value was in the register, so that there is nothing to take back. -/
lemma Ready.does_guardOverflow (hsc : sc.Staged blk) (h : Ready sc done cur rest s)
    (hop : sc.Operates cur d v w res) (hc : d.flags.canTruncate = false)
    (hfree : s.owner (.gpr r) = none) :
    Does sc s (guard' .overflow .o) (Computed sc done s v w res r)
      (fun _ s' => Ready sc done cur rest s' ∧ Same s s')
      fun _ s' regs mem => Computed sc done s' v w res r regs mem ∧ res.2 = false := by
  have hk : ExitKind.overflow ≠ .argumentTypeCheck := by decide
  refine (h.does_guard hsc.linked hop.node hk ?_).conseq (fun _ _ => id) (fun _ _ => id) ?_
  · intro regs mem hm ho
    have hover : res.2 = true := hm.overflow.symm.trans ho
    have hstands : sc.Stands done s.ledger s.owner regs mem := by
      refine hm.stands.of_owner fun p o hp => ?_
      unfold State.ownerBut
      rw [if_neg, hp]
      rintro ⟨⟩
      rw [hfree] at hp
      cases hp
    exact h.departs hm.stands.passes (hop.fault_overflow hc hm.left hm.right hover)
      hm.stands.framed (h.restores hstands)
  · rintro _ s' ⟨-, hs⟩ regs mem ⟨hm, ho⟩
    exact ⟨hm.same hs, hm.overflow.symm.trans ho⟩

/-- Taking back a sum gives the summand, as a raw integer. -/
lemma undo_add {regs : Registers} (hsrc : (regs.operand src).toUInt32.toInt32 = w.payload)
    (hres : regs.gpr r = res.1.toUInt32.toUInt64)
    (harith : Integer.arith .arithAdd v.payload w.payload = some res) :
    (Execution.undo regs (.add r src)).gpr r = v.payload.toUInt32.toUInt64 := by
  have hsum : res.1 = v.payload + w.payload := by
    cases harith
    rfl
  have hlow : (regs.operand src).toUInt32 = w.payload.toUInt32 := by
    rw [← hsrc]
    rfl
  rw [Execution.undo, Registers.gpr_setGpr, if_pos rfl, hres, hlow, UInt32.toUInt32_toUInt64, hsum]
  congr 1
  show (v.payload + w.payload).toUInt32 - w.payload.toUInt32 = v.payload.toUInt32
  rw [← Int32.toUInt32_sub, Int32.add_sub_cancel]

/-- Once the sum has been taken back, every value can be restored. -/
lemma Ready.restores_undo {regs : Registers} {mem : Memory} (h : Ready sc done cur rest s)
    (hm : sc.Stands done s.ledger (s.ownerBut r) regs mem) (ho : Owned sc.graph s n (.gpr r))
    (hint : Integral s r) (hv : (sc.val n).IsInteger)
    (hr : (Execution.undo regs (.add r src)).gpr r = (sc.val n).payload.toUInt32.toUInt64) :
    sc.Restores s.ledger (Execution.undo regs (.add r src)) mem := by
  obtain ⟨d, i, x, he, hxl, -, -⟩ := h.coherent.entry_of_owned ho
  refine ⟨fun {j z m p} hz hm' hp => ?_, fun {j z p} hz hp => ?_, fun {j z m} hz hm' hf => ?_⟩
  · by_cases hpr : p = r
    · subst hpr
      have hzx := h.alone he hxl hz hp
      subst hzx
      rw [he.named] at hm'
      cases hm'
      rw [hr]
      -- the low half is the integer, whichever of the two formats the ledger has
      have hbox : Execution.box .int32 (sc.val n).payload.toUInt32.toUInt64 = sc.val n :=
        Holds.box ⟨rfl, hv⟩
      rcases (h.tidy hz).register (by simp [hp]) with hf | hf | hf
      · exact absurd hf (hint j z hz hp)
      · rw [hf]
        exact hbox
      · rw [hf]
        exact hbox
    · have hother : (Execution.undo regs (.add r src)).gpr p = regs.gpr p := by
        rw [Execution.undo, Registers.gpr_setGpr, if_neg hpr]
      have hown : s.ownerBut r (.gpr p) = some (.ofLocal j) := by
        unfold State.ownerBut
        rw [if_neg fun hq => hpr (Location.gpr.inj hq), ← hp]
        exact h.owner_of_location hz (by simp [hp])
      rw [hother]
      exact (hm.register hz hm' hp hown).box
  · obtain hn | ⟨_, hn⟩ := (h.tidy hz).location <;> rw [hn] at hp <;> cases hp
  · obtain ⟨w, hw, hh⟩ := hm.slot hz hm' hf
    exact ⟨w, hw, hh.box⟩

/-- The sum was computed over a summand, which the exit takes back. -/
lemma Ready.does_guardSum (hsc : sc.Staged blk) (h : Ready sc done cur rest s)
    (hop : sc.Operates cur d (sc.val n) w res) (hadd : d.op = .arithAdd)
    (hc : d.flags.canTruncate = false) (ho : Owned sc.graph s n (.gpr r)) (hint : Integral s r)
    (hlt : r.val < 12) :
    Does sc s (guardUndo .overflow .o (.add r src))
      (fun regs mem => Computed sc done s (sc.val n) w res r regs mem ∧
        (regs.operand src).toUInt32.toInt32 = w.payload)
      (fun _ s' => Ready sc done cur rest s' ∧ Same s s')
      fun _ s' regs mem => Computed sc done s' (sc.val n) w res r regs mem ∧ res.2 = false := by
  have hk : ExitKind.overflow ≠ .argumentTypeCheck := by decide
  refine (h.does_guardUndo hsc.linked hop.node hk ?_).conseq (fun _ _ => id) (fun _ _ => id) ?_
  · rintro regs mem ⟨hm, hsrc⟩ hover
    have hover : res.2 = true := hm.overflow.symm.trans hover
    have hundo := undo_add (r := r) hsrc hm.result (hadd ▸ hop.arith)
    refine h.departs hm.stands.passes (hop.fault_overflow hc hm.left hm.right hover) ?_
      (h.restores_undo hm.stands ho hint hm.left hundo)
    refine hm.stands.framed.of_frame ?_
    rw [Execution.undo, Registers.gpr_setGpr, if_neg]
    rintro rfl
    exact absurd hlt (by decide)
  · rintro _ s' ⟨-, hs⟩ regs mem ⟨⟨hm, -⟩, ho⟩
    exact ⟨hm.same hs, hm.overflow.symm.trans ho⟩

end Lowering
end Speculation
