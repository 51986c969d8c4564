import Speculation.Location
import Speculation.Proofs.Doubles
import Speculation.Proofs.Execution.Steps
import Speculation.Proofs.Values
import Mathlib.Logic.Function.Basic

/-!
Reading registers back, and what conditions say after comparisons and arithmetic.

A 32-bit operation sees the low halves of its operands only. Of the integers in them, and in terms of
exact integer arithmetic, the conditions after it say what their names promise.
-/

namespace Speculation

/-! ### Registers -/

def Registers.word (m : Registers) : Location → UInt64
  | .none => 0
  | .gpr r => m.gpr r
  | .fpr f => (m.fpr f).bits

namespace Registers

variable (m : Registers) (r q : Gpr) (f g : Fpr) (x : UInt64) (d : Double)

@[simp] lemma gpr_setGpr : (m.setGpr r x).gpr q = if q = r then x else m.gpr q := by
  simp only [gpr, setGpr, Fin.getElem_fin, Vector.getElem_set]
  by_cases h : q = r
  · simp [h]
  · have : r.val ≠ q.val := fun he => h (Fin.ext he.symm)
    simp [h, this]

@[simp] lemma fpr_setFpr : (m.setFpr f d).fpr g = if g = f then d else m.fpr g := by
  simp only [fpr, setFpr, Fin.getElem_fin, Vector.getElem_set]
  by_cases h : g = f
  · simp [h]
  · have : f.val ≠ g.val := fun he => h (Fin.ext he.symm)
    simp [h, this]

@[simp] lemma fpr_setGpr : (m.setGpr r x).fpr f = m.fpr f := rfl

@[simp] lemma gpr_flags (f : Flags) : ({ m with flags := f } : Registers).gpr q = m.gpr q := rfl

@[simp] lemma flags_setGpr : (m.setGpr r x).flags = m.flags := rfl

/-- Nothing changes. -/
lemma setGpr_gpr : m.setGpr r (m.gpr r) = m := by
  have h : m.gprs.set r (m.gprs[r]) = m.gprs := by
    ext i hi
    simp only [Vector.getElem_set, Fin.getElem_fin]
    split <;> simp_all
  rw [setGpr, gpr]
  exact congrArg (fun v => { m with gprs := v }) h

lemma operand_congr {o : Operand} {m m' : Registers} (h : ∀ q, o = .reg q → m'.gpr q = m.gpr q) :
    m'.operand o = m.operand o := by
  cases o with
  | reg q => exact h q rfl
  | imm i => rfl

lemma gpr_setGpr_eq : (m.setGpr r x).gpr = Function.update m.gpr r x := by
  funext q
  rw [gpr_setGpr, Function.update_apply]

lemma fpr_setFpr_eq : (m.setFpr f d).fpr = Function.update m.fpr f d := by
  funext g
  rw [fpr_setFpr, Function.update_apply]

end Registers

/-! ### Low halves -/

def low (w : UInt64) : Int32 := w.toUInt32.toInt32

@[simp] lemma low_extend (i : Int32) : low i.toUInt32.toUInt64 = i := by
  rw [low, UInt32.toUInt32_toUInt64]
  rfl

/-- An immediate is extended with its sign. -/
@[simp] lemma low_immediate (i : Int32) : low i.toInt64.toUInt64 = i := by
  apply Int32.toBitVec_inj.mp
  show (i.toInt64.toUInt64.toUInt32).toBitVec = i.toBitVec
  rw [UInt64.toBitVec_toUInt32]
  show (BitVec.signExtend 64 i.toBitVec).setWidth 32 = i.toBitVec
  ext k hk
  simp [BitVec.getLsbD_signExtend, hk]
  omega

variable {a b : UInt64} {d : Option Ordering}

/-- 32-bit operations see the low halves, and clear the high half of the result. -/
lemma Size.run_s32 (op : AluOp) (a b : UInt64) : Size.s32.run op a b =
    ((Int32.ofBitVec (op.run (low a).toBitVec (low b).toBitVec).1).toUInt32.toUInt64,
      (op.run (low a).toBitVec (low b).toBitVec).2) := rfl

/-! ### Words of a size -/

def Size.width : Size → Nat
  | .s32 => 32
  | .s64 => 64

def Size.word (size : Size) (a : UInt64) : BitVec size.width := a.toBitVec.setWidth size.width

/-- The word in a register for a result. Above the result it is clear. -/
def Size.extend (size : Size) (x : BitVec size.width) : UInt64 := UInt64.ofBitVec (x.setWidth 64)

lemma Size.run_eq (size : Size) (op : AluOp) (a b : UInt64) : size.run op a b =
    (size.extend (op.run (size.word a) (size.word b)).1, (op.run (size.word a) (size.word b)).2) := by
  cases size with
  | s32 => rfl
  | s64 =>
    have hword : ∀ a, Size.s64.word a = a.toBitVec := fun a => BitVec.setWidth_eq a.toBitVec
    have hextend : ∀ x, Size.s64.extend x = UInt64.ofBitVec x := fun x =>
      congrArg UInt64.ofBitVec (BitVec.setWidth_eq x)
    rw [hword, hword, hextend]
    rfl

section Words

variable {w : Nat} {a b : BitVec w}

lemma AluOp.flags_run_sub : (AluOp.sub.run a b).2 = {
    zero := a - b == 0#w
    sign := (a - b).msb
    carry := a.usubOverflow b
    overflow := a.ssubOverflow b } := rfl

/-- The difference of two words is zero if they are the same. -/
lemma AluOp.zero_run_sub : (AluOp.sub.run a b).2.zero = decide (a = b) := by
  have h : a - b = 0#w ↔ a = b := by
    rw [BitVec.sub_eq_iff_eq_add, BitVec.zero_add]
  rw [Bool.eq_iff_iff]
  simp [flags_run_sub, h]

/-- The sign of a difference is wrong exactly if the difference has overflown. -/
lemma AluOp.less_run_sub : ((AluOp.sub.run a b).2.sign != (AluOp.sub.run a b).2.overflow) =
    decide (a.toInt < b.toInt) := by
  have ha := BitVec.le_two_mul_toInt (x := a)
  have ha' := BitVec.two_mul_toInt_lt (x := a)
  have hb := BitVec.le_two_mul_toInt (x := b)
  have hb' := BitVec.two_mul_toInt_lt (x := b)
  cases w with
  | zero =>
    obtain rfl : a = b := BitVec.eq_of_zero_length rfl
    simp [flags_run_sub, BitVec.ssubOverflow]
  | succ k =>
    have hpow : (2 ^ (k + 1) : Int) = 2 * 2 ^ k := by omega
    have hcast : ((2 ^ (k + 1) : Nat) : Int) = 2 * 2 ^ k := by
      push_cast
      exact hpow
    rw [hpow] at ha ha' hb hb'
    rw [Bool.eq_iff_iff]
    simp only [flags_run_sub, BitVec.msb_eq_toInt, BitVec.ssubOverflow, BitVec.toInt_sub,
      bne_iff_ne, ne_eq, ← Bool.decide_or, decide_eq_decide, decide_eq_true_eq, Nat.add_sub_cancel]
    generalize hz : a.toInt - b.toInt = z at *
    have hle := Int.bmod_eq_of_le (n := z) (m := 2 ^ (k + 1))
    have hup := Int.bmod_eq_of_le (n := z - ((2 ^ (k + 1) : Nat) : Int)) (m := 2 ^ (k + 1))
    have hdown := Int.bmod_eq_of_le (n := z + ((2 ^ (k + 1) : Nat) : Int)) (m := 2 ^ (k + 1))
    rw [Int.sub_bmod_right] at hup
    rw [Int.add_bmod_right] at hdown
    generalize Int.bmod z (2 ^ (k + 1)) = r at *
    rw [hcast] at hle hup hdown
    have hpos : (0 : Int) < 2 ^ k := by positivity
    generalize (2 : Int) ^ k = H at *
    omega

lemma AluOp.run_add (a b : BitVec w) :
    (AluOp.add.run a b).1 = BitVec.ofInt w (a.toInt + b.toInt) ∧ (AluOp.add.run a b).2.overflow =
      decide (a.toInt + b.toInt < -2 ^ (w - 1) ∨ 2 ^ (w - 1) ≤ a.toInt + b.toInt) := by
  constructor
  · rw [BitVec.ofInt_add, BitVec.ofInt_toInt, BitVec.ofInt_toInt]
    rfl
  · rw [Bool.decide_or, Bool.or_comm]
    rfl

lemma AluOp.run_sub (a b : BitVec w) :
    (AluOp.sub.run a b).1 = BitVec.ofInt w (a.toInt - b.toInt) ∧ (AluOp.sub.run a b).2.overflow =
      decide (a.toInt - b.toInt < -2 ^ (w - 1) ∨ 2 ^ (w - 1) ≤ a.toInt - b.toInt) := by
  constructor
  · rw [Int.sub_eq_add_neg, BitVec.ofInt_add, BitVec.ofInt_neg, BitVec.ofInt_toInt, BitVec.ofInt_toInt]
    exact BitVec.sub_eq_add_neg ..
  · rw [Bool.decide_or, Bool.or_comm]
    rfl

lemma AluOp.run_mul (a b : BitVec w) :
    (AluOp.mul.run a b).1 = BitVec.ofInt w (a.toInt * b.toInt) ∧ (AluOp.mul.run a b).2.overflow =
      decide (a.toInt * b.toInt < -2 ^ (w - 1) ∨ 2 ^ (w - 1) ≤ a.toInt * b.toInt) := by
  constructor
  · rw [BitVec.ofInt_mul, BitVec.ofInt_toInt, BitVec.ofInt_toInt]
    rfl
  · rw [Bool.decide_or, Bool.or_comm]
    rfl

end Words

/-! ### Results -/

lemma Size.run_s32_of {op : AluOp} {z : Int}
    (h : (op.run (low a).toBitVec (low b).toBitVec).1 = BitVec.ofInt 32 z) :
    (Size.s32.run op a b).1 = (Int32.ofInt z).toUInt32.toUInt64 := by
  rw [run_s32, h]
  rfl

lemma Size.run_neg : (Size.s32.run .sub 0 a).1 = (Int32.ofInt (-(low a).toInt)).toUInt32.toUInt64 := by
  refine run_s32_of ?_
  have h : BitVec.ofInt 32 (low a).toInt = (low a).toBitVec := by simp [← Int32.toInt_toBitVec]
  rw [BitVec.ofInt_neg, h]
  exact BitVec.zero_sub _

lemma Size.run_mul : (Size.s32.run .mul a b).1 =
    (Int32.ofInt ((low a).toInt * (low b).toInt)).toUInt32.toUInt64 := by
  exact run_s32_of (AluOp.run_mul _ _).1

lemma sshiftRight_sign (b : BitVec 32) :
    b.sshiftRight 31 = if b.toInt < 0 then BitVec.allOnes 32 else 0#32 := by
  have hlt := b.toInt_lt
  have hle := b.le_toInt
  apply BitVec.eq_of_toInt_eq
  rw [BitVec.toInt_sshiftRight, Int.shiftRight_eq_div_pow]
  split
  · rw [BitVec.toInt_allOnes]
    simp
    omega
  · simp
    omega

/-- A sum with the sign and an exclusive or with it change the sign of a negative integer. -/
lemma Size.run_abs {m : UInt64} (hm : m = (Size.s32.run .sar a (31 : Int64).toUInt64).1) :
    (Size.s32.run .xor (Size.s32.run .add a m).1 m).1 =
      (Int32.ofInt |(low a).toInt|).toUInt32.toUInt64 := by
  have hsign : (low m).toBitVec =
      if (low a).toInt < 0 then BitVec.allOnes 32 else 0#32 := by
    rw [hm, run_s32, low_extend, ← Int32.toInt_toBitVec, ← sshiftRight_sign]
    rfl
  refine run_s32_of ?_
  rw [run_s32, low_extend, Int32.toBitVec_ofBitVec]
  show ((low a).toBitVec + (low m).toBitVec) ^^^ (low m).toBitVec = _
  rw [hsign]
  have h : BitVec.ofInt 32 (low a).toInt = (low a).toBitVec := by simp [← Int32.toInt_toBitVec]
  split
  · rename_i hneg
    rw [abs_of_neg hneg, BitVec.ofInt_neg, h]
    rw [BitVec.xor_allOnes, ← BitVec.neg_one_eq_allOnes, ← BitVec.sub_eq_add_neg, ← BitVec.not_neg,
      BitVec.not_not]
  · rename_i hneg
    rw [abs_of_nonneg (Int.not_lt.mp hneg), h, BitVec.add_zero, BitVec.xor_zero]

/-- Where the machine divides, it divides exactly as integers are divided toward zero. -/
lemma divide?_eq_some {rem : Bool} {x y : Int32} (h : y ≠ 0) (hm : ¬(x = Int32.minValue ∧ y = -1)) :
    divide? rem x y =
      some (Int32.ofInt (if rem then x.toInt.tmod y.toInt else x.toInt.tdiv y.toInt)) := by
  have hdiv : x / y = Int32.ofInt (x.toInt.tdiv y.toInt) := by
    apply Int32.toInt_inj.mp
    rw [Int32.toInt_div, Int32.toInt_ofInt]
  have hmod : x % y = Int32.ofInt (x.toInt.tmod y.toInt) := by
    rw [← Int32.toInt_mod, Int32.ofInt_toInt]
  cases rem <;> simp [divide?, h, hm, hdiv, hmod]

namespace Cond

/-! ### After a test of a register against itself -/

@[simp] lemma holds_e_and_self : e.holds (Size.s32.run .and a a).2 d = decide (low a = 0) := by
  rw [Bool.eq_iff_iff]
  show ((low a).toBitVec &&& (low a).toBitVec == 0#32) = true ↔ _
  simp [← Int32.toBitVec_inj]

@[simp] lemma holds_ne_and_self : ne.holds (Size.s32.run .and a a).2 d = decide (low a ≠ 0) := by
  rw [Bool.eq_iff_iff]
  show (!((low a).toBitVec &&& (low a).toBitVec == 0#32)) = true ↔ _
  simp [← Int32.toBitVec_inj]

@[simp] lemma holds_s_and_self :
    s.holds (Size.s32.run .and a a).2 d = decide ((low a).toInt < 0) := by
  show ((low a).toBitVec &&& (low a).toBitVec).msb = _
  simp [BitVec.msb_eq_toInt]

/-! ### After a comparison -/

lemma zero_sub : (Size.s32.run .sub a b).2.zero = decide (low a = low b) := by
  rw [Size.run_s32, AluOp.zero_run_sub, decide_eq_decide, Int32.toBitVec_inj]

lemma less_sub : ((Size.s32.run .sub a b).2.sign != (Size.s32.run .sub a b).2.overflow) =
    decide ((low a).toInt < (low b).toInt) := by
  rw [Size.run_s32, AluOp.less_run_sub]
  rfl

@[simp] lemma holds_e_sub : e.holds (Size.s32.run .sub a b).2 d = decide (low a = low b) := zero_sub

@[simp] lemma holds_ne_sub : ne.holds (Size.s32.run .sub a b).2 d = decide (low a ≠ low b) := by
  rw [decide_not, ← zero_sub]
  rfl

@[simp] lemma holds_le_sub :
    le.holds (Size.s32.run .sub a b).2 d = decide ((low a).toInt ≤ (low b).toInt) := by
  have h : low a = low b ↔ (low a).toInt = (low b).toInt := Int32.toInt_inj.symm
  rw [Bool.eq_iff_iff]
  show ((Size.s32.run .sub a b).2.zero ||
    (Size.s32.run .sub a b).2.sign != (Size.s32.run .sub a b).2.overflow) = true ↔ _
  simp only [less_sub, zero_sub, Bool.or_eq_true, decide_eq_true_eq, h]
  omega

@[simp] lemma holds_ge_sub :
    ge.holds (Size.s32.run .sub a b).2 d = decide ((low b).toInt ≤ (low a).toInt) := by
  have h := less_sub (a := a) (b := b)
  rw [Bool.eq_iff_iff] at h ⊢
  simp only [bne_iff_ne, decide_eq_true_eq] at h
  show ((Size.s32.run .sub a b).2.sign == (Size.s32.run .sub a b).2.overflow) = true ↔ _
  rw [beq_iff_eq, decide_eq_true_eq, ← Int.not_lt, ← h, not_not]

/-- The comparison with the tag tells integers from other values. -/
lemma holds_b_sub_tag {r : Registers} {q : Gpr} {v : Value}
    (h : r.gpr .numberTag = Value.numberTag) (hq : r.gpr q = v.bits) :
    Cond.holds .b (Size.run .s64 .sub (r.gpr q) (r.operand (.reg .numberTag))).2 r.order =
      !v.isInt32 := by
  rw [show r.operand (.reg .numberTag) = r.gpr .numberTag from rfl, h, hq]
  show decide (v.bits < Value.numberTag) = _
  rcases hv : v.isInt32
  · have : ¬Value.numberTag ≤ v.bits := fun hle => by simp [Value.isInt32_iff_le.mpr hle] at hv
    simpa using UInt64.not_le.mp this
  · simpa using Value.isInt32_iff_le.mp hv

/-! ### After arithmetic -/

@[simp] lemma holds_o_mul : o.holds (Size.s32.run .mul a b).2 d =
    decide ((low a).toInt * (low b).toInt < -2 ^ 31 ∨ 2 ^ 31 ≤ (low a).toInt * (low b).toInt) := by
  exact (AluOp.run_mul _ _).2

@[simp] lemma holds_s_or :
    s.holds (Size.s32.run .or a b).2 d = decide ((low a).toInt < 0 ∨ (low b).toInt < 0) := by
  show ((low a).toBitVec ||| (low b).toBitVec).msb = _
  rw [BitVec.msb_or, BitVec.msb_eq_toInt, BitVec.msb_eq_toInt, Bool.decide_or]
  rfl

/-- Only the least integer has no negation. -/
@[simp] lemma holds_o_neg : o.holds (Size.s32.run .sub 0 b).2 d =
    decide (low b = Int32.minValue) := by
  have h : low b = Int32.minValue ↔ (low b).toInt = -2147483648 := Int32.toInt_inj.symm
  have hb := Int32.toInt_lt (low b)
  have hb' := Int32.le_toInt (low b)
  have h0 : (low 0).toInt = 0 := rfl
  rw [Bool.eq_iff_iff]
  show (low 0).toBitVec.ssubOverflow (low b).toBitVec = true ↔ _
  simp [BitVec.ssubOverflow, h, h0]
  omega

end Cond

/-! ### Conditions -/

def Registers.tests (m : Registers) (c : Cond) : Bool := c.holds m.flags m.order

/-- The conditions say how two words compare, as signed integers and as unsigned ones. -/
structure Registers.Compares (m : Registers) {w : Nat} (a b : BitVec w) : Prop where
  equal : m.tests .e = decide (a.toInt = b.toInt)
  different : m.tests .ne = decide (a.toInt ≠ b.toInt)
  less : m.tests .l = decide (a.toInt < b.toInt)
  atMost : m.tests .le = decide (a.toInt ≤ b.toInt)
  greater : m.tests .g = decide (b.toInt < a.toInt)
  atLeast : m.tests .ge = decide (b.toInt ≤ a.toInt)
  below : m.tests .b = decide (a.toNat < b.toNat)
  notAbove : m.tests .be = decide (a.toNat ≤ b.toNat)
  above : m.tests .a = decide (b.toNat < a.toNat)
  notBelow : m.tests .ae = decide (b.toNat ≤ a.toNat)

/-- The conditions say whether an exact result fits into a signed word, and test the word that it
wraps around to. -/
structure Registers.Judges (m : Registers) (w : Nat) (z : Int) : Prop where
  overflow : m.tests .o = decide (z < -2 ^ (w - 1) ∨ 2 ^ (w - 1) ≤ z)
  fits : m.tests .no = decide (-2 ^ (w - 1) ≤ z ∧ z < 2 ^ (w - 1))
  negative : m.tests .s = decide ((BitVec.ofInt w z).toInt < 0)
  nonnegative : m.tests .ns = decide (0 ≤ (BitVec.ofInt w z).toInt)
  zero : m.tests .e = decide (BitVec.ofInt w z = 0)
  nonzero : m.tests .ne = decide (BitVec.ofInt w z ≠ 0)

structure Registers.Orders (m : Registers) (x y : Double) : Prop where
  equal : m.tests .dEq = true ↔ Double.Ordered x y ∧ x.extended = y.extended
  notEqual : m.tests .dNeOrUnordered = true ↔ ¬Double.Ordered x y ∨ x.extended ≠ y.extended
  less : m.tests .dLt = true ↔ Double.Ordered x y ∧ x.extended < y.extended
  notLess : m.tests .dGeOrUnordered = true ↔ ¬Double.Ordered x y ∨ y.extended ≤ x.extended
  atMost : m.tests .dLe = true ↔ Double.Ordered x y ∧ x.extended ≤ y.extended
  notAtMost : m.tests .dGtOrUnordered = true ↔ ¬Double.Ordered x y ∨ y.extended < x.extended
  greater : m.tests .dGt = true ↔ Double.Ordered x y ∧ y.extended < x.extended
  notGreater : m.tests .dLeOrUnordered = true ↔ ¬Double.Ordered x y ∨ x.extended ≤ y.extended
  atLeast : m.tests .dGe = true ↔ Double.Ordered x y ∧ y.extended ≤ x.extended
  notAtLeast : m.tests .dLtOrUnordered = true ↔ ¬Double.Ordered x y ∨ x.extended < y.extended
  unordered : m.tests .dUnordered = true ↔ ¬Double.Ordered x y
  ordered : m.tests .dOrdered = true ↔ Double.Ordered x y

lemma Cond.holds_invert (c : Cond) (f : Flags) (d : Option Ordering) :
    c.invert.holds f d = !c.holds f d := by
  cases c <;> simp [invert, holds, bne]

lemma Registers.compares_run_sub {w : Nat} {a b : BitVec w} {m : Registers}
    (h : m.flags = (AluOp.sub.run a b).2) : m.Compares a b := by
  have hzero : m.flags.zero = decide (a.toInt = b.toInt) := by
    rw [h, AluOp.zero_run_sub, decide_eq_decide]
    exact BitVec.toInt_inj.symm
  have hzero' : m.flags.zero = decide (a.toNat = b.toNat) := by
    rw [h, AluOp.zero_run_sub, decide_eq_decide]
    exact BitVec.toNat_inj.symm
  have hless : (m.flags.sign != m.flags.overflow) = decide (a.toInt < b.toInt) := by
    rw [h, AluOp.less_run_sub]
  have hcarry : m.flags.carry = decide (a.toNat < b.toNat) := by
    rw [h]
    rfl
  have hsame : (m.flags.sign == m.flags.overflow) = !decide (a.toInt < b.toInt) := by
    rw [← hless, bne, Bool.not_not]
  exact {
    equal := hzero
    different := by
      show (!m.flags.zero) = _
      rw [hzero, decide_not]
    less := hless
    atMost := by
      show (m.flags.zero || m.flags.sign != m.flags.overflow) = _
      rw [hless, hzero, Bool.eq_iff_iff]
      simp
      omega
    greater := by
      show (!m.flags.zero && m.flags.sign == m.flags.overflow) = _
      rw [hsame, hzero, Bool.eq_iff_iff]
      simp
      omega
    atLeast := by
      show (m.flags.sign == m.flags.overflow) = _
      rw [hsame, Bool.eq_iff_iff]
      simp
    below := hcarry
    notAbove := by
      show (m.flags.carry || m.flags.zero) = _
      rw [hcarry, hzero', Bool.eq_iff_iff]
      simp
      omega
    above := by
      show (!m.flags.carry && !m.flags.zero) = _
      rw [hcarry, hzero', Bool.eq_iff_iff]
      simp
      omega
    notBelow := by
      show (!m.flags.carry) = _
      rw [hcarry, Bool.eq_iff_iff]
      simp }

lemma Registers.judges_run {w : Nat} {op : AluOp} {a b : BitVec w} {m : Registers} {z : Int}
    (h : m.flags = (op.run a b).2) (hz : (op.run a b).1 = BitVec.ofInt w z)
    (ho : (op.run a b).2.overflow = decide (z < -2 ^ (w - 1) ∨ 2 ^ (w - 1) ≤ z)) : m.Judges w z := by
  have hoverflow : m.flags.overflow = decide (z < -2 ^ (w - 1) ∨ 2 ^ (w - 1) ≤ z) := by rw [h, ho]
  have hsign : m.flags.sign = decide ((BitVec.ofInt w z).toInt < 0) := by
    rw [h, ← hz, ← BitVec.msb_eq_toInt]
    rfl
  have hzero : m.flags.zero = decide (BitVec.ofInt w z = 0) := by
    rw [h, ← hz, ← beq_eq_decide]
    rfl
  exact {
    overflow := hoverflow
    fits := by
      show (!m.flags.overflow) = _
      rw [hoverflow, Bool.eq_iff_iff]
      simp
    negative := hsign
    nonnegative := by
      show (!m.flags.sign) = _
      rw [hsign, Bool.eq_iff_iff]
      simp
    zero := hzero
    nonzero := by
      show (!m.flags.zero) = _
      rw [hzero, decide_not] }

lemma Registers.tests_invert (m : Registers) (c : Cond) : m.tests c.invert = true ↔ ¬m.tests c = true := by
  show c.invert.holds m.flags m.order = true ↔ ¬c.holds m.flags m.order = true
  rw [Cond.holds_invert, Bool.not_eq_true', Bool.not_eq_true]

lemma Registers.orders_compare {x y : Double} {m : Registers} (h : m.order = x.compare? y) :
    m.Orders x y := by
  have horder : ∀ o, (m.order == some o) = true ↔ x.compare? y = some o := fun o => by
    rw [h, beq_iff_eq]
  have hordered : m.tests .dOrdered = true ↔ Double.Ordered x y := by
    show m.order.isSome = true ↔ _
    rw [h, Double.compare?, Double.Ordered]
    cases x.isNaN <;> cases y.isNaN <;> simp
  have hequal : m.tests .dEq = true ↔ Double.Ordered x y ∧ x.extended = y.extended :=
    (horder .eq).trans Double.compare?_eq_some_iff
  have hless : m.tests .dLt = true ↔ Double.Ordered x y ∧ x.extended < y.extended :=
    (horder .lt).trans Double.compare?_eq_some_iff
  have hgreater : m.tests .dGt = true ↔ Double.Ordered x y ∧ y.extended < x.extended :=
    (horder .gt).trans Double.compare?_eq_some_iff
  have hatMost : m.tests .dLe = true ↔ Double.Ordered x y ∧ x.extended ≤ y.extended := by
    rw [le_iff_lt_or_eq, and_or_left, ← hless, ← hequal, ← Bool.or_eq_true]
    rfl
  have hatLeast : m.tests .dGe = true ↔ Double.Ordered x y ∧ y.extended ≤ x.extended := by
    rw [le_iff_lt_or_eq, @eq_comm _ y.extended, and_or_left, ← hgreater, ← hequal, ← Bool.or_eq_true]
    rfl
  exact {
    equal := hequal
    notEqual := by rw [show Cond.dNeOrUnordered = Cond.dEq.invert from rfl, tests_invert, hequal, not_and_or]
    less := hless
    notLess := by
      rw [show Cond.dGeOrUnordered = Cond.dLt.invert from rfl, tests_invert, hless, not_and_or, not_lt]
    atMost := hatMost
    notAtMost := by
      rw [show Cond.dGtOrUnordered = Cond.dLe.invert from rfl, tests_invert, hatMost, not_and_or, not_le]
    greater := hgreater
    notGreater := by
      rw [show Cond.dLeOrUnordered = Cond.dGt.invert from rfl, tests_invert, hgreater, not_and_or, not_lt]
    atLeast := hatLeast
    notAtLeast := by
      rw [show Cond.dLtOrUnordered = Cond.dGe.invert from rfl, tests_invert, hatLeast, not_and_or, not_le]
    unordered := by rw [show Cond.dUnordered = Cond.dOrdered.invert from rfl, tests_invert, hordered]
    ordered := hordered }

/-! ### Instructions -/

/-- The instruction goes on with the next one, in the same world, and the registers after it are
related to those before it. -/
def Inst.Turns (i : Inst) (R : Registers → Registers → Prop) : Prop :=
  ∀ (t : Thread) (pc : UInt64) (w : World), ∃ m,
    World.runs (Execution.execute t pc i) w = (.ok (.running { t with registers := m }), w) ∧
      R t.registers m

/-- The register has what the exact result wraps around to, and the conditions judge the result. -/
def Registers.Yields (m : Registers) (size : Size) (q : Gpr) (z : Int) : Prop :=
  m.gpr q = size.extend (BitVec.ofInt size.width z) ∧ m.Judges size.width z

def Size.signed (size : Size) (a : UInt64) : Int := (size.word a).toInt

def Registers.after (m : Registers) (dst : Gpr) (r : UInt64 × Flags) : Registers :=
  { m with flags := r.2 }.setGpr dst r.1

lemma Registers.yields_after {size : Size} {op : AluOp} {dst : Gpr} {a b : UInt64} {m : Registers} {z : Int}
    (h : (op.run (size.word a) (size.word b)).1 = BitVec.ofInt size.width z ∧
      (op.run (size.word a) (size.word b)).2.overflow =
        decide (z < -2 ^ (size.width - 1) ∨ 2 ^ (size.width - 1) ≤ z)) :
    (m.after dst (size.run op a b)).Yields size dst z := by
  refine ⟨?_, judges_run ?_ h.1 h.2⟩
  · rw [after, gpr_setGpr, if_pos rfl, Size.run_eq, h.1]
  · rw [after, flags_setGpr, Size.run_eq]

/-- **What the conditions mean.** After a comparison they say how the words of the size compare; after an
addition, a subtraction, a multiplication or a negation, whether the exact result fits, and of the word
that it wraps around to, whether it is negative or zero; and after a comparison of doubles, how the
numbers are ordered, where a NaN is in no order. 32-bit operations see the low halves only, and clear the
high half of the register. An inverted condition is the negation. -/
theorem conditions_mean :
    (∀ size lhs rhs, (Inst.cmp size lhs rhs).Turns fun m m' =>
      m'.Compares (size.word (m.gpr lhs)) (size.word (m.operand rhs))) ∧
    (∀ size dst src, (Inst.alu size .add dst src).Turns fun m m' =>
      m'.Yields size dst (size.signed (m.gpr dst) + size.signed (m.operand src))) ∧
    (∀ size dst src, (Inst.alu size .sub dst src).Turns fun m m' =>
      m'.Yields size dst (size.signed (m.gpr dst) - size.signed (m.operand src))) ∧
    (∀ size dst src, (Inst.alu size .mul dst src).Turns fun m m' =>
      m'.Yields size dst (size.signed (m.gpr dst) * size.signed (m.operand src))) ∧
    (∀ dst, (Inst.neg32 dst).Turns fun m m' => m'.Yields .s32 dst (-Size.s32.signed (m.gpr dst))) ∧
    (∀ op dst src, (Inst.alu .s32 op dst src).Turns fun m m' =>
      (m'.gpr dst, m'.flags) = Size.s32.run op (m.gpr dst).toUInt32.toUInt64
        (m.operand src).toUInt32.toUInt64 ∧ m'.gpr dst = (m'.gpr dst).toUInt32.toUInt64) ∧
    (∀ lhs rhs, (Inst.dcmp lhs rhs).Turns fun m m' => m'.Orders (m.fpr lhs) (m.fpr rhs)) ∧
    ∀ (m : Registers) (c : Cond), m.tests c.invert = !m.tests c := by
  refine ⟨fun size lhs rhs t pc w => ?_, fun size dst src t pc w => ?_,
    fun size dst src t pc w => ?_, fun size dst src t pc w => ?_, fun dst t pc w => ?_, fun op dst src t pc w => ?_, fun lhs rhs t pc w => ?_,
    fun m c => Cond.holds_invert c _ _⟩
  · refine ⟨{ t.registers with flags := (size.run .sub _ _).2 }, rfl, Registers.compares_run_sub ?_⟩
    dsimp only
    rw [Size.run_eq]
  · exact ⟨t.registers.after dst (size.run .add _ _), rfl, Registers.yields_after (AluOp.run_add _ _)⟩
  · exact ⟨t.registers.after dst (size.run .sub _ _), rfl, Registers.yields_after (AluOp.run_sub _ _)⟩
  · exact ⟨t.registers.after dst (size.run .mul _ _), rfl, Registers.yields_after (AluOp.run_mul _ _)⟩
  · refine ⟨t.registers.after dst (Size.s32.run .sub 0 _), rfl, ?_⟩
    dsimp only
    rw [← Int.zero_sub]
    exact Registers.yields_after (AluOp.run_sub _ _)
  · refine ⟨t.registers.after dst (Size.s32.run op _ _), rfl, ?_, ?_⟩
    · rw [Registers.after, Registers.gpr_setGpr, if_pos rfl, Registers.flags_setGpr]
      simp only [Size.run, UInt32.toUInt32_toUInt64]
    · rw [Registers.after, Registers.gpr_setGpr, if_pos rfl]
      simp only [Size.run, UInt32.toUInt32_toUInt64]
  · exact ⟨{ t.registers with order := _ }, rfl, Registers.orders_compare rfl⟩

end Speculation
