import Speculation.Double.Arith
import Speculation.Machine.Convention

/-!
# Registers, flags and arithmetic

The state of the machine apart from memory, and what the integer and double instructions compute.
-/

namespace Speculation

/-- The flags of the last integer operation. -/
structure Flags where
  zero : Bool := false
  sign : Bool := false
  carry : Bool := false
  overflow : Bool := false
deriving DecidableEq, Repr, Inhabited

structure Registers where
  gprs : Vector UInt64 16 := .replicate 16 0
  fprs : Vector Double 9 := .replicate 9 ⟨0⟩
  flags : Flags := {}
  /-- The result of the last double comparison; `none` means unordered. -/
  order : Option Ordering := none
  /-- The exit that was recorded last. -/
  exitIndex : UInt32 := 0
deriving DecidableEq, Repr

namespace Registers

def gpr (m : Registers) (r : Gpr) : UInt64 := m.gprs[r]

def setGpr (m : Registers) (r : Gpr) (x : UInt64) : Registers :=
  { m with gprs := m.gprs.set r x }

def fpr (m : Registers) (r : Fpr) : Double := m.fprs[r]

def setFpr (m : Registers) (r : Fpr) (x : Double) : Registers :=
  { m with fprs := m.fprs.set r x }

/-- The address of a memory operand. -/
def address (m : Registers) (a : Address) : UInt64 :=
  let x := m.gpr a.base + a.disp.toInt64.toUInt64
  match a.index with
  | some (i, scale) => x + m.gpr i <<< UInt64.ofNat scale.val
  | none => x

/-- The value of an operand; an immediate is extended with its sign. -/
def operand (m : Registers) : Operand → UInt64
  | .reg r => m.gpr r
  | .imm i => i.toInt64.toUInt64

end Registers

/-- The result of an integer operation, with its carry and overflow. Shift counts are taken modulo
the width. -/
def AluOp.apply {w : Nat} (op : AluOp) (a b : BitVec w) : BitVec w × Bool × Bool :=
  match op with
  | .add => (a + b, BitVec.uaddOverflow a b, BitVec.saddOverflow a b)
  | .sub => (a - b, BitVec.usubOverflow a b, BitVec.ssubOverflow a b)
  | .mul => (a * b, BitVec.smulOverflow a b, BitVec.smulOverflow a b)
  | .and => (a &&& b, false, false)
  | .or => (a ||| b, false, false)
  | .xor => (a ^^^ b, false, false)
  | .shl => (a <<< (b.toNat % w), false, false)
  | .sar => (a.sshiftRight (b.toNat % w), false, false)
  | .shr => (a >>> (b.toNat % w), false, false)

/-- An integer operation on words of a width, with all flags. -/
def AluOp.run {w : Nat} (op : AluOp) (a b : BitVec w) : BitVec w × Flags :=
  let (r, carry, overflow) := op.apply a b
  (r, { zero := r == 0#w, sign := r.msb, carry, overflow })

/-- An integer operation on registers. With 32-bit operands only the low halves count, and the high
half of the result is clear. -/
def Size.run (size : Size) (op : AluOp) (a b : UInt64) : UInt64 × Flags :=
  match size with
  | .s32 =>
    let (r, flags) := op.run a.toUInt32.toBitVec b.toUInt32.toBitVec
    ((UInt32.ofBitVec r).toUInt64, flags)
  | .s64 =>
    let (r, flags) := op.run a.toBitVec b.toBitVec
    (UInt64.ofBitVec r, flags)

/-- Does a condition hold after the last comparison? -/
def Cond.holds (c : Cond) (f : Flags) (d : Option Ordering) : Bool :=
  match c with
  | .e => f.zero
  | .ne => !f.zero
  | .l => f.sign != f.overflow
  | .le => f.zero || f.sign != f.overflow
  | .g => !f.zero && f.sign == f.overflow
  | .ge => f.sign == f.overflow
  | .b => f.carry
  | .be => f.carry || f.zero
  | .a => !f.carry && !f.zero
  | .ae => !f.carry
  | .o => f.overflow
  | .no => !f.overflow
  | .s => f.sign
  | .ns => !f.sign
  | .dEq => d == some .eq
  | .dNeOrUnordered => d != some .eq
  | .dLt => d == some .lt
  | .dGeOrUnordered => d != some .lt
  | .dLe => d == some .lt || d == some .eq
  | .dGtOrUnordered => !(d == some .lt || d == some .eq)
  | .dGt => d == some .gt
  | .dLeOrUnordered => d != some .gt
  | .dGe => d == some .gt || d == some .eq
  | .dLtOrUnordered => !(d == some .gt || d == some .eq)
  | .dUnordered => d.isNone
  | .dOrdered => d.isSome

/-- The lesser or greater of two doubles. A NaN yields NaN, and negative zero is less than zero. -/
def Double.choose (least : Bool) (x y : Double) : Double :=
  if x.isNaN || y.isNaN then .nan
  else if x.eq y then if least == x.isNegative then x else y
  else if x.lt y == least then x else y

def DoubleOp.run (op : DoubleOp) (x y : Double) : Double :=
  match op with
  | .add => x.add y
  | .sub => x.sub y
  | .mul => x.mul y
  | .div => x.div y
  | .min => .choose true x y
  | .max => .choose false x y

def DoubleUnary.run (op : DoubleUnary) (x : Double) : Double :=
  match op with
  | .sqrt => x.sqrt
  | .abs => x.abs
  | .neg => x.neg

/-- Signed division toward zero, or its remainder. There is no result for a zero divisor or for the
least integer divided by minus one. -/
def divide? (remainder : Bool) (a b : Int32) : Option Int32 :=
  if b = 0 ∨ (a = Int32.minValue ∧ b = -1) then none
  else some (if remainder then a % b else a / b)

/-- A word read from memory, extended to a register. -/
def Width.extend (w : Width) (signed : Bool) (x : Nat) : UInt64 :=
  if signed then
    match w with
    | .w8 => (UInt8.ofNat x).toInt8.toInt64.toUInt64
    | .w16 => (UInt16.ofNat x).toInt16.toInt64.toUInt64
    | .w32 => (UInt32.ofNat x).toInt32.toInt64.toUInt64
    | .w64 => UInt64.ofNat x
  else UInt64.ofNat x

end Speculation
