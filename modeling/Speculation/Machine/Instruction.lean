/-!
# The target machine

A small 64-bit load/store machine with sixteen general purpose registers and nine double
registers. 32-bit operations read the low halves of their operands, clear the high half of their
destination and set the flags of a 32-bit operation.
-/

namespace Speculation

/-- A general purpose register. -/
abbrev Gpr := Fin 16

/-- A double register. -/
abbrev Fpr := Fin 9

def Gpr.text (r : Gpr) : String := "r" ++ toString r.val

def Fpr.text (r : Fpr) : String := "f" ++ toString r.val

def Gpr.ofText? (s : String) : Option Gpr := (List.finRange 16).find? fun r => Gpr.text r == s

def Fpr.ofText? (s : String) : Option Fpr := (List.finRange 9).find? fun r => Fpr.text r == s

/-- How many bytes a memory access covers. -/
inductive Width where
  | w8 | w16 | w32 | w64
deriving DecidableEq, Repr, Inhabited

def Width.bytes : Width → Nat
  | .w8 => 1
  | .w16 => 2
  | .w32 => 4
  | .w64 => 8

/-- The operand size of an arithmetic or compare instruction. -/
inductive Size where
  | s32 | s64
deriving DecidableEq, Repr, Inhabited

/-- Integer operations; `sar` shifts in copies of the sign, `shr` zeros. -/
inductive AluOp where
  | add | sub | mul | and | or | xor | shl | sar | shr
deriving DecidableEq, Repr, Inhabited

inductive DoubleOp where
  | add | sub | mul | div | min | max
deriving DecidableEq, Repr, Inhabited

inductive DoubleUnary where
  | sqrt | abs | neg
deriving DecidableEq, Repr, Inhabited

/-- Conditions. The first fourteen test the flags of the last integer operation, the others the
last double comparison. -/
inductive Cond where
  | e | ne | l | le | g | ge | b | be | a | ae | o | no | s | ns
  | dEq | dNeOrUnordered | dLt | dGeOrUnordered | dLe | dGtOrUnordered
  | dGt | dLeOrUnordered | dGe | dLtOrUnordered | dUnordered | dOrdered
deriving DecidableEq, Repr, Inhabited

/-- The condition that holds exactly when `c` does not. -/
def Cond.invert (c : Cond) : Cond :=
  match c with
  | .e => .ne
  | .ne => .e
  | .l => .ge
  | .le => .g
  | .g => .le
  | .ge => .l
  | .b => .ae
  | .be => .a
  | .a => .be
  | .ae => .b
  | .o => .no
  | .no => .o
  | .s => .ns
  | .ns => .s
  | .dEq => .dNeOrUnordered
  | .dNeOrUnordered => .dEq
  | .dLt => .dGeOrUnordered
  | .dGeOrUnordered => .dLt
  | .dLe => .dGtOrUnordered
  | .dGtOrUnordered => .dLe
  | .dGt => .dLeOrUnordered
  | .dLeOrUnordered => .dGt
  | .dGe => .dLtOrUnordered
  | .dLtOrUnordered => .dGe
  | .dUnordered => .dOrdered
  | .dOrdered => .dUnordered

/-- A memory operand `base + index * 2 ^ scale + disp`. -/
structure Address where
  base : Gpr
  index : Option (Gpr × Fin 4) := none
  disp : Int32
deriving DecidableEq, Repr, Inhabited

def Address.ofBase (base : Gpr) (disp : Int32) : Address := { base, disp }

def Address.indexed (base index : Gpr) (scale : Fin 4) (disp : Int32) : Address :=
  { base, index := some (index, scale), disp }

/-- The second operand of an arithmetic or compare instruction. -/
inductive Operand where
  | reg (r : Gpr)
  | imm (i : Int32)
deriving DecidableEq, Repr, Inhabited

inductive Inst where
  | nop
  | breakpoint
  | ret
  | mov (dst src : Gpr)
  /-- Copy the low half and clear the high half. -/
  | zext32 (dst src : Gpr)
  | movImm (dst : Gpr) (imm : UInt64)
  | load (width : Width) (signed : Bool) (dst : Gpr) (addr : Address)
  | store (width : Width) (src : Gpr) (addr : Address)
  | loadD (dst : Fpr) (addr : Address)
  | storeD (src : Fpr) (addr : Address)
  /-- Load a double at a displacement from the next instruction. -/
  | loadDConst (dst : Fpr) (rel : Int32)
  | alu (size : Size) (op : AluOp) (dst : Gpr) (src : Operand)
  | neg32 (dst : Gpr)
  /-- Signed division or remainder; faults on a zero divisor and on overflow. -/
  | div32 (rem : Bool) (dst src : Gpr)
  | cmp (size : Size) (lhs : Gpr) (rhs : Operand)
  | test (size : Size) (lhs : Gpr) (rhs : Operand)
  | setCond (cond : Cond) (dst : Gpr)
  | jcc (cond : Cond) (rel : Int32)
  | jmp (rel : Int32)
  | jmpAbs (target : UInt64)
  | jmpReg (src : Gpr)
  /-- Jump through a dense jump table of the running code's block. -/
  | jmpTable (table : UInt16) (index : Gpr)
  | call (target : UInt64)
  /-- Record which exit is about to be taken. -/
  | setExit (index : UInt32)
  /-- A no-op as long as a jump, which firing a watchpoint replaces by one. -/
  | watchpoint (id : UInt32)
  | dalu (op : DoubleOp) (dst src : Fpr)
  | dunary (op : DoubleUnary) (dst src : Fpr)
  | dmov (dst src : Fpr)
  | dcmp (lhs rhs : Fpr)
  | cvtIntToD (dst : Fpr) (src : Gpr)
  /-- Truncate to 32 bits; the least integer marks a result out of range. -/
  | cvtDToInt (dst : Gpr) (src : Fpr)
  | movGToD (dst : Fpr) (src : Gpr)
  | movDToG (dst : Gpr) (src : Fpr)
deriving DecidableEq, Repr, Inhabited

end Speculation
