import Speculation.Bytes
import Speculation.Machine.Instruction

/-!
# Instruction encoding

One opcode byte, then the operands in order: registers and enumerations in one byte each, wider
fields little-endian. A memory operand is `base, index, scale, disp32`, an index byte of `0xff`
meaning none; an arithmetic operand is a tag byte and a register or a 32-bit immediate.

`Inst.decode` reads one instruction from the front of a byte list and returns the rest.
-/

namespace Speculation

def Width.all : List Width := [.w8, .w16, .w32, .w64]

def Size.all : List Size := [.s32, .s64]

def AluOp.all : List AluOp := [.add, .sub, .mul, .and, .or, .xor, .shl, .sar, .shr]

def DoubleOp.all : List DoubleOp := [.add, .sub, .mul, .div, .min, .max]

def DoubleUnary.all : List DoubleUnary := [.sqrt, .abs, .neg]

def Cond.all : List Cond :=
  [.e, .ne, .l, .le, .g, .ge, .b, .be, .a, .ae, .o, .no, .s, .ns, .dEq, .dNeOrUnordered, .dLt,
    .dGeOrUnordered, .dLe, .dGtOrUnordered, .dGt, .dLeOrUnordered, .dGe, .dLtOrUnordered,
    .dUnordered, .dOrdered]

def Width.code (w : Width) : UInt8 := UInt8.ofNat w.ctorIdx

def Size.code (s : Size) : UInt8 := UInt8.ofNat s.ctorIdx

def AluOp.code (o : AluOp) : UInt8 := UInt8.ofNat o.ctorIdx

def DoubleOp.code (o : DoubleOp) : UInt8 := UInt8.ofNat o.ctorIdx

def DoubleUnary.code (o : DoubleUnary) : UInt8 := UInt8.ofNat o.ctorIdx

def Cond.code (c : Cond) : UInt8 := UInt8.ofNat c.ctorIdx

def Gpr.code (r : Gpr) : UInt8 := UInt8.ofNat r.val

def Fpr.code (r : Fpr) : UInt8 := UInt8.ofNat r.val

/-- Why bytes are no instruction. -/
inductive DecodeFault where
  | truncated
  | invalidOpcode (opcode : UInt8)
  | invalidOperand
deriving DecidableEq, Repr

namespace Encoding

/-- The index byte of an operand without an index register. -/
def noIndex : UInt8 := 0xff

def int32 (i : Int32) : List UInt8 := Bytes.ofNat 4 i.toUInt32.toNat

def uint32 (x : UInt32) : List UInt8 := Bytes.ofNat 4 x.toNat

def uint64 (x : UInt64) : List UInt8 := Bytes.ofNat 8 x.toNat

def address (a : Address) : List UInt8 :=
  match a.index with
  | some (i, scale) => a.base.code :: i.code :: UInt8.ofNat scale.val :: int32 a.disp
  | none => a.base.code :: noIndex :: 0 :: int32 a.disp

def operand : Operand → List UInt8
  | .reg r => [0, r.code]
  | .imm i => 1 :: int32 i

end Encoding

open Encoding in
/-- The bytes of an instruction. -/
def Inst.encode : Inst → List UInt8
  | .nop => [0x00]
  | .breakpoint => [0x01]
  | .ret => [0x02]
  | .mov dst src => [0x03, dst.code, src.code]
  | .zext32 dst src => [0x04, dst.code, src.code]
  | .movImm dst imm => 0x05 :: dst.code :: uint64 imm
  | .load width signed dst addr =>
    0x06 :: (width.code ||| if signed then 0x10 else 0) :: dst.code :: address addr
  | .store width src addr => 0x07 :: width.code :: src.code :: address addr
  | .loadD dst addr => 0x08 :: dst.code :: address addr
  | .storeD src addr => 0x09 :: src.code :: address addr
  | .loadDConst dst rel => 0x0a :: dst.code :: int32 rel
  | .alu size op dst src => 0x0b :: size.code :: op.code :: dst.code :: operand src
  | .neg32 dst => [0x0c, dst.code]
  | .div32 rem dst src => [0x0d, if rem then 1 else 0, dst.code, src.code]
  | .cmp size lhs rhs => 0x0e :: size.code :: lhs.code :: operand rhs
  | .test size lhs rhs => 0x0f :: size.code :: lhs.code :: operand rhs
  | .setCond cond dst => [0x10, cond.code, dst.code]
  | .jcc cond rel => 0x11 :: cond.code :: int32 rel
  | .jmp rel => 0x12 :: int32 rel
  | .jmpAbs target => 0x13 :: uint64 target
  | .jmpReg src => [0x14, src.code]
  | .jmpTable table index => 0x15 :: (Bytes.ofNat 2 table.toNat ++ [index.code])
  | .call target => 0x16 :: uint64 target
  | .setExit index => 0x17 :: uint32 index
  | .watchpoint id => 0x18 :: uint32 id
  | .dalu op dst src => [0x19, op.code, dst.code, src.code]
  | .dunary op dst src => [0x1a, op.code, dst.code, src.code]
  | .dmov dst src => [0x1b, dst.code, src.code]
  | .dcmp lhs rhs => [0x1c, lhs.code, rhs.code]
  | .cvtIntToD dst src => [0x1d, dst.code, src.code]
  | .cvtDToInt dst src => [0x1e, dst.code, src.code]
  | .movGToD dst src => [0x1f, dst.code, src.code]
  | .movDToG dst src => [0x20, dst.code, src.code]

/-- Where in its encoding an instruction holds a displacement relative to its end. -/
def Inst.rel32Field? : Inst → Option Nat
  | .jmp _ => some 1
  | .jcc .. | .loadDConst .. => some 2
  | _ => none

/-- Where in its encoding an instruction holds an absolute 64-bit field. -/
def Inst.abs64Field? : Inst → Option Nat
  | .jmpAbs _ | .call _ => some 1
  | .movImm .. => some 2
  | _ => none

namespace Encoding

/-- Where the immediate of a `movImm` starts. -/
def movImmField : Nat := 2

/-- Where the displacement of a `load` or `store` starts. -/
def displacementField : Nat := 6

/-- The length of a `jmp`, which is also that of a `watchpoint`. -/
def jmpLength : Nat := 5

/-- A step of decoding takes bytes from the front. -/
abbrev Reader := StateT (List UInt8) (Except DecodeFault)

def invalid {α : Type} : Reader α := throw .invalidOperand

/-- Take `n` bytes. -/
def takeBytes (n : Nat) : Reader (List UInt8) := fun bs =>
  if bs.length < n then .error .truncated else .ok (bs.take n, bs.drop n)

def byte : Reader UInt8
  | [] => .error .truncated
  | b :: bs => .ok (b, bs)

/-- Take a byte that stands for a member of an enumeration. -/
def choice {α : Type} (all : List α) : Reader α := do
  let b ← byte
  match all[b.toNat]? with
  | some x => pure x
  | none => invalid

def word (n : Nat) : Reader Nat := return Bytes.toNat (← takeBytes n)

def readInt32 : Reader Int32 := return (UInt32.ofNat (← word 4)).toInt32

def readUInt32 : Reader UInt32 := return UInt32.ofNat (← word 4)

def readUInt64 : Reader UInt64 := return UInt64.ofNat (← word 8)

def gprOf (b : UInt8) : Reader Gpr :=
  if h : b.toNat < 16 then pure ⟨b.toNat, h⟩ else invalid

def gpr : Reader Gpr := do gprOf (← byte)

def fpr : Reader Fpr := do
  let b ← byte
  if h : b.toNat < 9 then pure ⟨b.toNat, h⟩ else invalid

def readAddress : Reader Address := do
  let base ← gpr
  let i ← byte
  let scale ← byte
  let disp ← readInt32
  if i = noIndex then pure { base, disp }
  else
    let index ← gprOf i
    if h : scale.toNat < 4 then pure { base, index := some (index, ⟨scale.toNat, h⟩), disp }
    else invalid

def readOperand : Reader Operand := do
  let tag ← byte
  if tag = 0 then return .reg (← gpr)
  else if tag = 1 then return .imm (← readInt32)
  else invalid

/-- The operands after an opcode. -/
def operands (opcode : UInt8) : Reader Inst := do
  match opcode.toNat with
  | 0x00 => return .nop
  | 0x01 => return .breakpoint
  | 0x02 => return .ret
  | 0x03 => return .mov (← gpr) (← gpr)
  | 0x04 => return .zext32 (← gpr) (← gpr)
  | 0x05 => return .movImm (← gpr) (← readUInt64)
  | 0x06 =>
    let b ← byte
    match Width.all[(b &&& 0xf).toNat]? with
    | some width => return .load width (b &&& 0x10 != 0) (← gpr) (← readAddress)
    | none => invalid
  | 0x07 => return .store (← choice Width.all) (← gpr) (← readAddress)
  | 0x08 => return .loadD (← fpr) (← readAddress)
  | 0x09 => return .storeD (← fpr) (← readAddress)
  | 0x0a => return .loadDConst (← fpr) (← readInt32)
  | 0x0b => return .alu (← choice Size.all) (← choice AluOp.all) (← gpr) (← readOperand)
  | 0x0c => return .neg32 (← gpr)
  | 0x0d => return .div32 ((← byte) != 0) (← gpr) (← gpr)
  | 0x0e => return .cmp (← choice Size.all) (← gpr) (← readOperand)
  | 0x0f => return .test (← choice Size.all) (← gpr) (← readOperand)
  | 0x10 => return .setCond (← choice Cond.all) (← gpr)
  | 0x11 => return .jcc (← choice Cond.all) (← readInt32)
  | 0x12 => return .jmp (← readInt32)
  | 0x13 => return .jmpAbs (← readUInt64)
  | 0x14 => return .jmpReg (← gpr)
  | 0x15 => return .jmpTable (UInt16.ofNat (← word 2)) (← gpr)
  | 0x16 => return .call (← readUInt64)
  | 0x17 => return .setExit (← readUInt32)
  | 0x18 => return .watchpoint (← readUInt32)
  | 0x19 => return .dalu (← choice DoubleOp.all) (← fpr) (← fpr)
  | 0x1a => return .dunary (← choice DoubleUnary.all) (← fpr) (← fpr)
  | 0x1b => return .dmov (← fpr) (← fpr)
  | 0x1c => return .dcmp (← fpr) (← fpr)
  | 0x1d => return .cvtIntToD (← fpr) (← gpr)
  | 0x1e => return .cvtDToInt (← gpr) (← fpr)
  | 0x1f => return .movGToD (← fpr) (← gpr)
  | 0x20 => return .movDToG (← gpr) (← fpr)
  | _ => throw (.invalidOpcode opcode)

end Encoding

/-- Read one instruction from the front of a byte list. -/
def Inst.decode (bs : List UInt8) : Except DecodeFault (Inst × List UInt8) :=
  (do Encoding.operands (← Encoding.byte)).run bs

/-- A failure to decode, with the offset of the instruction. -/
structure DecodeError where
  fault : DecodeFault
  offset : Nat
deriving DecidableEq, Repr

/-- No instruction is longer. -/
def Inst.maxLength : Nat := 10

/-- The instruction at an offset of `code`, with its length. -/
def Inst.decodeAt (code : ByteArray) (offset : Nat) : Except DecodeError (Inst × Nat) :=
  let bs := Bytes.window code offset Inst.maxLength
  match Inst.decode bs with
  | .ok (inst, rest) => .ok (inst, bs.length - rest.length)
  | .error fault => .error ⟨fault, offset⟩

end Speculation
