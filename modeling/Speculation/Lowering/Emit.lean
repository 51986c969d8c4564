import Speculation.Lowering.State

/-!
# Emitting instructions
-/

namespace Speculation
namespace Lowering

/-- Emit an instruction; the result is its offset. -/
def emit (i : Inst) : Lower Nat :=
  modifyGet fun s => (s.asm.offset, { s with asm := s.asm.emit i })

def emit' (i : Inst) : Lower Unit := discard (emit i)

/-- Emit an instruction whose target is filled in by the linker. -/
def emitReloc (i : Inst) (t : RelocTarget) : Lower Nat := do
  let s ← get
  let asm ← assume (s.asm.emitReloc i t)
  set { s with asm }
  return s.asm.offset

def newLabel : Lower Label :=
  modifyGet fun s => let (l, asm) := s.asm.newLabel; (l, { s with asm })

def attach (l : Label) : Lower Unit := do
  let s ← get
  let asm ← assume (s.asm.attach l)
  set { s with asm }

/-- A new label at the current offset. -/
def here : Lower Label :=
  modifyGet fun s => let (l, asm) := s.asm.here; (l, { s with asm })

def comment (text : String) : Lower Unit := modify fun s => { s with asm := s.asm.comment text }

def event (e : Event) : Lower Unit := modify fun s => { s with events := s.events.push e }

def jcc (c : Cond) (l : Label) : Lower Unit := discard (emitReloc (.jcc c 0) (.label l))

def jmp (l : Label) : Lower Unit := discard (emitReloc (.jmp 0) (.label l))

/-- Copy a register, unless it is the same one. -/
def mov (dst src : Gpr) : Lower Unit := unless dst = src do emit' (.mov dst src)

def dmov (dst src : Fpr) : Lower Unit := unless dst = src do emit' (.dmov dst src)

def movImm (dst : Gpr) (x : UInt64) : Lower Nat := emit (.movImm dst x)

def alu32 (op : AluOp) (dst : Gpr) (src : Operand) : Lower Unit := emit' (.alu .s32 op dst src)

def alu64 (op : AluOp) (dst : Gpr) (src : Operand) : Lower Unit := emit' (.alu .s64 op dst src)

def cmp32 (lhs : Gpr) (rhs : Operand) : Lower Unit := emit' (.cmp .s32 lhs rhs)

def cmp64 (lhs : Gpr) (rhs : Operand) : Lower Unit := emit' (.cmp .s64 lhs rhs)

def test32 (lhs : Gpr) (rhs : Operand) : Lower Unit := emit' (.test .s32 lhs rhs)

def test64 (lhs : Gpr) (rhs : Operand) : Lower Unit := emit' (.test .s64 lhs rhs)

def load (width : Width) (dst : Gpr) (a : Address) : Lower Unit := emit' (.load width false dst a)

def load64 (dst : Gpr) (a : Address) : Lower Unit := load .w64 dst a

def store64 (src : Gpr) (a : Address) : Lower Unit := emit' (.store .w64 src a)

/-- The immediate that makes a raw boolean a boxed one, and back. -/
def falseImm : Operand := .imm 6

/-- The pool entry of a pattern, each pattern being kept once. -/
def intern (bits : UInt64) (pool : Array UInt64) : Nat × Array UInt64 :=
  match pool.findIdx? (· == bits) with
  | some i => (i, pool)
  | none => (pool.size, pool.push bits)

/-- Load a constant from the pool. A new entry gets a label of its own. -/
def loadDoubleConstant (dst : Fpr) (d : Double) : Lower Unit := do
  modify fun s => { s with loads := s.loads.push (s.asm.offset, d.bits) }
  let (i, pool) := intern d.bits (← get).pool
  match (← get).poolLabels[i]? with
  | some l => discard (emitReloc (.loadDConst dst 0) (.label l))
  | none =>
    let l ← newLabel
    modify fun s => { s with pool, poolLabels := s.poolLabels.push l }
    discard (emitReloc (.loadDConst dst 0) (.label l))

end Lowering

end Speculation
