import Speculation.Lowering.Fill

/-!
# Arithmetic

Each operation is lowered in one of three modes, chosen by what its edges require: on 32-bit
integers, with guards for what does not fit; on doubles; or by a call on boxed values.
-/

namespace Speculation
namespace Lowering

inductive ArithMode where
  | int32 | number | generic
deriving DecidableEq, Repr

def isInt (e : Edge) : Bool := e.kind = .int32 || e.kind = .knownInt32

def isNumber (e : Edge) : Bool := isInt e || e.kind = .number

def arithMode (a b : Edge) : ArithMode :=
  if isInt a && isInt b then .int32 else if isNumber a && isNumber b then .number else .generic

/-- A register for a 32-bit result computed from a filled operand: its own register if this is its
last use, which the flag tells, and otherwise a fresh one with a copy. -/
def intResultFrom (e : Edge) (op : GprOperand) : Lower (Gpr × Bool) := do
  if ← canReuse e then
    lockGpr op.reg
    return (op.reg, true)
  else
    let r ← allocGpr
    mov r op.reg
    return (r, false)

/-- The right operand of an integer operation: an immediate if it is a constant. -/
def intRhs (e : Edge) : Lower Operand := do
  match ← assume ((← graph).int32Constant e.node) with
  | some i => return .imm i
  | none => return .reg (← fillInt e).reg

def doubleBinary (op : DoubleOp) (a b : Edge) : Lower Unit := do
  let fa ← fillDouble a
  let fb ← fillDouble b
  let reuse ← canReuse a
  let r ←
    if reuse && fa != fb then do
      lockFpr fa
      pure fa
    else do
      let r ← allocFpr
      dmov r fa
      pure r
  emit' (.dalu op r fb)
  fprResult r

def doubleUnary (op : DoubleUnary) (a : Edge) : Lower Unit := do
  let f ← fillDouble a
  let r ← allocFpr
  emit' (.dunary op r f)
  fprResult r

/-- Finish a call on boxed operands: they are no longer needed, and the result is boxed. -/
def valueResult (operands : List Gpr) : Lower Unit := do
  for r in operands do
    unlockGpr r
  gprResult (← callResultGpr) .js

/-- Call a helper on two boxed values. -/
def genericBinary (op : Option GenericArith) (a b : Edge) : Lower Unit := do
  let ja ← fillValue a
  let jb ← fillValue b
  match op with
  | none => callHelper .valueAdd [.gpr ja.reg, .gpr jb.reg]
  | some op =>
    callHelper .valueArith [.gpr ja.reg, .gpr jb.reg, .imm (UInt64.ofNat op.ctorIdx)]
  valueResult [ja.reg, jb.reg]

/-- Is only the left operand a constant integer? -/
def onlyLeftConstant (a b : Edge) : Lower Bool := do
  let g ← graph
  match ← assume (g.int32Constant a.node) with
  | some _ => return (← assume (g.int32Constant b.node)).isNone
  | none => return false

/-- Integer addition. A constant goes to the right. In place over a dying operand the overflow exit
takes the sum back. -/
def addInt (n : Node) (a b : Edge) : Lower Unit := do
  let (a, b) := if ← onlyLeftConstant a b then (b, a) else (a, b)
  let op1 ← fillInt a
  let src ← intRhs b
  let (r, reused) ← intResultFrom a op1
  alu32 .add r src
  unless n.flags.canTruncate do
    if reused then guardUndo .overflow .o (.add r src)
    else guard' .overflow .o
  gprResult r .int32

def lowerAdd : Lower Unit := do
  let n ← currentNode
  let a ← child 0
  let b ← child 1
  match arithMode a b with
  | .int32 => addInt n a b
  | .number => doubleBinary .add a b
  | .generic => genericBinary none a b

def subInt (n : Node) (a b : Edge) : Lower Unit := do
  let op1 ← fillInt a
  let src ← intRhs b
  let r ←
    if n.flags.canTruncate then do
      pure (← intResultFrom a op1).1
    else do
      let r ← allocGpr
      mov r op1.reg
      pure r
  alu32 .sub r src
  unless n.flags.canTruncate do guard' .overflow .o
  gprResult r .int32

def lowerSub : Lower Unit := do
  let n ← currentNode
  let a ← child 0
  let b ← child 1
  match arithMode a b with
  | .int32 => subInt n a b
  | .number => doubleBinary .sub a b
  | .generic => genericBinary (some .sub) a b

/-- Has the node to guard against a negative zero? -/
def guardsNegZero (n : Node) : Bool := n.flags.needsNegZero && !n.flags.canTruncate

/-- Integer multiplication. A zero product is a negative zero if an operand was negative. -/
def mulInt (n : Node) (a b : Edge) : Lower Unit := do
  let op1 ← fillInt a
  let src ← intRhs b
  let r ← allocGpr
  mov r op1.reg
  alu32 .mul r src
  unless n.flags.canTruncate do guard' .overflow .o
  if guardsNegZero n then
    let done ← newLabel
    test32 r (.reg r)
    jcc .ne done
    mov .scratch op1.reg
    alu32 .or .scratch src
    guard' .negativeZero .s
    attach done
  gprResult r .int32

def lowerMul : Lower Unit := do
  let n ← currentNode
  let a ← child 0
  let b ← child 1
  match arithMode a b with
  | .int32 => mulInt n a b
  | .number => doubleBinary .mul a b
  | .generic => genericBinary (some .mul) a b

def lowerNegate : Lower Unit := do
  let n ← currentNode
  let a ← child 0
  match a.kind with
  | .int32 | .knownInt32 =>
    let op1 ← fillInt a
    let r ← allocGpr
    mov r op1.reg
    emit' (.neg32 r)
    unless n.flags.canTruncate do guard' .overflow .o
    if guardsNegZero n then
      test32 r (.reg r)
      guard' .negativeZero .e
    gprResult r .int32
  | .number => doubleUnary .neg a
  | _ =>
    let j ← fillValue a
    callHelper .valueArith
      [.gpr j.reg, .gpr j.reg, .imm (UInt64.ofNat GenericArith.negate.ctorIdx)]
    valueResult [j.reg]

/-- Leave on a zero divisor, and on the one quotient that does not fit. -/
def divisionGuards (dividend divisor : Gpr) : Lower Unit := do
  test32 divisor (.reg divisor)
  let x ← guard .overflow .e
  let ok ← newLabel
  cmp32 divisor (.imm (-1))
  jcc .ne ok
  cmp32 dividend (.imm Int32.minValue)
  jccExit .e x
  attach ok

/-- Division whose result is wanted modulo `2 ^ 32` only: a zero divisor gives zero, and division by
minus one is a negation. -/
def divTruncating (r x y : Gpr) : Lower Unit := do
  let nonzero ← newLabel
  let divide ← newLabel
  let done ← newLabel
  test32 y (.reg y)
  jcc .ne nonzero
  discard (movImm r 0)
  jmp done
  attach nonzero
  cmp32 y (.imm (-1))
  jcc .ne divide
  mov r x
  emit' (.neg32 r)
  jmp done
  attach divide
  mov r x
  emit' (.div32 false r y)
  attach done

/-- Division that has to be exact. Zero divided by a negative number is a negative zero. -/
def divExact (negZero : Bool) (r x y : Gpr) : Lower Unit := do
  divisionGuards x y
  if negZero then
    let nonzero ← newLabel
    test32 x (.reg x)
    jcc .ne nonzero
    test32 y (.reg y)
    guard' .negativeZero .s
    attach nonzero
  mov r x
  emit' (.div32 false r y)
  mov .scratch x
  emit' (.div32 true .scratch y)
  test32 .scratch (.reg .scratch)
  guard' .overflow .ne

def lowerDiv : Lower Unit := do
  let n ← currentNode
  let a ← child 0
  let b ← child 1
  match arithMode a b with
  | .int32 =>
    let x ← fillInt a
    let y ← fillInt b
    let r ← allocGpr
    if n.flags.canTruncate then divTruncating r x.reg y.reg
    else divExact (guardsNegZero n) r x.reg y.reg
    gprResult r .int32
  | .number => doubleBinary .div a b
  | .generic => genericBinary (some .div) a b

/-- Remainder whose result is wanted modulo `2 ^ 32` only: divisors zero and minus one give zero. -/
def modTruncating (r x y : Gpr) : Lower Unit := do
  let divide ← newLabel
  let isZero ← newLabel
  let done ← newLabel
  test32 y (.reg y)
  jcc .e isZero
  cmp32 y (.imm (-1))
  jcc .ne divide
  attach isZero
  discard (movImm r 0)
  jmp done
  attach divide
  mov r x
  emit' (.div32 true r y)
  attach done

/-- Exact remainder. A zero remainder of a negative dividend is a negative zero. -/
def modExact (negZero : Bool) (r x y : Gpr) : Lower Unit := do
  divisionGuards x y
  mov r x
  emit' (.div32 true r y)
  if negZero then
    let done ← newLabel
    test32 r (.reg r)
    jcc .ne done
    test32 x (.reg x)
    guard' .negativeZero .s
    attach done

def lowerMod : Lower Unit := do
  let n ← currentNode
  let a ← child 0
  let b ← child 1
  match arithMode a b with
  | .int32 =>
    let x ← fillInt a
    let y ← fillInt b
    let r ← allocGpr
    if n.flags.canTruncate then modTruncating r x.reg y.reg
    else modExact (guardsNegZero n) r x.reg y.reg
    gprResult r .int32
  | .number =>
    let fa ← fillDouble a
    let fb ← fillDouble b
    callHelper .fmod [.fpr fa, .fpr fb]
    unlockFpr fa
    unlockFpr fb
    fprResult (← callResultFpr)
  | .generic => genericBinary (some .mod) a b

/-- The absolute value: with `s` all copies of the sign, `(x + s) xor s`. Only the least integer
has none. -/
def lowerAbs : Lower Unit := do
  let n ← currentNode
  let a ← child 0
  if isInt a then
    let op1 ← fillInt a
    let r ← allocGpr
    mov r op1.reg
    mov .scratch op1.reg
    alu32 .sar .scratch (.imm 31)
    alu32 .add r (.reg .scratch)
    alu32 .xor r (.reg .scratch)
    unless n.flags.canTruncate do
      test32 r (.reg r)
      guard' .overflow .s
    gprResult r .int32
  else doubleUnary .abs a

def lowerMinMax (isMin : Bool) : Lower Unit := do
  let a ← child 0
  let b ← child 1
  if arithMode a b = .int32 then
    let op1 ← fillInt a
    let op2 ← fillInt b
    let r ← allocGpr
    let done ← newLabel
    emit' (.zext32 r op1.reg)
    cmp32 op1.reg (.reg op2.reg)
    jcc (if isMin then .le else .ge) done
    emit' (.zext32 r op2.reg)
    attach done
    gprResult r .int32
  else doubleBinary (if isMin then .min else .max) a b

def lowerSqrt : Lower Unit := do doubleUnary .sqrt (← child 0)

/-- The instruction for a bitwise operation. -/
def bitAlu : BitOp → AluOp
  | .and => .and
  | .or => .or
  | .xor => .xor
  | .lShift => .shl
  | .rShift => .sar
  | .uRShift => .shr

def isShift : BitOp → Bool
  | .lShift | .rShift | .uRShift => true
  | _ => false

/-- Bitwise operations and shifts, on integers only. A constant shift count is reduced to five
bits. -/
def lowerBit (op : BitOp) : Lower Unit := do
  let a ← child 0
  let b ← child 1
  let op1 ← fillInt a
  let src ←
    match ← assume ((← graph).int32Constant b.node) with
    | some c => pure (.imm (if isShift op then c &&& 31 else c))
    | none => intRhs b
  let (r, _) ← intResultFrom a op1
  alu32 (bitAlu op) r src
  gprResult r .int32

end Lowering

end Speculation
