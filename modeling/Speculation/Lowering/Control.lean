import Speculation.Lowering.Arith

/-!
# Locals, calls, switches and returns
-/

namespace Speculation
namespace Lowering

/-- A variable in its frame slot. Integers, booleans and cells are kept boxed. -/
def lowerGetLocal (v : VarId) : Lower Unit := do
  let x ← variableOf v
  let a := FrameLayout.address x.operand
  match x.format with
  | .double =>
    let f ← allocFpr
    emit' (.loadD f a)
    fprResult f
  | format =>
    let r ← allocGpr
    load64 r a
    gprResult r (.ofFlush format)

/-- Store a register that is boxed, or raw with the given tag missing. -/
def storeBoxed (op : GprOperand) (raw : DataFormat) (tag : Operand) (a : Address) :
    Lower Unit := do
  if op.format = raw then
    mov .scratch op.reg
    alu64 .or .scratch tag
    store64 .scratch a
  else store64 op.reg a

def lowerSetLocal (v : VarId) : Lower Unit := do
  let x ← variableOf v
  let c ← child 0
  let a := FrameLayout.address x.operand
  match x.format with
  | .value => store64 (← fillValue c).reg a
  | .int32 => storeBoxed (← fillInt c) .int32 (.reg .numberTag) a
  | .double => emit' (.storeD (← fillDouble c) a)
  | .boolean => storeBoxed (← fillBoolean c) .boolean falseImm a
  | .cell => store64 (← fillCell c).reg a
  event (.setLocal x.operand (.ofFlush x.format))

/-- Put the children of a call into the frame being built: the callee into the header, the others
into the argument slots. -/
def storeOutgoing (f : FrameLayout) : List (Edge × Nat) → Lower Unit
  | [] => pure ()
  | (e, i) :: rest => do
    let j ← fillValue e
    store64 j.reg (f.outgoing (if i = 0 then Frame.callee else Frame.headerSize + i - 1))
    unlockGpr j.reg
    storeOutgoing f rest

/-- Build the frame of the callee below the own frame and call through the thunk. -/
def lowerCall : Lower Unit := do
  let n ← currentNode
  let f := (← read).frame
  storeOutgoing f n.children.toList.zipIdx
  flushRegisters
  discard (movImm .scratch (UInt64.ofNat (n.children.size - 1)))
  store64 .scratch (f.outgoing Frame.argumentCount)
  store64 .frame (f.outgoing Frame.callerFrame)
  mov .result .frame
  alu64 .add .result (.imm f.outgoingOffset)
  let offset ← emitReloc (.call 0) (.external (.thunk .virtualCall))
  modify fun s => { s with calls := s.calls.push { offset, origin := n.origin } }
  exceptionCheck
  gprResult (← callResultGpr) .js

/-- A switch over integers checks the range and jumps through the dense table. Any other switch asks
a helper for the target. -/
def lowerSwitch (data : SwitchData) : Lower Unit := do
  modify fun s => { s with switches := s.switches.push s.current }
  let e ← child 0
  let generic (h : Helper) : Lower Unit := do
    let j ← fillValue e
    callHelper h [.imm (UInt64.ofNat data.table), .gpr j.reg]
    emit' (.jmpReg .result)
  match data.kind with
  | .string => generic .switchString
  | .imm =>
    if isInt e then
      match (← read).dense[data.table]? with
      | none => fail (.graph (.noJumpTable data.table))
      | some t =>
        if 2147483648 ≤ t.length then fail (.limit (.tableTooBig data.table))
        if UInt16.size ≤ data.table then fail (.limit (.tooManyTables data.table))
        let v ← fillInt e
        mov .scratch v.reg
        alu32 .sub .scratch (.imm t.min)
        cmp32 .scratch (.imm (Int32.ofNat t.length))
        jcc .ae (← blockLabel data.fallthrough)
        emit' (.jmpTable (UInt16.ofNat data.table) .scratch)
    else generic .switchImm

def lowerReturn : Lower Unit := do
  match (← currentNode).children[0]? with
  | some e => mov .result (← fillValue e).reg
  | none => discard (movImm .result Value.undefined.bits)
  emit' .ret

def lowerThrow : Lower Unit := do
  let j ← fillValue (← child 0)
  callHelper .throw [.gpr j.reg]
  jmp (← read).exceptionLabel

/-- On entry every argument is in its slot, and nothing is known of it but that it is boxed. -/
def beginEntry : Lower Unit := do
  event .reset
  for v in (← graph).arguments.toList do
    event (.setLocal (← variableOf v).operand .js)

/-- Leave unless an argument has the kind its format promises. -/
def checkArgument (x : Variable) : Lower Unit := do
  let a := FrameLayout.address x.operand
  match x.format with
  | .int32 =>
    load64 .scratch a
    cmp64 .scratch (.reg .numberTag)
    guard' .argumentTypeCheck .b
  | .boolean =>
    load64 .scratch a
    alu64 .xor .scratch falseImm
    test64 .scratch (.imm (-2))
    guard' .argumentTypeCheck .ne
  | .cell =>
    load64 .scratch a
    test64 .scratch (.reg .tagMask)
    guard' .argumentTypeCheck .ne
  | .value | .double => pure ()

/-- Check all arguments. The exits count as exits of the first node. -/
def checkArguments : Lower Unit := do
  let g ← graph
  match g.blocks[0]?.bind fun b => b.nodes[0]? with
  | none => pure ()
  | some first =>
    modify fun s => { s with current := first }
    for v in g.arguments.toList do
      checkArgument (← variableOf v)
    for v in g.arguments.toList do
      let x ← variableOf v
      unless x.format = .value do event (.setLocal x.operand (.ofFlush x.format))

end Lowering

end Speculation
