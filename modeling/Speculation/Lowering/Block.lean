import Speculation.Graph.Text
import Speculation.Lowering.Compare
import Speculation.Lowering.Control
import Speculation.Lowering.Convert
import Speculation.Lowering.Heap

/-!
# Lowering blocks

Registers hold nothing at the start of a block. Each node is lowered in turn; a node whose
speculation can never succeed leaves a placeholder for its consumers, whose code is never
reached. Slow paths come after all blocks.
-/

namespace Speculation
namespace Lowering

def lowerNode (op : Op) : Lower Unit :=
  match op with
  | .constant _ | .doubleConstant _ | .movHint _ | .flush _ | .phantom | .phi _ => pure ()
  | .getLocal v => lowerGetLocal v
  | .setLocal v => lowerSetLocal v
  | .arithAdd | .valueAdd => lowerAdd
  | .arithSub => lowerSub
  | .arithMul => lowerMul
  | .arithNegate => lowerNegate
  | .arithDiv => lowerDiv
  | .arithMod => lowerMod
  | .arithAbs => lowerAbs
  | .arithMin => lowerMinMax true
  | .arithMax => lowerMinMax false
  | .arithSqrt => lowerSqrt
  | .bit op => lowerBit op
  | .valueToInt32 => lowerValueToInt32
  | .uint32ToNumber => lowerUInt32ToNumber
  | .int32ToDouble => lowerInt32ToDouble
  | .doubleAsInt32 => lowerDoubleAsInt32
  | .compare op => lowerCompare op
  | .logicalNot => lowerNot
  | .checkStructure set => lowerCheckStructure set
  | .checkArray mode => lowerCheckArray mode
  | .arrayify mode => lowerArrayify mode
  | .getStorage _ => lowerGetStorage
  | .getByVal mode => lowerGetByVal mode
  | .putByVal mode => lowerPutByVal mode
  | .getArrayLength mode => lowerGetArrayLength mode
  | .stringCharCodeAt => lowerCharCodeAt
  | .stringCharAt => lowerCharAt
  | .getById ident => lowerGetById ident
  | .putById ident => lowerPutById ident
  | .checkHasInstance => lowerCheckHasInstance
  | .instanceOf => lowerInstanceOf
  | .call => lowerCall
  | .jump b => jumpToBlock b
  | .branch t f => lowerBranch t f
  | .switch data => lowerSwitch data
  | .ret => lowerReturn
  | .throw => lowerThrow
  | .forceExit => terminate .inadequateCoverage

/-- Give the consumers of a terminated node something to consume. -/
def bindPlaceholder : Lower Unit := do
  let n ← currentNode
  if n.op.hasResult && n.refCount != 0 then
    unless (← info (← get).current).isAlive do
      let r ← allocGpr
      discard (movImm r Value.undefined.bits)
      gprResult r .js

def inconsistent {α : Type} (f : StateFault) : Lower α := do
  internal (.inconsistent (← get).current f)

/-- Does the ledger say that the owner of each bound register is in it? -/
def checkBound (bound : List (Location × Slot)) : Lower Unit := do
  for (l, s) in bound do
    unless (← infoAt (← ledgerIndex s)).location = l do inconsistent (.notIn l s)

/-- Is a value that the ledger has in a register alive and the register's owner? -/
def checkInfo (i : Nat) (x : ValueInfo) : Lower Unit := do
  let s := Slot.ofLocal i
  let st ← get
  match x.location with
  | .gpr r =>
    unless st.gprs.owner r = some s do inconsistent (.notBound s x.location)
    unless x.isAlive do inconsistent (.deadInRegister s)
  | .fpr r =>
    unless st.fprs.owner r = some s do inconsistent (.notBound s x.location)
    unless x.isAlive do inconsistent (.deadInRegister s)
  | .none => pure ()

/-- Check that the ledger and the banks agree and that nothing is locked. -/
def checkState : Lower Unit := do
  let s ← get
  if s.gprs.anyLocked || s.fprs.anyLocked then inconsistent .locked
  checkBound (s.gprs.bound.map fun (r, o) => (.gpr r, o))
  checkBound (s.fprs.bound.map fun (r, o) => (.fpr r, o))
  for (x, i) in s.ledger.toList.zipIdx do
    checkInfo i x

/-- Lower the current node. The guards that its routine holds are dropped when it is left, whether it
has come to its end or was cut short, and so is that of the placeholder. -/
def lowerCurrent (n : Node) : Lower Unit := do
  try
    lowerNode n.op
    dropGuards
  catch
    | .terminated =>
      dropGuards
      bindPlaceholder
      dropGuards
    | stop => throw stop

/-- Facts after the node. -/
def advance (id : NodeId) : Lower Unit := do
  let facts ← assume ((← get).facts.execute (← graph) id)
  modify fun s => { s with facts }

/-- Lower the node at a position of the current block. Constants and hints emit nothing, and nodes
that nothing needs are left out. -/
def lowerAt (position : Nat) (id : NodeId) : Lower Unit := do
  if (← get).skipNext then
    modify fun s => { s with skipNext := false }
    advance id
  else
    modify fun s => { s with position, current := id }
    let n ← node id
    match n.op with
    | .constant _ | .doubleConstant _ =>
      if n.slot.isSome then setInfo id (.ofConstant id n.refCount)
    | .movHint v =>
      event (.movHint (← assume (n.child 0)).node (← variableOf v).operand)
    | op =>
      if n.shouldGenerate then
        if (← get).asm.isLogging then comment ("@" ++ toString id ++ ": " ++ op.name)
        lowerCurrent n
        match op with
        | .phi _ => pure ()
        | _ => useChildren id
        advance id
        if (← read).assertState then checkState

/-- Forget all registers; every argument and every variable live at the head is in its slot. -/
def resetBlock (b : Block) : Lower Unit := do
  let g ← graph
  modify fun s =>
    { s with
      ledger := s.ledger.map fun _ => .dead
      gprs := s.gprs.releaseAll
      fprs := s.fprs.releaseAll
      facts := s.facts.beginBlock g }
  event .reset
  for v in g.arguments.toList do
    let x ← variableOf v
    event (.setLocal x.operand (.ofFlush x.format))
  for v in b.liveAtHead.toList do
    let x ← variableOf v
    if x.operand.local?.isSome then event (.setLocal x.operand (.ofFlush x.format))

/-- Lower a block. An unreachable one is at most a breakpoint. -/
def lowerBlock (id : BlockId) : Lower Unit := do
  let b ← assume ((← graph).block id)
  modify fun s => { s with block := id }
  attach (← blockLabel id)
  if b.reachable then
    comment ("bb" ++ toString id)
    resetBlock b
    modify fun s => { s with skipNext := false }
    for (n, i) in b.nodes.toList.zipIdx do
      lowerAt i n
  else if (← read).breakUnreachable then emit' .breakpoint

/-- Save the registers a slow path must preserve. -/
def saveRegisters (p : SlowPath) : Lower Unit := do
  let f := (← read).frame
  for r in p.gprs do
    store64 r (f.gprSave r.val)
  for r in p.fprs do
    emit' (.storeD r (f.fprSave r.val))

def restoreRegisters (p : SlowPath) : Lower Unit := do
  let f := (← read).frame
  for r in p.gprs do
    load64 r (f.gprSave r.val)
  for r in p.fprs do
    emit' (.loadD r (f.fprSave r.val))

/-- Call a helper from a slow path. -/
def slowCall (p : SlowPath) (h : Helper) (args : List Argument) (result : Option Gpr) :
    Lower Unit := do
  saveRegisters p
  setupArguments args
  emitCall h
  if h.mayThrow then exceptionCheck
  if let some r := result then mov r .result
  restoreRegisters p

def slowWork (p : SlowPath) : Lower Unit := do
  match p.work with
  | .call h args result => slowCall p h args result
  | .convert h cell shape =>
    testFlags cell TypeFlag.interceptsIndexing
    guard' .badIndexingType .ne
    slowCall p h [.gpr cell] (some .scratch)
    alu32 .and .scratch (.imm (Int32.ofNat Indexing.shapeMask.toNat))
    cmp32 .scratch (.imm (Int32.ofNat shape.toNat))
    guard' .badIndexingType .ne

/-- Emit the registered slow paths. Their exits see the events up to the registration. -/
def emitSlowPaths : Lower Unit := do
  for p in (← get).slowPaths.toList do
    attach p.entry
    comment ("slow path for @" ++ toString p.node)
    modify fun s =>
      { s with
        current := p.node
        exitStream := some p.streamIndex
        exitLedger := some p.ledger }
    slowWork p
    jmp p.done
  modify fun s => { s with exitStream := none, exitLedger := none }

end Lowering

end Speculation
