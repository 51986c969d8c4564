import Speculation.Lowering.Arith

/-!
# Comparisons, negation and branches

A comparison whose only use is the branch right after it is lowered together with the branch: the
flags decide, and no boolean is made.
-/

namespace Speculation
namespace Lowering

/-- The condition after an integer comparison. -/
def intCond : Comparison → Cond
  | .less => .l
  | .lessEq => .le
  | .greater => .g
  | .greaterEq => .ge
  | .eq | .strictEq => .e

/-- The condition after a double comparison. All of these are false if either side is a NaN. -/
def doubleCond : Comparison → Cond
  | .less => .dLt
  | .lessEq => .dLe
  | .greater => .dGt
  | .greaterEq => .dGe
  | .eq | .strictEq => .dEq

/-- Where the outcome of a comparison goes: to the branch lowered with it, or into a register. -/
inductive CompareTarget where
  | branch (taken notTaken : BlockId)
  | value (r : Gpr)

/-- The targets of the branch that can be lowered with the current node. -/
def fusableBranch : Lower (Option (BlockId × BlockId)) := do
  let g ← graph
  let s ← get
  if (← currentNode).refCount ≠ 1 then return none
  match (← assume (g.block s.block)).nodes[s.position + 1]? with
  | none => return none
  | some next =>
    let n ← node next
    match n.op with
    | .branch t f => if (← assume (n.child 0)).node = s.current then return some (t, f) else return none
    | _ => return none

def finishCompare (c : Cond) (target : CompareTarget) : Lower Unit := do
  match target with
  | .branch t f => branch c t f
  | .value r =>
    emit' (.setCond c r)
    alu64 .or r falseImm
    gprResult r .jsBoolean

/-- Objects that pass for undefined equal null and undefined, so identity decides only while there
are none: either there never was one, which a watchpoint reports, or each object is checked. -/
def masqueradeGuard (cells : List Gpr) : Lower Unit := do
  if (← read).noMasquerades then guardWatchpoint .uncountableWatchpoint
  else
    for c in cells do
      load64 .scratch (.ofBase c (Int32.ofNat Layout.cellStructure))
      load .w8 .scratch (.ofBase .scratch (Int32.ofNat Layout.structureFlags))
      test32 .scratch (.imm (Int32.ofNat TypeFlag.masqueradesAsUndefined.toNat))
      guard' .badType .ne

/-- Leave unless the value, which is no cell, is null or undefined. -/
def guardOther (v : Gpr) : Lower Unit := do
  mov .scratch v
  alu64 .and .scratch (.imm (-9))
  cmp64 .scratch (.imm 2)
  guard' .badType .ne

/-- Equality of an object with an object, null or undefined. -/
def objectOrOtherEq (object other : Edge) (target : CompareTarget) : Lower Unit := do
  let o ← fillObject object
  let v ← fillValue other
  let notCell ← newLabel
  let done ← newLabel
  test64 v.reg (.reg .tagMask)
  jcc .ne notCell
  guardCellType v.reg .string false .badType
  masqueradeGuard [o.reg, v.reg]
  cmp64 o.reg (.reg v.reg)
  match target with
  | .branch t f =>
    let lt ← blockLabel t
    let lf ← blockLabel f
    jcc .e lt
    jmp lf
    attach notCell
    guardOther v.reg
    jumpToBlock f
  | .value r =>
    emit' (.setCond .e r)
    jmp done
    attach notCell
    guardOther v.reg
    discard (movImm r 0)
    attach done
    alu64 .or r falseImm
    gprResult r .jsBoolean

def genericCompare (op : Comparison) (a b : Edge) (fused : Option (BlockId × BlockId)) :
    Lower Unit := do
  let ja ← fillValue a
  let jb ← fillValue b
  callHelper .compareGeneric [.gpr ja.reg, .gpr jb.reg, .imm (UInt64.ofNat op.ctorIdx)]
  unlockGpr ja.reg
  unlockGpr jb.reg
  match fused with
  | some (t, f) =>
    test32 .result (.reg .result)
    branch .ne t f
  | none =>
    let r ← callResultGpr
    alu64 .or r falseImm
    gprResult r .jsBoolean

/-- Are both sides objects, one of them perhaps null or undefined? -/
def comparesObjects (a b : UseKind) : Bool :=
  match a, b with
  | .object, .object | .object, .objectOrOther | .objectOrOther, .object => true
  | _, _ => false

/-- Compare numbers, or objects, once it is settled where the outcome goes. -/
def compareInto (op : Comparison) (a b : Edge) (target : CompareTarget) : Lower Unit := do
  if isInt a && isInt b then
    let op1 ← fillInt a
    let rhs ← intRhs b
    cmp32 op1.reg rhs
    finishCompare (intCond op) target
  else if isNumber a && isNumber b then
    let fa ← fillDouble a
    let fb ← fillDouble b
    emit' (.dcmp fa fb)
    finishCompare (doubleCond op) target
  else if a.kind = .object && b.kind = .object then
    let oa ← fillObject a
    let ob ← fillObject b
    masqueradeGuard [oa.reg, ob.reg]
    cmp64 oa.reg (.reg ob.reg)
    finishCompare .e target
  else if a.kind = .object then objectOrOtherEq a b target
  else objectOrOtherEq b a target

/-- Is the comparison made by a helper? -/
def isGenericCompare (op : Comparison) (a b : Edge) : Bool :=
  !(isNumber a && isNumber b) &&
    !((op = .eq || op = .strictEq) && comparesObjects a.kind b.kind)

/-- Lower a comparison. The register of the outcome is chosen before the flags are set. -/
def lowerCompare (op : Comparison) : Lower Unit := do
  let a ← child 0
  let b ← child 1
  let fused ← fusableBranch
  if fused.isSome then modify fun s => { s with skipNext := true }
  if isGenericCompare op a b then genericCompare op a b fused
  else
    match fused with
    | some (t, f) => compareInto op a b (.branch t f)
    | none => compareInto op a b (.value (← allocGpr))

/-- Compare a double with zero. -/
def compareZero (f : Fpr) : Lower Unit := do
  discard (movImm .scratch 0)
  emit' (.movGToD .scratch .scratch)
  emit' (.dcmp f .scratch)

/-- Logical negation. Zero and NaN are false. -/
def lowerNot : Lower Unit := do
  let a ← child 0
  match a.kind with
  | .boolean =>
    let r ← allocGpr
    let op ← fillBoolean a
    mov r op.reg
    alu64 .xor r (.imm 1)
    if op.format = .boolean then alu64 .or r falseImm
    gprResult r .jsBoolean
  | .int32 | .knownInt32 =>
    let r ← allocGpr
    let op ← fillInt a
    test32 op.reg (.reg op.reg)
    emit' (.setCond .e r)
    alu64 .or r falseImm
    gprResult r .jsBoolean
  | .number =>
    let r ← allocGpr
    let f ← fillDouble a
    compareZero f
    emit' (.setCond .dEq r)
    emit' (.setCond .dUnordered .scratch)
    alu64 .or r (.reg .scratch)
    alu64 .or r falseImm
    gprResult r .jsBoolean
  | _ =>
    let j ← fillValue a
    callHelper .toBoolean [.gpr j.reg]
    unlockGpr j.reg
    let r ← callResultGpr
    alu64 .xor r (.imm 1)
    alu64 .or r falseImm
    gprResult r .jsBoolean

def lowerBranch (taken notTaken : BlockId) : Lower Unit := do
  let a ← child 0
  match a.kind with
  | .boolean =>
    let op ← fillBoolean a
    test32 op.reg (.imm 1)
    branch .ne taken notTaken
  | .int32 | .knownInt32 =>
    let op ← fillInt a
    test32 op.reg (.reg op.reg)
    branch .ne taken notTaken
  | .number =>
    let f ← fillDouble a
    compareZero f
    let l ← blockLabel notTaken
    jcc .dEq l
    jcc .dUnordered l
    jumpToBlock taken
  | _ =>
    let j ← fillValue a
    callHelper .toBoolean [.gpr j.reg]
    unlockGpr j.reg
    test32 .result (.reg .result)
    branch .ne taken notTaken

end Lowering

end Speculation
