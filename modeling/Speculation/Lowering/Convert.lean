import Speculation.Lowering.Arith

/-!
# Conversions between representations
-/

namespace Speculation
namespace Lowering

/-- Reduce a number to 32 bits. A truncation that does not fit, and a value that is no integer, go
through a slow path. -/
def lowerValueToInt32 : Lower Unit := do
  let a ← child 0
  match a.kind with
  | .int32 | .knownInt32 =>
    let op ← fillInt a
    let r ← allocGpr
    emit' (.zext32 r op.reg)
    gprResult r .int32
  | .number =>
    let f ← fillDouble a
    let r ← allocGpr
    let slow ← newLabel
    let done ← newLabel
    emit' (.cvtDToInt r f)
    cmp32 r (.imm Int32.minValue)
    jcc .e slow
    attach done
    addSlowPath slow done [r] (.call .toInt32 [.fpr f] (some r))
    gprResult r .int32
  | _ =>
    let j ← fillValue a
    let r ← allocGpr
    let slow ← newLabel
    let done ← newLabel
    cmp64 j.reg (.reg .numberTag)
    jcc .b slow
    emit' (.zext32 r j.reg)
    attach done
    addSlowPath slow done [r] (.call .toInt32Generic [.gpr j.reg] (some r))
    gprResult r .int32

/-- The double `2 ^ 32`. -/
def twoPow32 : Double := ⟨0x41f0000000000000⟩

/-- Read an integer as unsigned: an integer again if it has to be one, else a double. -/
def lowerUInt32ToNumber : Lower Unit := do
  let n ← currentNode
  let op ← fillInt (← child 0)
  if n.flags.canTruncate then
    let r ← allocGpr
    emit' (.zext32 r op.reg)
    gprResult r .int32
  else if n.prediction.isA .int32 then
    let r ← allocGpr
    emit' (.zext32 r op.reg)
    test32 r (.reg r)
    let x ← guard .overflow .s
    makeForward x (.uint32InGpr r)
    gprResult r .int32
  else
    let f ← allocFpr
    let done ← newLabel
    emit' (.cvtIntToD f op.reg)
    test32 op.reg (.reg op.reg)
    jcc .ns done
    loadDoubleConstant .scratch twoPow32
    emit' (.dalu .add f .scratch)
    attach done
    fprResult f

def lowerInt32ToDouble : Lower Unit := do
  let f ← fillDouble (← child 0)
  let r ← allocFpr
  dmov r f
  fprResult r

/-- Convert a double to an integer, leaving if that loses something. -/
def lowerDoubleAsInt32 : Lower Unit := do
  let n ← currentNode
  let f ← fillDouble (← child 0)
  let r ← allocGpr
  emit' (.cvtDToInt r f)
  emit' (.cvtIntToD .scratch r)
  emit' (.dcmp f .scratch)
  let x ← guard .overflow .dNeOrUnordered
  if n.flags.needsNegZero then
    let done ← newLabel
    test32 r (.reg r)
    jcc .ne done
    emit' (.movDToG .scratch f)
    test64 .scratch (.reg .scratch)
    jccExit .s x
    attach done
  makeForward x (.inFpr f)
  gprResult r .int32

end Lowering

end Speculation
