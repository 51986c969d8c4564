import Speculation.Execution.Registers
import Speculation.World.Context

/-!
# Leaving generated code

When an exit is taken, what its guard did to a register is undone, and the value of every argument
and local is rebuilt from the events up to the guard.
-/

namespace Speculation

/-- The state in which the interpreter goes on. -/
structure ExitState where
  exit : UInt32
  kind : ExitKind
  /-- Where execution resumes. -/
  origin : Origin
  values : Operands Value
  /-- Should the code be compiled anew? -/
  recompile : Bool
deriving Repr

namespace Execution

open World

/-- Box what a register or slot of the given format holds. A boxed integer's payload survives a
32-bit operation on its register, while its tag may not. -/
def box (format : DataFormat) (bits : UInt64) : Value :=
  match format with
  | .int32 | .jsInt32 => .ofInt32 bits.toUInt32.toInt32
  | .double => .ofNumber ⟨bits⟩
  | .boolean => .ofBool (bits &&& 1 != 0)
  | .none => .undefined
  | _ => ⟨bits⟩

def recover (m : Registers) : Recovery → Run Value
  | .inFrame slot format => do
    return box format (← read64 (m.gpr .frame + slot.offset.toInt64.toUInt64))
  | .inGpr r format => return box format (m.gpr r)
  | .inFpr r => return .ofNumber (m.fpr r)
  | .uint32InGpr r => return .ofNumber (.ofInt (m.gpr r).toUInt32.toNat)
  | .constant v => return v
  | .dead => return .undefined

/-- Undo what a guard did to a register. -/
def undo (m : Registers) : Undo → Registers
  | .add dst src => m.setGpr dst ((m.gpr dst).toUInt32 - (m.operand src).toUInt32).toUInt64
  | .boolean r => m.setGpr r (m.gpr r ^^^ Value.falseBits)

/-- Where the values are at an exit of the code. -/
def exitRecoveries (a : Artifact) (x : Exit) : Except Breach (Operands Recovery) := do
  let found ← reconstruct a.events.toList x.streamIndex a.graph
  match x.override with
  | some (slot, r) => return found.set slot r
  | none => return found

/-- Leave code through the exit that was recorded last. -/
def leave (m : Registers) (code : Nat) : Run ExitState := do
  let a ← artifact code
  match a.exits[m.exitIndex.toNat]? with
  | none => unsupported (.noExit m.exitIndex)
  | some site =>
    let x := site.exit
    let m := match x.undo with
      | some u => undo m u
      | none => m
    match exitRecoveries a x with
    | .error b => breach b
    | .ok recoveries =>
      let arguments ← recoveries.arguments.mapM (recover m)
      let locals ← recoveries.locals.mapM (recover m)
      match a.noteExit m.exitIndex.toNat with
      | .error b => breach b
      | .ok (recompile, a) =>
        modifyArtifact code fun _ => a
        return { exit := m.exitIndex, kind := x.kind, origin := x.origin
                 values := { arguments, locals }, recompile }

end Execution

end Speculation
