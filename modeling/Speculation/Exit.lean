import Speculation.Machine.Listing
import Speculation.Recovery

/-!
# Exits

A guard that fails leaves generated code through an exit. The exit says why, where the interpreter
goes on, and how many events had happened when the guard was emitted; where values are is
worked out only if the exit is taken.
-/

namespace Speculation

/-- Why an exit is taken. -/
inductive ExitKind where
  | badType | badCache | badIndexingType | overflow | negativeZero | outOfBounds | loadFromHole
  | argumentTypeCheck | inadequateCoverage | uncountable | uncountableWatchpoint
deriving DecidableEq, Repr, Inhabited

def ExitKind.text : ExitKind → String
  | badType => "BadType"
  | badCache => "BadCache"
  | badIndexingType => "BadIndexingType"
  | overflow => "Overflow"
  | negativeZero => "NegativeZero"
  | outOfBounds => "OutOfBounds"
  | loadFromHole => "LoadFromHole"
  | argumentTypeCheck => "ArgumentTypeCheck"
  | inadequateCoverage => "InadequateCoverage"
  | uncountable => "Uncountable"
  | uncountableWatchpoint => "UncountableWatchpoint"

/-- What a guard did to a register, to be undone before values are recovered. -/
inductive Undo where
  /-- `dst` holds the overflowed sum of its former value and `src`. -/
  | add (dst : Gpr) (src : Operand)
  /-- The register was combined with the false value by exclusive or. -/
  | boolean (r : Gpr)
deriving DecidableEq, Repr

def Undo.text : Undo → String
  | add dst src => "add " ++ dst.text ++ ", " ++ src.text
  | boolean r => "boolean " ++ r.text

structure Exit where
  kind : ExitKind
  /-- Where execution resumes. -/
  origin : Origin
  /-- How many events had happened when the guard was emitted. -/
  streamIndex : Nat
  /-- A recovery of one operand that differs from what the events say. -/
  override : Option (Slot × Recovery) := none
  undo : Option Undo := none
  /-- The node whose guard this is. -/
  node : NodeId
  isForward : Bool := false
  /-- Is the exit reached by firing a watchpoint? -/
  isWatchpoint : Bool := false
  /-- The label of the stub that every failing guard jumps to. -/
  stub : Nat
deriving Repr

end Speculation
