import Speculation.Bank
import Speculation.Exit
import Speculation.Facts
import Speculation.JumpTable
import Speculation.Ledger
import Speculation.Machine.Assembler

/-!
# The state of a lowering

Lowering walks a graph block by block and emits code. It keeps the ledger of values and the two
register banks in agreement, logs every change of either as an event, and collects what is to
be completed later: exits, out-of-line slow paths, and the places that are patched at run time.
-/

namespace Speculation
namespace Lowering

/-- Slots that slow paths save registers in: twelve for the general purpose registers, then eight
for the double registers. -/
def saveAreaSlots : Nat := 20

/-- Where things are in an optimised frame. Below the frame register are the locals, then the save
area, then the frame of any outgoing call. -/
structure FrameLayout where
  numLocals : Nat
  /-- All slots below the frame register. -/
  frameSlots : Nat
deriving Repr

namespace FrameLayout

def ofGraph (g : Graph) : Except Breach FrameLayout := do
  return { numLocals := g.numLocals
           frameSlots := g.numLocals + saveAreaSlots + Frame.headerSize + (← g.maxCallArgs) }

def address (s : Slot) : Address := .ofBase .frame s.offset

def gprSave (f : FrameLayout) (i : Nat) : Address := address (.ofLocal (f.numLocals + i))

def fprSave (f : FrameLayout) (i : Nat) : Address := address (.ofLocal (f.numLocals + 12 + i))

/-- The frame of an outgoing call, in bytes from the frame register. -/
def outgoingOffset (f : FrameLayout) : Int32 := -Int32.ofNat (f.frameSlots * 8)

/-- A slot of the frame of an outgoing call. -/
def outgoing (f : FrameLayout) (slot : Nat) : Address :=
  .ofBase .frame (f.outgoingOffset + Int32.ofNat (slot * 8))

end FrameLayout

/-- An argument to a helper. -/
inductive Argument where
  | gpr (r : Gpr)
  | fpr (r : Fpr)
  | imm (x : UInt64)
deriving DecidableEq, Repr

/-- What an inline cache caches. -/
inductive CacheKind where
  | getById | putById
deriving DecidableEq, Repr, Inhabited

/-- An inline cache: the offsets of the instruction that holds the expected structure and of the
property access. -/
structure CacheSite where
  kind : CacheKind
  ident : Nat
  structureImm : Nat
  access : Nat
  origin : Origin
  /-- The registers of the cell, of the expected structure and of the property. Nothing reads them:
  they are what the linked code is held against. -/
  base : Gpr
  expected : Gpr
  value : Gpr
deriving Repr

structure CallSite where
  offset : Nat
  origin : Origin
deriving Repr

structure WatchpointSite where
  offset : Nat
  exit : Nat
deriving Repr

/-- What a slow path does before it goes back to the fast path. -/
inductive SlowWork where
  /-- Call a helper and keep its result in a register. -/
  | call (helper : Helper) (args : List Argument) (result : Option Gpr)
  /-- Convert the elements of the object in `cell`, and leave if it cannot have `shape`. -/
  | convert (helper : Helper) (cell : Gpr) (shape : UInt8)
deriving Repr

/-- A registered slow path: its labels, the registers it must preserve, and the node, number of
events and ledger that its exits go by. -/
structure SlowPath where
  entry : Label
  done : Label
  gprs : List Gpr
  fprs : List Fpr
  node : NodeId
  streamIndex : Nat
  ledger : Array ValueInfo
  work : SlowWork
deriving Repr

/-- What does not change during a lowering. -/
structure Env where
  graph : Graph
  frame : FrameLayout
  blockLabels : Array Label
  exceptionLabel : Label
  /-- For exceptions before the frame is set up. -/
  rollbackLabel : Label
  dense : Array DenseTable
  /-- The address of the context record. -/
  context : UInt64
  /-- No object has ever passed for undefined. -/
  noMasquerades : Bool
  assertState : Bool
  breakUnreachable : Bool

structure State where
  asm : Assembler
  ledger : Array ValueInfo
  gprs : Bank Gpr := .new Gpr
  fprs : Bank Fpr := .new Fpr
  /-- The guards that are live: the register of each lock that the routine at hand holds. -/
  guards : List Location := []
  events : Array Event := #[]
  exits : Array Exit := #[]
  /-- What the ledger said where each exit was made. Nothing reads it: it is what a replay of the
  events is held against. -/
  views : Array (Array ValueInfo) := #[]
  facts : Facts
  slowPaths : Array SlowPath := #[]
  block : BlockId := 0
  /-- The position of the current node in its block. -/
  position : Nat := 0
  current : NodeId := 0
  /-- The next node was lowered together with this one. -/
  skipNext : Bool := false
  /-- In a slow path, how many events its exits see. -/
  exitStream : Option Nat := none
  /-- In a slow path, the ledger that its exits go by. -/
  exitLedger : Option (Array ValueInfo) := none
  /-- The patterns of the constant pool. -/
  pool : Array UInt64 := #[]
  /-- The label of each pool entry in use. -/
  poolLabels : Array Label := #[]
  /-- The offsets of the loads from the pool, each with the pattern that was asked for. Nothing reads
  it: it is what the linked code is held against. -/
  loads : Array (Nat × UInt64) := #[]
  caches : Array CacheSite := #[]
  calls : Array CallSite := #[]
  watchpoints : Array WatchpointSite := #[]
  switches : Array NodeId := #[]

/-- Why the lowering of a node stops. -/
inductive Stop where
  /-- The node's speculation can never succeed; an unconditional exit has been emitted. -/
  | terminated
  | failed (f : Failure)
deriving Repr

end Lowering

/-- A lowering step. The state survives a stop, since lowering goes on after a terminated node. -/
abbrev Lower := ReaderT Lowering.Env (ExceptT Lowering.Stop (StateM Lowering.State))

namespace Lowering

def fail {α : Type} (e : CompileError) : Lower α := throw (.failed (.compile e))

def internal {α : Type} (f : InternalFault) : Lower α := fail (.internal f)

/-- Take the result of a step that can fail to compile. -/
def check {α : Type} (x : Except CompileError α) : Lower α :=
  match x with
  | .ok a => pure a
  | .error e => fail e

/-- Take the result of a step that rests on an assumption. -/
def assume {α : Type} (x : Except Breach α) : Lower α :=
  match x with
  | .ok a => pure a
  | .error b => throw (.failed (.breach b))

def graph : Lower Graph := return (← read).graph

def node (n : NodeId) : Lower Node := do assume ((← read).graph.node n)

def currentNode : Lower Node := do node (← get).current

def child (i : Nat) : Lower Edge := do assume ((← currentNode).child i)

def variableOf (v : VarId) : Lower Variable := do assume (Breach.get (← read).graph.vars v)

def blockLabel (b : BlockId) : Lower Label := do assume (Breach.get (← read).blockLabels b)

end Lowering

end Speculation
