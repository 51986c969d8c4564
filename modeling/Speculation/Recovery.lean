import Speculation.Location

/-!
# Events and recoveries

Lowering appends an event whenever a value is born into a register, moves, is spilled or dies, and
whenever a local is hinted or stored. An exit remembers only how many events there were. To
leave generated code, the events of its block are replayed, and from the state they lead to it
follows where each argument and local is to be found.
-/

namespace Speculation

inductive Event where
  /-- The start of a block: nothing is in a register. -/
  | reset
  /-- A value was produced into a register. -/
  | birth (node : NodeId) (location : Location) (format : DataFormat)
  /-- A value was loaded into, or moved to, a register. -/
  | fill (node : NodeId) (location : Location) (format : DataFormat)
  /-- A value is in its spill slot and no longer in a register. -/
  | spill (node : NodeId) (slot : Slot) (format : DataFormat)
  | death (node : NodeId)
  /-- The operand holds the value of the node. -/
  | movHint (node : NodeId) (operand : Slot)
  /-- The frame slot of the operand holds its value. -/
  | setLocal (operand : Slot) (format : DataFormat)
deriving DecidableEq, Repr, Inhabited

def Event.text : Event → String
  | reset => "reset"
  | birth n l f => "birth @" ++ toString n ++ " " ++ l.text ++ " " ++ f.text
  | fill n l f => "fill @" ++ toString n ++ " " ++ l.text ++ " " ++ f.text
  | spill n s f => "spill @" ++ toString n ++ " " ++ s.text ++ " " ++ f.text
  | death n => "death @" ++ toString n
  | movHint n s => "movhint @" ++ toString n ++ " " ++ s.text
  | setLocal s f => "setlocal " ++ s.text ++ " " ++ f.text

/-- How to find a value when generated code is left. -/
inductive Recovery where
  | inFrame (slot : Slot) (format : DataFormat)
  | inGpr (r : Gpr) (format : DataFormat)
  | inFpr (r : Fpr)
  /-- The low half of a register, as an unsigned number. -/
  | uint32InGpr (r : Gpr)
  | constant (v : Value)
  /-- Nothing needs the value: undefined will do. -/
  | dead
deriving DecidableEq, Repr, Inhabited

def Recovery.text : Recovery → String
  | inFrame s f => s.text ++ ":" ++ f.text
  | inGpr r f => r.text ++ ":" ++ f.text
  | inFpr r => r.text ++ ":Double"
  | uint32InGpr r => r.text ++ ":UInt32"
  | constant v => "const(" ++ v.text ++ ")"
  | dead => "dead"

/-- One thing for each argument and each local. -/
structure Operands (α : Type) where
  arguments : Array α
  locals : Array α
deriving DecidableEq, Repr, Inhabited

/-- Replace what belongs to a slot; slots outside are ignored. -/
def Operands.set {α : Type} (o : Operands α) (s : Slot) (x : α) : Operands α :=
  match s.argument?, s.local? with
  | some i, _ => { o with arguments := o.arguments.setIfInBounds i x }
  | none, some i => { o with locals := o.locals.setIfInBounds i x }
  | none, none => o

namespace Replay

/-- Where a node's value is: a register, a spill slot, or both. -/
structure NodeState where
  register : Option (Location × DataFormat) := none
  spill : Option (Slot × DataFormat) := none
deriving DecidableEq, Repr, Inhabited

/-- What is known of an operand: it holds a node's value, or its slot has been stored. -/
inductive OperandState where
  | hinted (node : NodeId)
  | stored (format : DataFormat)
deriving DecidableEq, Repr, Inhabited

/-- The state of a replay. Entries of one key hide older ones. -/
structure State where
  nodes : List (NodeId × NodeState) := []
  operands : List (Slot × OperandState) := []
deriving Repr, Inhabited

def State.node? (s : State) (n : NodeId) : Option NodeState := s.nodes.lookup n

def State.operand? (s : State) (o : Slot) : Option OperandState := s.operands.lookup o

def State.setNode (s : State) (n : NodeId) (x : NodeState) : State :=
  { s with nodes := (n, x) :: s.nodes.filter fun e => e.1 != n }

def State.setOperand (s : State) (o : Slot) (x : OperandState) : State :=
  { s with operands := (o, x) :: s.operands.filter fun e => e.1 != o }

/-- What one event changes. -/
def step (s : State) : Event → State
  | .reset => {}
  | .birth n l f => s.setNode n { register := some (l, f) }
  | .fill n l f => s.setNode n { (s.node? n).getD {} with register := some (l, f) }
  | .spill n slot f => s.setNode n { register := none, spill := some (slot, f) }
  | .death n => { s with nodes := s.nodes.filter fun e => e.1 != n }
  | .movHint n o => s.setOperand o (.hinted n)
  | .setLocal o f => s.setOperand o (.stored f)

/-- Where a value is found: in its register, else in its spill slot. -/
def NodeState.recovery : Option NodeState → Recovery
  | some { register := some (.gpr r, f), .. } => .inGpr r f
  | some { register := some (.fpr r, _), .. } => .inFpr r
  | some { spill := some (slot, f), .. } => .inFrame slot f
  | _ => .dead

/-- Where an operand is found in a state. -/
def recover (g : Graph) (s : State) (o : Slot) : Except Breach Recovery := do
  match s.operand? o with
  | none => return .dead
  | some (.stored f) => return .inFrame o f
  | some (.hinted n) =>
    match ← g.valueConstant n with
    | some v => return .constant v
    | none => return NodeState.recovery (s.node? n)

/-- The events from the last reset among the first `index` on. -/
def fromLastReset (events : List Event) (index : Nat) : List Event :=
  let seen := (events.take index).reverse
  match seen.span (· != .reset) with
  | (after, []) => after.reverse
  | (after, r :: _) => r :: after.reverse

end Replay

/-- Where every argument and local is found once `index` events have happened. -/
def reconstruct (events : List Event) (index : Nat) (g : Graph) :
    Except Breach (Operands Recovery) := do
  let s := (Replay.fromLastReset events index).foldl Replay.step {}
  return {
    arguments := ← (Array.range g.arguments.size).mapM fun i => Replay.recover g s (.ofArgument i)
    locals := ← (Array.range g.numVars).mapM fun i => Replay.recover g s (.ofLocal i) }

end Speculation
