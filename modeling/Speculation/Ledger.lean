import Speculation.Location

/-!
# The ledger of values

For each value slot the ledger says which node's value it holds, how many uses are still to come,
and where the value is: in a register, in its spill slot, or both, or nowhere if it is a
constant, which is made again whenever it is needed.
-/

namespace Speculation

structure ValueInfo where
  node : Option NodeId := none
  useCount : Nat := 0
  registerFormat : DataFormat := .none
  spillFormat : DataFormat := .none
  isConstant : Bool := false
  location : Location := .none
deriving DecidableEq, Repr, Inhabited

namespace ValueInfo

def ofConstant (node : NodeId) (useCount : Nat) : ValueInfo :=
  { node := some node, useCount, isConstant := true }

/-- A general purpose register holds neither a raw double nor nothing. -/
def gprFormat (format : DataFormat) : Bool := format != .double && format != .none

def ofGpr (node : NodeId) (useCount : Nat) (r : Gpr) (format : DataFormat) :
    Except Breach ValueInfo :=
  if gprFormat format then
    .ok { node := some node, useCount, registerFormat := format, location := .gpr r }
  else .error .assertion

def ofFpr (node : NodeId) (useCount : Nat) (r : Fpr) : ValueInfo :=
  { node := some node, useCount, registerFormat := .double, location := .fpr r }

def isAlive (i : ValueInfo) : Bool := i.node.isSome

def isSpilled (i : ValueInfo) : Bool := i.spillFormat != .none

def gpr? (i : ValueInfo) : Option Gpr :=
  match i.location with
  | .gpr r => some r
  | _ => none

def fpr? (i : ValueInfo) : Option Fpr :=
  match i.location with
  | .fpr r => some r
  | _ => none

/-- How readily the register of this value is given up. -/
def spillOrder (i : ValueInfo) : SpillOrder :=
  if i.isConstant then .constant
  else if i.isSpilled then .spilled
  else .ofFormat i.registerFormat

/-- The value is now in a general purpose register, and still in its spill slot if it was. -/
def fillGpr (i : ValueInfo) (r : Gpr) (format : DataFormat) : Except Breach ValueInfo :=
  if gprFormat format then .ok { i with registerFormat := format, location := .gpr r }
  else .error .assertion

def fillFpr (i : ValueInfo) (r : Fpr) : ValueInfo :=
  { i with registerFormat := .double, location := .fpr r }

/-- The value is no longer in a register. -/
def releaseRegisters (i : ValueInfo) : ValueInfo :=
  { i with registerFormat := .none, location := .none }

/-- The value is in its spill slot and no longer in a register. Constants are never spilled. -/
def spill (i : ValueInfo) (format : DataFormat) : Except Breach ValueInfo :=
  if i.isConstant then .error .assertion
  else .ok { i.releaseRegisters with spillFormat := format }

/-- Consume one use; the flag tells whether it was the last. -/
def consume (i : ValueInfo) : Except Breach (Bool × ValueInfo) :=
  if i.useCount = 0 then .error .assertion
  else .ok (i.useCount = 1, { i with useCount := i.useCount - 1 })

def dead : ValueInfo := {}

end ValueInfo

end Speculation
