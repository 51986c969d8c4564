import Speculation.Lowering.Emit

/-!
# Values and registers

Every step here changes the ledger, a bank and the event log together: handing out registers and
saving the values that have to give one up, binding results, and releasing values after their
last use.
-/

namespace Speculation
namespace Lowering

/-- The frame slot of a node's value. -/
def slotOf (n : NodeId) : Lower Slot := do
  match (← node n).slot with
  | some s => return s
  | none => internal (.noValueSlot n)

/-- The index of a slot in the ledger. -/
def ledgerIndex (s : Slot) : Lower Nat := do
  match s.local? with
  | some i => if i < (← get).ledger.size then return i else internal (.notValueSlot s)
  | none => internal (.notValueSlot s)

def infoAt (i : Nat) : Lower ValueInfo := return (← get).ledger.getD i {}

def setInfoAt (i : Nat) (x : ValueInfo) : Lower Unit :=
  modify fun s => { s with ledger := s.ledger.setIfInBounds i x }

/-- The ledger entry of a node's value. -/
def info (n : NodeId) : Lower ValueInfo := do infoAt (← ledgerIndex (← slotOf n))

def setInfo (n : NodeId) (x : ValueInfo) : Lower Unit := do
  setInfoAt (← ledgerIndex (← slotOf n)) x

def modifyGprs (f : Bank Gpr → Bank Gpr) : Lower Unit := modify fun s => { s with gprs := f s.gprs }

def modifyFprs (f : Bank Fpr → Bank Fpr) : Lower Unit := modify fun s => { s with fprs := f s.fprs }

/-- Keep a bank in which `r` was locked, and the guard of that lock. -/
def holdGpr (bank : Bank Gpr) (r : Gpr) : Lower Unit :=
  modify fun s => { s with gprs := bank, guards := .gpr r :: s.guards }

def holdFpr (bank : Bank Fpr) (r : Fpr) : Lower Unit :=
  modify fun s => { s with fprs := bank, guards := .fpr r :: s.guards }

def lockGpr (r : Gpr) : Lower Unit := do
  let bank ← check ((← get).gprs.lock r)
  holdGpr bank r

def lockFpr (r : Fpr) : Lower Unit := do
  let bank ← check ((← get).fprs.lock r)
  holdFpr bank r

/-- Drop one guard of a register. -/
def State.drop (s : State) : Location → State
  | .gpr r => { s with gprs := s.gprs.unlock r, guards := s.guards.erase (.gpr r) }
  | .fpr r => { s with fprs := s.fprs.unlock r, guards := s.guards.erase (.fpr r) }
  | .none => { s with guards := s.guards.erase .none }

def unlockGpr (r : Gpr) : Lower Unit := modify (·.drop (.gpr r))

def unlockFpr (r : Fpr) : Lower Unit := modify (·.drop (.fpr r))

def isLockedGpr (r : Gpr) : Lower Bool := return (← get).gprs.isLocked r

/-- Drop each guard that is still live, as happens however a routine is left. -/
def dropGuards : Lower Unit := modify fun s => s.guards.foldl State.drop s

/-- Save a value that has to leave its register, which its bank has already unbound. A value that
is in its slot already needs no store. -/
def spillSlot (s : Slot) (l : Location) : Lower Unit := do
  let i ← ledgerIndex s
  let x ← infoAt i
  match x.node with
  | none => internal (.boundNotAlive s)
  | some n =>
    if x.location ≠ l then internal (.boundElsewhere s l x.location)
    else if x.isSpilled then
      setInfoAt i x.releaseRegisters
      event (.spill n s x.spillFormat)
    else
      let format := x.registerFormat
      match l with
      | .gpr r => store64 r (FrameLayout.address s)
      | .fpr r => emit' (.storeD r (FrameLayout.address s))
      | .none => internal (.notInRegister s)
      setInfoAt i (← assume (x.spill format))
      event (.spill n s format)

/-- Hand out and lock a register, saving the value that was in it. -/
def allocGpr : Lower Gpr := do
  let (a, bank) ← check (← get).gprs.allocate
  holdGpr bank a.register
  if let some s := a.evicted then spillSlot s (.gpr a.register)
  return a.register

def allocFpr : Lower Fpr := do
  let (a, bank) ← check (← get).fprs.allocate
  holdFpr bank a.register
  if let some s := a.evicted then spillSlot s (.fpr a.register)
  return a.register

/-- Hand out `r` unless it is locked. -/
def allocGprPreferring (r : Gpr) : Lower Gpr := do
  let (a, bank) ← check ((← get).gprs.allocatePreferring r)
  holdGpr bank a.register
  if let some s := a.evicted then spillSlot s (.gpr a.register)
  return a.register

def allocFprPreferring (r : Fpr) : Lower Fpr := do
  let (a, bank) ← check ((← get).fprs.allocatePreferring r)
  holdFpr bank a.register
  if let some s := a.evicted then spillSlot s (.fpr a.register)
  return a.register

/-- Save every value that is in a register, as a call requires. -/
def flushRegisters : Lower Unit := do
  for (r, s) in (← get).gprs.bound do
    modifyGprs (·.release r)
    spillSlot s (.gpr r)
  for (r, s) in (← get).fprs.bound do
    modifyFprs (·.release r)
    spillSlot s (.fpr r)

/-- The result of the current node is in a general purpose register. A result without uses is not
recorded. -/
def gprResult (r : Gpr) (format : DataFormat) : Lower Unit := do
  let n := (← get).current
  let uses := (← currentNode).refCount
  unless uses = 0 do
    let s ← slotOf n
    setInfo n (← assume (ValueInfo.ofGpr n uses r format))
    modifyGprs (·.retain r s (.ofFormat format))
    event (.birth n (.gpr r) format)

def fprResult (r : Fpr) : Lower Unit := do
  let n := (← get).current
  let uses := (← currentNode).refCount
  unless uses = 0 do
    let s ← slotOf n
    setInfo n (.ofFpr n uses r)
    modifyFprs (·.retain r s .double)
    event (.birth n (.fpr r) .double)

/-- Unbind the register of a value that dies. -/
def releaseLocation (s : Slot) (l : Location) : Lower Unit := do
  match l with
  | .gpr r => if (← get).gprs.owner r = some s then modifyGprs (·.release r)
  | .fpr r => if (← get).fprs.owner r = some s then modifyFprs (·.release r)
  | .none => pure ()

/-- Consume one use of a node's value; the last one ends it. A value whose producer was cut short
has no uses to consume. -/
def useNode (n : NodeId) : Lower Unit := do
  if let some s := (← node n).slot then
    let i ← ledgerIndex s
    let x ← infoAt i
    if x.isAlive && x.useCount != 0 then
      let (last, y) ← assume x.consume
      if last then
        releaseLocation s x.location
        setInfoAt i .dead
        unless x.isConstant do event (.death n)
      else setInfoAt i y

def useChildren (n : NodeId) : Lower Unit := do
  for e in (← node n).children.toList do
    useNode e.node

/-- Is the current node the last user of the value, so that its register may be overwritten? -/
def canReuse (e : Edge) : Lower Bool := do
  match (← node e.node).slot.bind Slot.local? with
  | some i =>
    match (← get).ledger[i]? with
    | some x => return x.isAlive && !x.isConstant && x.useCount == 1
    | none => return false
  | none => return false

end Lowering

end Speculation
