import Speculation.CompileError

/-!
# Register banks

A bank keeps, for each register the allocator may hand out, the slot whose value it holds and how
readily that value is given up. Independently of that a register can be locked, any number of
times; a locked register is never given up.
-/

namespace Speculation

/-- A class of registers with those the allocator hands out, in order of preference. -/
class RegisterClass (R : Type) where
  allocatable : List R
  index? : R → Option Nat
  location : R → Location

instance : RegisterClass Gpr where
  allocatable := Gpr.allocatable
  index? r := if r.val < 12 then some r.val else none
  location := .gpr

instance : RegisterClass Fpr where
  allocatable := Fpr.allocatable
  index? r := if r.val < 8 then some r.val else none
  location := .fpr

/-- The state of one register. `stamp` orders registers by when they were last bound. -/
structure BankEntry (R : Type) where
  register : R
  owner : Option Slot := none
  order : SpillOrder := .free
  stamp : Nat := 0
  locks : Nat := 0
deriving Repr

structure Bank (R : Type) where
  entries : Array (BankEntry R)
  clock : Nat := 0
deriving Repr

namespace Bank

variable {R : Type} [RegisterClass R]

def new (R : Type) [RegisterClass R] : Bank R :=
  { entries := (RegisterClass.allocatable.map fun r => { register := r }).toArray }

def entryAt (b : Bank R) (r : R) : Option (BankEntry R) :=
  (RegisterClass.index? r).bind fun i => b.entries[i]?

/-- Change the entry of a register; registers outside the bank have none. -/
def modify (b : Bank R) (r : R) (f : BankEntry R → BankEntry R) : Bank R :=
  match RegisterClass.index? r with
  | some i => { b with entries := b.entries.modify i f }
  | none => b

def isLocked (b : Bank R) (r : R) : Bool := (b.entryAt r).any fun e => 0 < e.locks

def owner (b : Bank R) (r : R) : Option Slot := (b.entryAt r).bind BankEntry.owner

def anyLocked (b : Bank R) : Bool := b.entries.any fun e => 0 < e.locks

/-- The bound registers with their owners, in bank order. -/
def bound (b : Bank R) : List (R × Slot) :=
  b.entries.toList.filterMap fun e => e.owner.map fun s => (e.register, s)

/-- The locked registers, in bank order. -/
def locked (b : Bank R) : List R :=
  (b.entries.toList.filter fun e => 0 < e.locks).map BankEntry.register

def addLock (b : Bank R) (r : R) : Bank R := b.modify r fun e => { e with locks := e.locks + 1 }

def unlock (b : Bank R) (r : R) : Bank R := b.modify r fun e => { e with locks := e.locks - 1 }

/-- Lock a register of the bank. -/
def lock (b : Bank R) (r : R) : Except CompileError (Bank R) :=
  match RegisterClass.index? r with
  | some _ => .ok (b.addLock r)
  | none => .error (.internal (.notAllocatable (RegisterClass.location r)))

/-- Does `e` come before `f` as a victim? -/
def cheaper (e f : BankEntry R) : Bool :=
  e.order.rank < f.order.rank || (e.order.rank == f.order.rank && e.stamp < f.stamp)

/-- The unlocked register whose value is given up first: the one of least order, and of those the
one bound longest ago. -/
def victim? (b : Bank R) : Option (BankEntry R) :=
  (b.entries.toList.filter fun e => e.locks == 0).foldl (fun best e =>
    match best with
    | none => some e
    | some f => if cheaper e f then some e else some f) none

/-- Take a register away from its owner. -/
def evict (b : Bank R) (r : R) : Bank R :=
  b.modify r fun e => { e with owner := none, order := .free }

/-- A register handed out: it is locked, and if its former owner had to give it up, that owner's
value is still to be saved. -/
structure Allocation (R : Type) where
  register : R
  evicted : Option Slot
deriving Repr

/-- Hand out a register: the first one that is free, or else the victim. -/
def allocate (b : Bank R) : Except CompileError (Allocation R × Bank R) :=
  match b.entries.find? fun e => e.owner.isNone && e.locks == 0 with
  | some e => .ok ({ register := e.register, evicted := none }, b.addLock e.register)
  | none =>
    match b.victim? with
    | some e => .ok ({ register := e.register, evicted := e.owner }, (b.evict e.register).addLock e.register)
    | none => .error (.internal .allLocked)

/-- Hand out `preferred` unless it is locked. -/
def allocatePreferring (b : Bank R) (preferred : R) :
    Except CompileError (Allocation R × Bank R) :=
  match b.entryAt preferred with
  | none => .error (.internal (.notAllocatable (RegisterClass.location preferred)))
  | some e =>
    if 0 < e.locks then b.allocate
    else .ok ({ register := preferred, evicted := e.owner }, (b.evict preferred).addLock preferred)

/-- Bind a register to a slot. -/
def retain (b : Bank R) (r : R) (owner : Slot) (order : SpillOrder) : Bank R :=
  match RegisterClass.index? r with
  | some _ =>
    let clock := b.clock + 1
    { b.modify r (fun e => { e with owner := some owner, order, stamp := clock }) with clock }
  | none => b

def setOrder (b : Bank R) (r : R) (order : SpillOrder) : Bank R :=
  b.modify r fun e => { e with order }

/-- Unbind a register. -/
def release (b : Bank R) (r : R) : Bank R := b.evict r

/-- Unbind every register; locks stay. -/
def releaseAll (b : Bank R) : Bank R :=
  { b with entries := b.entries.map fun e => { e with owner := none, order := .free } }

end Bank

end Speculation
