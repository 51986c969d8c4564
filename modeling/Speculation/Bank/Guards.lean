import Speculation.Bank

/-!
# Guards

A lock on a register is held by a guard. Guards have names here, so that it can be followed which
of them are alive: a register is locked as often as there are guards for it. A new guard takes the
place of an old one of its name, which is dropped after the new lock is in place.
-/

namespace Speculation

structure GuardedBank (R : Type) where
  bank : Bank R
  guards : List (String × R) := []
deriving Repr

namespace GuardedBank

variable {R : Type} [RegisterClass R]

def new (R : Type) [RegisterClass R] : GuardedBank R := { bank := .new R }

def guard? (b : GuardedBank R) (name : String) : Option R := b.guards.lookup name

/-- Drop a guard, if there is one of this name. -/
def drop (b : GuardedBank R) (name : String) : GuardedBank R :=
  match b.guard? name with
  | some r => { bank := b.bank.unlock r, guards := b.guards.filter fun g => g.1 != name }
  | none => b

/-- Keep a lock that `bank` has in addition. -/
def keep (b : GuardedBank R) (bank : Bank R) (name : String) (r : R) : GuardedBank R :=
  let b := { b with bank }.drop name
  { b with guards := (name, r) :: b.guards }

/-- Keep the lock of an allocation. -/
def guarded (b : GuardedBank R) (name : String)
    (x : Except CompileError (Bank.Allocation R × Bank R)) :
    Except CompileError (Bank.Allocation R × GuardedBank R) :=
  x.map fun (a, bank) => (a, b.keep bank name a.register)

def allocate (b : GuardedBank R) (name : String) :
    Except CompileError (Bank.Allocation R × GuardedBank R) :=
  b.guarded name b.bank.allocate

def allocatePreferring (b : GuardedBank R) (name : String) (preferred : R) :
    Except CompileError (Bank.Allocation R × GuardedBank R) :=
  b.guarded name (b.bank.allocatePreferring preferred)

def lock (b : GuardedBank R) (name : String) (r : R) :
    Except CompileError (Bank.Allocation R × GuardedBank R) :=
  b.guarded name ((b.bank.lock r).map fun bank => ({ register := r, evicted := none }, bank))

/-- A second guard of the same register. -/
def clone (b : GuardedBank R) (name old : String) : GuardedBank R :=
  match b.guard? old with
  | some r => b.keep (b.bank.addLock r) name r
  | none => b

end GuardedBank

end Speculation
