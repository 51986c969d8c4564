import Speculation.Lowering.State
import Mathlib.Tactic.Lemma

/-!
What a slow path is to guard.

A slow path is registered with the registers that values are in, and its code is emitted when these
values are long forgotten. `Guards` says of the record what the code needs: every register that the
ledger named at the registration is among those that are saved, and the register of the result is
not.
-/

namespace Speculation

def Location.Holds : Location → Prop
  | .none => False
  | .gpr r => r ∈ Gpr.allocatable
  | .fpr f => f ∈ Fpr.allocatable

namespace Lowering

@[simp]
def SlowWork.helper : SlowWork → Helper
  | .call h _ _ | .convert h _ _ => h

def SlowWork.args : SlowWork → List Argument
  | .call _ args _ => args
  | .convert _ c _ => [.gpr c]

def SlowWork.result : SlowWork → Option Gpr
  | .call _ _ r => r
  | .convert .. => none

/-- The work that slow paths are registered with, and the register that is left out of what they
save. -/
inductive SlowWork.Formed : SlowWork → List Gpr → Prop
  | toInt32 (f : Fpr) (r : Gpr) : Formed (.call .toInt32 [.fpr f] (some r)) [r]
  | toInt32Generic (q r : Gpr) : Formed (.call .toInt32Generic [.gpr q] (some r)) [r]
  | singleCharacterString (q r : Gpr) :
    Formed (.call .singleCharacterString [.gpr q] (some r)) [r]
  | getById (q : Gpr) (name : UInt64) (r : Gpr) :
    Formed (.call .getById [.gpr q, .imm name] (some r)) [r]
  | putById (q : Gpr) (name : UInt64) (v : Gpr) :
    Formed (.call .putById [.gpr q, .imm name, .gpr v] none) []
  | ensureContiguous {q : Gpr} (hq : q ∈ Gpr.allocatable) (shape : UInt8) :
    Formed (.convert .ensureContiguous q shape) []
  | ensureDouble {q : Gpr} (hq : q ∈ Gpr.allocatable) (shape : UInt8) :
    Formed (.convert .ensureDouble q shape) []

def SlowPath.kept (p : SlowPath) : List Location := p.gprs.map .gpr ++ p.fprs.map .fpr

def SlowPath.Bound (p : SlowPath) (l : Location) : Prop :=
  l ≠ .none ∧ ∃ (i : Nat) (x : ValueInfo), p.ledger[i]? = some x ∧ x.location = l

structure SlowPath.Guards (p : SlowPath) : Prop where
  holds {l : Location} (h : l ∈ p.kept) : l.Holds
  bound {l : Location} (h : p.Bound l) : l ∈ p.kept
  formed : ∃ free, p.work.Formed free
  result {r : Gpr} (h : p.work.result = some r) : r ∈ Gpr.allocatable ∧ .gpr r ∉ p.kept

lemma SlowWork.Formed.result {w : SlowWork} {free : List Gpr} {r : Gpr} (h : w.Formed free)
    (hr : w.result = some r) : r ∈ free := by
  cases h <;> cases hr <;> exact List.mem_singleton_self _

/-- The registers of an inline cache hold values, and loading the expected structure overwrites none
that is still needed. -/
structure CacheSite.Apart (c : CacheSite) : Prop where
  base : c.base ∈ Gpr.allocatable
  expected : c.expected ∈ Gpr.allocatable
  value : c.value ∈ Gpr.allocatable
  ne : c.base ≠ c.expected
  stored (h : c.kind = .putById) : c.value ≠ c.expected

end Lowering
end Speculation
