/-!
# Broken assumptions

Some operations rest on an assumption about their input that nothing checks beforehand. When an
input breaks it the operation stops with a `Breach` and yields no answer.
-/

namespace Speculation

inductive Breach where
  /-- A number left the range of its type. -/
  | overflow
  /-- An index named no element. -/
  | outOfRange
  /-- An assertion about the arguments did not hold. -/
  | assertion
deriving DecidableEq, Repr

/-- Look up an element that is assumed to be there. -/
def Breach.get {α : Type} (xs : Array α) (i : Nat) : Except Breach α :=
  match xs[i]? with
  | some x => .ok x
  | none => .error .outOfRange

end Speculation
