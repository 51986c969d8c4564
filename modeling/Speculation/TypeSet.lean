import Speculation.Value

/-!
# Sets of value kinds

Predictions and proven facts about a value are sets of the eleven kinds of run-time value,
as bits of one word.
-/

namespace Speculation

structure TypeSet where
  bits : UInt16
deriving DecidableEq, Repr, Inhabited

namespace TypeSet

def empty : TypeSet := ⟨0⟩
def int32 : TypeSet := ⟨0x001⟩
/-- Doubles other than NaN. -/
def doubleReal : TypeSet := ⟨0x002⟩
def doubleNaN : TypeSet := ⟨0x004⟩
def boolean : TypeSet := ⟨0x008⟩
/-- Null and undefined. -/
def other : TypeSet := ⟨0x010⟩
def string : TypeSet := ⟨0x020⟩
def finalObject : TypeSet := ⟨0x040⟩
def array : TypeSet := ⟨0x080⟩
def function : TypeSet := ⟨0x100⟩
def int32Array : TypeSet := ⟨0x200⟩
def float64Array : TypeSet := ⟨0x400⟩

def double : TypeSet := ⟨0x006⟩
def number : TypeSet := ⟨0x007⟩
def object : TypeSet := ⟨0x7c0⟩
def cell : TypeSet := ⟨0x7e0⟩
def top : TypeSet := ⟨0x7ff⟩

def union (a b : TypeSet) : TypeSet := ⟨a.bits ||| b.bits⟩

def inter (a b : TypeSet) : TypeSet := ⟨a.bits &&& b.bits⟩

def isEmpty (a : TypeSet) : Bool := a.bits == 0

/-- Inclusion; the empty set is below every set. -/
def subset (a b : TypeSet) : Bool := a.bits &&& ~~~b.bits == 0

def intersects (a b : TypeSet) : Bool := a.bits &&& b.bits != 0

/-- A nonempty subset: the test that justifies a speculation. -/
def isA (a b : TypeSet) : Bool := !a.isEmpty && a.subset b

/-- The kind of a value; `cellType` tells the kind of the cell at an address. -/
def ofValue (v : Value) (cellType : UInt64 → TypeSet) : TypeSet :=
  if v.isInt32 then int32
  else if let some x := v.double? then (if x.isNaN then doubleNaN else doubleReal)
  else if v.isBoolean then boolean
  else if v.isUndefinedOrNull then other
  else if let some c := v.cell? then cellType c
  else empty

/-- The single kinds with their names, in the order in which a set lists them. -/
def kinds : List (TypeSet × String) :=
  [(int32, "Int32"), (doubleReal, "DoubleReal"), (doubleNaN, "DoubleNaN"),
    (boolean, "Boolean"), (other, "Other"), (string, "String"), (finalObject, "FinalObject"),
    (array, "Array"), (function, "Function"), (int32Array, "Int32Array"),
    (float64Array, "Float64Array")]

def text (a : TypeSet) : String :=
  if a = top then "Top"
  else if a.isEmpty then "Empty"
  else "|".intercalate ((kinds.filter fun k => a.intersects k.1).map Prod.snd)

/-- The names of unions that a reader of set texts also accepts. -/
def unions : List (TypeSet × String) :=
  [(empty, "Empty"), (double, "Double"), (number, "Number"), (object, "Object"), (cell, "Cell"),
    (top, "Top")]

/-- The set of a text of names joined by bars. -/
def ofText? (s : String) : Option TypeSet :=
  (s.splitOn "|").foldlM (fun acc name =>
    ((kinds ++ unions).find? fun k => k.2 == name).map fun k => acc.union k.1) empty

end TypeSet

end Speculation
