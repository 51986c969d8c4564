import Speculation.Graph.Basic

/-!
# Where values live

A value under compilation is in a register or in its spill slot, in one of several
representations.
-/

namespace Speculation

/-- The representation of a value in a register or slot: raw (an integer with a clear high half, a
double pattern, a bit, a cell address, a storage address) or boxed, with what is known of it. -/
inductive DataFormat where
  | none | int32 | double | boolean | cell | storage
  | js | jsInt32 | jsDouble | jsCell | jsBoolean
deriving DecidableEq, Repr, Inhabited

namespace DataFormat

def all : List DataFormat :=
  [.none, .int32, .double, .boolean, .cell, .storage, .js, .jsInt32, .jsDouble, .jsCell,
    .jsBoolean]

def text : DataFormat → String
  | none => "None"
  | int32 => "Int32"
  | double => "Double"
  | boolean => "Boolean"
  | cell => "Cell"
  | storage => "Storage"
  | js => "JS"
  | jsInt32 => "JSInt32"
  | jsDouble => "JSDouble"
  | jsCell => "JSCell"
  | jsBoolean => "JSBoolean"

def ofText? (s : String) : Option DataFormat := all.find? fun f => f.text == s

/-- Is this a boxed representation? -/
def isBoxed : DataFormat → Bool
  | js | jsInt32 | jsDouble | jsCell | jsBoolean => true
  | _ => false

/-- A cell address is its own box. -/
def isCell : DataFormat → Bool
  | cell | jsCell => true
  | _ => false

/-- The representation of a variable in its frame slot. -/
def ofFlush : FlushFormat → DataFormat
  | .value => js
  | .int32 => jsInt32
  | .double => double
  | .boolean => jsBoolean
  | .cell => jsCell

end DataFormat

/-- The register that holds a value, if one does. -/
inductive Location where
  | none
  | gpr (r : Gpr)
  | fpr (r : Fpr)
deriving DecidableEq, Repr, Inhabited

namespace Location

def text : Location → String
  | none => "-"
  | gpr r => r.text
  | fpr r => r.text

def ofText? (s : String) : Option Location :=
  if s = "-" then some none
  else
    match Gpr.ofText? s with
    | some r => some (gpr r)
    | Option.none => (Fpr.ofText? s).map fpr

/-- The form that internal error texts use. -/
def detail : Location → String
  | none => "None"
  | gpr r => "Gpr(R" ++ toString r.val ++ ")"
  | fpr r => "Fpr(F" ++ toString r.val ++ ")"

end Location

/-- Which registers are given up first when one is needed: lower orders go first. A value that can
be made again or is already stored costs least. -/
inductive SpillOrder where
  | free | constant | spilled | js | int32 | double
deriving DecidableEq, Repr, Inhabited

namespace SpillOrder

def all : List SpillOrder := [.free, .constant, .spilled, .js, .int32, .double]

def text : SpillOrder → String
  | free => "Free"
  | constant => "Constant"
  | spilled => "Spilled"
  | js => "JS"
  | int32 => "Int32"
  | double => "Double"

def ofText? (s : String) : Option SpillOrder := all.find? fun o => o.text == s

def rank (o : SpillOrder) : Nat := o.ctorIdx

def ofFormat : DataFormat → SpillOrder
  | .none => free
  | .int32 | .boolean => int32
  | .double => double
  | _ => js

end SpillOrder

end Speculation
