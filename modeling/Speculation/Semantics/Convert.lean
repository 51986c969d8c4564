import Speculation.Semantics.Number
import Speculation.World.Context

/-!
# Conversions and comparisons of values

The generic operations of the language, as the helpers perform them. Objects have no conversion
to a primitive value: as a number an object is NaN.
-/

namespace Speculation
namespace Semantics

open World

def toNumber (v : Value) : Run Double := do
  if let some d := v.number? then return d
  if let some b := v.boolean? then return .ofInt (if b then 1 else 0)
  if v.isNull then return .zero false
  if ← isString v then return readNumber (← stringValue v)
  return .nan

def isMasquerader (v : Value) : Run Bool :=
  return (← flags v) &&& TypeFlag.masqueradesAsUndefined ≠ 0

def toBoolean (v : Value) : Run Bool := do
  if let some i := v.int32? then return i ≠ 0
  if let some d := v.double? then return !d.isZero && !d.isNaN
  if let some b := v.boolean? then return b
  unless v.isCell do return false
  if ← isString v then return !(← stringUnits v).isEmpty
  return !(← isMasquerader v)

def toText (v : Value) : Run String := do
  if let some i := v.int32? then return toString i.toInt
  if let some d := v.double? then return numberText d
  if let some b := v.boolean? then return if b then "true" else "false"
  if v.isNull then return "null"
  if v.isUndefined || v.isEmpty then return "undefined"
  match ← cellType v with
  | .string => stringValue v
  | .function => return "function"
  | _ => return "[object Object]"

/-- Null, undefined, and objects that pass for undefined. -/
def isUndefinedLike (v : Value) : Run Bool := do
  if v.isUndefinedOrNull then return true
  if v.isCell then isMasquerader v else return false

def bothStrings (a b : Value) : Run Bool := do
  if ← isString a then isString b else return false

def strictEq (a b : Value) : Run Bool := do
  match a.number?, b.number? with
  | some x, some y => return x.eq y
  | _, _ =>
    if ← bothStrings a b then return (← stringUnits a) == (← stringUnits b)
    else return a == b

def isObject (v : Value) : Run Bool := do
  if v.isCell then return !(← isString v) else return false

def looseEq (a b : Value) : Run Bool := do
  let au ← isUndefinedLike a
  let bu ← isUndefinedLike b
  if au || bu then return au && bu
  let strings ← bothStrings a b
  if a.isCell && b.isCell && !strings then return a == b
  if strings then return ← strictEq a b
  if ← isObject a then return false
  if ← isObject b then return false
  return (← toNumber a).eq (← toNumber b)

/-- The order of two values: of two strings by their units, of all others as numbers. -/
def order? (a b : Value) : Run (Option Ordering) := do
  if ← bothStrings a b then
    let x ← stringUnits a
    let y ← stringUnits b
    return some (compareLex x y)
  else
    let x ← toNumber a
    return x.compare? (← toNumber b)
where
  compareLex : List UInt16 → List UInt16 → Ordering
    | [], [] => .eq
    | [], _ :: _ => .lt
    | _ :: _, [] => .gt
    | x :: xs, y :: ys => (compare x y).then (compareLex xs ys)

def compareValues (op : Comparison) (a b : Value) : Run Bool := do
  let o ← order? a b
  match op with
  | .less => return o == some .lt
  | .lessEq => return o == some .lt || o == some .eq
  | .greater => return o == some .gt
  | .greaterEq => return o == some .gt || o == some .eq
  | .eq => looseEq a b
  | .strictEq => strictEq a b

/-- Addition, which joins the texts if either side is a string. -/
def addValues (a b : Value) : Run Value := do
  let text ← if ← isString a then pure true else isString b
  if text then
    let x ← toText a
    newString (x ++ (← toText b))
  else
    let x ← toNumber a
    return .ofNumber (x.add (← toNumber b))

def arith (op : GenericArith) (a b : Value) : Run Value := do
  let x ← toNumber a
  let y ← toNumber b
  return .ofNumber <|
    match op with
    | .sub => x.sub y
    | .mul => x.mul y
    | .div => x.div y
    | .mod => x.rem y
    | .negate => x.neg

/-- Read a named property. Null and undefined have none and throw. -/
def getNamed (base : Value) (name : String) : Run Value := do
  if base.isUndefinedOrNull then
    throwTypeError ("cannot read property '" ++ name ++ "' of " ++ base.text)
    return .undefined
  if base.isCell then getProperty base name else return .undefined

/-- Write a named property. Null and undefined throw; other primitive values and strings ignore
it. -/
def putNamed (base : Value) (name : String) (value : Value) : Run Unit := do
  if base.isUndefinedOrNull then
    throwTypeError ("cannot set property '" ++ name ++ "' of " ++ base.text)
  else if base.isCell then
    unless ← isString base do putProperty base name value

/-- The integer that a value is for a switch: one in either form of number, negative zero being
zero. -/
def switchKey? (v : Value) : Option Int32 :=
  match v.int32? with
  | some i => some i
  | none =>
    match v.double? with
    | none => none
    | some d =>
      let i := d.truncateInt32
      if (Double.ofInt32 i).eq d then some i else none

/-- Run a host function. -/
def runHost (f : HostFunction) (this : Value) (args : List Value) : Run Value := do
  match f with
  | .count => return .ofInt32 (Int32.ofNat (100 * args.length))
  | .this => return this
  | .sum => args.foldlM addValues (.ofInt32 0)
  | .throw =>
    setException (args.headD .empty)
    return .undefined
  | .failing => unsupported .hostFailure

end Semantics

end Speculation
