import Speculation.Text.Utf16
import Speculation.World.Object

/-!
# Arrays, strings, typed arrays and functions
-/

namespace Speculation

/-- How the elements of an array are kept: boxed, a hole being the empty value, or as raw doubles, a
hole being a NaN. -/
inductive ArrayShape where
  | contiguous | double
deriving DecidableEq, Repr, Inhabited

def ArrayShape.indexing : ArrayShape → UInt8
  | contiguous => Indexing.contiguous
  | double => Indexing.double

namespace World

/-- New element storage, with its two lengths in front. -/
def newElements (length : Nat) : Run UInt64 := do
  let b := (← alloc (8 + 8 * length)) + 8
  let n ← count32 length .array
  write32 (b + Layout.publicLength.toInt64.toUInt64) n
  write32 (b + Layout.vectorLength.toInt64.toUInt64) n
  return b

/-- A value as an element of an array. -/
def elementBits (shape : ArrayShape) (v : Value) : Run UInt64 :=
  match shape with
  | .contiguous => return v.bits
  | .double =>
    if v.isEmpty then return Double.nan.bits
    else
      match v.number? with
      | some d => return d.bits
      | none => throw (.wrongType v .number)

def writeElements (shape : ArrayShape) (a : UInt64) : List Value → Run Unit
  | [] => pure ()
  | v :: vs => do
    write64 a (← elementBits shape v)
    match vs with
    | [] => pure ()
    | _ => writeElements shape (← offset a 8) vs

/-- A new array. Empty values are holes. -/
def newArray (shape : ArrayShape) (elements : List Value) : Run Value := do
  let s ← newStructure .object (shape.indexing ||| Indexing.isArray) 0 .null []
  let c ← newCell s
  let b ← newElements elements.length
  writeElements shape b elements
  setStorage (.ofCell c) b
  return .ofCell c

def arrayLength (v : Value) : Run UInt32 := do
  let b ← storage v
  if b = 0 then return 0
  read32 (b + Layout.publicLength.toInt64.toUInt64)

/-- An element of an array, boxed. A hole is the empty value. -/
def arrayGet (v : Value) (i : Nat) : Run Value := do
  let b ← storage v
  let bits ← read64 (← offset b (8 * i))
  if (← indexing v) &&& Indexing.shapeMask = Indexing.double then
    let d : Double := ⟨bits⟩
    return if d.isNaN then .empty else .ofNumber d
  else return ⟨bits⟩

/-- The elements from index `i` on. -/
def arrayElements (v : Value) (i : Nat) : Nat → Run (List Value)
  | 0 => pure []
  | n + 1 => do
    let x ← arrayGet v i
    return x :: (← arrayElements v (i + 1) n)

def setIndexing (v : Value) (index : UInt8) : Run Unit := do
  let s ← structureOf v
  let t ← match (← get).reshapes[(s, index)]? with
    | some t => pure t
    | none =>
      let t ← deriveStructure s ((← get).propertiesOf s) index (← structureFlags s)
      modify fun w => { w with reshapes := w.reshapes.insert (s, index) t }
      pure t
  setStructure v t

/-- Convert the elements of an object to a shape, if nothing is lost by that. The result is the
indexing byte that the object then has. -/
def ensureShape (v : Value) (shape : ArrayShape) : Run UInt8 := do
  unless v.isCell do return Indexing.none
  unless (← cellType v) = .object do return Indexing.none
  let index ← indexing v
  if (← flags v) &&& TypeFlag.interceptsIndexing ≠ 0 then return index
  let current := index &&& Indexing.shapeMask
  if current = shape.indexing then return index
  let target := (index &&& ~~~Indexing.shapeMask) ||| shape.indexing
  if current = Indexing.none then
    setStorage v (← newElements 0)
    setIndexing v target
    return target
  let elements ← arrayElements v 0 (← arrayLength v).toNat
  if shape = .double && elements.any fun e => !e.isEmpty && !e.isNumber then return index
  writeElements shape (← storage v) elements
  setIndexing v target
  return target

/-- All strings have one structure, which is kept under a key that is no prototype. -/
def stringStructure : Run UInt64 := do
  let key : UInt64 := 0xffffffffffffffff
  match (← get).emptyStructures[key]? with
  | some s => return s
  | none =>
    let s ← newStructure .string Indexing.none 0 .null []
    modify fun w => { w with emptyStructures := w.emptyStructures.insert key s }
    return s

def newStringOfUnits (units : List UInt16) : Run Value := do
  let c ← newCell (← stringStructure)
  let chars ← alloc (2 * units.length)
  writeWords 2 chars (units.map UInt16.toNat)
  setStorage (.ofCell c) chars
  setCellLength (.ofCell c) (← count32 units.length .string)
  return .ofCell c

def newString (s : String) : Run Value := newStringOfUnits (Utf16.encode s)

/-- The units from an address on. -/
def readUnits (a : UInt64) : Nat → Run (List UInt16)
  | 0 => pure []
  | n + 1 => do
    let u ← read16 a
    match n with
    | 0 => return [u]
    | _ => return u :: (← readUnits (← offset a 2) n)

def stringUnits (v : Value) : Run (List UInt16) := do
  unless v.isCell do throw (.wrongType v .string)
  unless (← cellType v) = .string do throw (.wrongType v .string)
  readUnits (← storage v) (← cellLength v).toNat

/-- The text of a string. -/
def stringValue (v : Value) : Run String := return Utf16.decode (← stringUnits v)

/-- Is the value a string? A cell that cannot be read is none. -/
def isString (v : Value) : Run Bool := do
  if v.isCell then
    try return (← cellType v) = .string
    catch
      | .breach b => breach b
      | _ => return false
  else return false

def newTypedArray (type : CellType) (size : Nat) (elements : List Nat) : Run Value := do
  let c ← newCell (← newStructure type Indexing.none 0 .null [])
  let a ← alloc (size * elements.length)
  setStorage (.ofCell c) a
  setCellLength (.ofCell c) (← count32 elements.length .typedArray)
  writeWords size a elements
  return .ofCell c

def newInt32Array (elements : List Int32) : Run Value :=
  newTypedArray .int32Array 4 (elements.map fun i => i.toUInt32.toNat)

def newFloat64Array (elements : List Double) : Run Value :=
  newTypedArray .float64Array 8 (elements.map fun d => d.bits.toNat)

def typedArrayGet (v : Value) (i : Nat) : Run Value := do
  let a ← storage v
  match ← cellType v with
  | .int32Array => return .ofInt32 (← read32 (← offset a (4 * i))).toInt32
  | .float64Array => return .ofNumber ⟨← read64 (← offset a (8 * i))⟩
  | _ => throw (.wrongType v .typedArray)

/-- A new function. Its property `prototype` is a fresh object. -/
def newFunction (f : Callable) : Run Value := do
  let s ← newStructure .function Indexing.none TypeFlag.defaultHasInstance .null []
  let v := Value.ofCell (← newCell s)
  let index ← count32 (← get).functions.size .functions
  modify fun w => { w with functions := w.functions.push f }
  setCellLength v index
  putProperty v "prototype" (← newObject .null)
  return v

/-- What a function runs. -/
def functionOf (v : Value) : Run Callable := do
  unless v.isCell do throw (.wrongType v .function)
  unless (← cellType v) = .function do throw (.wrongType v .function)
  let index ← cellLength v
  match (← get).functions[index.toNat]? with
  | some f => return f
  | none => throw (.wrongType v .function)

/-- Look a property up along the prototype chain. Strings, arrays and typed arrays have a length. A
chain that is longer than `fuel` runs in a circle, and the search in it never ends. -/
def lookupProperty (name : String) : Nat → Value → Run Value
  | 0, _ => throw .stepLimit
  | fuel + 1, v => do
    if v.isCell then
      let s ← structureOf v
      match (← get).slotOf? s name with
      | some slot => readValue (inlineSlot (← cellAddress v) slot)
      | none =>
        if name = "length" then
          match ← cellType v with
          | .string | .int32Array | .float64Array => return .ofInt32 (← cellLength v).toInt32
          | .object =>
            if (← indexing v) &&& Indexing.isArray ≠ 0 then
              return .ofInt32 (← arrayLength v).toInt32
            else lookupProperty name fuel (← prototype v)
          | .function => lookupProperty name fuel (← prototype v)
        else lookupProperty name fuel (← prototype v)
    else return .undefined

/-- Look a property up. Cells of a chain without a circle are different mapped addresses. -/
def getProperty (v : Value) (name : String) : Run Value := do
  lookupProperty name ((← get).memory.pages.size * Memory.pageSize + 2) v

end World

end Speculation
