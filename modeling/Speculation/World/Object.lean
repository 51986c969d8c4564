import Speculation.World.State

/-!
# Objects and their structures

A cell starts with the address of its structure, which tells its kind, its indexing byte, its
flags and its prototype. Structures are shared: adding a property moves an object to another
structure, the same one for all objects that take the same way.
-/

namespace Speculation
namespace World

def cellAddress (v : Value) : Run UInt64 :=
  match v.cell? with
  | some a => pure a
  | none => throw (.wrongType v .cell)

def newStructure (type : CellType) (indexing flags : UInt8) (prototype : Value)
    (properties : List String) : Run UInt64 := do
  let s ← alloc Layout.structureSize
  let id ← modifyGet fun w => (w.nextStructure, { w with nextStructure := w.nextStructure + 1 })
  write32 (s + UInt64.ofNat Layout.structureId) id
  write8 (s + UInt64.ofNat Layout.structureCellType) type.code
  write8 (s + UInt64.ofNat Layout.structureIndexing) indexing
  write8 (s + UInt64.ofNat Layout.structureFlags) flags
  writeValue (s + UInt64.ofNat Layout.structurePrototype) prototype
  modify fun w => { w with structures := w.structures.insert s properties }
  return s

/-- The kind of the cells of a structure. -/
def structureType (s : UInt64) : Run CellType := do
  let b ← read8 (← offset s Layout.structureCellType)
  match CellType.ofCode? b with
  | some t => return t
  | none => unsupported (.cellType b)

def structureIndexing (s : UInt64) : Run UInt8 := do
  read8 (← offset s Layout.structureIndexing)

def structureFlags (s : UInt64) : Run UInt8 := do
  read8 (← offset s Layout.structureFlags)

def structurePrototype (s : UInt64) : Run Value := do
  readValue (← offset s Layout.structurePrototype)

/-- A structure like `s` but for its properties, indexing byte and flags. -/
def deriveStructure (s : UInt64) (properties : List String) (indexing flags : UInt8) :
    Run UInt64 := do
  let type ← structureType s
  let prototype ← structurePrototype s
  newStructure type indexing flags prototype properties

def newCell (s : UInt64) : Run UInt64 := do
  let c ← alloc Layout.cellSize
  write64 (c + UInt64.ofNat Layout.cellStructure) s
  return c

def structureOf (v : Value) : Run UInt64 := do
  read64 ((← cellAddress v) + UInt64.ofNat Layout.cellStructure)

def setStructure (v : Value) (s : UInt64) : Run Unit := do
  write64 ((← cellAddress v) + UInt64.ofNat Layout.cellStructure) s

def cellType (v : Value) : Run CellType := do structureType (← structureOf v)

def indexing (v : Value) : Run UInt8 := do structureIndexing (← structureOf v)

def flags (v : Value) : Run UInt8 := do structureFlags (← structureOf v)

def prototype (v : Value) : Run Value := do structurePrototype (← structureOf v)

/-- The elements of an array, the units of a string, or the elements of a typed array. -/
def storage (v : Value) : Run UInt64 := do
  read64 ((← cellAddress v) + UInt64.ofNat Layout.cellStorage)

def setStorage (v : Value) (a : UInt64) : Run Unit := do
  write64 ((← cellAddress v) + UInt64.ofNat Layout.cellStorage) a

/-- The length of a string or typed array, or the index of a function. -/
def cellLength (v : Value) : Run UInt32 := do
  read32 ((← cellAddress v) + UInt64.ofNat Layout.cellLength)

def setCellLength (v : Value) (n : UInt32) : Run Unit := do
  write32 ((← cellAddress v) + UInt64.ofNat Layout.cellLength) n

def propertiesOf (w : World) (s : UInt64) : List String := (w.structures[s]?).getD []

/-- The inline slot of a property in objects of structure `s`. -/
def slotOf? (w : World) (s : UInt64) (name : String) : Option Nat :=
  (w.propertiesOf s).findIdx? (· == name)

/-- A new object without properties. -/
def newObject (prototype : Value) : Run Value := do
  let s ← match (← get).emptyStructures[prototype.bits]? with
    | some s => pure s
    | none =>
      let s ← newStructure .object Indexing.none 0 prototype []
      modify fun w => { w with emptyStructures := w.emptyStructures.insert prototype.bits s }
      pure s
  return .ofCell (← newCell s)

/-- Move an object to a structure that has a further flag. -/
def addFlag (v : Value) (flag : UInt8) : Run Unit := do
  let s ← structureOf v
  let properties := (← get).propertiesOf s
  let index ← indexing v
  let flags ← flags v
  setStructure v (← deriveStructure s properties index (flags ||| flag))

/-- Make an object pass for undefined. If it is the first, all installed code that assumed there is
none gets its watchpoints fired. -/
def masquerade (v : Value) : Run Unit := do
  addFlag v TypeFlag.masqueradesAsUndefined
  if (← get).noMasquerades then
    modify fun w => { w with noMasquerades := false }
    for code in (← get).installed do
      modifyArtifact code Artifact.fireWatchpoints

/-- Give an object indexed accessors of its own, so that its elements are never converted. -/
def interceptIndexing (v : Value) : Run Unit := addFlag v TypeFlag.interceptsIndexing

def inlineSlot (c : UInt64) (slot : Nat) : UInt64 :=
  c + UInt64.ofNat (Layout.inlineStorage + 8 * slot)

/-- The structure of an object of structure `s` once it has got a property. -/
def transition (s : UInt64) (name : String) : Run UInt64 := do
  match (← get).transitions[(s, name)]? with
  | some t => return t
  | none =>
    let properties := (← get).propertiesOf s
    if properties.length = Layout.inlineCapacity then unsupported .tooManyProperties
    let t ← deriveStructure s (properties ++ [name]) (← structureIndexing s) (← structureFlags s)
    modify fun w => { w with transitions := w.transitions.insert (s, name) t }
    return t

/-- Set an own property, adding it if there is none. -/
def putProperty (object : Value) (name : String) (value : Value) : Run Unit := do
  let c ← cellAddress object
  let s ← structureOf object
  let slot ← match (← get).slotOf? s name with
    | some slot => pure slot
    | none =>
      let t ← transition s name
      setStructure object t
      match (← get).slotOf? t name with
      | some slot => pure slot
      | none => unsupported (.lostProperty name)
  writeValue (inlineSlot c slot) value

end World

end Speculation
