import Speculation.Text.Hex
import Speculation.Machine.Instruction

/-!
# Calling convention and layouts

What generated code and the run-time system agree on: the roles of registers, the layout of call
frames, of the context record and of heap objects, and the addresses of helpers and thunks.
-/

namespace Speculation

namespace Gpr

/-- Scratch: never allocated, clobbered freely by instruction sequences. -/
def scratch : Gpr := 12

/-- Always holds the mask that no cell value meets. -/
def tagMask : Gpr := 13

/-- Always holds the tag of numbers. -/
def numberTag : Gpr := 14

/-- The call frame. -/
def frame : Gpr := 15

def result : Gpr := 0

/-- Registers that pass arguments, in order. -/
def arguments : List Gpr := [0, 1, 2, 3, 4, 5]

/-- The register of the first argument. -/
def first : Gpr := 0

/-- The register of the second argument. -/
def second : Gpr := 1

/-- The register of the third argument. -/
def third : Gpr := 2

/-- Registers the allocator hands out; a call clobbers all of them. -/
def allocatable : List Gpr := [0, 1, 2, 3, 4, 5, 6, 7, 8, 9, 10, 11]

end Gpr

namespace Fpr

def scratch : Fpr := 8

def result : Fpr := 0

def arguments : List Fpr := [0, 1, 2, 3]

/-- The register of the first double argument. -/
def first : Fpr := 0

/-- The register of the second double argument. -/
def second : Fpr := 1

def allocatable : List Fpr := [0, 1, 2, 3, 4, 5, 6, 7]

end Fpr

/-! The call frame header, in slots of eight bytes above the frame register. The arguments follow
it, `this` first; locals are below the frame register. -/

namespace Frame

def callerFrame : Nat := 0
def returnPc : Nat := 1
def codeBlock : Nat := 2
def callee : Nat := 3
def argumentCount : Nat := 4
def headerSize : Nat := 5

end Frame

/-! Offsets in the context record. -/

namespace Context

def stackLimit : Nat := 0
def exception : Nat := 8
/-- A pointer to a table of 256 one-character strings. -/
def singleCharacters : Nat := 16
def size : Nat := 24

end Context

/-! Offsets in cells, in structures and before element storage. -/

namespace Layout

def cellStructure : Nat := 0
/-- Elements of an array, units of a string, or elements of a typed array. -/
def cellStorage : Nat := 8
/-- The length of a string or typed array, the index of a function. -/
def cellLength : Nat := 16
def inlineStorage : Nat := 24
def inlineCapacity : Nat := 8
def cellSize : Nat := 88

def structureId : Nat := 0
def structureCellType : Nat := 4
def structureIndexing : Nat := 5
def structureFlags : Nat := 6
def structurePrototype : Nat := 8
def structureSize : Nat := 16

/-- The length of an array, relative to its element storage. -/
def publicLength : Int32 := -8
def vectorLength : Int32 := -4

end Layout

/-- What kind of cell a structure describes. -/
inductive CellType where
  | object | string | function | int32Array | float64Array
deriving DecidableEq, Repr, Inhabited

namespace CellType

def all : List CellType := [.object, .string, .function, .int32Array, .float64Array]

/-- The byte stored in a structure. -/
def code (t : CellType) : UInt8 := UInt8.ofNat (t.ctorIdx + 1)

def ofCode? (b : UInt8) : Option CellType := all.find? fun t => t.code == b

def text : CellType → String
  | .object => "Object"
  | .string => "String"
  | .function => "Function"
  | .int32Array => "Int32Array"
  | .float64Array => "Float64Array"

end CellType

/-! The indexing byte of a structure: a shape, and whether the object is an array. -/

namespace Indexing

def none : UInt8 := 0
def contiguous : UInt8 := 1
def double : UInt8 := 2
def shapeMask : UInt8 := 0x0f
def isArray : UInt8 := 0x10

end Indexing

/-! The flag byte of a structure. -/

namespace TypeFlag

def masqueradesAsUndefined : UInt8 := 0x01
/-- Indexed accesses on such objects always take the generic path. -/
def interceptsIndexing : UInt8 := 0x02
def defaultHasInstance : UInt8 := 0x04

end TypeFlag

/-- Run-time functions that generated code calls. Arguments go in the argument registers, results
come back in the result registers. -/
inductive Helper where
  | valueAdd | valueArith | fmod | toInt32 | toInt32Generic | compareGeneric | toBoolean
  | ensureContiguous | ensureDouble | getById | getByIdGeneric | putById | switchImm | switchString
  | singleCharacterString | stackOverflow | arityFixup | lookupExceptionHandler
  | lookupExceptionHandlerFromCaller | throw
deriving DecidableEq, Repr, Inhabited

namespace Helper

def all : List Helper :=
  [.valueAdd, .valueArith, .fmod, .toInt32, .toInt32Generic, .compareGeneric, .toBoolean,
    .ensureContiguous, .ensureDouble, .getById, .getByIdGeneric, .putById, .switchImm,
    .switchString, .singleCharacterString, .stackOverflow, .arityFixup, .lookupExceptionHandler,
    .lookupExceptionHandlerFromCaller, .throw]

def text : Helper → String
  | valueAdd => "ValueAdd"
  | valueArith => "ValueArith"
  | fmod => "FMod"
  | toInt32 => "ToInt32"
  | toInt32Generic => "ToInt32Generic"
  | compareGeneric => "CompareGeneric"
  | toBoolean => "ToBoolean"
  | ensureContiguous => "EnsureContiguous"
  | ensureDouble => "EnsureDouble"
  | getById => "GetById"
  | getByIdGeneric => "GetByIdGeneric"
  | putById => "PutById"
  | switchImm => "SwitchImm"
  | switchString => "SwitchString"
  | singleCharacterString => "SingleCharacterString"
  | stackOverflow => "StackOverflow"
  | arityFixup => "ArityFixup"
  | lookupExceptionHandler => "LookupExceptionHandler"
  | lookupExceptionHandlerFromCaller => "LookupExceptionHandlerFromCaller"
  | throw => "Throw"

/-- Can the helper leave an exception pending? -/
def mayThrow : Helper → Bool
  | getById | getByIdGeneric | putById | stackOverflow | throw => true
  | _ => false

def base : UInt64 := 0x7f0000000000

/-- Helpers are sixteen bytes apart. -/
def address (h : Helper) : UInt64 := base + UInt64.ofNat (16 * h.ctorIdx)

def at? (a : UInt64) : Option Helper := all.find? fun h => h.address == a

end Helper

/-- Shared code sequences that the run-time system provides. -/
inductive Thunk where
  /-- Leave generated code through the exit whose index was recorded last. -/
  | osrExit
  /-- Reached when a handler for the pending exception has been looked up. -/
  | throw
  /-- Call whatever the callee slot of the new frame holds. -/
  | virtualCall
deriving DecidableEq, Repr, Inhabited

namespace Thunk

def all : List Thunk := [.osrExit, .throw, .virtualCall]

def text : Thunk → String
  | osrExit => "OsrExit"
  | throw => "Throw"
  | virtualCall => "VirtualCall"

def ofText? (s : String) : Option Thunk := all.find? fun t => t.text == s

def base : UInt64 := 0x7f1000000000

def address (t : Thunk) : UInt64 := base + UInt64.ofNat (16 * t.ctorIdx)

def at? (a : UInt64) : Option Thunk := all.find? fun t => t.address == a

end Thunk

/-- Something outside generated code that an instruction refers to. -/
inductive ExternalTarget where
  | helper (h : Helper)
  | thunk (t : Thunk)
deriving DecidableEq, Repr

namespace ExternalTarget

def address : ExternalTarget → UInt64
  | helper h => h.address
  | thunk t => t.address

def text : ExternalTarget → String
  | helper h => "helper:" ++ h.text
  | thunk t => "thunk:" ++ t.text

/-- The helper or thunk at an address. -/
def at? (a : UInt64) : Option ExternalTarget :=
  match Helper.at? a with
  | some h => some (.helper h)
  | none => (Thunk.at? a).map .thunk

end ExternalTarget

/-- The operation of a generic arithmetic call. -/
inductive GenericArith where
  | sub | mul | div | mod | negate
deriving DecidableEq, Repr, Inhabited

def GenericArith.all : List GenericArith := [.sub, .mul, .div, .mod, .negate]

/-- The operation of a comparison. -/
inductive Comparison where
  | less | lessEq | greater | greaterEq | eq | strictEq
deriving DecidableEq, Repr, Inhabited

def Comparison.all : List Comparison := [.less, .lessEq, .greater, .greaterEq, .eq, .strictEq]

end Speculation
