import Speculation.Double.Decimal
import Speculation.Text.Hex

/-!
# Boxed values

A dynamic value is one 64-bit word:

    0000:PPPP:PPPP:PPPP   a cell address, or a small immediate
    0001:****:****:****
      ...                 a double, its pattern offset by 2^48
    FFFE:****:****:****
    FFFF:0000:IIII:IIII   a 32-bit integer

The immediates are null, undefined, false and true; they have bit 1 set, which no cell address
has. The zero word is the empty value, the content of an array hole.
-/

namespace Speculation

/-- A boxed dynamic value. -/
structure Value where
  bits : UInt64
deriving DecidableEq, Repr, Inhabited, Hashable

namespace Value

/-- A word with all of these bits is an integer, one with any of them a number. -/
def numberTag : UInt64 := 0xffff000000000000

def doubleOffset : UInt64 := 0x0001000000000000

def otherBit : UInt64 := 0x2

def booleanBit : UInt64 := 0x4

def undefinedBit : UInt64 := 0x8

/-- A nonzero word without any of these bits is a cell. -/
def cellMask : UInt64 := numberTag ||| otherBit

def empty : Value := ⟨0⟩

def null : Value := ⟨0x2⟩

def undefined : Value := ⟨0xa⟩

def falseBits : UInt64 := 0x6

def trueBits : UInt64 := 0x7

def ofBool (b : Bool) : Value := ⟨if b then trueBits else falseBits⟩

def ofInt32 (i : Int32) : Value := ⟨numberTag ||| i.toUInt32.toUInt64⟩

/-- Box a double as a double, also if it is a whole number. -/
def ofDouble (x : Double) : Value := ⟨x.bits + doubleOffset⟩

/-- Box a number in its canonical form: an integer where one is equal to it. -/
def ofNumber (x : Double) : Value :=
  match x.exactInt32? with
  | some i => ofInt32 i
  | none => ofDouble x

/-- The value of the cell at an address. -/
def ofCell (address : UInt64) : Value := ⟨address⟩

def isEmpty (v : Value) : Bool := v.bits == 0

def isInt32 (v : Value) : Bool := v.bits &&& numberTag == numberTag

def isNumber (v : Value) : Bool := v.bits &&& numberTag != 0

def isDouble (v : Value) : Bool := v.isNumber && !v.isInt32

def isCell (v : Value) : Bool := v.bits != 0 && v.bits &&& cellMask == 0

def isBoolean (v : Value) : Bool := v.bits &&& ~~~1 == falseBits

def isNull (v : Value) : Bool := v == null

def isUndefined (v : Value) : Bool := v == undefined

def isUndefinedOrNull (v : Value) : Bool := v.bits &&& ~~~undefinedBit == null.bits

def int32? (v : Value) : Option Int32 :=
  if v.isInt32 then some v.bits.toUInt32.toInt32 else none

def double? (v : Value) : Option Double :=
  if v.isDouble then some ⟨v.bits - doubleOffset⟩ else none

/-- The number a value holds in either form. -/
def number? (v : Value) : Option Double :=
  match v.int32? with
  | some i => some (.ofInt32 i)
  | none => v.double?

def boolean? (v : Value) : Option Bool :=
  if v.isBoolean then some (v.bits == trueBits) else none

def cell? (v : Value) : Option UInt64 := if v.isCell then some v.bits else none

/-- The names of the classes that a value belongs to. -/
def classes (v : Value) : List String :=
  [("empty", v.isEmpty), ("int32", v.isInt32), ("double", v.isDouble), ("number", v.isNumber),
    ("cell", v.isCell), ("boolean", v.isBoolean), ("null", v.isNull),
    ("undefined", v.isUndefined), ("undefined_or_null", v.isUndefinedOrNull)].filterMap
    fun (name, holds) => if holds then some name else none

/-- The text of a value in listings. -/
def text (v : Value) : String :=
  if let some i := v.int32? then "Int32: " ++ toString i.toInt
  else if let some x := v.double? then "Double: " ++ x.debugText
  else if let some b := v.boolean? then (if b then "true" else "false")
  else if v.isNull then "null"
  else if v.isUndefined then "undefined"
  else if v.isEmpty then "<empty>"
  else if v.isCell then "Cell: " ++ Hex.number v.bits.toNat
  else "<invalid " ++ Hex.number v.bits.toNat ++ ">"

end Value

end Speculation
