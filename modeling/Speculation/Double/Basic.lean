/-!
# Doubles as bit patterns

A double is the 64-bit pattern of an IEEE binary64 number. Every fact about it is read off
the pattern: its sign, its class, and for a finite number the exact value
`significand * 2 ^ exponent`. Nothing here goes through machine floating point, so all of it
can be computed with in a proof.
-/

namespace Speculation

/-- A binary64 number, given by its bit pattern. Patterns are kept as they are: two NaNs with
different payloads are different doubles. -/
structure Double where
  bits : UInt64
deriving DecidableEq, Repr, Inhabited

namespace Double

def signMask : UInt64 := 0x8000000000000000

def infinityBits : UInt64 := 0x7ff0000000000000

def isNegative (x : Double) : Bool := x.bits &&& signMask != 0

/-- The pattern without its sign. Among non-NaN doubles of one sign it orders by magnitude. -/
def magnitude (x : Double) : UInt64 := x.bits &&& ~~~signMask

def isNaN (x : Double) : Bool := infinityBits < x.magnitude

def isInfinite (x : Double) : Bool := x.magnitude == infinityBits

def isZero (x : Double) : Bool := x.magnitude == 0

def isFinite (x : Double) : Bool := x.magnitude < infinityBits

/-- The NaN that conversions and empty operations yield. -/
def nan : Double := ⟨0x7ff8000000000000⟩

/-- The NaN that an arithmetic operation without a numeric result yields. -/
def indefinite : Double := ⟨0xfff8000000000000⟩

/-- Attach a sign to a magnitude pattern. -/
def withSign (negative : Bool) (magnitude : UInt64) : Double :=
  ⟨if negative then magnitude ||| signMask else magnitude⟩

def zero (negative : Bool) : Double := withSign negative 0

def infinity (negative : Bool) : Double := withSign negative infinityBits

def neg (x : Double) : Double := ⟨x.bits ^^^ signMask⟩

def abs (x : Double) : Double := ⟨x.magnitude⟩

/-- A NaN with its quiet bit set, as arithmetic passes it on. -/
def quiet (x : Double) : Double := ⟨x.bits ||| 0x0008000000000000⟩

def biasedExponent (x : Double) : Nat := (x.magnitude >>> 52).toNat

def fraction (x : Double) : Nat := (x.bits &&& 0x000fffffffffffff).toNat

/-- A finite double is `± significand * 2 ^ exponent`. -/
def significand (x : Double) : Nat :=
  if x.biasedExponent = 0 then x.fraction else 0x0010000000000000 + x.fraction

def exponent (x : Double) : Int :=
  if x.biasedExponent = 0 then -1074 else (x.biasedExponent : Int) - 1075

/-- The significand with the sign of the number. -/
def signedSignificand (x : Double) : Int :=
  if x.isNegative then -(x.significand : Int) else x.significand

/-- A key whose order is the order of the non-NaN doubles; both zeros have key `0`. -/
def orderKey (x : Double) : Int :=
  if x.isNegative then -(x.magnitude.toNat : Int) else x.magnitude.toNat

/-- The IEEE comparison: `none` if either side is a NaN. -/
def compare? (x y : Double) : Option Ordering :=
  if x.isNaN || y.isNaN then none else some (compare x.orderKey y.orderKey)

def eq (x y : Double) : Bool := x.compare? y == some .eq

def lt (x y : Double) : Bool := x.compare? y == some .lt

def le (x y : Double) : Bool := x.lt y || x.eq y

end Double

end Speculation
