import Speculation.Double.Basic

/-!
# Correctly rounded arithmetic

Each operation computes the exact rational result and rounds it once, to the nearest double and
to the even one of two nearest. A NaN operand is passed on with its quiet bit set, the left one
first; an operation without a numeric result yields `Double.indefinite`.
-/

namespace Speculation
namespace Double

/-- The integer nearest to `n / d`, the even one of two. -/
def roundDiv (n d : Nat) : Nat :=
  let q := n / d
  let r := n % d
  if 2 * r < d then q
  else if d < 2 * r then q + 1
  else if q % 2 = 0 then q else q + 1

/-- The power of two with the exponent `e`, or one if `e` is negative. A scale that may go either way
is the quotient of `twoTo e` and `twoTo (-e)`. -/
def twoTo (e : Int) : Nat := 1 <<< e.toNat

/-- The exponent `k` with `2 ^ k ≤ n / d < 2 ^ (k + 1)`, for positive `n` and `d`. -/
def ratioLog2 (n d : Nat) : Int :=
  let k : Int := (n.log2 : Int) - d.log2
  if d * twoTo k ≤ n * twoTo (-k) then k else k - 1

/-- The double nearest to `± n / d`. A rounded significand of `2 ^ 53` carries into the exponent
field by itself, and a pattern past the largest finite one is infinity. -/
def ofRatio (negative : Bool) (n d : Nat) : Double :=
  if n = 0 then zero negative
  else
    let e := max (ratioLog2 n d - 52) (-1074)
    let q := roundDiv (n * twoTo (-e)) (d * twoTo e)
    let pattern := (e + 1074).toNat * twoTo 52 + q
    if infinityBits.toNat ≤ pattern then infinity negative
    else withSign negative pattern.toUInt64

/-- The double nearest to `± m * 2 ^ e`. -/
def ofScaled (negative : Bool) (m : Nat) (e : Int) : Double :=
  ofRatio negative (m * twoTo e) (twoTo (-e))

/-- The double nearest to an integer. -/
def ofInt (i : Int) : Double := ofRatio (i < 0) i.natAbs 1

/-- The sum of two finite numbers, both scaled to the smaller exponent. An exact zero is positive
unless both terms are negative. -/
def addFinite (x y : Double) : Double :=
  let e := min x.exponent y.exponent
  let s := x.signedSignificand * twoTo (x.exponent - e)
    + y.signedSignificand * twoTo (y.exponent - e)
  if s = 0 then zero (x.isNegative && y.isNegative)
  else ofScaled (s < 0) s.natAbs e

/-- What a NaN operand makes of a binary operation. -/
def propagate (x y : Double) (otherwise : Double) : Double :=
  if x.isNaN then x.quiet else if y.isNaN then y.quiet else otherwise

def addNumbers (x y : Double) : Double :=
  if x.isInfinite then
    if y.isInfinite && x.isNegative != y.isNegative then indefinite else x
  else if y.isInfinite then y
  else addFinite x y

def add (x y : Double) : Double := propagate x y (addNumbers x y)

def sub (x y : Double) : Double := propagate x y (addNumbers x y.neg)

def mul (x y : Double) : Double :=
  let negative := x.isNegative != y.isNegative
  propagate x y <|
    if x.isInfinite || y.isInfinite then
      if x.isZero || y.isZero then indefinite else infinity negative
    else ofScaled negative (x.significand * y.significand) (x.exponent + y.exponent)

def div (x y : Double) : Double :=
  let negative := x.isNegative != y.isNegative
  propagate x y <|
    if x.isInfinite then if y.isInfinite then indefinite else infinity negative
    else if y.isInfinite then zero negative
    else if y.isZero then if x.isZero then indefinite else infinity negative
    else
      let e := x.exponent - y.exponent
      ofRatio negative (x.significand * twoTo e) (y.significand * twoTo (-e))

/-- The largest integer whose square is at most `n`. -/
def floorSqrt (n : Nat) : Nat :=
  if h : n < 2 then n
  else
    have : n / 4 < n := by omega
    let r := 2 * floorSqrt (n / 4)
    if (r + 1) * (r + 1) ≤ n then r + 1 else r

/-- The square root, from the integer root of the significand scaled up to well over 53 bits of
result. A half unit stands for the part below the integer root. -/
def sqrt (x : Double) : Double :=
  if x.isNaN then x.quiet
  else if x.isZero then x
  else if x.isNegative then indefinite
  else if x.isInfinite then x
  else
    let shift : Nat := if x.exponent % 2 = 0 then 116 else 117
    let n := x.significand * twoTo shift
    let r := floorSqrt n
    let sticky := if r * r = n then 0 else 1
    ofScaled false (2 * r + sticky) ((x.exponent - shift) / 2 - 1)

/-- The remainder of the division truncated toward zero, with the sign of the dividend. It is
always exact. -/
def rem (x y : Double) : Double :=
  propagate x y <|
    if x.isInfinite || y.isZero then indefinite
    else if y.isInfinite then x
    else
      let e := min x.exponent y.exponent
      let r := x.significand * twoTo (x.exponent - e)
        % (y.significand * twoTo (y.exponent - e))
      ofScaled x.isNegative r e

/-- The integer part of a finite number, rounded toward zero. -/
def truncate (x : Double) : Int :=
  let t := x.significand * twoTo x.exponent / twoTo (-x.exponent)
  if x.isNegative then -(t : Int) else t

/-- The integer part of a number, as a double: the bits of the pattern below the unit are cleared. -/
def trunc (x : Double) : Double :=
  if x.biasedExponent < 1023 then zero x.isNegative
  else if x.biasedExponent < 1075 then
    let k := UInt64.ofNat (1075 - x.biasedExponent)
    ⟨x.bits >>> k <<< k⟩
  else x

/-- The conversion to an unsigned 64-bit integer. What is out of range goes to the nearest end, and NaN
to zero. -/
def toUInt64 (x : Double) : UInt64 :=
  if x.isFinite then UInt64.ofNat (min x.truncate.toNat (UInt64.size - 1))
  else if x.isNaN || x.isNegative then 0
  else UInt64.ofNat (UInt64.size - 1)

/-- The conversion to a 32-bit integer by truncation and reduction modulo `2 ^ 32`; NaN and
infinities go to zero. -/
def toInt32 (x : Double) : Int32 :=
  if x.isFinite then
    let r := x.trunc.rem (ofInt 4294967296)
    let r := if r.lt (zero false) then r.add (ofInt 4294967296) else r
    r.toUInt64.toUInt32.toInt32
  else 0

/-- Truncation to a 32-bit integer, the least one standing for every result out of range. -/
def truncateInt32 (x : Double) : Int32 :=
  if x.isFinite && decide (-2147483648 ≤ x.truncate) && decide (x.truncate ≤ 2147483647) then
    Int32.ofInt x.truncate
  else -2147483648

def ofInt32 (i : Int32) : Double := ofInt i.toInt

/-- The 32-bit integer equal to the number, negative zero being no integer. -/
def exactInt32? (x : Double) : Option Int32 :=
  let i := x.truncateInt32
  if (ofInt32 i).eq x && !(i == 0 && x.isNegative) then some i else none

end Double

end Speculation
