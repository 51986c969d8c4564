import Speculation.Double.Arith

/-!
# Shortest decimal text

A double is written with the fewest decimal digits that still lie nearer to it than to any
other double, and with the closest of those. `Decimal.shortest` finds the digits in exact
integer arithmetic; two layouts write them, one positional throughout and one that changes to
an exponent for very large and very small numbers.
-/

namespace Speculation

/-- The number `digits * 10 ^ exponent`. -/
structure Decimal where
  digits : Nat
  exponent : Int
deriving DecidableEq, Repr

namespace Decimal

/-- The power of ten with the exponent `k`, or one if `k` is negative. -/
def tenTo (k : Int) : Nat := Nat.pow 10 k.toNat

/-- The rational interval around a positive double whose members round to it, all over the common
denominator `den`; its ends belong to it iff `closed`. -/
structure Interval where
  low : Nat
  value : Nat
  high : Nat
  den : Nat
  closed : Bool

/-- The interval of a positive finite double. The gap below a power of two is half the gap above
it. -/
def Interval.ofDouble (x : Double) : Interval :=
  let m := x.significand
  let e := x.exponent - 2
  let below := if m = Double.twoTo 52 ∧ -1074 < x.exponent then 1 else 2
  let up := Double.twoTo e
  { low := (4 * m - below) * up
    value := 4 * m * up
    high := (4 * m + 2) * up
    den := Double.twoTo (-e)
    closed := m % 2 = 0 }

/-- Is `d * 10 ^ k` in the interval? -/
def Interval.contains (i : Interval) (d : Nat) (k : Int) : Bool :=
  let n := d * tenTo k * i.den
  let s := tenTo (-k)
  if i.closed then i.low * s ≤ n && n ≤ i.high * s else i.low * s < n && n < i.high * s

/-- The member of the interval closest to its value on the grid of multiples of `10 ^ k`, if there
is one; of two equally close the larger. -/
def Interval.nearest? (i : Interval) (k : Int) : Option Nat :=
  let n := i.value * tenTo (-k)
  let s := i.den * tenTo k
  let q := n / s
  match i.contains q k, i.contains (q + 1) k with
  | true, true => some (if 2 * (n % s) < s then q else q + 1)
  | true, false => some q
  | false, true => some (q + 1)
  | false, false => none

/-- The number of decimal places before the point: `10 ^ (p - 1) ≤ n / d < 10 ^ p`. The binary
logarithm gives it up to one. -/
def places (n d : Nat) : Int :=
  let guess := Double.ratioLog2 n d * 30103 / 100000
  let reaches (p : Int) : Bool := d * tenTo p ≤ n * tenTo (-p)
  if reaches (guess + 1) then guess + 2
  else if reaches guess then guess + 1 else guess

/-- Try grids of one digit, two digits and so on, up to `fuel` further ones. -/
def search (i : Interval) (p : Int) : Nat → Nat → Decimal
  | 0, n => ⟨i.value * tenTo (n - p) / (i.den * tenTo (p - n)), p - n⟩
  | fuel + 1, n =>
    match i.nearest? (p - n) with
    | some d => ⟨d, p - n⟩
    | none => search i p fuel (n + 1)

/-- Drop trailing zeros of the digits. -/
def normalize (d : Decimal) : Nat → Decimal
  | 0 => d
  | fuel + 1 =>
    if d.digits ≠ 0 ∧ d.digits % 10 = 0 then normalize ⟨d.digits / 10, d.exponent + 1⟩ fuel else d

/-- The shortest decimal that reads back as the positive finite double `x`. Seventeen digits
always do. -/
def shortest (x : Double) : Decimal :=
  let i := Interval.ofDouble x
  normalize (search i (places i.value i.den) 17 1) 20

def zeros (n : Nat) : String := String.ofList (List.replicate n '0')

/-- The decimal without an exponent; a whole number is followed by `whole`. -/
def positional (d : Decimal) (whole : String) : String :=
  let s := toString d.digits
  if 0 ≤ d.exponent then s ++ zeros d.exponent.toNat ++ whole
  else
    let after := (-d.exponent).toNat
    if after < s.length then
      (s.take (s.length - after)).toString ++ "." ++ (s.drop (s.length - after)).toString
    else "0." ++ zeros (after - s.length) ++ s

/-- The decimal as one digit, a fraction and a power of ten. -/
def scientific (d : Decimal) : String :=
  let s := toString d.digits
  let e := d.exponent + s.length - 1
  let fraction := if s.length = 1 then "" else "." ++ (s.drop 1).toString
  (s.take 1).toString ++ fraction ++ "e" ++ toString e

end Decimal

namespace Double

def signText (x : Double) : String := if x.isNegative then "-" else ""

/-- Plain decimal text: never an exponent, and no point in a whole number. -/
def plainText (x : Double) : String :=
  if x.isNaN then "NaN"
  else if x.isInfinite then x.signText ++ "inf"
  else if x.isZero then x.signText ++ "0"
  else x.signText ++ (Decimal.shortest x).positional ""

/-- Decimal text that always shows a point or an exponent: positional from `10 ^ -4` up to but not
including `10 ^ 16`, otherwise with an exponent. -/
def debugText (x : Double) : String :=
  if x.isNaN then "NaN"
  else if x.isInfinite then x.signText ++ "inf"
  else if x.isZero then x.signText ++ "0.0"
  else
    let d := Decimal.shortest x
    let lead := d.exponent + (toString d.digits).length - 1
    x.signText ++ if -4 ≤ lead && lead < 16 then d.positional ".0" else d.scientific

end Double

end Speculation
