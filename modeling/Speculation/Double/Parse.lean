import Speculation.Double.Decimal

/-!
# Reading decimal numbers

The grammar is an optional sign, digits with at most one point among them, and an optional
exponent. The value is rounded once, however long the text. Exponents far outside the range of
doubles are cut off before a power of ten is formed.
-/

namespace Speculation

/-- The pieces of a decimal literal: the digits with the point removed, how many of them stood
after the point, and the written exponent. -/
structure DecimalLiteral where
  negative : Bool
  digits : Nat
  digitCount : Nat
  fractional : Nat
  exponent : Int
deriving Repr

namespace DecimalLiteral

def digitsValue (cs : List Char) : Nat :=
  cs.foldl (fun n c => 10 * n + (c.toNat - '0'.toNat)) 0

/-- Split off a sign. -/
def takeSign : List Char → Bool × List Char
  | '-' :: r => (true, r)
  | '+' :: r => (false, r)
  | r => (false, r)

/-- The exponent part: nothing, or a mark followed by at least one digit up to the end. -/
def readExponent : List Char → Option Int
  | [] => some 0
  | c :: r =>
    if c = 'e' ∨ c = 'E' then
      let (negative, ds) := takeSign r
      if ds.isEmpty || !ds.all Char.isDigit then none
      else some (if negative then -(digitsValue ds : Int) else digitsValue ds)
    else none

def read? (s : List Char) : Option DecimalLiteral :=
  let (negative, s) := takeSign s
  let whole := s.takeWhile Char.isDigit
  let rest := s.dropWhile Char.isDigit
  let (fraction, rest) :=
    match rest with
    | '.' :: r => (r.takeWhile Char.isDigit, r.dropWhile Char.isDigit)
    | r => ([], r)
  if whole.isEmpty && fraction.isEmpty then none
  else
    (readExponent rest).map fun e =>
      { negative
        digits := digitsValue (whole ++ fraction)
        digitCount := (whole ++ fraction).length
        fractional := fraction.length
        exponent := e }

/-- The double nearest to the literal. A power of ten beyond `10 ^ 400` past all digits is infinite
and one below `10 ^ -400` vanishes, whatever the digits are. -/
def toDouble (l : DecimalLiteral) : Double :=
  let e := l.exponent - l.fractional
  if l.digits = 0 then .zero l.negative
  else if 400 < e then .infinity l.negative
  else if e + l.digitCount < -400 then .zero l.negative
  else .ofRatio l.negative (l.digits * Decimal.tenTo e) (Decimal.tenTo (-e))

end DecimalLiteral

/-- Read a decimal number, the whole text being one literal. -/
def Double.ofDecimal? (s : String) : Option Double :=
  (DecimalLiteral.read? s.toList).map DecimalLiteral.toDouble

end Speculation
