/-!
# Hexadecimal text

Numbers in base sixteen with lowercase digits, plain or padded with zeros to a width, and the
signed form that addresses and displacements take; and bytes as pairs of digits.
-/

namespace Speculation
namespace Hex

/-- The digits of `n`, without leading zeros. -/
def digits (n : Nat) : String := String.ofList (Nat.toDigits 16 n)

/-- The digits of `n`, padded with zeros to at least `width` places. -/
def padded (width n : Nat) : String :=
  let ds := Nat.toDigits 16 n
  String.ofList (List.replicate (width - ds.length) '0' ++ ds)

/-- A number with its `0x` mark. -/
def number (n : Nat) : String := "0x" ++ digits n

/-- A signed number with `0x` after its sign; `plus` stands before a number that is not
negative. -/
def signed (plus : String) (i : Int) : String :=
  if i < 0 then "-" ++ number i.natAbs else plus ++ number i.natAbs

/-- The value of a digit in either case. -/
def digit? (c : Char) : Option Nat :=
  if c.isDigit then some (c.toNat - 48)
  else if 'a' ≤ c ∧ c ≤ 'f' then some (c.toNat - 87)
  else if 'A' ≤ c ∧ c ≤ 'F' then some (c.toNat - 55)
  else none

/-- Read a number with its `0x` mark. -/
def number? (s : String) : Option Nat :=
  match s.toList with
  | '0' :: 'x' :: c :: cs => (c :: cs).foldlM (fun n c => (digit? c).map (16 * n + ·)) 0
  | _ => none

/-- Bytes as two digits each. -/
def ofBytes (bs : List UInt8) : String := String.join (bs.map fun b => padded 2 b.toNat)

/-- Read bytes of two digits each. -/
def toBytes? : List Char → Option (List UInt8)
  | [] => some []
  | [_] => none
  | a :: b :: cs => do
    let x ← digit? a
    let y ← digit? b
    return UInt8.ofNat (16 * x + y) :: (← toBytes? cs)

end Hex

end Speculation
