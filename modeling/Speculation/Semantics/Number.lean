import Speculation.Double.Decimal
import Speculation.Double.Parse
import Speculation.Text.Blank
import Speculation.Text.Hex

/-!
# Numbers as text

How the language reads a number from a string and writes one into a string.
-/

namespace Speculation
namespace Semantics

/-- Read digits of base sixteen onto a number below `2 ^ 64`. -/
def hexDigits : Nat → List Char → Option Nat
  | n, [] => some n
  | n, c :: cs =>
    match Hex.digit? c with
    | none => none
    | some d => if UInt64.size ≤ 16 * n + d then none else hexDigits (16 * n + d) cs

/-- A number of base sixteen, with at most a plus sign in front. -/
def readHex : List Char → Option Nat
  | [] | ['+'] => none
  | '+' :: cs => hexDigits 0 cs
  | cs => hexDigits 0 cs

def isLetter (c : Char) : Bool := ('a' ≤ c && c ≤ 'z') || ('A' ≤ c && c ≤ 'Z')

/-- The number that a text without blank ends stands for. -/
def readTrimmed (cs : List Char) : Double :=
  match cs with
  | [] => .zero false
  | '0' :: 'x' :: ds | '0' :: 'X' :: ds =>
    match readHex ds with
    | some n => .ofRatio false n 1
    | none => .nan
  | cs =>
    let s := String.ofList cs
    if s = "Infinity" ∨ s = "+Infinity" then .infinity false
    else if s = "-Infinity" then .infinity true
    else if cs.any fun c => isLetter c && c != 'e' && c != 'E' then .nan
    else (Double.ofDecimal? s).getD .nan

/-- The number that a text stands for. Blank ends do not count, and blank text is zero. -/
def readNumber (s : String) : Double := readTrimmed (Blank.trim s.toList)

/-- The text of a number. -/
def numberText (d : Double) : String :=
  if d.isNaN then "NaN"
  else if d.isInfinite then (if d.isNegative then "-Infinity" else "Infinity")
  else if d.isZero then "0"
  else d.plainText

end Semantics

end Speculation
