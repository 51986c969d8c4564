/-!
# Sixteen-bit units

Strings of the language are sequences of sixteen-bit units. A character past the first plane is a
pair of surrogates; a surrogate without its partner stands for no character.
-/

namespace Speculation
namespace Utf16

/-- The units of a character. -/
def encodeChar (c : Char) : List UInt16 :=
  let n := c.toNat
  if n < 0x10000 then [UInt16.ofNat n]
  else
    [UInt16.ofNat (0xd800 + (n - 0x10000) / 0x400),
      UInt16.ofNat (0xdc00 + (n - 0x10000) % 0x400)]

def encode (s : String) : List UInt16 := s.toList.flatMap encodeChar

def isHigh (u : UInt16) : Bool := 0xd800 ≤ u && u < 0xdc00

def isLow (u : UInt16) : Bool := 0xdc00 ≤ u && u < 0xe000

/-- What stands for a surrogate without its partner. -/
def replacement : Char := '\ufffd'

def pair (high low : UInt16) : Char :=
  Char.ofNat (0x10000 + (high.toNat - 0xd800) * 0x400 + (low.toNat - 0xdc00))

def decodeChars : List UInt16 → List Char
  | [] => []
  | [u] => [if isHigh u || isLow u then replacement else Char.ofNat u.toNat]
  | u :: v :: us =>
    if isHigh u then
      if isLow v then pair u v :: decodeChars us else replacement :: decodeChars (v :: us)
    else if isLow u then replacement :: decodeChars (v :: us)
    else Char.ofNat u.toNat :: decodeChars (v :: us)

/-- The text of a sequence of units. -/
def decode (us : List UInt16) : String := String.ofList (decodeChars us)

end Utf16

end Speculation
