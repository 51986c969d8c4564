/-!
# Little-endian bytes

Words are laid out with their least significant byte first. `Bytes.ofNat` and `Bytes.toNat` go
between a number and a fixed count of bytes.
-/

namespace Speculation
namespace Bytes

/-- The `n` lowest bytes of `x`, least significant first. -/
def ofNat : Nat → Nat → List UInt8
  | 0, _ => []
  | n + 1, x => UInt8.ofNat (x % 256) :: ofNat n (x / 256)

/-- The number whose bytes, least significant first, are `bs`. -/
def toNat : List UInt8 → Nat
  | [] => 0
  | b :: bs => b.toNat + 256 * toNat bs

/-- Write `bs` over the bytes of `code` from `offset` on; what falls outside is dropped. -/
def overwrite (code : ByteArray) (offset : Nat) : List UInt8 → ByteArray
  | [] => code
  | b :: bs => overwrite (if h : offset < code.size then code.set offset b h else code) (offset + 1) bs

/-- The bytes of `code` from `offset` on, at most `n` of them. -/
def window (code : ByteArray) (offset n : Nat) : List UInt8 :=
  (code.extract offset (offset + n)).data.toList

/-- Add `bs` at the end of `code`. -/
def append (code : ByteArray) (bs : List UInt8) : ByteArray := bs.foldl ByteArray.push code

end Bytes

end Speculation
