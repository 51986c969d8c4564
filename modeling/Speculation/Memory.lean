import Std.Data.TreeMap
import Speculation.Bytes

/-!
# Memory

A sparse little-endian address space made of pages. The heap grows upward from `heapBase` and is
never freed; the stack lies below `stackTop` and is mapped from the start. Accesses wrap around
at the end of the address space, and every byte of one has to be mapped.
-/

namespace Speculation

structure Memory where
  /-- The mapped pages, by their number. -/
  pages : Std.TreeMap UInt64 ByteArray := {}
  /-- The next free heap address. -/
  next : Nat

namespace Memory

def pageSize : Nat := 4096

def heapBase : Nat := 0x10000000

def stackTop : Nat := 0x70000000

def stackSize : Nat := 0x100000

/-- The lowest address of the stack. -/
def stackLimit : UInt64 := UInt64.ofNat (stackTop - stackSize)

def zeroPage : ByteArray := ⟨Array.replicate pageSize 0⟩

def pageOf (a : UInt64) : UInt64 := a / UInt64.ofNat pageSize

def placeOf (a : UInt64) : Nat := (a % UInt64.ofNat pageSize).toNat

def isMapped (m : Memory) (a : UInt64) : Bool := m.pages.contains (pageOf a)

/-- The byte at an address, if it is mapped. -/
def byte? (m : Memory) (a : UInt64) : Option UInt8 := do
  (← m.pages[pageOf a]?)[placeOf a]?

/-- Map `count` pages of zeros from page `p` on; pages that are mapped stay as they are. -/
def mapPages (pages : Std.TreeMap UInt64 ByteArray) (p : Nat) :
    Nat → Std.TreeMap UInt64 ByteArray
  | 0 => pages
  | count + 1 => mapPages (pages.insertIfNew (UInt64.ofNat p) zeroPage) (p + 1) count

/-- Map the pages of the bytes from `start` on. -/
def map (m : Memory) (start length : Nat) : Memory :=
  let first := start / pageSize
  { m with pages := mapPages m.pages first ((start + length + pageSize - 1) / pageSize - first) }

/-- An empty heap and a stack of zeros. -/
def new : Memory := map { next := heapBase } (stackTop - stackSize) stackSize

/-- Room for at least one byte, in whole words. -/
def roundUp (length : Nat) : Nat := (max length 1 + 7) / 8 * 8

/-- Allocate zeroed bytes at a multiple of eight. -/
def alloc (m : Memory) (length : Nat) : UInt64 × Memory :=
  let size := roundUp length
  (UInt64.ofNat m.next, { m.map m.next size with next := m.next + size })

/-- The bytes from an address on, if all of them are mapped. -/
def readBytes? (m : Memory) (a : UInt64) : Nat → Option (List UInt8)
  | 0 => some []
  | n + 1 => do return (← m.byte? a) :: (← m.readBytes? (a + 1) n)

/-- The word of `n` bytes at an address. -/
def read? (m : Memory) (n : Nat) (a : UInt64) : Option Nat := (m.readBytes? a n).map Bytes.toNat

def setByte (m : Memory) (a : UInt64) (b : UInt8) : Memory :=
  { m with pages := m.pages.modify (pageOf a) fun page => Bytes.overwrite page (placeOf a) [b] }

/-- Write bytes one after the other, up to the first that is not mapped. The result says whether all
were written. -/
def writeBytes (m : Memory) (a : UInt64) : List UInt8 → Bool × Memory
  | [] => (true, m)
  | b :: bs => if m.isMapped a then (m.setByte a b).writeBytes (a + 1) bs else (false, m)

/-- Write a word of `n` bytes. -/
def write (m : Memory) (n : Nat) (a : UInt64) (x : Nat) : Bool × Memory :=
  m.writeBytes a (Bytes.ofNat n x)

end Memory

end Speculation
