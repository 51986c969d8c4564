import Speculation.World.Elements

/-!
# The context record

The record that generated code consults: the stack limit, the pending exception, and the table of
strings of one character.
-/

namespace Speculation
namespace World

def contextField (field : Nat) : Run UInt64 :=
  return (← get).context + UInt64.ofNat field

def stackLimit : Run UInt64 := do read64 (← contextField Context.stackLimit)

def setStackLimit (limit : UInt64) : Run Unit := do
  write64 (← contextField Context.stackLimit) limit

/-- The pending exception, if there is one. -/
def pendingException : Run (Option Value) := do
  let v ← readValue (← contextField Context.exception)
  return if v.isEmpty then none else some v

/-- Make an exception pending. The empty value would mean that there is none, so undefined stands
for it. -/
def setException (v : Value) : Run Unit := do
  writeValue (← contextField Context.exception) (if v.isEmpty then .undefined else v)

def clearException : Run Unit := do writeValue (← contextField Context.exception) .empty

def throwTypeError (text : String) : Run Unit := do
  setException (← newString ("TypeError: " ++ text))

def throwStackOverflow : Run Unit := do
  setException (← newString "RangeError: Maximum call stack size exceeded")

/-- The shared string of a unit below 256. -/
def singleCharacter? (u : UInt16) : Run (Option Value) := do
  if 256 ≤ u then return none
  let table ← read64 (← contextField Context.singleCharacters)
  return some (← readValue (← offset table (8 * u.toNat)))

/-- Fill the table of strings of one character from entry `u` on. -/
def fillCharacters (table : UInt64) : List Nat → Run Unit
  | [] => pure ()
  | u :: us => do
    let s ← newStringOfUnits [UInt16.ofNat u]
    writeValue (table + UInt64.ofNat (8 * u)) s
    fillCharacters table us

/-- Lay out the context record. -/
def setup : Run Unit := do
  let context ← alloc Context.size
  modify fun w => { w with context }
  setStackLimit Memory.stackLimit
  let table ← alloc (8 * 256)
  fillCharacters table (List.range 256)
  write64 (← contextField Context.singleCharacters) table

/-- The world before anything has run. -/
def start : World := (setup.run.run {}).2

end World

end Speculation
