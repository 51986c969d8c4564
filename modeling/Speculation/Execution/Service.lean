import Speculation.Execution.Registers
import Speculation.Semantics.Convert

/-!
# Calls of helpers

What generated code gets when it calls a helper: the argument registers are read, the result
register is set, and the heap may change.
-/

namespace Speculation
namespace Execution

open World Semantics

/-- Copy words upward, the lowest first. -/
def copyWords (source dest : UInt64) : Nat → Run Unit
  | 0 => pure ()
  | n + 1 => do
    write64 dest (← read64 source)
    match n with
    | 0 => pure ()
    | _ => copyWords (← offset source 8) (← offset dest 8) n

def fillUndefined (a : UInt64) : Nat → Run Unit
  | 0 => pure ()
  | n + 1 => do
    writeValue a .undefined
    match n with
    | 0 => pure ()
    | _ => fillUndefined (← offset a 8) n

/-- Move a frame down to make room for every parameter, the missing ones being undefined. The result
is the new frame, or zero if there is no room for it on the stack. -/
def fixArity (frame : UInt64) (parameters frameSlots : Nat) : Run UInt64 := do
  let count := (← read64 (← offset frame (8 * Frame.argumentCount))).toNat
  if parameters ≤ count then return frame
  let missing := 8 * (parameters - count)
  if frame.toNat < missing then breach .overflow
  let moved := frame - UInt64.ofNat missing
  let limit ← stackLimit
  if moved.toNat < 8 * frameSlots then breach .overflow
  if moved.toNat - 8 * frameSlots < limit.toNat then
    throwStackOverflow
    return 0
  copyWords frame moved (Frame.headerSize + count)
  fillUndefined (← offset moved (8 * (Frame.headerSize + count))) (parameters - count)
  write64 (← offset moved (8 * Frame.argumentCount)) (UInt64.ofNat parameters)
  return moved

/-- The target of a switch over integers: that of the table, or its default. -/
def switchInteger? (b : CodeBlock) (table : Nat) (v : Value) : Option UInt64 :=
  match (switchKey? v).bind (b.denseTarget? table) with
  | some target => some target
  | none => b.dense[table]?.map DenseTable.default

def switchText? (b : CodeBlock) (table : Nat) (v : Value) : Run (Option UInt64) := do
  if ← isString v then return b.stringTarget? table (← stringValue v)
  else return b.strings[table]?.map StringTable.default

/-- The property name that code refers to by an index. -/
def identifier (a : Artifact) (index : UInt64) : Run String :=
  if UInt32.size ≤ index.toNat then breach .overflow
  else
    match a.graph.identifiers[index.toNat]? with
    | some name => pure name
    | none => unsupported (.noIdentifier index)

def boolWord (b : Bool) : UInt64 := if b then 1 else 0

/-- The operation that a word stands for. -/
def choose? {α : Type} (all : List α) (code : UInt64) : Option α :=
  if code.toNat < 256 then all[code.toNat]? else none

/-- The word that a helper returns. -/
def serve (h : Helper) (m : Registers) (code : Nat) : Run UInt64 := do
  let v (r : Gpr) : Value := ⟨m.gpr r⟩
  let block : Run CodeBlock := do codeBlock (← artifact code).block
  match h with
  | .valueAdd => return (← addValues (v .first) (v .second)).bits
  | .valueArith =>
    match choose? GenericArith.all (m.gpr .third) with
    | some op => return (← arith op (v .first) (v .second)).bits
    | none => unsupported (.arithOp (m.gpr .third))
  | .fmod => return m.gpr .result
  | .toInt32 => return (m.fpr .first).toInt32.toUInt32.toUInt64
  | .toInt32Generic => return (← toNumber (v .first)).toInt32.toUInt32.toUInt64
  | .compareGeneric =>
    match choose? Comparison.all (m.gpr .third) with
    | some op => return boolWord (← compareValues op (v .first) (v .second))
    | none => unsupported (.compareOp (m.gpr .third))
  | .toBoolean => return boolWord (← toBoolean (v .first))
  | .ensureContiguous => return (← ensureShape (v .first) .contiguous).toUInt64
  | .ensureDouble => return (← ensureShape (v .first) .double).toUInt64
  | .getById | .getByIdGeneric =>
    return (← getNamed (v .first) (← identifier (← artifact code) (m.gpr .second))).bits
  | .putById =>
    putNamed (v .first) (← identifier (← artifact code) (m.gpr .second)) (v .third)
    return 0
  | .switchImm =>
    match switchInteger? (← block) (m.gpr .first).toNat (v .second) with
    | some target => return target
    | none => unsupported (.noJumpTable (m.gpr .first))
  | .switchString =>
    match ← switchText? (← block) (m.gpr .first).toNat (v .second) with
    | some target => return target
    | none => unsupported (.noJumpTable (m.gpr .first))
  | .singleCharacterString =>
    let u := (m.gpr .first).toUInt16
    match ← singleCharacter? u with
    | some s => return s.bits
    | none => return (← newStringOfUnits [u]).bits
  | .stackOverflow =>
    throwStackOverflow
    return 0
  | .arityFixup =>
    let a ← artifact code
    fixArity (m.gpr .first) (← block).numParameters a.frameSlots
  | .lookupExceptionHandler | .lookupExceptionHandlerFromCaller => return Thunk.throw.address
  | .throw =>
    setException (v .first)
    return 0

/-- Call a helper on behalf of code. A remainder goes to the double result register, every other
result to the general one. -/
def callHelper (h : Helper) (m : Registers) (code : Nat) : Run Registers := do
  match h with
  | .fmod => return m.setFpr .result ((m.fpr .first).rem (m.fpr .second))
  | h => return m.setGpr .result (← serve h m code)

end Execution

end Speculation
