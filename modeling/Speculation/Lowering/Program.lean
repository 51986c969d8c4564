import Speculation.Lowering.Block

/-!
# The layout of code

Code starts with the entry and its stack check, then come the blocks and their slow paths, the
arity check, the handling of stack overflow and of exceptions, the entries to blocks, the exit
stubs, and at last the constant pool.
-/

namespace Speculation
namespace Lowering

/-- The labels by which code is entered, and the length of its instructions. -/
structure Layout where
  entry : Label
  arityEntry : Option Label
  osrEntries : List (BlockId × Label)
  instsLength : Nat
deriving Repr

/-- The tag registers hold their constants from the entry on. -/
def pinRegisters : Lower Unit := do
  discard (movImm .numberTag Value.numberTag)
  discard (movImm .tagMask Value.cellMask)

/-- Branch to `overflow` if the frame, together with that of an outgoing call, reaches below the
stack limit. -/
def checkStack (overflow : Label) : Lower Unit := do
  comment "stack check"
  mov .result .frame
  alu64 .add .result (.imm (← read).frame.outgoingOffset)
  discard (movImm .scratch (← read).context)
  load64 .scratch (.ofBase .scratch (Int32.ofNat Context.stackLimit))
  cmp64 .result (.reg .scratch)
  jcc .b overflow

/-- The entry for callers that may have passed too few arguments: make up the missing ones, then go
to the entry proper. -/
def checkArity (numParameters : Nat) (entry : Label) : Lower Label := do
  let arity ← here
  comment "arity check"
  load64 .scratch (.ofBase .frame (Int32.ofNat (8 * Frame.argumentCount)))
  cmp64 .scratch (.imm (Int32.ofNat (min numParameters 2147483647)))
  jcc .ae entry
  mov .result .frame
  emitCall .arityFixup
  test64 .result (.reg .result)
  jcc .e (← read).rollbackLabel
  mov .frame .result
  jmp entry
  return arity

def handleOverflow (overflow : Label) : Lower Unit := do
  attach overflow
  comment "stack overflow"
  mov .result .frame
  emitCall .stackOverflow
  jmp (← read).rollbackLabel

/-- Look up the handler of a pending exception and go there. -/
def handleException (l : Label) (lookup : Helper) : Lower Unit := do
  attach l
  mov .result .frame
  emitCall lookup
  emit' (.jmpReg .result)

/-- Entries to blocks. A block expects all values in their slots, so only the tag registers have to
be set up. -/
def enterBlocks : List (Block × BlockId) → Lower (List (BlockId × Label))
  | [] => pure []
  | (b, id) :: rest => do
    if b.osrTarget && b.reachable then
      let l ← here
      comment ("osr entry to bb" ++ toString id)
      pinRegisters
      jmp (← blockLabel id)
      return (id, l) :: (← enterBlocks rest)
    else enterBlocks rest

/-- A stub records the index of its exit and leaves. -/
def emitStubs : List (Exit × Nat) → Lower Unit
  | [] => pure ()
  | (x, i) :: rest => do
    attach x.stub
    emit' (.setExit (UInt32.ofNat i))
    discard (emitReloc (.jmpAbs 0) (.external (.thunk .osrExit)))
    emitStubs rest

def emitPool : List (UInt64 × Label) → Lower Unit
  | [] => pure ()
  | (bits, l) :: rest => do
    attach l
    modify fun s => { s with asm := s.asm.emitData (Encoding.uint64 bits) }
    emitPool rest

def lowerBlocks : List BlockId → Lower Unit
  | [] => pure ()
  | b :: rest => do
    lowerBlock b
    lowerBlocks rest

/-- What comes before the blocks. The result is the labels of the entry and of the handling of stack
overflow. -/
def lowerEntry : Lower (Label × Label) := do
  let entry ← here
  pinRegisters
  let overflow ← newLabel
  checkStack overflow
  beginEntry
  checkArguments
  return (entry, overflow)

/-- What comes after the blocks. -/
def lowerRest (numParameters : Nat) (entry overflow : Label) : Lower Layout := do
  let g ← graph
  emitSlowPaths
  let arityEntry ← match g.kind with
    | .function => some <$> checkArity numParameters entry
    | .program => pure none
  handleOverflow overflow
  handleException (← read).exceptionLabel .lookupExceptionHandler
  handleException (← read).rollbackLabel .lookupExceptionHandlerFromCaller
  let osrEntries ← enterBlocks g.blocks.toList.zipIdx
  emitStubs (← get).exits.toList.zipIdx
  let instsLength := (← get).asm.offset
  modify fun s => { s with asm := s.asm.align 8 }
  let s ← get
  emitPool (s.pool.toList.zip s.poolLabels.toList)
  return { entry, arityEntry, osrEntries, instsLength }

/-- Emit the code of a graph. -/
def lowerGraph (numParameters : Nat) : Lower Layout := do
  let (entry, overflow) ← lowerEntry
  lowerBlocks (List.range (← graph).blocks.size)
  lowerRest numParameters entry overflow

end Lowering

end Speculation
