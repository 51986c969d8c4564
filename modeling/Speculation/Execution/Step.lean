import Speculation.Execution.Leave
import Speculation.Execution.Service

/-!
# Steps of the machine

One step decodes the instruction at the program counter and executes it. Returns go through a
stack of callers that is kept beside the frames in memory. Control passes between pieces of code
through calls and jumps to addresses, and leaves generated code through the thunks.
-/

namespace Speculation

/-- Where a call returns to. -/
structure Caller where
  code : Nat
  pc : UInt64
  frame : UInt64
deriving DecidableEq, Repr

/-- Code in execution. -/
structure Thread where
  registers : Registers := {}
  code : Nat
  pc : UInt64
  callers : List Caller := []
deriving DecidableEq, Repr

/-- How a run of code ends. -/
inductive Outcome where
  | returned (v : Value)
  /-- An exception left the outermost frame. -/
  | threw (v : Value)
  /-- An exit was taken. -/
  | exited (s : ExitState)
deriving Repr

inductive Progress where
  | running (t : Thread)
  | finished (o : Outcome)
deriving Repr

/-- Go on in the caller. -/
def Thread.returnTo (t : Thread) (c : Caller) (callers : List Caller) : Thread :=
  { registers := t.registers.setGpr .frame c.frame, code := c.code, pc := c.pc, callers }

namespace Execution

open World Semantics

/-- Unwind to the caller, which will find the exception still pending, or end the run. -/
def unwind (t : Thread) : Run Progress := do
  match t.callers with
  | c :: callers =>
    let t := t.returnTo c callers
    return .running
      { t with registers := t.registers.setGpr .result Value.undefined.bits }
  | [] =>
    let e ← pendingException
    clearException
    return .finished (.threw (e.getD .undefined))

/-- The code at an address: the current one if the address lies in it, else installed code. -/
def resolve (current : Nat) (target : UInt64) : Run Nat := do
  if (← artifact current).contains target then return current
  match (← get).codeAt? target with
  | some code => return code
  | none => throw (.noCode target)

/-- Go to an address, which is that of a thunk or lies in code. -/
def jump (t : Thread) (target : UInt64) : Run Progress := do
  match Thunk.at? target with
  | some .osrExit => return .finished (.exited (← leave t.registers t.code))
  | some .throw => unwind t
  | some .virtualCall => unsupported .jumpToVirtualCall
  | none => return .running { t with code := ← resolve t.code target, pc := target }

/-- Enter a callee at an address with its frame laid out. -/
def enter (t : Thread) (callee : Nat) (target frame returnPc : UInt64) : Run Thread := do
  write64 (← offset frame (8 * Frame.returnPc)) returnPc
  let block := (← artifact callee).block
  write64 (← offset frame (8 * Frame.codeBlock)) (UInt64.ofNat (block + 1))
  return { registers := t.registers.setGpr .frame frame
           code := callee
           pc := target
           callers := { code := t.code, pc := returnPc, frame := t.registers.gpr .frame } ::
             t.callers }

/-- The values of consecutive words. -/
def readValues (a : UInt64) : Nat → Run (List Value)
  | 0 => pure []
  | n + 1 => do
    let v ← readValue a
    match n with
    | 0 => return [v]
    | _ => return v :: (← readValues (← offset a 8) n)

/-- Call a host function with the arguments in a frame. -/
def callHost (f : HostFunction) (frame : UInt64) : Run Value := do
  let count := (← read64 (← offset frame (8 * Frame.argumentCount))).toNat
  let this ← readValue (← offset frame (8 * Frame.headerSize))
  let args ← match count - 1 with
    | 0 => pure []
    | n => do readValues (← offset frame (8 * (Frame.headerSize + 1))) n
  runHost f this args

/-- Call what the frame being built has as its callee. What is no function throws. -/
def virtualCall (t : Thread) (returnPc : UInt64) : Run Thread := do
  let frame := t.registers.gpr .result
  let callee ← readValue (← offset frame (8 * Frame.callee))
  let f : Option Callable ←
    try some <$> functionOf callee
    catch
      | .wrongType .. => pure none
      | e => throw e
  match f with
  | none =>
    throwTypeError ((← toText callee) ++ " is not a function")
    return { t with registers := t.registers.setGpr .result Value.undefined.bits, pc := returnPc }
  | some (.compiled code) =>
    install code
    enter t code (← artifact code).callEntry frame returnPc
  | some (.host h) =>
    let v ← callHost h frame
    return { t with registers := t.registers.setGpr .result v.bits, pc := returnPc }

/-- Call an address: a helper, the thunk for calls of values, or code. -/
def call (t : Thread) (target returnPc : UInt64) : Run Thread := do
  match Helper.at? target with
  | some h => return { t with registers := ← callHelper h t.registers t.code, pc := returnPc }
  | none =>
    if Thunk.at? target = some .virtualCall then virtualCall t returnPc
    else
      match (← get).codeAt? target with
      | some code => enter t code target (t.registers.gpr .result) returnPc
      | none => throw (.noCode target)

/-- The entry of a dense jump table of the code's block. -/
def tableTarget (code : Nat) (table : UInt16) (index : UInt64) : Run UInt64 := do
  let b ← codeBlock (← artifact code).block
  match b.dense[table.toNat]?.bind fun t => t.targets[index.toNat]? with
  | some target => return target
  | none => unsupported (.tableEntry index table)

/-- Execute an instruction at `pc` that the thread's program counter is already past. -/
def execute (t : Thread) (pc : UInt64) (i : Inst) : Run Progress := do
  let m := t.registers
  let next (m : Registers) : Run Progress := return .running { t with registers := m }
  let branch (rel : Int32) : Progress := .running { t with pc := t.pc + rel.toInt64.toUInt64 }
  match i with
  | .nop | .watchpoint _ => next m
  | .breakpoint => throw (.breakpoint pc)
  | .ret =>
    match t.callers with
    | c :: callers => return .running (t.returnTo c callers)
    | [] => return .finished (.returned ⟨m.gpr .result⟩)
  | .mov dst src => next (m.setGpr dst (m.gpr src))
  | .zext32 dst src => next (m.setGpr dst (m.gpr src).toUInt32.toUInt64)
  | .movImm dst imm => next (m.setGpr dst imm)
  | .load width signed dst a =>
    next (m.setGpr dst (width.extend signed (← readWord width.bytes (m.address a))))
  | .store width src a =>
    writeWord width.bytes (m.address a) (m.gpr src).toNat
    next m
  | .loadD dst a => next (m.setFpr dst ⟨← read64 (m.address a)⟩)
  | .storeD src a =>
    write64 (m.address a) (m.fpr src).bits
    next m
  | .loadDConst dst rel =>
    let a := t.pc + rel.toInt64.toUInt64
    match (← artifact t.code).readData? a with
    | some bits => next (m.setFpr dst ⟨bits⟩)
    | none => throw (.badAccess a)
  | .alu size op dst src =>
    let (r, flags) := size.run op (m.gpr dst) (m.operand src)
    next ({ m with flags }.setGpr dst r)
  | .neg32 dst =>
    let (r, flags) := Size.s32.run .sub 0 (m.gpr dst)
    next ({ m with flags }.setGpr dst r)
  | .div32 rem dst src =>
    match divide? rem (m.gpr dst).toUInt32.toInt32 (m.gpr src).toUInt32.toInt32 with
    | some r => next (m.setGpr dst r.toUInt32.toUInt64)
    | none => throw (.division pc)
  | .cmp size lhs rhs => next { m with flags := (size.run .sub (m.gpr lhs) (m.operand rhs)).2 }
  | .test size lhs rhs => next { m with flags := (size.run .and (m.gpr lhs) (m.operand rhs)).2 }
  | .setCond c dst => next (m.setGpr dst (boolWord (c.holds m.flags m.order)))
  | .jcc c rel => if c.holds m.flags m.order then return branch rel else next m
  | .jmp rel => return branch rel
  | .jmpAbs target => jump t target
  | .jmpReg src => jump t (m.gpr src)
  | .jmpTable table index => jump t (← tableTarget t.code table (m.gpr index))
  | .call target => return .running (← call t target t.pc)
  | .setExit index => next { m with exitIndex := index }
  | .dalu op dst src => next (m.setFpr dst (op.run (m.fpr dst) (m.fpr src)))
  | .dunary op dst src => next (m.setFpr dst (op.run (m.fpr src)))
  | .dmov dst src => next (m.setFpr dst (m.fpr src))
  | .dcmp lhs rhs => next { m with order := (m.fpr lhs).compare? (m.fpr rhs) }
  | .cvtIntToD dst src => next (m.setFpr dst (.ofInt32 (m.gpr src).toUInt32.toInt32))
  | .cvtDToInt dst src => next (m.setGpr dst (m.fpr src).truncateInt32.toUInt32.toUInt64)
  | .movGToD dst src => next (m.setFpr dst ⟨m.gpr src⟩)
  | .movDToG dst src => next (m.setGpr dst (m.fpr src).bits)

/-- Decode and execute one instruction. -/
def step (t : Thread) : Run Progress := do
  match (← artifact t.code).decodeAt t.pc with
  | .error b => breach b
  | .ok (.error e) => throw (.undecodable t.pc e)
  | .ok (.ok (i, length)) => execute { t with pc := t.pc + UInt64.ofNat length } t.pc i

/-- Run a thread for at most `fuel` steps. -/
def run : Nat → Thread → Run Outcome
  | 0, _ => throw .stepLimit
  | fuel + 1, t => do
    match ← step t with
    | .running t => run fuel t
    | .finished o => return o

/-- How many steps a call may take. -/
def stepLimit : Nat := 10000000

/-- Lay out the outermost frame at the top of the stack. -/
def pushFrame (code : Nat) (this : Value) (args : List Value) : Run UInt64 := do
  let count := 1 + args.length
  let frame := UInt64.ofNat (Memory.stackTop - 8 * (Frame.headerSize + count))
  let block := (← artifact code).block
  writeWords 8 frame
    (0 :: 0 :: (block + 1) :: Value.undefined.bits.toNat :: count :: this.bits.toNat ::
      args.map fun v => v.bits.toNat)
  return frame

/-- Run code from an address with its frame laid out. -/
def start (code : Nat) (entry frame : UInt64) : Run Outcome :=
  run stepLimit { registers := Registers.setGpr {} .frame frame, code, pc := entry }

/-- Call compiled code. -/
def callCode (code : Nat) (this : Value) (args : List Value) : Run Outcome := do
  install code
  let frame ← pushFrame code this args
  start code (← artifact code).callEntry frame

/-- Put the values of the locals into their slots. -/
def storeLocals (frame : UInt64) (locals : Array Value) : List Variable → Run Unit
  | [] => pure ()
  | x :: xs => do
    match x.operand.local?.bind fun i => locals[i]? with
    | none => pure ()
    | some v =>
      let bits ← match x.format, v.number? with
        | .double, some d => pure d.bits
        | .double, none => throw (.wrongType v .number)
        | _, _ => pure v.bits
      write64 (frame + x.operand.offset.toInt64.toUInt64) bits
    storeLocals frame locals xs

/-- Enter compiled code at a block, as from an interpreter at the head of a loop. -/
def enterBlock (code : Nat) (block : BlockId) (this : Value) (args : List Value)
    (locals : Array Value) : Run Outcome := do
  install code
  let a ← artifact code
  match a.osrEntry? block with
  | none => unsupported (.noOsrEntry block)
  | some entry =>
    let frame ← pushFrame code this args
    storeLocals frame locals a.graph.vars.toList
    start code entry frame

end Execution

end Speculation
