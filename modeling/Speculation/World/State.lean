import Speculation.Artifact
import Speculation.Memory

/-!
# The state of the run-time system

The world is the memory with the heap in it, what is known of structures and functions beside the
memory, and the code. A step of the run-time system changes the world and may fault; what it
changed before a fault stays changed.
-/

namespace Speculation

/-- What a value was expected to be. -/
inductive Expected where
  | cell | number | string | function | typedArray
deriving DecidableEq, Repr

def Expected.text : Expected → String
  | cell => "cell"
  | number => "number"
  | string => "string"
  | function => "function"
  | typedArray => "typed array"

/-- What is counted in 32 bits. -/
inductive Counted where
  | array | string | typedArray | functions
deriving DecidableEq, Repr

/-- What is said of too many. -/
def Counted.text : Counted → String
  | array => "huge array"
  | string => "huge string"
  | typedArray => "huge typed array"
  | functions => "too many functions"

/-- Things that code can ask for and that do not exist. -/
inductive Unsupported where
  | cellType (code : UInt8)
  | tooManyProperties
  | tooMany (what : Counted)
  | lostProperty (name : String)
  | arithOp (code : UInt64)
  | compareOp (code : UInt64)
  | noIdentifier (index : UInt64)
  | noJumpTable (index : UInt64)
  | tableEntry (index : UInt64) (table : UInt16)
  | jumpToVirtualCall
  | noExit (index : UInt32)
  | noOsrEntry (block : BlockId)
  | hostFailure
deriving DecidableEq, Repr

def Unsupported.text : Unsupported → String
  | cellType b => "cell type " ++ toString b.toNat
  | tooManyProperties => "more than " ++ toString Layout.inlineCapacity ++ " properties"
  | tooMany what => what.text
  | lostProperty name => "lost property " ++ name
  | arithOp x => "arith op " ++ toString x.toNat
  | compareOp x => "compare op " ++ toString x.toNat
  | noIdentifier x => "no identifier " ++ toString x.toNat
  | noJumpTable x => "no jump table " ++ toString x.toNat
  | tableEntry i t => "entry " ++ toString i.toNat ++ " of jump table " ++ toString t.toNat
  | jumpToVirtualCall => "jump to the virtual call thunk"
  | noExit i => "no exit " ++ toString i.toNat
  | noOsrEntry b => "no OSR entry for bb" ++ toString b
  | hostFailure => "host failure"

/-- Why the execution of code stops. These are faults of the code, not exceptions of the program. -/
inductive Fault where
  | badAccess (a : UInt64)
  | noCode (a : UInt64)
  | undecodable (a : UInt64) (e : DecodeError)
  | breakpoint (a : UInt64)
  | division (a : UInt64)
  | wrongType (v : Value) (expected : Expected)
  | unsupported (what : Unsupported)
  | stepLimit
  | breach (b : Breach)
deriving DecidableEq, Repr

/-- The text of a fault, code addresses being written by `place`. -/
def Fault.message (place : UInt64 → String) : Fault → String
  | badAccess a => "Access to unmapped address " ++ Hex.number a.toNat
  | noCode a => "No code at " ++ place a
  | undecodable a e => "Cannot decode instruction at " ++ place a ++ ": " ++ e.message
  | breakpoint a => "Breakpoint at " ++ place a
  | division a => "Division fault at " ++ place a
  | wrongType v e => v.text ++ " is not a " ++ e.text
  | unsupported u => "Unsupported: " ++ u.text
  | stepLimit => "Step limit exceeded"
  | breach _ => ""

/-- The class of a fault. -/
def Fault.title : Fault → String
  | badAccess _ => "BadAccess"
  | noCode _ => "NoCode"
  | undecodable .. => "Decode"
  | breakpoint _ => "Breakpoint"
  | division _ => "DivisionFault"
  | wrongType .. => "WrongType"
  | unsupported _ => "Unsupported"
  | stepLimit => "StepLimit"
  | breach _ => "Breach"

/-- Functions that are not compiled. -/
inductive HostFunction where
  /-- A hundred times the number of arguments. -/
  | count
  | this
  /-- The sum of the arguments. -/
  | sum
  /-- Throw the first argument. -/
  | throw
  /-- Fault. -/
  | failing
deriving DecidableEq, Repr, Inhabited

/-- The host function of a name; there is one under every name. -/
def HostFunction.ofText : String → HostFunction
  | "count" => count
  | "this" => this
  | "sum" => sum
  | "throw" => throw
  | _ => failing

/-- What a function object runs. -/
inductive Callable where
  | compiled (code : Nat)
  | host (f : HostFunction)
deriving DecidableEq, Repr, Inhabited

structure World where
  memory : Memory := .new
  /-- The address of the context record. -/
  context : UInt64 := 0
  /-- The property names of each structure, in slot order. -/
  structures : Std.TreeMap UInt64 (List String) := {}
  /-- The structure that results from adding a property. -/
  transitions : Std.TreeMap (UInt64 × String) UInt64 lexOrd.compare := {}
  /-- The structure that results from a change of the indexing byte. -/
  reshapes : Std.TreeMap (UInt64 × UInt8) UInt64 lexOrd.compare := {}
  /-- The structure of objects without properties, by prototype. -/
  emptyStructures : Std.TreeMap UInt64 UInt64 := {}
  nextStructure : UInt32 := 1
  functions : Array Callable := #[]
  /-- All compiled code, in the order of compilation. -/
  artifacts : Array Artifact := #[]
  /-- The code blocks, which artifacts refer to by index. -/
  blocks : Array CodeBlock := #[]
  /-- The code that can be reached by its address, in order of installation. -/
  installed : Array Nat := #[]
  /-- The address of the next code. -/
  nextBase : Nat := 0x7e0000000000
  /-- No object has ever passed for undefined. -/
  noMasquerades : Bool := true

/-- A step of the run-time system. -/
abbrev Run := ExceptT Fault (StateM World)

namespace World

def unsupported {α : Type} (u : Unsupported) : Run α := throw (.unsupported u)

def breach {α : Type} (b : Breach) : Run α := throw (.breach b)

/-- An address a number of bytes further on, which must not leave the address space. -/
def offset (a : UInt64) (n : Nat) : Run UInt64 :=
  if a.toNat + n < UInt64.size then return a + UInt64.ofNat n else breach .overflow

def readWord (n : Nat) (a : UInt64) : Run Nat := do
  match (← get).memory.read? n a with
  | some x => return x
  | none => throw (.badAccess a)

def read8 (a : UInt64) : Run UInt8 := return UInt8.ofNat (← readWord 1 a)

def read16 (a : UInt64) : Run UInt16 := return UInt16.ofNat (← readWord 2 a)

def read32 (a : UInt64) : Run UInt32 := return UInt32.ofNat (← readWord 4 a)

def read64 (a : UInt64) : Run UInt64 := return UInt64.ofNat (← readWord 8 a)

def readValue (a : UInt64) : Run Value := return ⟨← read64 a⟩

def writeWord (n : Nat) (a : UInt64) (x : Nat) : Run Unit := do
  let all ← modifyGet fun w =>
    let (all, memory) := w.memory.write n a x
    (all, { w with memory })
  unless all do throw (.badAccess a)

def write8 (a : UInt64) (x : UInt8) : Run Unit := writeWord 1 a x.toNat

def write16 (a : UInt64) (x : UInt16) : Run Unit := writeWord 2 a x.toNat

def write32 (a : UInt64) (x : UInt32) : Run Unit := writeWord 4 a x.toNat

def write64 (a : UInt64) (x : UInt64) : Run Unit := writeWord 8 a x.toNat

def writeValue (a : UInt64) (v : Value) : Run Unit := write64 a v.bits

def alloc (length : Nat) : Run UInt64 :=
  modifyGet fun w => let (a, memory) := w.memory.alloc length; (a, { w with memory })

/-- A number of things as a word of 32 bits. -/
def count32 (n : Nat) (what : Counted) : Run UInt32 :=
  if n < UInt32.size then return UInt32.ofNat n else unsupported (.tooMany what)

/-- Write consecutive words of `n` bytes. -/
def writeWords (n : Nat) (a : UInt64) : List Nat → Run Unit
  | [] => pure ()
  | x :: xs => do
    writeWord n a x
    writeWords n (a + UInt64.ofNat n) xs

def artifact (code : Nat) : Run Artifact := do
  match (← get).artifacts[code]? with
  | some a => return a
  | none => breach .outOfRange

def modifyArtifact (code : Nat) (f : Artifact → Artifact) : Run Unit :=
  modify fun w => { w with artifacts := w.artifacts.modify code f }

def codeBlock (block : Nat) : Run CodeBlock := do
  match (← get).blocks[block]? with
  | some b => return b
  | none => breach .outOfRange

/-- Make code reachable by its address. -/
def install (code : Nat) : Run Unit :=
  modify fun w =>
    if w.installed.contains code then w else { w with installed := w.installed.push code }

/-- The installed code that an address lies in, the one installed first if there are several. -/
def codeAt? (w : World) (a : UInt64) : Option Nat :=
  w.installed.find? fun code =>
    match w.artifacts[code]? with
    | some x => x.contains a
    | none => false

end World

end Speculation
