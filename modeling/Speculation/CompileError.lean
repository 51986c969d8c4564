import Speculation.Location
import Speculation.Text.Quoted
import Speculation.Machine.Listing

/-!
# Why a compile fails

A compile fails because the graph is malformed, because a limit is exceeded, because code memory
is exhausted, or because the compiler's own bookkeeping is inconsistent. Each cause is a
constructor; `CompileError.message` holds the wording.
-/

namespace Speculation

/-- A malformed graph, or one that does not match its jump tables. -/
inductive GraphFault where
  | noBlocks
  | outsideBlock (n : NodeId)
  | undefinedUse (n child : NodeId) (b : BlockId)
  | noTerminal (b : BlockId)
  | noJumpTable (table : Nat)
  | noStringTable (table : Nat)
  | stringCase
  | integerCase
  | caseOutside (i : Int32) (table : Nat)
  | caseMissing (s : String) (table : Nat)
  | cannotArrayify (mode : ArrayMode)
deriving DecidableEq, Repr

def GraphFault.text : GraphFault → String
  | noBlocks => "Graph has no blocks"
  | outsideBlock n => "@" ++ toString n ++ " was added outside any block"
  | undefinedUse n c b =>
    "@" ++ toString n ++ " uses @" ++ toString c ++ " which is not defined earlier in bb" ++
      toString b
  | noTerminal b => "bb" ++ toString b ++ " does not end in a terminal"
  | noJumpTable t => "No jump table " ++ toString t
  | noStringTable t => "No string jump table " ++ toString t
  | stringCase => "String case in an integer switch"
  | integerCase => "Integer case in a string switch"
  | caseOutside i t => "Case " ++ toString i.toInt ++ " is outside jump table " ++ toString t
  | caseMissing s t =>
    "Case " ++ Quoted.quote s ++ " is not in string jump table " ++ toString t
  | cannotArrayify m => "Cannot arrayify to " ++ m.text

/-- A limit of the target that a graph exceeds. -/
inductive LimitFault where
  | tableTooBig (table : Nat)
  | tooManyTables (table : Nat)
  | jumpOutOfRange
deriving DecidableEq, Repr

def LimitFault.text : LimitFault → String
  | tableTooBig t => "Jump table " ++ toString t ++ " is too big"
  | tooManyTables t => "Too many jump tables (" ++ toString t ++ ")"
  | jumpOutOfRange => "Relative jump out of range"

/-- Where the value of a node is at some point of the lowering. -/
inductive Residence where
  | constant (v : Value)
  | gpr (r : Gpr) (format : DataFormat)
  | fpr (r : Fpr)
  | spilled (format : DataFormat)
deriving DecidableEq, Repr

def Residence.detail : Residence → String
  | constant v => "Constant(" ++ v.text ++ ")"
  | gpr r f => "Gpr(R" ++ toString r.val ++ ", " ++ f.text ++ ")"
  | fpr r => "Fpr(F" ++ toString r.val ++ ")"
  | spilled f => "Spilled(" ++ f.text ++ ")"

/-- How the ledger and the register banks can disagree after a node. -/
inductive StateFault where
  | locked
  | notIn (register : Location) (owner : Slot)
  | notBound (owner : Slot) (register : Location)
  | deadInRegister (owner : Slot)
deriving DecidableEq, Repr

def StateFault.text : StateFault → String
  | locked => "registers remain locked"
  | notIn r s => r.text ++ " is bound to " ++ s.text ++ " which is not in it"
  | notBound s r => s.text ++ " claims " ++ r.text ++ " which is not bound to it"
  | deadInRegister s => s.text ++ " is dead but in a register"

/-- Inconsistent bookkeeping of the compiler. -/
inductive InternalFault where
  | labelUnattached (l : Nat)
  | notAllocatable (register : Location)
  | allLocked
  | noValueSlot (n : NodeId)
  | notValueSlot (s : Slot)
  | boundNotAlive (s : Slot)
  | boundElsewhere (s : Slot) (bound ledger : Location)
  | notInRegister (s : Slot)
  | tooManyIntegerArguments
  | tooManyDoubleArguments
  | inconsistent (n : NodeId) (f : StateFault)
  | notLive (n : NodeId)
  | nowhere (n : NodeId)
  | fillNowhere
  | fillFormat (format : DataFormat)
  | notStorage (n : NodeId) (r : Residence)
  | cannotBox (n : NodeId) (format : DataFormat)
  | loweredElsewhere (mode : ArrayMode)
  | undecodable (offset : Nat) (e : DecodeError)
  | noRelativeField (i : Inst)
  | noAbsoluteField (i : Inst)
  | notSwitch (n : NodeId)
deriving DecidableEq, Repr

def InternalFault.text : InternalFault → String
  | labelUnattached l => "Label l" ++ toString l ++ " never attached"
  | notAllocatable r => r.text ++ " is not an allocatable register"
  | allLocked => "All registers are locked"
  | noValueSlot n => "@" ++ toString n ++ " has no value slot"
  | notValueSlot s => s.text ++ " is not a value slot"
  | boundNotAlive s => s.text ++ " is bound but not alive"
  | boundElsewhere s b l =>
    s.text ++ " is bound to " ++ b.detail ++ " but the ledger says " ++ l.detail
  | notInRegister s => s.text ++ " is not in a register"
  | tooManyIntegerArguments => "Too many integer arguments"
  | tooManyDoubleArguments => "Too many double arguments"
  | inconsistent n f => "After @" ++ toString n ++ ": " ++ f.text
  | notLive n => "@" ++ toString n ++ " is used but not live"
  | nowhere n => "@" ++ toString n ++ " is live but nowhere"
  | fillNowhere => "Cannot fill to nowhere"
  | fillFormat f => "Cannot fill " ++ f.text ++ " into a GPR"
  | notStorage n r => "@" ++ toString n ++ " is not storage (" ++ r.detail ++ ")"
  | cannotBox n f => "@" ++ toString n ++ " cannot be boxed from " ++ f.text
  | loweredElsewhere m => m.text ++ " accesses are lowered elsewhere"
  | undecodable off e => "At " ++ Hex.number off ++ ": " ++ e.message
  | noRelativeField i => i.render ++ " has no relative field"
  | noAbsoluteField i => i.render ++ " has no absolute field"
  | notSwitch n => "@" ++ toString n ++ " is not a switch"

inductive CompileError where
  | graph (f : GraphFault)
  | internal (f : InternalFault)
  | limit (f : LimitFault)
  /-- The code does not fit the code buffer. -/
  | codeTooBig (size limit : Nat)
deriving DecidableEq, Repr

namespace CompileError

def message : CompileError → String
  | graph f => "General error: " ++ f.text
  | internal f => "Internal error: " ++ f.text
  | limit f => "Internal error: " ++ f.text
  | codeTooBig size most =>
    "Internal error: code buffer of " ++ toString size ++ " bytes exceeds the limit of " ++
      toString most ++ " bytes"

/-- The class of the error. -/
def title : CompileError → String
  | graph _ => "General"
  | internal _ => "InternalError"
  | limit _ => "LimitExceeded"
  | codeTooBig .. => "ResourceExhausted"

/-- Did the compile fail for want of code memory? -/
def isExhaustion : CompileError → Bool
  | codeTooBig .. => true
  | _ => false

end CompileError

/-- Why an operation of the compiler stops: a failed compile, or a broken assumption. -/
inductive Failure where
  | compile (e : CompileError)
  | breach (b : Breach)
deriving DecidableEq, Repr

instance : Coe Breach Failure := ⟨.breach⟩

/-- Run a step that rests on an assumption. -/
def Breach.lift {α : Type} (x : Except Breach α) : Except Failure α := x.mapError .breach

end Speculation
