import Speculation.Lowering.State

/-!
# Compiled code

An artifact is the product of a successful compile: its code, and what the run-time system has to
know to enter it, to leave it through an exit, and to patch it. Patches change an inline cache,
the target of a call, or a watchpoint site, and never the length of an instruction.
-/

namespace Speculation

/-- An exit with the offset of its stub and the number of times it was taken. -/
structure ExitSite where
  exit : Exit
  stub : Nat
  count : UInt32 := 0
deriving Repr

def Lowering.CacheKind.text : Lowering.CacheKind → String
  | .getById => "GetById"
  | .putById => "PutById"

/-- An inline cache of a named property, with the offsets of the instruction that holds the expected
structure and of the access. -/
structure Cache where
  kind : Lowering.CacheKind
  name : String
  origin : Origin
  structureImm : Nat
  access : Nat
deriving Repr

/-- A watchpoint site at `source`, which is to become a jump to the stub of its exit at `dest`. -/
structure JumpReplacement where
  source : Nat
  dest : Nat
  exit : Nat
deriving Repr

structure Artifact where
  graph : Graph
  /-- The code block this is code of. -/
  block : Nat
  /-- The address of the first byte. -/
  base : UInt64
  /-- The instructions and the constant pool. -/
  code : ByteArray
  /-- The length of the instructions. -/
  instsLength : Nat
  /-- Where callers enter that pass enough arguments. -/
  entry : Nat
  /-- Where all other callers enter. -/
  arityEntry : Option Nat
  exits : Array ExitSite
  events : Array Event
  caches : Array Cache
  calls : Array Lowering.CallSite
  jumps : Array JumpReplacement
  /-- Where a block can be entered with all values in their frame slots. -/
  osrEntries : List (BlockId × Nat)
  frameSlots : Nat
  exitThreshold : UInt32
  /-- The assembler's listing, if it was kept. -/
  log : Option (Array String)

/-- Why a patch is refused. -/
inductive PatchError where
  | noSuchCache (site : Nat)
  | noSuchCall (site : Nat)
  | wrongKind (site : Nat) (kind : Lowering.CacheKind)
  | slotOutOfRange (slot : Nat)
deriving DecidableEq, Repr

def PatchError.message : PatchError → String
  | noSuchCache site => "No inline cache site " ++ toString site
  | noSuchCall site => "No call site " ++ toString site
  | wrongKind site kind => "Site " ++ toString site ++ " is not a " ++ kind.text ++ " cache"
  | slotOutOfRange slot => "Slot " ++ toString slot ++ " is not inline"

/-- The class of the error. -/
def PatchError.title : PatchError → String
  | noSuchCache _ | noSuchCall _ => "NoSuchSite"
  | wrongKind .. => "WrongKind"
  | slotOutOfRange _ => "SlotOutOfRange"

namespace Artifact

def name (a : Artifact) : String := a.graph.name

def addressOf (a : Artifact) (offset : Nat) : UInt64 := a.base + UInt64.ofNat offset

/-- The address at which a caller enters that may have passed too few arguments. -/
def callEntry (a : Artifact) : UInt64 := a.addressOf (a.arityEntry.getD a.entry)

def osrEntry? (a : Artifact) (b : BlockId) : Option UInt64 :=
  (a.osrEntries.lookup b).map a.addressOf

/-- Is the address that of one of the instructions' bytes? -/
def contains (a : Artifact) (x : UInt64) : Bool :=
  a.base ≤ x && x.toNat < a.base.toNat + a.instsLength

/-- Decode the instruction at an address, which must not lie before the code. -/
def decodeAt (a : Artifact) (x : UInt64) : Except Breach (Except DecodeError (Inst × Nat)) :=
  if x < a.base then .error .overflow else .ok (Inst.decodeAt a.code (x - a.base).toNat)

/-- The eight bytes at an address of the code or the pool. -/
def readData? (a : Artifact) (x : UInt64) : Option UInt64 :=
  if x < a.base then none
  else
    match Bytes.window a.code (x - a.base).toNat 8 with
    | bs => if bs.length = 8 then some (UInt64.ofNat (Bytes.toNat bs)) else none

def exitTotal (a : Artifact) : Nat := a.exits.foldl (fun n x => n + x.count.toNat) 0

/-- Count the taking of an exit. The result says whether the code should be compiled anew: this exit
was taken as often as the threshold says, or all exits twice as often. -/
def noteExit (a : Artifact) (i : Nat) : Except Breach (Bool × Artifact) := do
  let x ← Breach.get a.exits i
  if x.count.toNat + 1 = UInt32.size then .error .overflow
  let a := { a with exits := a.exits.setIfInBounds i { x with count := x.count + 1 } }
  let often := a.exitThreshold ≤ x.count + 1 || 2 * a.exitThreshold.toNat ≤ a.exitTotal
  return (often, a)

def patch (a : Artifact) (offset : Nat) (bytes : List UInt8) : Artifact :=
  { a with code := Bytes.overwrite a.code offset bytes }

/-- Fill an inline cache with a structure and the inline slot of the property. -/
def patchCache (a : Artifact) (kind : Lowering.CacheKind) (site : Nat) (structure' : UInt64)
    (slot : Nat) : Except PatchError Artifact :=
  match a.caches[site]? with
  | none => .error (.noSuchCache site)
  | some c =>
    if c.kind ≠ kind then .error (.wrongKind site kind)
    else if Layout.inlineCapacity ≤ slot then .error (.slotOutOfRange slot)
    else
      let displacement := Int32.ofNat (Layout.inlineStorage + 8 * slot)
      .ok <| (a.patch (c.structureImm + Encoding.movImmField) (Encoding.uint64 structure')).patch
        (c.access + Encoding.displacementField) (Encoding.int32 displacement)

/-- Make a call site call an address. -/
def linkCall (a : Artifact) (site : Nat) (target : UInt64) : Except PatchError Artifact :=
  match a.calls[site]? with
  | none => .error (.noSuchCall site)
  | some c => .ok (a.patch c.offset (Inst.call target).encode)

/-- Make a watchpoint site a jump to its exit. -/
def fire (a : Artifact) (j : JumpReplacement) : Artifact :=
  let distance : Int := j.dest - (j.source + Encoding.jmpLength : Nat)
  a.patch j.source (Inst.jmp (Int32.ofInt distance)).encode

/-- Make every watchpoint site a jump to its exit. -/
def fireWatchpoints (a : Artifact) : Artifact := a.jumps.foldl fire a

/-- The listing of the code as it is now. The constant pool is one line. -/
def disassemble (a : Artifact) (addresses : Bool) : Except Breach (List String) := do
  let lines ← Listing.disassemble (a.code.extract 0 a.instsLength) a.base addresses
  if a.instsLength < a.code.size then
    return lines ++ [".data " ++ toString (a.code.size - a.instsLength) ++ " bytes"]
  else return lines

end Artifact

end Speculation
