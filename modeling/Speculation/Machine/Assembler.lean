import Speculation.Machine.Listing

/-!
# The assembler

Code is assembled front to back. A reference to something whose address is not known yet is
emitted with a placeholder and recorded as a relocation; the assembler itself never changes a
byte it has emitted.
-/

namespace Speculation

abbrev Label := Nat

/-- What a recorded field has to be set to. -/
inductive RelocTarget where
  /-- The distance to a label. -/
  | label (l : Label)
  /-- The address of a label. -/
  | labelAddress (l : Label)
  /-- The address of something outside the code. -/
  | external (t : ExternalTarget)
deriving DecidableEq, Repr

/-- A recorded field: the offset and length of its instruction, and its value. -/
structure Reloc where
  offset : Nat
  length : Nat
  target : RelocTarget
deriving DecidableEq, Repr

/-- Code under assembly. A label is `none` until it is attached; `log` holds the listing, newest
line last, if one is kept. -/
structure Assembler where
  code : ByteArray := .empty
  labels : Array (Option Nat) := #[]
  relocs : Array Reloc := #[]
  log : Option (Array String) := none
deriving Inhabited

/-- What a field refers to, in words. -/
def RelocTarget.describe : RelocTarget → String
  | label l => "label " ++ toString l
  | labelAddress l => "abs label " ++ toString l
  | external (.helper h) => "helper " ++ h.text
  | external (.thunk t) => "thunk " ++ t.text

namespace Assembler

def new (logging : Bool) : Assembler := { log := if logging then some #[] else none }

def isLogging (a : Assembler) : Bool := a.log.isSome

def logLine (a : Assembler) (line : String) : Assembler :=
  { a with log := a.log.map (·.push line) }

def comment (a : Assembler) (text : String) : Assembler := a.logLine ("; " ++ text)

/-- The offset of the next instruction. -/
def offset (a : Assembler) : Nat := a.code.size

def newLabel (a : Assembler) : Label × Assembler :=
  (a.labels.size, { a with labels := a.labels.push none })

/-- Attach a label to the current offset. A label is attached once. -/
def attach (a : Assembler) (l : Label) : Except Breach Assembler := do
  match ← Breach.get a.labels l with
  | some _ => .error .assertion
  | none =>
    let a := a.comment ("l" ++ toString l)
    return { a with labels := a.labels.set! l (some a.offset) }

/-- A new label at the current offset. -/
def here (a : Assembler) : Label × Assembler :=
  let l := a.labels.size
  let a := a.comment ("l" ++ toString l)
  (l, { a with labels := a.labels.push (some a.offset) })

def emit (a : Assembler) (i : Inst) : Assembler :=
  let a := match a.log with
    | some log => { a with log := some (log.push i.render) }
    | none => a
  { a with code := Bytes.append a.code i.encode }

def RelocTarget.text : RelocTarget → String
  | .label l | .labelAddress l => "l" ++ toString l
  | .external t => t.text

/-- Has the instruction a field for this kind of target? -/
def RelocTarget.fits (t : RelocTarget) (i : Inst) : Bool :=
  match t with
  | .label _ => i.rel32Field?.isSome
  | .labelAddress _ | .external _ => i.abs64Field?.isSome

/-- Emit an instruction whose field is to be filled in later. -/
def emitReloc (a : Assembler) (i : Inst) (t : RelocTarget) : Except Breach Assembler :=
  if RelocTarget.fits t i then
    let a := match a.log with
      | some log => { a with log := some (log.push (i.render (some (RelocTarget.text t)))) }
      | none => a
    let bytes := i.encode
    let reloc : Reloc := { offset := a.offset, length := bytes.length, target := t }
    .ok { a with code := Bytes.append a.code bytes, relocs := a.relocs.push reloc }
  else .error .assertion

/-- Pad with no-ops to a multiple of `n`. -/
def align (a : Assembler) (n : Nat) : Assembler :=
  let padding := (n - a.code.size % n) % n
  { a with code := Bytes.append a.code (List.replicate padding 0) }

/-- Emit bytes that are no instructions. -/
def emitData (a : Assembler) (bytes : List UInt8) : Assembler :=
  { a with code := Bytes.append a.code bytes }

end Assembler

end Speculation
