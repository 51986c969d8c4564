import Speculation.Compile
import Speculation.World.State

/-!
# Code in the world

Compiled code gets an address range of its own. Code blocks live in the world, so that several
artifacts can share the jump tables of one.
-/

namespace Speculation

/-- What one compile is asked for. -/
structure CompileRequest where
  graph : Graph
  /-- The index of the code block. -/
  block : Nat
  options : Options := {}
  /-- Rely on the world's watchpoint for objects that pass for undefined, instead of one that never
  fires. -/
  shareWatchpoint : Bool := false
  /-- Report the code, which also keeps the assembler's listing. -/
  profiled : Bool := false

/-- What is reported of compiled code: the length of its listing, and each exit's stub and kind. -/
structure Profile where
  name : String
  listing : List String
  exitSites : List (Nat × ExitKind)
deriving Repr

structure Compilation where
  outcome : Except CompileError Nat
  profile : Option Profile
  messages : List Message

namespace World

def addBlock (b : CodeBlock) : Run Nat :=
  modifyGet fun w => (w.blocks.size, { w with blocks := w.blocks.push b })

/-- Code starts on a page of its own. -/
def roundToPage (n : Nat) : Nat := (n + Memory.pageSize - 1) / Memory.pageSize * Memory.pageSize

def addArtifact (a : Artifact) : Run Nat :=
  modifyGet fun w =>
    (w.artifacts.size,
      { w with
        artifacts := w.artifacts.push a
        nextBase := w.nextBase + roundToPage (max a.code.size 1) })

def profile (a : Artifact) : Run Profile :=
  match a.disassemble true with
  | .error b => breach b
  | .ok listing =>
    return { name := a.name, listing
             exitSites := a.exits.toList.map fun x => (x.stub, x.exit.kind) }

/-- Compile, and keep the code and the linked tables. -/
def compile (r : CompileRequest) : Run Compilation := do
  let w ← get
  let plan : Plan :=
    { graph := r.graph
      blockId := r.block
      block := ← codeBlock r.block
      options := r.options
      context := w.context
      noMasquerades := w.noMasquerades || !r.shareWatchpoint
      keepLog := r.profiled }
  let report := plan.compile (UInt64.ofNat w.nextBase)
  modify fun w => { w with blocks := w.blocks.setIfInBounds r.block report.block }
  match report.outcome with
  | .error (.breach b) => breach b
  | .error (.compile e) =>
    return { outcome := .error e, profile := none, messages := report.messages }
  | .ok a =>
    let profile ← if r.profiled then some <$> profile a else pure none
    let code ← addArtifact a
    return { outcome := .ok code, profile, messages := report.messages }

/-- The code whose bytes, constant pool included, an address is in or right after, and the offset of
the address there. If there are several, the first compiled counts. -/
def locate? (w : World) (a : UInt64) : Option (Nat × Nat) := do
  let code ← w.artifacts.findIdx? fun x =>
    x.base.toNat ≤ a.toNat && a.toNat ≤ x.base.toNat + x.code.size
  return (code, a.toNat - (← w.artifacts[code]?).base.toNat)

end World

end Speculation
