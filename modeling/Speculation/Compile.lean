import Speculation.Artifact
import Speculation.Link
import Speculation.Lowering.Program
import Speculation.Options

/-!
# Compiling

A plan holds all that one compile needs. A compile yields an artifact, or fails, which is an
ordinary outcome: the lower tier goes on running.
-/

namespace Speculation

structure Plan where
  graph : Graph
  /-- The code block, by its identity and as it is before the compile. -/
  blockId : Nat
  block : CodeBlock
  options : Options := {}
  /-- The address of the context record. -/
  context : UInt64
  /-- No object has ever passed for undefined. -/
  noMasquerades : Bool := true
  /-- Keep the assembler's listing. -/
  keepLog : Bool := false

/-- What a compile leaves behind. -/
structure Report where
  outcome : Except Failure Artifact
  /-- The code block with its tables linked; a failed compile may have linked some of them. -/
  block : CodeBlock
  messages : List Message

namespace Plan

/-- The labels of the blocks come first, then those of the exception handlers. -/
def env (p : Plan) (frame : Lowering.FrameLayout) : Lowering.Env where
  graph := p.graph
  frame := frame
  blockLabels := Array.range p.graph.blocks.size
  exceptionLabel := p.graph.blocks.size
  rollbackLabel := p.graph.blocks.size + 1
  dense := p.block.dense
  context := p.context
  noMasquerades := p.noMasquerades
  assertState := p.options.assertState
  breakUnreachable := p.options.breakUnreachable

/-- The state before lowering: no code, and labels that are not attached yet. -/
def start (p : Plan) : Lowering.State where
  asm := { Assembler.new p.keepLog with labels := Array.replicate (p.graph.blocks.size + 2) none }
  ledger := Array.replicate p.graph.numLocals {}
  facts := .ofGraph p.graph

/-- Lower the graph. -/
def lower (p : Plan) : Except Failure (Lowering.FrameLayout × Lowering.Layout × Lowering.State) :=
  match Lowering.FrameLayout.ofGraph p.graph with
  | .error b => .error (.breach b)
  | .ok frame =>
    match ((Lowering.lowerGraph p.block.numParameters).run (p.env frame)).run.run p.start with
    | (.ok layout, s) => .ok (frame, layout, s)
    | (.error (.failed f), _) => .error f
    | (.error .terminated, _) => .error (.breach .assertion)

def exitSites (a : Assembler) (exits : Array Exit) : Except Failure (Array ExitSite) :=
  exits.mapM fun exit => do return { exit, stub := ← a.labelOffset exit.stub }

def caches (g : Graph) (sites : Array Lowering.CacheSite) : Except Failure (Array Cache) :=
  sites.mapM fun s => do
    return { kind := s.kind
             name := ← Breach.lift (Breach.get g.identifiers s.ident)
             origin := s.origin
             structureImm := s.structureImm
             access := s.access }

def jumps (exits : Array ExitSite) (sites : Array Lowering.WatchpointSite) :
    Except Failure (Array JumpReplacement) :=
  sites.mapM fun w => do
    return { source := w.offset
             dest := (← Breach.lift (Breach.get exits w.exit)).stub
             exit := w.exit }

/-- Put the artifact together from lowered code that has been linked. -/
def artifact (p : Plan) (base : UInt64) (frame : Lowering.FrameLayout) (layout : Lowering.Layout)
    (s : Lowering.State) (code : ByteArray) : Except Failure Artifact := do
  let exits ← exitSites s.asm s.exits
  let jumps ← jumps exits s.watchpoints
  let caches ← caches p.graph s.caches
  return {
    graph := p.graph
    block := p.blockId
    base
    code
    instsLength := layout.instsLength
    entry := ← s.asm.labelOffset layout.entry
    arityEntry := ← layout.arityEntry.mapM s.asm.labelOffset
    exits
    events := s.events
    caches
    calls := s.calls
    jumps
    osrEntries := ← layout.osrEntries.mapM fun (b, l) => do return (b, ← s.asm.labelOffset l)
    frameSlots := frame.frameSlots
    exitThreshold := p.options.exitThreshold
    log := s.asm.log }

/-- The address of a block of code at `base`. -/
def blockAddress (a : Assembler) (blocks : Nat) (base : UInt64) (b : BlockId) :
    Except Failure UInt64 := do
  if b < blocks then return base + UInt64.ofNat (← a.labelOffset b) else .error (.breach .outOfRange)

/-- Lower the graph and link the code and the jump tables, for code that will be at `base`. -/
def build (p : Plan) (base : UInt64) : Except Failure Artifact × CodeBlock :=
  match p.lower with
  | .error f => (.error f, p.block)
  | .ok (frame, layout, s) =>
    if p.options.codeLimit < s.asm.code.size then
      (.error (.compile (.codeTooBig s.asm.code.size p.options.codeLimit)), p.block)
    else
      match Link.fillFields s.asm base with
      | .error f => (.error f, p.block)
      | .ok code =>
        let address := blockAddress s.asm p.graph.blocks.size base
        match (Link.linkTables p.graph address s.switches.toList).run.run p.block with
        | (.error f, block) => (.error f, block)
        | (.ok (), block) => (p.artifact base frame layout s code, block)

/-- What a compile with the given outcome logs. -/
def messages (p : Plan) (outcome : Except Failure Artifact) : List Message :=
  { level := .compiles, text := "start-compiling: " ++ p.graph.name } ::
    match outcome with
    | .ok _ => [{ level := .compiles, text := "stop-compiling: " ++ p.graph.name }]
    | .error (.breach _) => []
    | .error (.compile e) =>
      let text := "compiling " ++ p.graph.name ++ " failed: " ++ e.message
      match e with
      | .graph _ | .codeTooBig .. => [{ level := .abandoned, text }]
      | .internal _ | .limit _ => [{ level := .bug, text }]

/-- Compile for code that will be at `base`. -/
def compile (p : Plan) (base : UInt64) : Report :=
  let (outcome, block) := p.build base
  { outcome
    block
    messages := (p.messages outcome).filter fun m => p.options.log.level.enables m.level }

end Plan

end Speculation
