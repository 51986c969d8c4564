import Speculation.CompileError
import Speculation.Graph.Forward

/-!
# Drafts of graphs

A draft collects nodes, blocks and variables; `Draft.finish` checks it and makes it a graph. It
chooses what each edge requires from the predictions, unless that was given, counts uses, gives
every generated value a frame slot, and finds the stores after which guards may resume.
-/

namespace Speculation

structure Draft where
  name : String
  kind : GraphKind
  nodes : Array Node := #[]
  blocks : Array Block := #[]
  vars : Array Variable := #[]
  arguments : Array VarId := #[]
  numVars : Nat := 0
  identifiers : Array String := #[]
  inlineFrames : Array InlineFrame := #[]
  /-- The block that nodes are added to. -/
  current : Option BlockId := none
  origin : Origin := { bytecode := 0 }
  /-- Edges whose kind was given. -/
  fixedEdges : List (NodeId × Nat) := []
  /-- Nodes added while no block was selected. -/
  orphans : Array NodeId := #[]
  profiling : Bool := false
deriving Repr, Inhabited

namespace Draft

/-- Add an argument, `this` first. Arguments are always boxed. -/
def addArgument (d : Draft) (prediction : TypeSet) (format : FlushFormat) : VarId × Draft :=
  let format := if format = .double then .value else format
  let v : Variable := { operand := .ofArgument d.arguments.size, prediction, format }
  (d.vars.size,
    { d with vars := d.vars.push v, arguments := d.arguments.push d.vars.size })

/-- Add a local that the interpreter sees. -/
def addVariable (d : Draft) (prediction : TypeSet) (format : FlushFormat) : VarId × Draft :=
  let v : Variable := { operand := .ofLocal d.numVars, prediction, format }
  (d.vars.size, { d with vars := d.vars.push v, numVars := d.numVars + 1 })

/-- The index of a property name, each name being kept once. -/
def identifier (d : Draft) (name : String) : Nat × Draft :=
  match d.identifiers.findIdx? (· == name) with
  | some i => (i, d)
  | none => (d.identifiers.size, { d with identifiers := d.identifiers.push name })

def addInlineFrame (d : Draft) (callee : String) (caller : Origin) : Draft :=
  { d with inlineFrames := d.inlineFrames.push { callee, caller } }

/-- Add a block. The first one is the entry. -/
def addBlock (d : Draft) : Draft := { d with blocks := d.blocks.push {} }

def select (d : Draft) (b : BlockId) : Draft := { d with current := some b }

def modifyBlock (d : Draft) (b : BlockId) (f : Block → Block) : Draft :=
  { d with blocks := d.blocks.modify b f }

def setUnreachable (d : Draft) (b : BlockId) : Draft :=
  d.modifyBlock b fun x => { x with reachable := false }

def setOsrTarget (d : Draft) (b : BlockId) : Draft :=
  d.modifyBlock b fun x => { x with osrTarget := true }

def addLiveAtHead (d : Draft) (b : BlockId) (v : VarId) : Draft :=
  d.modifyBlock b fun x => { x with liveAtHead := x.liveAtHead.push v }

/-- The origin of the nodes added from now on. -/
def setOrigin (d : Draft) (o : Origin) : Draft := { d with origin := o }

/-- Add a node to the selected block. -/
def addNode (d : Draft) (op : Op) (children : List NodeId) (prediction : TypeSet)
    (proven : TypeSet := .top) : NodeId × Draft :=
  let id := d.nodes.size
  let n : Node :=
    { op, children := (children.map fun c => { node := c }).toArray, prediction, proven,
      origin := d.origin }
  let d := { d with nodes := d.nodes.push n }
  match d.current with
  | some b => (id, d.modifyBlock b fun x => { x with nodes := x.nodes.push id })
  | none => (id, { d with orphans := d.orphans.push id })

/-- The kind of a constant, any cell being just a cell. -/
def constantType (v : Value) : TypeSet := .ofValue v fun _ => .cell

def addConstant (d : Draft) (v : Value) : NodeId × Draft :=
  d.addNode (.constant v) [] (constantType v) (constantType v)

def addDoubleConstant (d : Draft) (x : Double) : NodeId × Draft :=
  d.addNode (.doubleConstant x) [] (constantType (.ofDouble x)) (constantType (.ofDouble x))

def addGetLocal (d : Draft) (v : VarId) : NodeId × Draft :=
  d.addNode (.getLocal v) [] ((d.vars[v]?.map Variable.prediction).getD .empty)

def modifyNode (d : Draft) (n : NodeId) (f : Node → Node) : Draft :=
  { d with nodes := d.nodes.modify n f }

def addFlags (d : Draft) (n : NodeId) (flags : NodeFlags) : Draft :=
  d.modifyNode n fun x => { x with flags := x.flags.union flags }

def setProven (d : Draft) (n : NodeId) (t : TypeSet) : Draft :=
  d.modifyNode n fun x => { x with proven := t }

/-- Give the kind of an edge. -/
def setUseKind (d : Draft) (n : NodeId) (i : Nat) (kind : UseKind) : Except Breach Draft := do
  let x ← Breach.get d.nodes n
  let _ ← x.child i
  let d := d.modifyNode n fun x =>
    { x with children := x.children.modify i fun e => { e with kind } }
  return { d with fixedEdges := (n, i) :: d.fixedEdges }

/-- Check that every child of a node was seen before it. -/
def validateNode (d : Draft) (b : BlockId) (seen : List NodeId) (id : NodeId) :
    Except Failure (List NodeId) := do
  let n ← Breach.lift (Breach.get d.nodes id)
  match n.children.find? fun e => !seen.contains e.node with
  | some e => .error (.compile (.graph (.undefinedUse id e.node b)))
  | none => .ok (id :: seen)

/-- Check one block: every child is defined earlier in it, and if it is reachable it ends in a
terminal. -/
def validateBlock (d : Draft) (b : BlockId) (block : Block) : Except Failure Unit := do
  let _ ← block.nodes.foldlM (d.validateNode b) []
  let ends :=
    match block.nodes.back? with
    | some id => (d.nodes[id]?.map fun n => n.op.isTerminal).getD false
    | none => false
  if block.reachable && !ends then throw (.compile (.graph (.noTerminal b)))

def validate (d : Draft) : Except Failure Unit := do
  if d.blocks.isEmpty then throw (.compile (.graph .noBlocks))
  match d.orphans[0]? with
  | some n => throw (.compile (.graph (.outsideBlock n)))
  | none =>
    for (b, i) in d.blocks.toList.zipIdx do
      d.validateBlock i b

/-- The prediction of a child. -/
def prediction (d : Draft) (e : Edge) : TypeSet :=
  (d.nodes[e.node]?.map Node.prediction).getD .empty

/-- What the edges of a node require, from the predictions of its children. Nodes of most
operations leave their edges as they are. -/
def chosenKinds (d : Draft) (n : Node) : Except Breach (List (Option UseKind)) := do
  let children := n.children.toList
  let all (t : TypeSet) : Bool := children.all fun e => (d.prediction e).isA t
  let same (k : UseKind) : List (Option UseKind) := children.map fun _ => some k
  let first : Except Breach TypeSet := return d.prediction (← n.child 0)
  let cellOrUntyped : Except Breach UseKind :=
    return if (← first).isA .cell then .cell else .untyped
  let numeric (t : TypeSet) : UseKind :=
    if t.isA .int32 then .int32 else if t.isA .number then .number else .untyped
  match n.op with
  | .arithAdd | .arithSub | .arithMul | .arithDiv | .arithMod | .arithMin | .arithMax
  | .arithNegate | .arithAbs | .valueAdd =>
    return same <|
      if all .int32 && (n.prediction.isA .int32 || n.flags.canTruncate) then .int32
      else if all .number then .number
      else .untyped
  | .arithSqrt | .int32ToDouble | .doubleAsInt32 => return same .number
  | .bit _ | .uint32ToNumber => return same .int32
  | .valueToInt32 => return same (numeric (← first))
  | .compare op =>
    let l ← first
    let r := d.prediction (← n.child 1)
    let objectOrOther := TypeSet.object.union .other
    let isEq := op = .eq || op = .strictEq
    return if all .int32 then same .int32
      else if all .number then same .number
      else if isEq && all .object then same .object
      else if isEq && l.isA .object && r.isA objectOrOther then
        [some .object, some .objectOrOther]
      else if isEq && l.isA objectOrOther && r.isA .object then
        [some .objectOrOther, some .object]
      else same .untyped
  | .logicalNot | .branch .. =>
    let t ← first
    return same (if t.isA .boolean then .boolean else numeric t)
  | .setLocal v => return same (← Breach.get d.vars v).format.useKind
  | .checkStructure _ | .checkArray _ | .arrayify _ | .getStorage _ | .checkHasInstance =>
    return same .cell
  | .getArrayLength _ =>
    let _ ← n.child 0
    return (same .untyped).set 0 (some .cell)
  | .getByVal _ => return [some .cell, some .int32, some .untyped]
  | .putByVal mode =>
    let value : UseKind :=
      match mode with
      | .contiguous | .string => .untyped
      | .double | .float64Array => .number
      | .int32Array => .int32
    return [some .cell, some .int32, some value, some .untyped]
  | .stringCharCodeAt | .stringCharAt => return [some .string, some .int32, some .untyped]
  | .getById _ => return [some (← cellOrUntyped)]
  | .putById _ => return [some (← cellOrUntyped), some .untyped]
  | .instanceOf => return [some (← cellOrUntyped), some .cell]
  | .switch data =>
    match data.kind with
    | .imm => return same (if (← first).isA .int32 then .int32 else .untyped)
    | .string => return same .untyped
  | _ => return children.map fun _ => none

/-- Set the kinds of the edges of a node, leaving those that were given. -/
def fixNode (d : Draft) (id : NodeId) (n : Node) : Except Breach Node := do
  (← d.chosenKinds n).zipIdx.foldlM (fun n (k, i) =>
    match k with
    | none => .ok n
    | some kind =>
      if d.fixedEdges.contains (id, i) then .ok n
      else do
        let _ ← n.child i
        return { n with children := n.children.modify i fun e => { e with kind } }) n

/-- Start counting: no uses, and what has effects is generated. -/
def resetRefs (n : Node) : Node :=
  { n with
    refCount := 0
    flags := if n.op.hasSideEffects then n.flags.union { mustGenerate := true } else n.flags }

def countsUses (n : Node) : Bool :=
  n.shouldGenerate &&
    match n.op with
    | .movHint _ | .phi _ => false
    | _ => true

/-- Count the uses that one node makes, if it is generated. Hints and phis make none. -/
def countNode (nodes : Array Node) (id : NodeId) : Array Node :=
  match nodes[id]? with
  | none => nodes
  | some n =>
    if countsUses n then
      n.children.foldl (fun nodes e =>
        nodes.modify e.node fun c => { c with refCount := c.refCount + 1 }) nodes
    else nodes

/-- Count uses block by block, each from its end, so that a node's own uses are known before it is
asked whether it is generated. -/
def countRefs (nodes : Array Node) (blocks : Array Block) : Array Node :=
  blocks.foldl (fun nodes b => b.nodes.toList.reverse.foldl countNode nodes) (nodes.map resetRefs)

/-- Does the node get a frame slot? -/
def needsSlot (n : Node) : Bool := n.op.hasResult && (n.shouldGenerate || n.op.isConstant)

/-- What the format of a local proves of a load of it. -/
def informed (vars : Array Variable) (n : Node) : Node :=
  match n.op with
  | .getLocal v =>
    match vars[v]?.bind fun x => x.format.proven? with
    | some t => { n with proven := t }
    | none => n
  | _ => n

/-- Give slots from `next` on to the nodes that need one, and to loads of locals what their format
proves. -/
def assignSlots (vars : Array Variable) (nodes : Array Node) (next : Nat) :
    Array Node × Nat :=
  nodes.foldl (fun (done, next) n =>
    let n := informed vars n
    if needsSlot n then (done.push { n with slot := some (.ofLocal next) }, next + 1)
    else (done.push n, next)) (#[], next)

/-- Note the store after which the guards of the node at `pos` may resume. -/
def annotateForward (g : Graph) (b : BlockId) (pos : Nat) (id : NodeId) : Except Breach Graph := do
  match (← g.node id).op with
  | .uint32ToNumber | .doubleAsInt32 =>
    match ← g.findForwardStore b pos with
    | none => return g
    | some store =>
      let target ← Breach.get (← g.block b).nodes store
      return { g with nodes := g.nodes.modify id fun n => { n with forwardTarget := some target } }
  | _ => return g

def annotateForwards (g : Graph) : Except Breach Graph :=
  g.blocks.toList.zipIdx.foldlM (fun g (b, bi) =>
    b.nodes.toList.zipIdx.foldlM (fun g (id, pos) => annotateForward g bi pos id) g) g

/-- The graph of the draft, its nodes being those given and the values of these having slots. -/
def slotted (d : Draft) (nodes : Array Node) : Graph :=
  let (nodes, numLocals) := assignSlots d.vars nodes d.numVars
  { name := d.name
    kind := d.kind
    nodes
    blocks := d.blocks
    vars := d.vars
    arguments := d.arguments
    identifiers := d.identifiers
    inlineFrames := d.inlineFrames
    numVars := d.numVars
    numLocals
    profiling := d.profiling }

/-- Make the draft a graph. -/
def finish (d : Draft) : Except Failure Graph := do
  d.validate
  let nodes ← Breach.lift (d.nodes.toList.zipIdx.mapM fun (n, id) => d.fixNode id n)
  Breach.lift <| annotateForwards <| d.slotted (countRefs nodes.toArray d.blocks)

end Draft

end Speculation
