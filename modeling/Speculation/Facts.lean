import Speculation.Graph.Basic

/-!
# Facts about values

While a block is lowered, facts about its nodes accumulate: what kind their values have, which
array representation and which structures were checked. Every block starts from what was proven
beforehand. Only touched nodes are reset, so that a long graph with short blocks stays cheap.
-/

namespace Speculation

structure Facts where
  proven : Array TypeSet
  arrayModes : Array (Option ArrayMode)
  /-- The structures that a checked cell may have. -/
  structures : Array (Option (List UInt64))
  /-- Nodes about which something was learnt in this block. -/
  touched : Array Bool
deriving Repr, Inhabited

namespace Facts

def ofGraph (g : Graph) : Facts where
  proven := g.nodes.map Node.proven
  arrayModes := Array.replicate g.nodes.size none
  structures := Array.replicate g.nodes.size none
  touched := Array.replicate g.nodes.size false

def isTouched (f : Facts) (n : NodeId) : Bool := f.touched.getD n false

/-- Forget what was learnt in the block before. -/
def beginBlock (f : Facts) (g : Graph) : Facts where
  proven := f.proven.mapIdx fun n t =>
    if f.isTouched n then (g.nodes[n]?.map Node.proven).getD t else t
  arrayModes := f.arrayModes.mapIdx fun n m => if f.isTouched n then none else m
  structures := f.structures.map fun _ => none
  touched := f.touched.map fun _ => false

def provenOf (f : Facts) (n : NodeId) : Except Breach TypeSet := Breach.get f.proven n

def touch (f : Facts) (n : NodeId) : Facts := { f with touched := f.touched.setIfInBounds n true }

def narrow (f : Facts) (n : NodeId) (t : TypeSet) : Facts :=
  { f.touch n with proven := f.proven.modify n fun s => s.inter t }

/-- Narrow what is known of a node, which has to be one of the graph. -/
def filter (f : Facts) (n : NodeId) (t : TypeSet) : Except Breach Facts := do
  let _ ← f.provenOf n
  return f.narrow n t

def isArrayValidated (f : Facts) (n : NodeId) (mode : ArrayMode) : Except Breach Bool :=
  return (← Breach.get f.arrayModes n) == some mode

/-- Was the cell checked to have a structure of `set`? -/
def isStructureChecked (f : Facts) (n : NodeId) (set : List UInt64) : Bool :=
  match f.structures.getD n none with
  | some checked => checked.all set.contains
  | none => false

/-- Calls and stores can change the structure and the elements of any object. -/
def forgetHeap (f : Facts) : Facts :=
  { f with
    structures := f.structures.map fun _ => none
    arrayModes := f.arrayModes.mapIdx fun n m => if f.isTouched n then none else m }

/-- What the operation of a node has made sure of once it has executed. -/
def learn (f : Facts) (n : Node) : Except Breach Facts := do
  match n.op with
  | .checkStructure set =>
    let base := (← n.child 0).node
    return { f with structures := f.structures.setIfInBounds base (some set) }
  | .checkArray mode | .arrayify mode =>
    let base := (← n.child 0).node
    let f := f.touch base
    { f with arrayModes := f.arrayModes.setIfInBounds base (some mode) }.filter base mode.typeSet
  | .call | .putById _ | .putByVal _ => return f.forgetHeap
  | _ => return f

/-- What holds once a node has executed: its operands have the kinds it required, and its checks
have passed. -/
def execute (f : Facts) (g : Graph) (id : NodeId) : Except Breach Facts := do
  let n ← g.node id
  (← n.children.foldlM (fun f e => f.filter e.node e.kind.filter) f).learn n

end Facts

end Speculation
