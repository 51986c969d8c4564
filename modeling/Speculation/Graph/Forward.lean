import Speculation.Graph.Basic

/-!
# Forward exits

A guard whose value is at once stored to a local need not resume before the guarded node: the
exit may store the value itself and resume after the store. `findForwardStore` finds that
store, `forwardResume` says where execution goes on after it.
-/

namespace Speculation
namespace Graph

/-- Search the nodes from position `i` on for the store of `value`. Hints, flushes and phantoms may
stand in between, and one conversion of the value to a double, whose result is then what has to be
stored. -/
def forwardStoreFrom (g : Graph) : List NodeId → Nat → NodeId → Bool → Except Breach (Option Nat)
  | [], _, _, _ => .ok none
  | id :: rest, i, value, converted => do
    let n ← g.node id
    match n.op with
    | .movHint _ | .flush _ | .phantom => forwardStoreFrom g rest (i + 1) value converted
    | .int32ToDouble =>
      if converted then return none
      else if (← n.child 0).node = value then forwardStoreFrom g rest (i + 1) id true
      else return none
    | .setLocal _ => if (← n.child 0).node = value then return some i else return none
    | _ => return none

/-- The position of the store of the value of the node at `pos`, if one follows it closely. -/
def findForwardStore (g : Graph) (b : BlockId) (pos : Nat) : Except Breach (Option Nat) := do
  let nodes := (← g.block b).nodes
  match nodes[pos]? with
  | none => return none
  | some value => g.forwardStoreFrom (nodes.toList.drop (pos + 1)) (pos + 1) value false

/-- Where an exit that guards the node at `pos` resumes after the store at `store`, and the operand
stored to. A jump of the same origin after the store ends an inlined call, and nothing can resume
there. -/
def forwardResume (g : Graph) (b : BlockId) (pos store : Nat) :
    Except Breach (Option (Origin × Slot)) := do
  let nodes := (← g.block b).nodes
  let here ← g.node (← Breach.get nodes pos)
  match nodes[store]? with
  | none => return none
  | some storeId =>
    let s ← g.node storeId
    match s.op with
    | .setLocal v =>
      let next ← nodes[store + 1]?.mapM g.node
      let leavesInline :=
        match next with
        | some n => (match n.op with | .jump _ => true | _ => false) && n.origin == here.origin
        | none => false
      if leavesInline then return none
      let origin? :=
        if s.origin = here.origin then
          match next with
          | some n => if n.origin = here.origin then none else some n.origin
          | none => none
        else some s.origin
      match origin? with
      | none => return none
      | some origin => return some (origin, (← Breach.get g.vars v).operand)
    | _ => return none

/-- Every position from which a store can be found, with the position of the store. -/
def forwardStores (g : Graph) : Except Breach (List (BlockId × Nat × Nat)) := do
  let places := g.blocks.toList.zipIdx.flatMap fun (b, i) =>
    (List.range b.nodes.size).map fun pos => (i, pos)
  places.filterMapM fun (b, pos) => do
    return (← g.findForwardStore b pos).map fun store => (b, pos, store)

end Graph

end Speculation
