import Speculation.Graph.Draft
import Mathlib.Data.List.Nodup
import Mathlib.Data.List.Flatten
import Mathlib.Tactic.Lemma

/-!
What the lowering relies on in a graph, and drafts that are put together step by step.

In a formed graph every value has a local's slot of its own, and a node stands in one place of one
block. `Draft.Built` is closed under everything that can be done to a draft from outside. What it
guarantees is that a node stands in one place only: it is added to the block that is selected, or
to none, and never moved.
-/

namespace Speculation

namespace Slot

/-- A slot that counts as a local is the slot of the number it counts as. -/
lemma ofLocal_eq_of_local? {j i : Nat} (h : (ofLocal j).local? = some i) :
    ofLocal i = ofLocal j := by
  have hj : (ofLocal j).index = -signed j - 1 := rfl
  unfold local? at h
  split at h
  · have hs : (i : Int) = signed j := by
      simp only [Option.some.injEq] at h
      omega
    have hi : signed i = signed j :=
      (congrArg (Int.bmod · 4294967296) hs).trans Int.bmod_bmod
    rw [ofLocal, hi, ofLocal]
  · cases h

end Slot

structure Graph.Formed (g : Graph) : Prop where
  /-- Values live in the slots of locals. -/
  slot_local {n : NodeId} {d : Node} {o : Slot} (h : g.nodes[n]? = some d) (ho : d.slot = some o) :
    ∃ j, o = .ofLocal j
  /-- No two values share a slot. -/
  slot_inj {m n : NodeId} {d e : Node} {o : Slot} (hm : g.nodes[m]? = some d)
    (hn : g.nodes[n]? = some e) (hd : d.slot = some o) (he : e.slot = some o) : m = n
  /-- A node stands once in a block. -/
  nodup {b : BlockId} {blk : Block} (h : g.blocks[b]? = some blk) : blk.nodes.toList.Nodup
  /-- A node stands in one block only. -/
  disjoint {b c : BlockId} {blk blk' : Block} {n : NodeId} (hb : g.blocks[b]? = some blk)
    (hc : g.blocks[c]? = some blk') (hn : n ∈ blk.nodes) (hn' : n ∈ blk'.nodes) : b = c

/-- A slot of a value that counts as a local is the slot of the number it counts as. -/
lemma Graph.Formed.eq_ofLocal {g : Graph} (hg : g.Formed) {n : NodeId} {d : Node} {o : Slot} {i : Nat}
    (hn : g.nodes[n]? = some d) (ho : d.slot = some o) (hi : o.local? = some i) :
    o = .ofLocal i := by
  obtain ⟨j, rfl⟩ := hg.slot_local hn ho
  exact (Slot.ofLocal_eq_of_local? hi).symm

lemma bind_eq_ok {ε α β : Type} {x : Except ε α} {f : α → Except ε β} {b : β} :
    (x >>= f) = .ok b ↔ ∃ a, x = .ok a ∧ f a = .ok b := by
  cases x with
  | error e => exact ⟨nofun, nofun⟩
  | ok a => exact ⟨fun h => ⟨a, rfl, h⟩, fun ⟨_, ha, h⟩ => by cases ha; exact h⟩

namespace Breach

variable {α : Type} {xs : Array α} {i : Nat} {x : α}

lemma get_eq_ok : get xs i = .ok x ↔ xs[i]? = some x := by
  unfold get
  split <;> simp_all

lemma get_eq_error {b : Breach} : get xs i = .error b ↔ xs.size ≤ i ∧ b = .outOfRange := by
  rw [← Array.getElem?_eq_none_iff, get]
  rcases xs[i]? with _ | x <;> simp [eq_comm]

lemma get_of_le (h : xs.size ≤ i) : get xs i = .error .outOfRange := get_eq_error.mpr ⟨h, rfl⟩

end Breach

namespace Graph

variable {g : Graph} {n : NodeId} {d : Node}

lemma node_eq_ok : g.node n = .ok d ↔ g.nodes[n]? = some d := Breach.get_eq_ok

lemma valueConstant_of_node (h : g.nodes[n]? = some d) : g.valueConstant n = .ok d.op.value? := by
  rw [valueConstant, node_eq_ok.mpr h]
  rfl

lemma valueConstant_of_le (h : g.nodes.size ≤ n) : g.valueConstant n = .error .outOfRange := by
  rw [valueConstant, node, Breach.get_of_le h]
  rfl

lemma int32Constant_of_node (h : g.nodes[n]? = some d) : g.int32Constant n = .ok d.op.int32? := by
  rw [int32Constant, node_eq_ok.mpr h]
  rfl

lemma int32Constant_of_le (h : g.nodes.size ≤ n) : g.int32Constant n = .error .outOfRange := by
  rw [int32Constant, node, Breach.get_of_le h]
  rfl

lemma int32Constant_eq_ok {i : Option Int32} :
    g.int32Constant n = .ok i ↔ ∃ d, g.nodes[n]? = some d ∧ d.op.int32? = i := by
  rcases h : g.nodes[n]? with _ | d
  · simp [int32Constant_of_le (Array.getElem?_eq_none_iff.mp h)]
  · simp [int32Constant_of_node h]

end Graph

lemma Op.value?_eq_none {op : Op} : op.value? = none ↔ op.isConstant = false := by
  cases op <;> simp [Op.value?, Op.isConstant]

lemma lift_eq_ok {α : Type} {x : Except Breach α} {a : α} :
    Breach.lift x = .ok a ↔ x = .ok a := by
  cases x with
  | error e => exact ⟨nofun, nofun⟩
  | ok b => exact ⟨fun h => by cases h; rfl, fun h => by cases h; rfl⟩

namespace Draft

/-- A draft that was put together by its operations. Nodes are numbered in 32 bits. -/
inductive Built : Draft → Prop where
  | new (name : String) (kind : GraphKind) : Built { name, kind }
  | addArgument {d : Draft} (h : Built d) (t : TypeSet) (f : FlushFormat) :
    Built (d.addArgument t f).2
  | addVariable {d : Draft} (h : Built d) (t : TypeSet) (f : FlushFormat) :
    Built (d.addVariable t f).2
  | identifier {d : Draft} (h : Built d) (name : String) : Built (d.identifier name).2
  | addInlineFrame {d : Draft} (h : Built d) (callee : String) (caller : Origin) :
    Built (d.addInlineFrame callee caller)
  | profile {d : Draft} (h : Built d) (b : Bool) : Built { d with profiling := b }
  | addBlock {d : Draft} (h : Built d) : Built d.addBlock
  | select {d : Draft} (h : Built d) (b : BlockId) : Built (d.select b)
  | setUnreachable {d : Draft} (h : Built d) (b : BlockId) : Built (d.setUnreachable b)
  | setOsrTarget {d : Draft} (h : Built d) (b : BlockId) : Built (d.setOsrTarget b)
  | addLiveAtHead {d : Draft} (h : Built d) (b : BlockId) (v : VarId) : Built (d.addLiveAtHead b v)
  | setOrigin {d : Draft} (h : Built d) (o : Origin) : Built (d.setOrigin o)
  | addNode {d : Draft} (h : Built d) (hid : d.nodes.size < UInt32.size) (op : Op)
    (children : List NodeId) (t u : TypeSet) : Built (d.addNode op children t u).2
  | addFlags {d : Draft} (h : Built d) (n : NodeId) (f : NodeFlags) : Built (d.addFlags n f)
  | setProven {d : Draft} (h : Built d) (n : NodeId) (t : TypeSet) : Built (d.setProven n t)
  | setUseKind {d d' : Draft} (h : Built d) (n : NodeId) (i : Nat) (kind : UseKind)
    (hk : d.setUseKind n i kind = .ok d') : Built d'

/-- Where nodes stand: in blocks, or in none. -/
def places (d : Draft) : List NodeId :=
  d.blocks.toList.flatMap (fun b => b.nodes.toList) ++ d.orphans.toList

structure Sane (d : Draft) : Prop where
  size : d.nodes.size ≤ UInt32.size
  nodup : d.places.Nodup
  bounded {n : NodeId} (h : n ∈ d.places) : n < d.nodes.size
  slotless {n : NodeId} {m : Node} (h : d.nodes[n]? = some m) : m.slot = none

lemma flatMap_nodes_modify (id : NodeId) (bs : List Block) (b : BlockId) :
    (bs.modify b fun x => { x with nodes := x.nodes.push id }).flatMap (fun x => x.nodes.toList) =
        bs.flatMap (fun x => x.nodes.toList) ∨
      ((bs.modify b fun x => { x with nodes := x.nodes.push id }).flatMap
        (fun x => x.nodes.toList)).Perm (id :: bs.flatMap fun x => x.nodes.toList) := by
  induction bs generalizing b with
  | nil => exact .inl (by simp)
  | cons x bs ih =>
    cases b with
    | zero =>
      right
      simp only [List.modify_zero_cons, List.flatMap_cons, Array.toList_push]
      rw [List.append_assoc]
      exact List.perm_middle
    | succ b =>
      simp only [List.modify_succ_cons, List.flatMap_cons]
      rcases ih b with h | h
      · exact .inl (by rw [h])
      · exact .inr ((h.append_left _).trans List.perm_middle)

lemma setUseKind_eq_ok {d d' : Draft} {n : NodeId} {i : Nat} {kind : UseKind}
    (h : d.setUseKind n i kind = .ok d') :
    d' = { (d.modifyNode n fun x =>
        { x with children := x.children.modify i fun e => { e with kind } }) with
      fixedEdges := (n, i) :: d.fixedEdges } := by
  obtain ⟨x, -, h⟩ := bind_eq_ok.mp h
  obtain ⟨e, -, h⟩ := bind_eq_ok.mp h
  cases h
  rfl

namespace Sane

variable {d d' : Draft}

/-- Nothing but what stands elsewhere changed. -/
lemma of_eq (h : d.Sane) (hn : d'.nodes = d.nodes) (hp : d'.places = d.places) : d'.Sane where
  size := hn ▸ h.size
  nodup := hp ▸ h.nodup
  bounded hm := by
    rw [hn]
    exact h.bounded (hp ▸ hm)
  slotless hm := h.slotless (hn ▸ hm)

lemma modifyBlock (h : d.Sane) {b : BlockId} {f : Block → Block} (hf : ∀ x, (f x).nodes = x.nodes) :
    (d.modifyBlock b f).Sane := by
  refine h.of_eq rfl ?_
  have hmap : ((d.blocks.modify b f).toList.map fun x => x.nodes.toList) =
      d.blocks.toList.map fun x => x.nodes.toList := by
    apply List.ext_getElem?
    intro i
    simp only [List.getElem?_map, Array.getElem?_toList, Array.getElem?_modify]
    split
    · rcases d.blocks[i]? with _ | x
      · rfl
      · simp [hf x]
    · rfl
  rw [places, places, List.flatMap_def, List.flatMap_def]
  exact congrArg (fun xs => xs.flatten ++ d.orphans.toList) hmap

lemma modifyNode (h : d.Sane) {n : NodeId} {f : Node → Node} (hf : ∀ x, (f x).slot = x.slot) :
    (d.modifyNode n f).Sane where
  size := by simpa [Draft.modifyNode] using h.size
  nodup := h.nodup
  bounded hm := by simpa [Draft.modifyNode] using h.bounded hm
  slotless {m x} hx := by
    simp only [Draft.modifyNode, Array.getElem?_modify] at hx
    split at hx
    · obtain ⟨y, hy, rfl⟩ := Option.map_eq_some_iff.mp hx
      rw [hf]
      exact h.slotless hy
    · exact h.slotless hx

/-- One more node stands in one place at most. -/
lemma addNode (h : d.Sane) (hid : d.nodes.size < UInt32.size) {op : Op} {children : List NodeId}
    {t u : TypeSet} : (d.addNode op children t u).2.Sane := by
  have hnodes : ∀ e : Draft, (∃ m : Node, m.slot = none ∧ e.nodes = d.nodes.push m) →
      (e.places = d.places ∨ e.places.Perm (d.nodes.size :: d.places)) → e.Sane := by
    rintro e ⟨m, hm, he⟩ hp
    have hmem : ∀ n ∈ e.places, n = d.nodes.size ∨ n ∈ d.places := by
      intro n hn
      rcases hp with hp | hp
      · exact .inr (hp ▸ hn)
      · exact List.mem_cons.mp (hp.mem_iff.mp hn)
    refine ⟨?_, ?_, fun {n} hn => ?_, fun {n x} hx => ?_⟩
    · rw [he, Array.size_push]
      exact hid
    · rcases hp with hp | hp
      · exact hp ▸ h.nodup
      · refine hp.nodup_iff.mpr (List.nodup_cons.mpr ⟨fun hn => ?_, h.nodup⟩)
        exact Nat.lt_irrefl _ (h.bounded hn)
    · rw [he, Array.size_push]
      rcases hmem n hn with rfl | hn
      · exact Nat.lt_succ_self _
      · exact Nat.lt_succ_of_lt (h.bounded hn)
    · rw [he, Array.getElem?_push] at hx
      split at hx
      · cases hx
        exact hm
      · exact h.slotless hx
  unfold Draft.addNode
  dsimp only
  split
  · rename_i b hb
    refine hnodes _ ⟨_, rfl, rfl⟩ ?_
    have hblocks := flatMap_nodes_modify d.nodes.size d.blocks.toList b
    rw [← Array.toList_modify] at hblocks
    rcases hblocks with hblocks | hblocks
    · exact .inl (congrArg (· ++ d.orphans.toList) hblocks)
    · exact .inr (hblocks.append_right d.orphans.toList)
  · refine hnodes _ ⟨_, rfl, rfl⟩ (.inr ?_)
    rw [places, places, Array.toList_push, ← List.append_assoc]
    exact List.perm_append_singleton _ _

end Sane

lemma Built.sane {d : Draft} (h : Built d) : d.Sane := by
  induction h with
  | new => exact ⟨Nat.zero_le _, List.nodup_nil, nofun, nofun⟩
  | addArgument h t f ih => exact ih.of_eq rfl rfl
  | addVariable h t f ih => exact ih.of_eq rfl rfl
  | identifier h name ih =>
    unfold Draft.identifier
    split
    · exact ih
    · exact ih.of_eq rfl rfl
  | addInlineFrame h callee caller ih => exact ih.of_eq rfl rfl
  | profile h b ih => exact ih.of_eq rfl rfl
  | addBlock h ih => exact ih.of_eq rfl (by simp [Draft.addBlock, places])
  | select h b ih => exact ih.of_eq rfl rfl
  | setUnreachable h b ih => exact ih.modifyBlock fun _ => rfl
  | setOsrTarget h b ih => exact ih.modifyBlock fun _ => rfl
  | addLiveAtHead h b v ih => exact ih.modifyBlock fun _ => rfl
  | setOrigin h o ih => exact ih.of_eq rfl rfl
  | addNode h hid op children t u ih => exact ih.addNode hid
  | addFlags h n f ih => exact ih.modifyNode fun _ => rfl
  | setProven h n t ih => exact ih.modifyNode fun _ => rfl
  | setUseKind h n i kind hk ih =>
    rw [setUseKind_eq_ok hk]
    have hmod := ih.modifyNode (n := n)
      (f := fun x => { x with children := x.children.modify i fun e => { e with kind } })
      fun _ => rfl
    exact hmod.of_eq rfl rfl

end Draft
end Speculation
