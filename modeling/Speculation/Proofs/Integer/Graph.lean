import Speculation.Exit
import Speculation.Proofs.Graph.Built
import Speculation.Proofs.Graph.Generated

/-!
Graphs of integer dataflow, and what they compute.

The graphs in question have one block of constants, loads of arguments, additions, subtractions and
bitwise operations on 32-bit integers, stores to locals and hints about them, and a return at the
end. `evaluate` gives every node its value in two's complement arithmetic, whatever its operands are;
`fault` says when a node's speculation fails, so that the value does not count.

`Flow` is what lowering such a graph relies on: which children, kinds and variables its nodes have,
that the count of uses of every value is the number of edges to it, and that every value has a slot
beyond those of the locals.
-/

/-! ### What a graph computes -/

namespace Speculation

namespace Value

def payload (v : Value) : Int32 := v.bits.toUInt32.toInt32

/-- The value is the box of an integer. -/
def IsInteger (v : Value) : Prop := v = .ofInt32 v.payload

/-- An integer has one box only. -/
def Canonical (v : Value) : Prop := v.isInt32 = true → v.IsInteger

end Value

namespace Integer

def bitwise (op : BitOp) (a b : Int32) : Int32 :=
  match op with
  | .and => a &&& b
  | .or => a ||| b
  | .xor => a ^^^ b
  | .lShift => a <<< (b &&& 31)
  | .rShift => a >>> (b &&& 31)
  | .uRShift => (a.toUInt32 >>> (b.toUInt32 &&& 31)).toInt32

def overflows (i : Int) : Bool := i < -2147483648 || 2147483647 < i

def arith (op : Op) (a b : Int32) : Option (Int32 × Bool) :=
  match op with
  | .arithAdd => some (a + b, overflows (a.toInt + b.toInt))
  | .arithSub => some (a - b, overflows (a.toInt - b.toInt))
  | .bit op => some (bitwise op a b, false)
  | _ => none

variable (g : Graph) (passed : List Value)

def operand (val : NodeId → Value) (x : Node) (i : Nat) : Value :=
  (x.children[i]?.map fun e => val e.node).getD .undefined

def argument (v : VarId) : Value :=
  ((g.vars[v]?.bind fun x => x.operand.argument?).bind fun i => passed[i]?).getD .undefined

def compute (val : NodeId → Value) (x : Node) : Value :=
  match x.op with
  | .constant v => v
  | .getLocal v => argument g passed v
  | op =>
    match arith op (operand val x 0).payload (operand val x 1).payload with
    | some (r, _) => .ofInt32 r
    | none => .undefined

def extend (val : NodeId → Value) (n : NodeId) : NodeId → Value := fun m =>
  if m = n then ((g.nodes[n]?.map (compute g passed val)).getD .undefined) else val m

def evaluate (nodes : List NodeId) : NodeId → Value :=
  nodes.foldl (extend g passed) fun _ => .undefined

def fault (val : NodeId → Value) (x : Node) : Option ExitKind :=
  match arith x.op (operand val x 0).payload (operand val x 1).payload with
  | none => none
  | some (_, overflowed) =>
    if !((operand val x 0).isInt32 && (operand val x 1).isInt32) then some .badType
    else if overflowed && !x.flags.canTruncate then some .overflow
    else none

def faultOf (val : NodeId → Value) (n : NodeId) : Option (NodeId × ExitKind) :=
  g.nodes[n]?.bind fun x => if x.shouldGenerate then (fault val x).map fun kind => (n, kind) else none

def firstFault (nodes : List NodeId) : Option (NodeId × ExitKind) :=
  nodes.findSome? (faultOf g (evaluate g passed nodes))

end Integer

namespace Draft

/-- A node of integer dataflow, as nodes are made unless something else is asked for. -/
structure IntegerNode (d : Draft) (x : Node) : Prop where
  /-- Operands are values. -/
  operands {e : Edge} (h : e ∈ x.children) :
    ∃ y, d.nodes[e.node]? = some y ∧ y.op.hasResult = true
  /-- Values are predicted to be integers. -/
  prediction (h : x.op.hasResult = true) : x.prediction.isA .int32 = true
  shape :
    match x.op with
    | .constant v => x.children = #[] ∧ v.IsInteger ∧ TypeSet.int32.subset x.proven = true
    | .getLocal v => x.children = #[] ∧ v ∈ d.arguments ∧ x.proven = .top
    | .arithAdd | .arithSub | .bit _ => x.children.size = 2 ∧ x.proven = .top
    | .setLocal v | .movHint v => x.children.size = 1 ∧ v ∉ d.arguments ∧
      ∃ y, d.vars[v]? = some y ∧ y.format = .value
    | .ret => x.children.size = 1
    | _ => False

/-- A draft of integer dataflow: one block, which ends in a return, with boxed arguments and the use
kinds that follow from the predictions. -/
structure Integer (d : Draft) (blk : Block) : Prop where
  built : d.Built
  kinds : d.fixedEdges = []
  blocks : d.blocks = #[blk]
  reachable : blk.reachable = true
  arguments {v : VarId} {x : Variable} (hv : v ∈ d.arguments) (hx : d.vars[v]? = some x) :
    x.format = .value
  /-- What is live at the head of the block are variables of the draft. -/
  live {v : VarId} (hv : v ∈ blk.liveAtHead) : v < d.vars.size
  node {n : NodeId} {x : Node} (hx : d.nodes[n]? = some x) : d.IntegerNode x
  last {n : NodeId} {x : Node} (hn : n ∈ blk.nodes) (hx : d.nodes[n]? = some x)
    (hr : x.op = .ret) : blk.nodes.back? = some n

end Draft
end Speculation

/-! ### Finished graphs -/

namespace Speculation

namespace Draft

structure Placed (d : Draft) : Prop where
  argument {k : Nat} {v : VarId} (h : d.arguments[k]? = some v) :
    ∃ x, d.vars[v]? = some x ∧ x.operand = .ofArgument k
  var {v : VarId} {x : Variable} (h : d.vars[v]? = some x) (hv : v ∉ d.arguments) :
    ∃ j, j < d.numVars ∧ x.operand = .ofLocal j

lemma Placed.of_eq {d d' : Draft} (h : d.Placed) (hv : d'.vars = d.vars)
    (ha : d'.arguments = d.arguments) (hn : d'.numVars = d.numVars) : d'.Placed := by
  refine ⟨fun {k v} hk => ?_, fun {v x} hx hnot => ?_⟩
  · rw [hv]
    exact h.argument (ha ▸ hk)
  · rw [hn]
    exact h.var (hv ▸ hx) (ha ▸ hnot)

lemma Built.placed {d : Draft} (h : Built d) : d.Placed := by
  induction h with
  | new => exact ⟨nofun, nofun⟩
  | @addArgument d h t f ih =>
    refine ⟨fun {k v} hk => ?_, fun {v x} hx hnot => ?_⟩
    · simp only [Draft.addArgument, Array.getElem?_push] at hk ⊢
      split at hk
      · rename_i hsize
        cases hk
        exact ⟨_, if_pos rfl, by rw [hsize]⟩
      · obtain ⟨x, hx, hop⟩ := ih.argument hk
        have hlt := (Array.getElem?_eq_some_iff.mp hx).1
        exact ⟨x, by rw [if_neg (Nat.ne_of_lt hlt), hx], hop⟩
    · simp only [Draft.addArgument, Array.getElem?_push, Array.mem_push, not_or] at hx hnot ⊢
      rw [if_neg hnot.2] at hx
      exact ih.var hx hnot.1
  | @addVariable d h t f ih =>
    refine ⟨fun {k v} hk => ?_, fun {v x} hx hnot => ?_⟩
    · obtain ⟨x, hx, hop⟩ := ih.argument hk
      have hlt := (Array.getElem?_eq_some_iff.mp hx).1
      refine ⟨x, ?_, hop⟩
      simp only [Draft.addVariable, Array.getElem?_push]
      rw [if_neg (Nat.ne_of_lt hlt), hx]
    · simp only [Draft.addVariable, Array.getElem?_push] at hx ⊢
      split at hx
      · have hx := Option.some.inj hx
        exact ⟨d.numVars, Nat.lt_succ_self _, by rw [← hx]⟩
      · obtain ⟨j, hj, hop⟩ := ih.var hx hnot
        exact ⟨j, Nat.lt_succ_of_lt hj, hop⟩
  | identifier h name ih =>
    unfold Draft.identifier
    split
    · exact ih
    · exact ih.of_eq rfl rfl rfl
  | addInlineFrame h callee caller ih => exact ih.of_eq rfl rfl rfl
  | profile h b ih => exact ih.of_eq rfl rfl rfl
  | addBlock h ih => exact ih.of_eq rfl rfl rfl
  | select h b ih => exact ih.of_eq rfl rfl rfl
  | setUnreachable h b ih => exact ih.of_eq rfl rfl rfl
  | setOsrTarget h b ih => exact ih.of_eq rfl rfl rfl
  | addLiveAtHead h b v ih => exact ih.of_eq rfl rfl rfl
  | setOrigin h o ih => exact ih.of_eq rfl rfl rfl
  | addNode h hid op children t u ih =>
    unfold Draft.addNode
    dsimp only
    split
    · exact ih.of_eq rfl rfl rfl
    · exact ih.of_eq rfl rfl rfl
  | addFlags h n f ih => exact ih.of_eq rfl rfl rfl
  | setProven h n t ih => exact ih.of_eq rfl rfl rfl
  | setUseKind h n i kind hk ih =>
    rw [setUseKind_eq_ok hk]
    exact ih.of_eq rfl rfl rfl

/-- Steps that each make one edge be of a kind make all edges that they are about be of it, and leave
the kinds of all others. -/
lemma foldlM_kind {kind : UseKind} {step : Node → Option UseKind × Nat → Except Breach Node}
    (hstep : ∀ n i n', step n (some kind, i) = .ok n' →
      n'.children = n.children.modify i fun e => { e with kind })
    {ks : List (Option UseKind × Nat)} {n n' : Node} (hks : ∀ p ∈ ks, p.1 = some kind)
    (h : ks.foldlM step n = .ok n') : n'.children.size = n.children.size ∧
      ∀ i e, n'.children[i]? = some e →
        i ∈ ks.map Prod.snd ∨ (∃ e, n.children[i]? = some e ∧ e.kind = kind) → e.kind = kind := by
  induction ks generalizing n with
  | nil =>
    cases h
    refine ⟨rfl, fun i e he hi => ?_⟩
    obtain hi | ⟨e', he', hkind⟩ := hi
    · cases hi
    · rw [he] at he'
      cases he'
      exact hkind
  | cons p ks ih =>
    obtain ⟨k, j⟩ := p
    obtain rfl : k = some kind := hks _ List.mem_cons_self
    rw [List.foldlM_cons] at h
    obtain ⟨n₁, h₁, h⟩ := bind_eq_ok.mp h
    have hn₁ := hstep n j n₁ h₁
    obtain ⟨hsize, hrest⟩ := ih (fun p hp => hks p (List.mem_cons_of_mem _ hp)) h
    rw [hn₁, Array.size_modify] at hsize
    refine ⟨hsize, fun i e he hi => hrest i e he ?_⟩
    rw [hn₁]
    -- the edge that was just fixed is of the kind, and no other has changed
    by_cases hij : j = i
    · right
      have hlt : i < n.children.size := by
        rw [← hsize]
        exact (Array.getElem?_eq_some_iff.mp he).1
      exact ⟨_, by rw [Array.getElem?_modify, if_pos hij, Array.getElem?_eq_getElem hlt]; rfl, rfl⟩
    · obtain hi | ⟨e', he', hkind⟩ := hi
      · rw [List.map_cons, List.mem_cons] at hi
        exact .inl (hi.resolve_left (Ne.symm hij))
      · exact .inr ⟨e', by rw [Array.getElem?_modify, if_neg hij, he'], hkind⟩

/-- All edges of a node are made to be of the kind that was chosen for all of them. -/
lemma fixNode_kind {d : Draft} {id : NodeId} {m f : Node} {kind : UseKind}
    (h : d.fixNode id m = .ok f) (hk : d.fixedEdges = [])
    (hkinds : d.chosenKinds m = .ok (m.children.toList.map fun _ => some kind)) :
    ∀ e ∈ f.children, e.kind = kind := by
  unfold fixNode at h
  rw [hkinds] at h
  obtain ⟨kinds, hkinds', h⟩ := bind_eq_ok.mp h
  cases hkinds'
  have hsome : ∀ p ∈ (m.children.toList.map fun _ => some kind).zipIdx, p.1 = some kind := by
    intro p hp
    obtain ⟨e, -, he⟩ := List.mem_map.mp (List.fst_mem_of_mem_zipIdx hp)
    exact he.symm
  obtain ⟨hsize, hall⟩ : f.children.size = m.children.size ∧ ∀ i e, f.children[i]? = some e →
      i ∈ (m.children.toList.map fun _ => some kind).zipIdx.map Prod.snd ∨
        (∃ e, m.children[i]? = some e ∧ e.kind = kind) → e.kind = kind := by
    refine foldlM_kind (fun n i n' hn => ?_) hsome h
    simp only [hk, List.contains_nil, Bool.false_eq_true, if_false] at hn
    obtain ⟨e, he, hn⟩ := bind_eq_ok.mp hn
    cases hn
    rfl
  intro e he
  obtain ⟨i, hi⟩ := Array.mem_iff_getElem?.mp he
  refine hall i e hi (.inl ?_)
  have hlt := (Array.getElem?_eq_some_iff.mp hi).1
  rw [hsize] at hlt
  rw [List.zipIdx_map_snd, List.mem_range'_1]
  simpa using hlt

end Draft

namespace Integer

structure Node (g : Graph) (x : Speculation.Node) : Prop where
  operands {e : Edge} (h : e ∈ x.children) :
    ∃ y, g.nodes[e.node]? = some y ∧ y.op.hasResult = true
  effects (h : x.op.hasResult = false) : x.shouldGenerate = true
  shape :
    match x.op with
    | .constant v => x.children = #[] ∧ v.IsInteger ∧ TypeSet.int32.subset x.proven = true
    | .getLocal v => x.children = #[] ∧ x.proven = .top ∧ ∃ k y, k < g.arguments.size ∧
      g.vars[v]? = some y ∧ y.operand = .ofArgument k ∧ y.format = .value
    | .arithAdd | .arithSub | .bit _ =>
      (∃ a b, x.children = #[a, b] ∧ a.kind = .int32 ∧ b.kind = .int32) ∧ x.proven = .top
    | .setLocal v => (∃ a, x.children = #[a] ∧ a.kind = .untyped) ∧ ∃ y j, g.vars[v]? = some y ∧
      y.format = .value ∧ y.operand = .ofLocal j ∧ j < g.numVars
    | .movHint v => (∃ a, x.children = #[a]) ∧ ∃ y j, g.vars[v]? = some y ∧
      y.format = .value ∧ y.operand = .ofLocal j ∧ j < g.numVars
    | .ret => ∃ a, x.children = #[a]
    | _ => False

structure Flow (g : Graph) (blk : Block) : Prop where
  formed : g.Formed
  blocks : g.blocks = #[blk]
  reachable : blk.reachable = true
  node {n : NodeId} (hn : n ∈ blk.nodes) : ∃ x, g.nodes[n]? = some x ∧ Node g x
  defined {pre post : List NodeId} {n : NodeId} {x : Speculation.Node} {e : Edge}
    (h : blk.nodes.toList = pre ++ n :: post) (hx : g.nodes[n]? = some x) (he : e ∈ x.children) :
    e.node ∈ pre
  uses {n : NodeId} {x : Speculation.Node} (hx : g.nodes[n]? = some x) :
    x.refCount = usesOf g.nodes blk.nodes.toList n
  slot {n : NodeId} {x : Speculation.Node} (hx : g.nodes[n]? = some x)
    (hr : x.op.hasResult = true) (hs : x.shouldGenerate = true ∨ x.op.isConstant = true) :
    ∃ o, x.slot = some o
  beyond {n : NodeId} {x : Speculation.Node} {o : Slot} (hx : g.nodes[n]? = some x)
    (ho : x.slot = some o) : ∃ i, o = .ofLocal i ∧ g.numVars ≤ i ∧ i < g.numLocals
  last : ∃ pre r x, blk.nodes.toList = pre ++ [r] ∧ g.nodes[r]? = some x ∧ x.op = .ret ∧
    ∀ n ∈ pre, ∀ y, g.nodes[n]? = some y → y.op ≠ .ret
  live {v : VarId} (hv : v ∈ blk.liveAtHead) : ∃ y, g.vars[v]? = some y
  noCalls {x : Speculation.Node} (hx : x ∈ g.nodes) : x.op ≠ .call
  /-- All arguments are passed boxed. -/
  arguments {k : Nat} {v : VarId} (h : g.arguments[k]? = some v) :
    ∃ y, g.vars[v]? = some y ∧ y.operand = .ofArgument k ∧ y.format = .value

end Integer

namespace Draft

variable {d : Draft} {blk : Block} {fixed : List Node} {g : Graph}

lemma numLocals_finish (hfin : Finished d fixed g) : g.numLocals =
    g.numVars + (countRefs fixed.toArray d.blocks).toList.countP needsSlot := by
  have hvars : g.numVars = d.numVars := congrArg Graph.numVars hfin.graph
  rw [hvars]
  exact (congrArg Graph.numLocals hfin.graph).trans (assignSlots_snd _ _ _)

lemma slot_beyond (hs : d.Sane) (hfin : Finished d fixed g) {n : NodeId} {x : Node} {o : Slot}
    (hx : g.nodes[n]? = some x) (ho : x.slot = some o) :
    ∃ i, o = .ofLocal i ∧ g.numVars ≤ i ∧ i < g.numLocals := by
  obtain ⟨-, z, hz, hslot⟩ := slot_finish hs hfin hx
  rw [ho] at hslot
  split at hslot
  · rename_i hneeds
    have hvars : g.numVars = d.numVars := congrArg Graph.numVars hfin.graph
    refine ⟨_, Option.some.inj hslot, by rw [hvars]; omega, ?_⟩
    rw [numLocals_finish hfin, hvars]
    have htake : ((countRefs fixed.toArray d.blocks).toList.take (n + 1)).countP needsSlot =
        ((countRefs fixed.toArray d.blocks).toList.take n).countP needsSlot + 1 := by
      rw [List.take_add_one, List.countP_append, Array.getElem?_toList, hz]
      simp [hneeds]
    have hle := (List.take_sublist (n + 1) (countRefs fixed.toArray d.blocks).toList).countP_le
      (p := needsSlot)
    rw [htake] at hle
    exact Nat.add_lt_add_left hle _
  · cases hslot

/-- What an operation on integers requires of its operands. -/
lemma chosenKinds_int32 {m : Node} (hp : m.prediction.isA .int32 = true)
    (hc : ∀ e ∈ m.children, (d.prediction e).isA .int32 = true)
    (hop : m.op = .arithAdd ∨ m.op = .arithSub ∨ ∃ op, m.op = .bit op) :
    d.chosenKinds m = .ok (m.children.toList.map fun _ => some .int32) := by
  have hall : (m.children.toList.all fun e => (d.prediction e).isA .int32) = true := by
    exact List.all_eq_true.mpr fun e he => hc e (Array.mem_toList_iff.mp he)
  rcases hop with hop | hop | ⟨op, hop⟩
  · simp only [chosenKinds, hop, hall, hp, Bool.true_or, Bool.and_self, if_true]
    rfl
  · simp only [chosenKinds, hop, hall, hp, Bool.true_or, Bool.and_self, if_true]
    rfl
  · simp only [chosenKinds, hop]
    rfl

lemma size_eq_one {α : Type} {xs : Array α} (h : xs.size = 1) : ∃ a, xs = #[a] := by
  refine ⟨xs[0], Array.ext (by simp [h]) fun i h₁ h₂ => ?_⟩
  have : i = 0 := by simp at h₂; omega
  subst this
  rfl

lemma size_eq_two {α : Type} {xs : Array α} (h : xs.size = 2) : ∃ a b, xs = #[a, b] := by
  refine ⟨xs[0], xs[1], Array.ext (by simp [h]) fun i h₁ h₂ => ?_⟩
  have : i = 0 ∨ i = 1 := by simp at h₂; omega
  rcases this with rfl | rfl <;> rfl

lemma children_eq_nil {a b : Node} (h : Fixed a b) (ha : a.children = #[]) : b.children = #[] := by
  have := h.children
  rw [ha] at this
  simpa using this

lemma Fixed.size {a b : Node} (h : Fixed a b) : b.children.size = a.children.size := by
  have := congrArg Array.size h.children
  simpa using this

/-- A finished draft of integer dataflow is what its lowering relies on. -/
theorem Integer.flow (h : d.Integer blk) (hg : d.finish = .ok g) : Integer.Flow g blk := by
  obtain ⟨hv, fixed, hfin⟩ := finish_finished hg
  have hs := h.built.sane
  have hplaced := h.built.placed
  have hblocks : g.blocks = d.blocks := congrArg Graph.blocks hfin.graph
  have hvars : g.vars = d.vars := congrArg Graph.vars hfin.graph
  have hargs : g.arguments = d.arguments := congrArg Graph.arguments hfin.graph
  have hnum : g.numVars = d.numVars := congrArg Graph.numVars hfin.graph
  have hblock : d.blocks[0]? = some blk := by rw [h.blocks]; rfl
  obtain ⟨hord, hend⟩ := validateBlock_spec (validate_block hv hblock)
  have hnodup : blk.nodes.toList.Nodup := nodup_block hs hblock
  have hmem : ∀ {n}, n ∈ blk.nodes → ∃ pre post, blk.nodes.toList = pre ++ n :: post := fun hn =>
    List.append_of_mem (Array.mem_toList_iff.mpr hn)
  have hstanding : g.standing = blk.nodes.toList := by simp [Graph.standing, hblocks, h.blocks]
  -- operands are predicted to be integers
  have hpred : ∀ {n : NodeId} {m : Node}, d.nodes[n]? = some m →
      ∀ e ∈ m.children, (d.prediction e).isA .int32 = true := by
    intro n m hm e he
    obtain ⟨y, hy, hr⟩ := (h.node hm).operands he
    have := (h.node hy).prediction hr
    simpa [Draft.prediction, hy] using this
  have hedge : ∀ {x f m : Node} {e : Edge}, x.children = f.children → Fixed m f → e ∈ x.children →
      ∃ e' ∈ m.children, e'.node = e.node := by
    intro x f m e hxf hfix he
    have he' : e.node ∈ m.children.map Edge.node := by
      rw [← hfix.children, ← hxf]
      exact Array.mem_map.mpr ⟨e, he, rfl⟩
    exact Array.mem_map.mp he'
  refine
    { formed := h.built.formed hg
      blocks := hblocks.trans h.blocks
      reachable := h.reachable
      node := fun {n} hn => ?_
      defined := fun {pre post n x e} hsplit hx he => ?_
      uses := fun hx => hstanding ▸ refCount_finish hs hv hfin hx
      slot := fun hx hr hs' => slot_isSome hs hfin hx hr hs'
      beyond := fun hx ho => slot_beyond hs hfin hx ho
      last := ?_
      live := fun {v} hv => ⟨_, Array.getElem?_eq_getElem (by rw [hvars]; exact h.live hv)⟩
      noCalls := fun {x} hx hop => ?_
      arguments := fun {k v} hk => ?_ }
  · obtain ⟨pre, post, hsplit⟩ := hmem hn
    obtain ⟨m, hm, -⟩ := hord pre n post hsplit
    obtain ⟨x, hx⟩ := hfin.total (Array.getElem?_eq_some_iff.mp hm).1
    obtain ⟨m', f, z, hst⟩ := hfin.node hx
    obtain ⟨hop, -, -, hc, -, -, -, -, hflags, hproven⟩ := hst.kept
    have hfix := fixNode_fixed hst.fix
    rw [hst.draft] at hm
    cases hm
    have hnode := h.node hst.draft
    refine ⟨x, hx, fun {e} he => ?_, fun hr => ?_, ?_⟩
    · obtain ⟨e', he', hee⟩ := hedge hc hfix he
      obtain ⟨y, hy, hyr⟩ := hnode.operands he'
      rw [hee] at hy
      obtain ⟨w, hw⟩ := hfin.total (Array.getElem?_eq_some_iff.mp hy).1
      obtain ⟨y', f', z', hst'⟩ := hfin.node hw
      rw [hst'.draft] at hy
      cases hy
      exact ⟨w, hw, by rw [hst'.kept.1, hyr]⟩
    · have hfop : f.op = m.op := by rw [hfix.node]
      have heff : f.op.hasSideEffects = true := by
        rw [hfop, ← hop]
        revert hr
        cases x.op <;> simp [Op.hasSideEffects, Op.hasResult]
      have : x.flags.mustGenerate = true := by
        rw [hflags, resetRefs, if_pos heff]
        simp [NodeFlags.union]
      simp [Node.shouldGenerate, this]
    · have hsame : ∀ {v : VarId}, (∀ y : Variable, d.vars[v]? = some y → y.format = .value) → m.op = .getLocal v →
          x.proven = m.proven := by
        intro v hv hm
        have hnone : (d.vars[v]?.bind fun y => y.format.proven?) = none := by
          rcases hy : d.vars[v]? with _ | y
          · rfl
          · simp [hv y hy, FlushFormat.proven?]
        rw [hproven]
        simp only [informed, hm, hnone]
      have hother : (∀ v, m.op ≠ .getLocal v) → x.proven = m.proven := by
        intro hne
        rw [hproven, informed]
        split
        · rename_i v hv
          exact absurd hv (hne v)
        · rfl
      have hint : m.children.size = 2 →
          (m.op = .arithAdd ∨ m.op = .arithSub ∨ ∃ op, m.op = .bit op) →
          m.op.hasResult = true →
          ∃ a b, x.children = #[a, b] ∧ a.kind = .int32 ∧ b.kind = .int32 := by
        intro hsize hops hr
        have hkind := fixNode_kind hst.fix h.kinds
          (chosenKinds_int32 (hnode.prediction hr) (hpred hst.draft) hops)
        obtain ⟨a, b, hab⟩ := size_eq_two (hfix.size.trans hsize)
        rw [hab] at hkind
        exact ⟨a, b, hc.trans hab, hkind a (by simp), hkind b (by simp)⟩
      have hone : m.children.size = 1 → ∃ a, x.children = #[a] := by
        intro hsize
        rw [hc]
        exact size_eq_one (hfix.size.trans hsize)
      have hvar : ∀ {v : VarId}, v ∉ d.arguments → (∃ y, d.vars[v]? = some y ∧ y.format = .value) →
          ∃ y j, g.vars[v]? = some y ∧ y.format = .value ∧ y.operand = .ofLocal j ∧ j < g.numVars := by
        rintro v hv ⟨y, hy, hyf⟩
        obtain ⟨j, hj, hyo⟩ := hplaced.var hy hv
        exact ⟨y, j, by rw [hvars, hy], hyf, hyo, by rw [hnum]; exact hj⟩
      have hshape := hnode.shape
      rw [hop]
      revert hshape
      cases hm : m.op
      case constant v =>
        rintro ⟨hnil, hv, ht⟩
        exact ⟨hc.trans (children_eq_nil hfix hnil), hv, by
          rw [hother fun v => by simp [hm]]; exact ht⟩
      case getLocal v =>
        rintro ⟨hnil, hv, ht⟩
        obtain ⟨k, hk⟩ := Array.mem_iff_getElem?.mp hv
        obtain ⟨y, hy, hyo⟩ := hplaced.argument hk
        refine ⟨hc.trans (children_eq_nil hfix hnil), ?_, k, y, ?_, by rw [hvars, hy], hyo,
          h.arguments hv hy⟩
        · rw [hsame (fun y hy => h.arguments hv hy) hm, ht]
        · rw [hargs]
          exact (Array.getElem?_eq_some_iff.mp hk).1
      case arithAdd =>
        rintro ⟨hsize, ht⟩
        exact ⟨hint hsize (.inl hm) (by rw [hm]; rfl), by
          rw [hother fun v => by simp [hm]]; exact ht⟩
      case arithSub =>
        rintro ⟨hsize, ht⟩
        exact ⟨hint hsize (.inr (.inl hm)) (by rw [hm]; rfl), by
          rw [hother fun v => by simp [hm]]; exact ht⟩
      case bit op =>
        rintro ⟨hsize, ht⟩
        exact ⟨hint hsize (.inr (.inr ⟨op, hm⟩)) (by rw [hm]; rfl), by
          rw [hother fun v => by simp [hm]]; exact ht⟩
      case setLocal v =>
        rintro ⟨hsize, hv, y, hy, hyf⟩
        have hchosen : d.chosenKinds m =
            .ok (m.children.toList.map fun _ => some UseKind.untyped) := by
          simp only [chosenKinds, hm, Breach.get, hy]
          show Except.ok (m.children.toList.map fun _ => some y.format.useKind) = _
          rw [hyf]
          rfl
        have hkind := fixNode_kind hst.fix h.kinds hchosen
        obtain ⟨a, ha⟩ := hone hsize
        rw [← hc, ha] at hkind
        exact ⟨⟨a, ha, hkind a (by simp)⟩, hvar hv ⟨y, hy, hyf⟩⟩
      case movHint v =>
        rintro ⟨hsize, hv, hy⟩
        exact ⟨hone hsize, hvar hv hy⟩
      case ret => exact hone
      all_goals exact False.elim
  · obtain ⟨m', f, z, hst⟩ := hfin.node hx
    obtain ⟨-, -, -, hc, -⟩ := hst.kept
    obtain ⟨m, hm, hpre⟩ := hord pre n post hsplit
    rw [hst.draft] at hm
    cases hm
    obtain ⟨e', he', hee⟩ := hedge hc (fixNode_fixed hst.fix) he
    exact hee ▸ hpre e' he'
  · obtain ⟨r, m, hr, hm, hterm⟩ := hend h.reachable
    have hsplit : blk.nodes.toList = blk.nodes.toList.dropLast ++ [r] := by
      rw [← Array.getLast?_toList] at hr
      exact (List.dropLast_append_getLast? r hr).symm
    have hrmem : r ∈ blk.nodes := by
      rw [← Array.mem_toList_iff, hsplit]
      simp
    have hret : m.op = .ret := by
      have hshape := (h.node hm).shape
      revert hshape hterm
      cases m.op <;> simp [Op.isTerminal]
    obtain ⟨x, hx⟩ := hfin.total (Array.getElem?_eq_some_iff.mp hm).1
    obtain ⟨m', f, z, hst⟩ := hfin.node hx
    rw [hst.draft] at hm
    cases hm
    refine ⟨_, r, x, hsplit, hx, by rw [hst.kept.1, hret], fun n hn y hy hop => ?_⟩
    obtain ⟨m₂, f₂, z₂, hst₂⟩ := hfin.node hy
    have hnmem : n ∈ blk.nodes := by
      rw [← Array.mem_toList_iff, hsplit]
      exact List.mem_append_left _ hn
    have hback := h.last hnmem hst₂.draft (by rw [← hst₂.kept.1, hop])
    rw [hr] at hback
    cases hback
    rw [hsplit] at hnodup
    exact (List.nodup_append.mp hnodup).2.2 _ hn _ List.mem_cons_self rfl
  · obtain ⟨n, hn⟩ := Array.mem_iff_getElem?.mp hx
    obtain ⟨m, f, z, hst⟩ := hfin.node hn
    have hshape := (h.node hst.draft).shape
    rw [← hst.kept.1, hop] at hshape
    exact hshape
  · rw [hargs] at hk
    obtain ⟨y, hy, hyo⟩ := hplaced.argument hk
    exact ⟨y, by rw [hvars, hy], hyo, h.arguments (Array.mem_of_getElem? hk) hy⟩

end Draft
end Speculation
