import Speculation.Proofs.Graph.Finish
import Mathlib.Algebra.BigOperators.Group.List.Basic
import Mathlib.Algebra.GroupWithZero.Nat
import Mathlib.Tactic.ByContra

/-!
Uses in a graph of one block.

Counting goes from the end of the block. The children of a node stand before it, so what it adds to
their counts changes neither its own count nor those of the nodes after it; in the end every count
is the number of edges from nodes that make uses.
-/

namespace Speculation

def usesBy (nodes : Array Node) (m n : NodeId) : Nat :=
  match nodes[m]? with
  | some x => if Draft.countsUses x then x.children.toList.countP fun e => e.node == n else 0
  | none => 0

def usesOf (nodes : Array Node) (ms : List NodeId) (n : NodeId) : Nat :=
  (ms.map fun m => usesBy nodes m n).sum

namespace Draft

lemma foldl_count_getElem? (es : List Edge) (nodes : Array Node) (n : NodeId) :
    (es.foldl (fun nodes e =>
      nodes.modify e.node fun c => { c with refCount := c.refCount + 1 }) nodes)[n]? =
    nodes[n]?.map fun c => { c with refCount := c.refCount + es.countP fun e => e.node == n } := by
  induction es generalizing nodes with
  | nil => simp
  | cons e es ih =>
    rw [List.foldl_cons, ih, Array.getElem?_modify, List.countP_cons]
    by_cases he : e.node = n
    · simp [he, Function.comp_def, Nat.add_assoc, Nat.add_comm 1]
    · simp [he]

/-- One node adds its uses. -/
lemma countNode_getElem? (nodes : Array Node) (id n : NodeId) :
    (countNode nodes id)[n]? =
      nodes[n]?.map fun c => { c with refCount := c.refCount + usesBy nodes id n } := by
  unfold countNode usesBy
  rcases nodes[id]? with _ | x
  · simp
  · dsimp only
    split
    · rw [← Array.foldl_toList, foldl_count_getElem?]
    · simp

/-- The nodes have no children among the nodes that do not come before them. -/
def Ordered (nodes : Array Node) : List NodeId → Prop
  | [] => True
  | n :: ns => (∀ x, nodes[n]? = some x → ∀ e ∈ x.children.toList, e.node ∉ n :: ns) ∧
    Ordered nodes ns

lemma usesBy_eq_zero {nodes : Array Node} {m n : NodeId}
    (h : ∀ x, nodes[m]? = some x → ∀ e ∈ x.children.toList, e.node ≠ n) : usesBy nodes m n = 0 := by
  unfold usesBy
  rcases hx : nodes[m]? with _ | x
  · rfl
  · dsimp only
    split
    · rw [List.countP_eq_zero]
      intro e he
      simpa using h x hx e he
    · rfl

lemma usesBy_congr {A B : Array Node} {m n : NodeId} (h : A[m]? = B[m]?) :
    usesBy A m n = usesBy B m n := by
  unfold usesBy
  rw [h]

lemma foldr_count {nodes : Array Node} 
    (h0 : ∀ (n : NodeId) (x : Node), nodes[n]? = some x → x.refCount = 0)
    {ns : List NodeId} (ho : Ordered nodes ns) :
    let A := ns.foldr (fun n A => countNode A n) nodes
    (∀ n : NodeId, A[n]?.map uncounted = nodes[n]?.map uncounted) ∧
      ∀ (n : NodeId) (x : Node), A[n]? = some x → x.refCount = usesOf A ns n := by
  induction ns with
  | nil => exact ⟨fun _ => rfl, fun n x hx => h0 n x hx⟩
  | cons m ns ih =>
    obtain ⟨hm, ho⟩ := ho
    obtain ⟨hkept, hcount⟩ := ih ho
    intro B
    let A := ns.foldr (fun n A => countNode A n) nodes
    have hB : B = countNode A m := rfl
    have hget := fun n => countNode_getElem? A m n
    -- the children of the node are not among the nodes that were counted
    have hzero : ∀ k ∈ m :: ns, usesBy A m k = 0 := by
      intro k hk
      refine usesBy_eq_zero fun x hx e he => ?_
      have hx' := hkept m
      rw [hx] at hx'
      obtain ⟨y, hy, hxy⟩ := Option.map_eq_some_iff.mp hx'.symm
      have hc : (uncounted y).children = (uncounted x).children := by rw [hxy]
      rintro rfl
      exact hm y hy e (hc.symm ▸ he) hk
    have hsame : ∀ k ∈ m :: ns, B[k]? = A[k]? := by
      intro k hk
      rw [hB, hget, hzero k hk]
      simp
    refine ⟨fun n => ?_, fun n x hx => ?_⟩
    · rw [hB, countNode_uncounted]
      exact hkept n
    · rw [hB, hget] at hx
      obtain ⟨c, hc, rfl⟩ := Option.map_eq_some_iff.mp hx
      have hns : usesOf B ns n = usesOf A ns n := by
        unfold usesOf
        congr 1
        refine List.map_congr_left fun k hk => usesBy_congr (hsame k (List.mem_cons_of_mem _ hk))
      show c.refCount + usesBy A m n = usesOf B (m :: ns) n
      rw [usesOf, List.map_cons, List.sum_cons, ← usesOf, hns, hcount n c hc,
        usesBy_congr (hsame m List.mem_cons_self), Nat.add_comm]

def InOrder (d : Draft) (blk : Block) : Prop :=
  ∀ pre n post, blk.nodes.toList = pre ++ n :: post →
    ∃ x, d.nodes[n]? = some x ∧ ∀ e ∈ x.children, e.node ∈ pre

lemma validateBlock_spec {d : Draft} {b : BlockId} {blk : Block}
    (h : d.validateBlock b blk = .ok ()) :
    d.InOrder blk ∧ (blk.reachable = true → ∃ id x, blk.nodes.back? = some id ∧
      d.nodes[id]? = some x ∧ x.op.isTerminal = true) := by
  unfold validateBlock at h
  obtain ⟨seen, hseen, h⟩ := bind_eq_ok.mp h
  refine ⟨?_, fun hr => ?_⟩
  · -- what is seen are the nodes so far
    rw [← Array.foldlM_toList] at hseen
    have hfold : ∀ (todo : List NodeId) (start seen : List NodeId),
        todo.foldlM (d.validateNode b) start = .ok seen →
        ∀ (pre : List NodeId) (n : NodeId) (post : List NodeId), todo = pre ++ n :: post →
          ∃ x : Node, d.nodes[n]? = some x ∧
            ∀ e ∈ x.children, e.node ∈ start ∨ e.node ∈ pre := by
      intro todo
      induction todo with
      | nil =>
        intro start seen _ pre n post hsplit
        simp at hsplit
      | cons id todo ih =>
        intro start seen hf pre n post hsplit
        rw [List.foldlM_cons] at hf
        obtain ⟨start', hid, hf⟩ := bind_eq_ok.mp hf
        obtain ⟨x, hx, hid⟩ := bind_eq_ok.mp hid
        have hx := Breach.get_eq_ok.mp (lift_eq_ok.mp hx)
        split at hid
        · cases hid
        · rename_i hnone
          cases hid
          have hall : ∀ e ∈ x.children, e.node ∈ start := by
            intro e he
            have := Array.find?_eq_none.mp hnone e he
            simpa using this
          rcases pre with _ | ⟨p, pre⟩
          · cases hsplit
            exact ⟨x, hx, fun e he => .inl (hall e he)⟩
          · cases hsplit
            obtain ⟨y, hy, hys⟩ := ih (id :: start) seen hf pre n post rfl
            refine ⟨y, hy, fun e he => ?_⟩
            rcases hys e he with h | h
            · rcases List.mem_cons.mp h with h | h
              · exact .inr (h ▸ List.mem_cons_self)
              · exact .inl h
            · exact .inr (List.mem_cons_of_mem _ h)
    intro pre n post hsplit
    obtain ⟨x, hx, hxs⟩ := hfold _ _ _ hseen pre n post hsplit
    exact ⟨x, hx, fun e he => (hxs e he).resolve_left (by simp)⟩
  · rcases hb : blk.nodes.back? with _ | id
    · simp [hr, hb] at h
    · rcases hx : d.nodes[id]? with _ | x
      · simp [hr, hb, hx] at h
      · refine ⟨id, x, rfl, hx, ?_⟩
        by_contra hne
        simp [hr, hb, hx, Bool.eq_false_iff.mpr hne] at h

/-- A loop of checks that passed passed for each item. -/
lemma forIn_check_eq_ok {ε α : Type} {f : α → Except ε Unit} {xs : List α} {u : PUnit}
    (h : (forIn xs PUnit.unit fun x _ => f x >>= fun _ => pure (.yield PUnit.unit)) = Except.ok u) :
    ∀ x ∈ xs, f x = .ok () := by
  induction xs with
  | nil => simp
  | cons y ys ih =>
    rw [List.forIn_cons, bind_assoc] at h
    obtain ⟨v, hv, h⟩ := bind_eq_ok.mp h
    exact List.forall_mem_cons.mpr ⟨hv, ih h⟩

lemma validate_block {d : Draft} {b : BlockId} {blk : Block} (h : d.validate = .ok ())
    (hb : d.blocks[b]? = some blk) : d.validateBlock b blk = .ok () := by
  have hne : d.blocks.isEmpty = false := by
    simpa using Nat.ne_of_gt (Nat.zero_lt_of_lt (Array.getElem?_eq_some_iff.mp hb).1)
  unfold validate at h
  simp only [hne, Bool.false_eq_true, if_false] at h
  split at h
  · cases h
  · obtain ⟨u, hu, -⟩ := bind_eq_ok.mp h
    refine forIn_check_eq_ok hu (blk, b) ?_
    exact List.mem_of_getElem? (i := b) (by simp [hb])

lemma ordered_of_inOrder {d : Draft} {blk : Block} (h : d.InOrder blk)
    (hnodup : blk.nodes.toList.Nodup) {nodes : Array Node}
    (hc : ∀ (n : NodeId) (x : Node), nodes[n]? = some x → ∃ y, d.nodes[n]? = some y ∧
      x.children.map Edge.node = y.children.map Edge.node) :
    Ordered nodes blk.nodes.toList := by
  have hsuffix : ∀ suf pre, blk.nodes.toList = pre ++ suf → Ordered nodes suf := by
    intro suf
    induction suf with
    | nil => exact fun _ _ => trivial
    | cons n suf ih =>
      intro pre hsplit
      refine ⟨fun x hx e he hmem => ?_, ih (pre ++ [n]) (by simpa using hsplit)⟩
      obtain ⟨y, hy, hch⟩ := hc n x hx
      obtain ⟨y', hy', hpre⟩ := h pre n suf hsplit
      rw [hy] at hy'
      cases hy'
      have hin : e.node ∈ y.children.map Edge.node := by
        rw [← hch]
        exact Array.mem_map.mpr ⟨e, Array.mem_toList_iff.mp he, rfl⟩
      obtain ⟨e', he', hnode⟩ := Array.mem_map.mp hin
      rw [hsplit] at hnodup
      exact (List.nodup_append.mp hnodup).2.2 _ (hpre e' he') _ (hnode ▸ hmem) rfl
  exact hsuffix _ [] rfl

lemma operand_mem_block {d : Draft} {g : Graph} (h : d.finish = .ok g) {b : BlockId} {blk : Block}
    {n : NodeId} {x : Node} {e : Edge} (hb : g.blocks[b]? = some blk) (hn : n ∈ blk.nodes)
    (hx : g.nodes[n]? = some x) (he : e ∈ x.children) : e.node ∈ blk.nodes := by
  obtain ⟨hv, fixed, hfin⟩ := finish_finished h
  have hblocks : g.blocks = d.blocks := congrArg Graph.blocks hfin.graph
  obtain ⟨pre, post, hsplit⟩ := List.append_of_mem (Array.mem_toList_iff.mpr hn)
  obtain ⟨y, hy, hpre⟩ := (validateBlock_spec (validate_block hv (hblocks ▸ hb))).1 pre n post hsplit
  obtain ⟨m, f, z, hst⟩ := hfin.node hx
  rw [hst.draft] at hy
  cases hy
  have hchildren : x.children.map Edge.node = y.children.map Edge.node := by
    rw [hst.kept.2.2.2.1, (fixNode_fixed hst.fix).children]
  obtain ⟨e', he', hnode⟩ := Array.mem_map.mp (hchildren ▸ Array.mem_map.mpr ⟨e, he, rfl⟩)
  rw [← Array.mem_toList_iff, hsplit, ← hnode]
  exact List.mem_append_left _ (hpre e' he')

end Draft
end Speculation
