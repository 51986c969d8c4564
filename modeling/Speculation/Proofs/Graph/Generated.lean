import Speculation.Proofs.Graph.Uses

/-!
What is generated.

Blocks are counted one after the other, each from its end, and no block uses values of another. So
every count is that of the edges from nodes that make uses, and what is generated is what has to be
and whatever that goes back to.
-/

namespace Speculation

/-- The nodes that stand in blocks. Finished graphs have no others, unless nodes were added while a
block was selected that does not exist. -/
def Graph.standing (g : Graph) : List NodeId := g.blocks.toList.flatMap fun b => b.nodes.toList

namespace Draft

variable {d : Draft} {fixed : List Node} {g : Graph} {nodes : Array Node} {n m : NodeId} {x : Node}

/-! ### The order of counting -/

lemma Ordered.append {ns ms : List NodeId} (h : Ordered nodes ns) (h' : Ordered nodes ms)
    (hout : ∀ n ∈ ns, ∀ x, nodes[n]? = some x → ∀ e ∈ x.children.toList, e.node ∉ ms) :
    Ordered nodes (ns ++ ms) := by
  induction ns with
  | nil => exact h'
  | cons n ns ih =>
    obtain ⟨hn, h⟩ := h
    refine ⟨fun x hx e he hmem => ?_, ih h fun m hm => hout m (List.mem_cons_of_mem _ hm)⟩
    have hmem : e.node ∈ (n :: ns) ++ ms := hmem
    exact (List.mem_append.mp hmem).elim (hn x hx e he) (hout n List.mem_cons_self x hx e he)

/-- What uses a node comes after it. -/
lemma Ordered.mem_tail {pre post : List NodeId} (h : Ordered nodes (pre ++ m :: post))
    (hn : n ∈ pre ++ m :: post) (hx : nodes[n]? = some x) {e : Edge} (he : e ∈ x.children.toList)
    (hm : e.node = m) : n ∈ post := by
  induction pre with
  | nil =>
    rcases List.mem_cons.mp hn with rfl | hn
    · exact absurd (hm ▸ List.mem_cons_self) (h.1 x hx e he)
    · exact hn
  | cons k pre ih =>
    rcases List.mem_cons.mp hn with rfl | hn
    · exact absurd (by simp [hm]) (h.1 x hx e he)
    · exact ih h.2 hn

lemma child_mem_block {blk : Block} (h : d.InOrder blk) (hn : n ∈ blk.nodes.toList) :
    ∃ x, d.nodes[n]? = some x ∧ ∀ e ∈ x.children, e.node ∈ blk.nodes.toList := by
  obtain ⟨pre, post, hsplit⟩ := List.append_of_mem hn
  obtain ⟨x, hx, hpre⟩ := h pre n post hsplit
  exact ⟨x, hx, fun e he => hsplit ▸ List.mem_append_left _ (hpre e he)⟩

/-- Blocks may come in any order, as none has children in another. -/
lemma ordered_flatMap {bs : List Block} (ho : ∀ b ∈ bs, d.InOrder b)
    (hnodup : (bs.flatMap fun b => b.nodes.toList).Nodup)
    (hc : ∀ (n : NodeId) (x : Node), nodes[n]? = some x → ∃ y, d.nodes[n]? = some y ∧
      x.children.map Edge.node = y.children.map Edge.node) :
    Ordered nodes (bs.flatMap fun b => b.nodes.toList) := by
  induction bs with
  | nil => exact trivial
  | cons b bs ih =>
    obtain ⟨hb, hbs⟩ := List.forall_mem_cons.mp ho
    obtain ⟨hnb, hnbs, hdisjoint⟩ := List.nodup_append.mp hnodup
    refine (ordered_of_inOrder hb hnb hc).append (ih hbs hnbs) fun n hn x hx e he hmem => ?_
    obtain ⟨y, hy, hch⟩ := hc n x hx
    obtain ⟨y', hy', hin⟩ := child_mem_block hb hn
    rw [hy] at hy'
    cases hy'
    have hnode : e.node ∈ y.children.map Edge.node :=
      hch ▸ Array.mem_map.mpr ⟨e, Array.mem_toList_iff.mp he, rfl⟩
    obtain ⟨e', he', heq⟩ := Array.mem_map.mp hnode
    exact hdisjoint _ (hin e' he') _ hmem heq

lemma countRefs_eq (nodes : Array Node) (blocks : Array Block) : countRefs nodes blocks =
    (blocks.toList.reverse.flatMap fun b => b.nodes.toList).foldr (fun n A => countNode A n)
      (nodes.map resetRefs) := by
  rw [countRefs, ← Array.foldl_toList, List.foldr_flatMap, List.foldr_reverse]
  simp only [List.foldl_reverse]

/-! ### Finished graphs -/

lemma usesOf_finish (hfin : Finished d fixed g) (ms : List NodeId) (n : NodeId) :
    usesOf g.nodes ms n = usesOf (countRefs fixed.toArray d.blocks) ms n := by
  unfold usesOf
  congr 1
  refine List.map_congr_left fun k _ => ?_
  unfold usesBy
  rcases hx : g.nodes[k]? with _ | x
  · -- a node that was counted is in the graph
    rcases hz : (countRefs fixed.toArray d.blocks)[k]? with _ | z
    · rfl
    · have hc := countRefs_uncounted fixed.toArray d.blocks k
      rw [hz] at hc
      obtain ⟨f, hf, -⟩ := Option.map_eq_some_iff.mp hc.symm
      have hlt : k < fixed.length := by
        have := (Array.getElem?_eq_some_iff.mp hf).1
        simpa using this
      obtain ⟨y, hy⟩ := hfin.total (hfin.length ▸ hlt)
      rw [hx] at hy
      cases hy
  · obtain ⟨m, f, z, hs⟩ := hfin.node hx
    obtain ⟨-, -, -, -, hc, hr, hf, hop, -⟩ := hs.kept
    have hcounts : countsUses x = countsUses z := by
      simp only [countsUses, Node.shouldGenerate, hr, hf, hop]
    rw [hs.count]
    dsimp only
    rw [hcounts, hc]

lemma Finished.children (hfin : Finished d fixed g) (n : NodeId) (x : Node)
    (hx : g.nodes[n]? = some x) : ∃ y, d.nodes[n]? = some y ∧
      x.children.map Edge.node = y.children.map Edge.node := by
  obtain ⟨m, f, z, hst⟩ := hfin.node hx
  exact ⟨m, hst.draft, by rw [hst.kept.2.2.2.1, (fixNode_fixed hst.fix).children]⟩

lemma nodup_reverse (hs : d.Sane) :
    (d.blocks.toList.reverse.flatMap fun b => b.nodes.toList).Nodup :=
  ((List.reverse_perm d.blocks.toList).flatMap_right _).nodup_iff.mpr
    (List.nodup_append.mp hs.nodup).1

lemma ordered_finish (hs : d.Sane) (hv : d.validate = .ok ())
    (hc : ∀ (n : NodeId) (x : Node), nodes[n]? = some x → ∃ y, d.nodes[n]? = some y ∧
      x.children.map Edge.node = y.children.map Edge.node) :
    Ordered nodes (d.blocks.toList.reverse.flatMap fun b => b.nodes.toList) := by
  refine ordered_flatMap (fun blk hblk => ?_) (nodup_reverse hs) hc
  obtain ⟨b, hb⟩ := List.mem_iff_getElem?.mp (List.mem_reverse.mp hblk)
  exact (validateBlock_spec (validate_block hv (b := b) (by simpa using hb))).1

/-- In the end the count of a node is that of the edges from nodes that make uses. -/
lemma refCount_finish (hs : d.Sane) (hv : d.validate = .ok ()) (hfin : Finished d fixed g)
    (hx : g.nodes[n]? = some x) : x.refCount = usesOf g.nodes g.standing n := by
  obtain ⟨m, f, z, hst⟩ := hfin.node hx
  obtain ⟨-, -, -, -, -, hr, -⟩ := hst.kept
  have hreset : ∀ (n : NodeId) (x : Node), (fixed.toArray.map resetRefs)[n]? = some x →
      ∃ f, fixed[n]? = some f ∧ x = resetRefs f := by
    intro n x hx
    rw [Array.getElem?_map] at hx
    obtain ⟨f, hf, rfl⟩ := Option.map_eq_some_iff.mp hx
    exact ⟨f, by simpa using hf, rfl⟩
  have hord : Ordered (fixed.toArray.map resetRefs) _ := ordered_finish hs hv fun n x hx => by
    obtain ⟨f, hf, rfl⟩ := hreset n x hx
    have hlt : n < d.nodes.size := hfin.length ▸ (List.getElem?_eq_some_iff.mp hf).1
    obtain ⟨f', hf', hfix⟩ := hfin.fix (Array.getElem?_eq_getElem hlt)
    rw [hf] at hf'
    cases hf'
    exact ⟨_, Array.getElem?_eq_getElem hlt, (fixNode_fixed hfix).children⟩
  have hcount := (foldr_count (fun n x hx => by
    obtain ⟨f, -, rfl⟩ := hreset n x hx
    rfl) hord).2 n z
  rw [← countRefs_eq] at hcount
  have hperm := (List.reverse_perm d.blocks.toList).flatMap_right fun b => b.nodes.toList
  have hblocks : g.blocks = d.blocks := congrArg Graph.blocks hfin.graph
  rw [hr, hcount hst.count, ← usesOf_finish hfin, Graph.standing, hblocks]
  exact (hperm.map _).sum_eq

lemma slot_isSome (hs : d.Sane) (hfin : Finished d fixed g) (hx : g.nodes[n]? = some x)
    (hr : x.op.hasResult = true) (hg : x.shouldGenerate = true ∨ x.op.isConstant = true) :
    ∃ o, x.slot = some o := by
  obtain ⟨m, f, z, hst⟩ := hfin.node hx
  obtain ⟨-, -, -, -, -, hrc, hf, hop, -⟩ := hst.kept
  obtain ⟨-, z', hz', hslot⟩ := slot_finish hs hfin hx
  rw [hst.count] at hz'
  cases hz'
  have hneeds : needsSlot z = true := by
    have hgen : z.shouldGenerate = x.shouldGenerate := by
      simp only [Node.shouldGenerate, hrc, hf]
    rw [needsSlot, ← hop, hgen, hr]
    simpa using hg
  rw [if_pos hneeds] at hslot
  exact ⟨_, hslot⟩

/-! ### Nodes that have to be generated -/

/-- The node has an effect or was flagged, or is an operand of such a node, at some remove. Hints and
phis do not use their operands. -/
inductive Demanded (d : Draft) (g : Graph) : NodeId → Prop
  | root {n : NodeId} {m : Node} (hm : d.nodes[n]? = some m)
    (h : m.op.hasSideEffects = true ∨ m.flags.mustGenerate = true) : Demanded d g n
  | operand {n : NodeId} {x : Node} {e : Edge} (h : Demanded d g n) (hn : n ∈ g.standing)
    (hx : g.nodes[n]? = some x) (hint : ∀ v, x.op ≠ .movHint v) (phi : ∀ v, x.op ≠ .phi v)
    (he : e ∈ x.children) : Demanded d g e.node

lemma countsUses_iff : countsUses x = true ↔
    x.shouldGenerate = true ∧ (∀ v, x.op ≠ .movHint v) ∧ ∀ v, x.op ≠ .phi v := by
  rw [countsUses, Bool.and_eq_true]
  split <;> simp_all

lemma usesOf_pos {ms : List NodeId} : 0 < usesOf nodes ms n ↔
    ∃ m ∈ ms, ∃ x, nodes[m]? = some x ∧ countsUses x = true ∧ ∃ e ∈ x.children, e.node = n := by
  have hby : ∀ m, 0 < usesBy nodes m n ↔
      ∃ x, nodes[m]? = some x ∧ countsUses x = true ∧ ∃ e ∈ x.children, e.node = n := by
    intro m
    unfold usesBy
    rcases hx : nodes[m]? with _ | x
    · simp
    · by_cases hc : countsUses x = true
      · simp [hc]
      · simp [hc]
  rw [usesOf, List.sum_pos_iff_exists_pos_nat]
  simp [hby]

/-- A flag of a finished node says whether it was one of the draft or the node has an effect. -/
lemma mustGenerate_finish (hfin : Finished d fixed g) (hx : g.nodes[n]? = some x) :
    ∃ m, d.nodes[n]? = some m ∧ (x.flags.mustGenerate = true ↔
      m.op.hasSideEffects = true ∨ m.flags.mustGenerate = true) := by
  obtain ⟨m, f, z, hst⟩ := hfin.node hx
  obtain ⟨-, -, -, -, -, -, -, -, hflags, -⟩ := hst.kept
  have hf := (fixNode_fixed hst.fix).node
  refine ⟨m, hst.draft, ?_⟩
  rw [hflags, resetRefs, hf]
  cases h : m.op.hasSideEffects <;> simp [NodeFlags.union]

/-- A node is generated if it has to be or is used. -/
lemma shouldGenerate_finish (hs : d.Sane) (hv : d.validate = .ok ()) (hfin : Finished d fixed g)
    (hx : g.nodes[n]? = some x) : x.shouldGenerate = true ↔ (∃ m ∈ g.standing, ∃ y,
      g.nodes[m]? = some y ∧ countsUses y = true ∧ ∃ e ∈ y.children, e.node = n) ∨
      ∃ m, d.nodes[n]? = some m ∧ (m.op.hasSideEffects = true ∨ m.flags.mustGenerate = true) := by
  obtain ⟨m, hm, hflag⟩ := mustGenerate_finish hfin hx
  rw [Node.shouldGenerate, Bool.or_eq_true, hflag, decide_eq_true_iff,
    refCount_finish hs hv hfin hx, usesOf_pos]
  simp [hm]

/-- Nothing is generated that does not have to be: later nodes are settled before those that they
use. -/
lemma demanded_of_standing (hs : d.Sane) (hv : d.validate = .ok ()) (hfin : Finished d fixed g)
    (hn : n ∈ g.standing) (hx : g.nodes[n]? = some x) (hg : x.shouldGenerate = true) :
    Demanded d g n := by
  have hblocks : g.blocks = d.blocks := congrArg Graph.blocks hfin.graph
  have hmem : ∀ {n}, n ∈ g.standing ↔
      n ∈ d.blocks.toList.reverse.flatMap fun b => b.nodes.toList := by
    simp [Graph.standing, hblocks]
  have hord : Ordered g.nodes _ := ordered_finish hs hv hfin.children
  -- the users of a node come after it, and for those it is known
  have hsuffix : ∀ suf pre, (d.blocks.toList.reverse.flatMap fun b => b.nodes.toList) = pre ++ suf →
      ∀ n ∈ suf, ∀ x, g.nodes[n]? = some x → x.shouldGenerate = true → Demanded d g n := by
    intro suf
    induction suf with
    | nil => simp
    | cons m suf ih =>
      intro pre hsplit n hn x hx hg
      have ih := ih (pre ++ [m]) (by simpa using hsplit)
      rcases List.mem_cons.mp hn with rfl | hn
      · rcases (shouldGenerate_finish hs hv hfin hx).mp hg with
          ⟨k, hk, y, hy, hc, e, he, rfl⟩ | ⟨m, hm, hroot⟩
        · rw [hmem] at hk
          rw [hsplit] at hk hord
          obtain ⟨hgen, hint, phi⟩ := countsUses_iff.mp hc
          have hk' := hord.mem_tail hk hy (Array.mem_toList_iff.mpr he) rfl
          exact .operand (ih k hk' y hy hgen) (hmem.mpr (hsplit ▸ hk)) hy hint phi he
        · exact .root hm hroot
      · exact ih n hn x hx hg
  exact hsuffix _ [] rfl n (hmem.mp hn) x hx hg

/-- What stands in a block uses only what does. -/
lemma operand_standing (h : d.finish = .ok g) (hn : n ∈ g.standing) (hx : g.nodes[n]? = some x)
    {e : Edge} (he : e ∈ x.children) : e.node ∈ g.standing := by
  obtain ⟨blk, hblk, hn⟩ := List.mem_flatMap.mp hn
  obtain ⟨b, hb⟩ := List.mem_iff_getElem?.mp hblk
  have hmem := operand_mem_block h (b := b) (by simpa using hb) (Array.mem_toList_iff.mp hn) hx he
  exact List.mem_flatMap.mpr ⟨blk, hblk, Array.mem_toList_iff.mpr hmem⟩

lemma exists_of_standing (hs : d.Sane) (hfin : Finished d fixed g) (hn : n ∈ g.standing) :
    ∃ x, g.nodes[n]? = some x := by
  have hblocks : g.blocks = d.blocks := congrArg Graph.blocks hfin.graph
  refine hfin.total (hs.bounded (List.mem_append_left _ ?_))
  rwa [Graph.standing, hblocks] at hn

/-- A finished graph has for every node the number of edges to it from nodes that are generated and
are no hints and no phis; what is generated is what has to be and what such a node goes back to; and
the operands of such a node are generated and have slots. -/
theorem finish_counts (hd : Built d) (h : d.finish = .ok g) (hx : g.nodes[n]? = some x) :
    x.refCount = usesOf g.nodes g.standing n ∧
      (x.shouldGenerate = true ↔ Demanded d g n) ∧
      (n ∈ g.standing → x.shouldGenerate = true → (∀ v, x.op ≠ .movHint v) → (∀ v, x.op ≠ .phi v) →
        ∀ e ∈ x.children, ∃ y, g.nodes[e.node]? = some y ∧ y.shouldGenerate = true ∧
          (y.op.hasResult = true → ∃ o, y.slot = some o)) := by
  have hs := hd.sane
  obtain ⟨hv, fixed, hfin⟩ := finish_finished h
  have hiff := fun {n x} (hx : g.nodes[n]? = some x) => shouldGenerate_finish hs hv hfin hx
  have hoperand : ∀ {n x}, n ∈ g.standing → g.nodes[n]? = some x → x.shouldGenerate = true →
      (∀ v, x.op ≠ .movHint v) → (∀ v, x.op ≠ .phi v) → ∀ e ∈ x.children, ∀ y,
        g.nodes[e.node]? = some y → y.shouldGenerate = true := by
    intro n x hn hx hg hint phi e he y hy
    exact (hiff hy).mpr (.inl ⟨n, hn, x, hx, countsUses_iff.mpr ⟨hg, hint, phi⟩, e, he, rfl⟩)
  refine ⟨refCount_finish hs hv hfin hx, ⟨fun hg => ?_, fun hdem => ?_⟩,
    fun hn hg hint phi e he => ?_⟩
  · rcases (hiff hx).mp hg with ⟨m, hm, y, hy, hc, e, he, rfl⟩ | ⟨m, hm, hroot⟩
    · obtain ⟨hgen, hint, phi⟩ := countsUses_iff.mp hc
      exact .operand (demanded_of_standing hs hv hfin hm hy hgen) hm hy hint phi he
    · exact .root hm hroot
  · induction hdem generalizing x with
    | root hm hroot => exact (hiff hx).mpr (.inr ⟨_, hm, hroot⟩)
    | operand _ hn hy hint phi he ih => exact hoperand hn hy (ih hy) hint phi _ he x hx
  · obtain ⟨y, hy⟩ := exists_of_standing hs hfin (operand_standing h hn hx he)
    have hgen := hoperand hn hx hg hint phi e he y hy
    exact ⟨y, hy, hgen, fun hr => slot_isSome hs hfin hy hr (.inl hgen)⟩

/-- A constant that only a hint is about, and a sum of a local with itself that is returned. -/
def hinted : Draft :=
  let d := (({ name := "hinted", kind := .function } : Draft).addBlock.select 0)
  let d := (d.addVariable .int32 .value).2
  let d := (d.addNode (.constant (.ofInt32 5)) [] .int32).2
  let d := (d.addNode (.getLocal 0) [] .int32).2
  let d := (d.addNode .arithAdd [1, 1] .int32).2
  let d := (d.addNode (.movHint 0) [0] .empty).2
  (d.addNode .ret [2] .empty).2

theorem finish_counts_hinted : ∃ g x y, hinted.finish = .ok g ∧ g.nodes[0]? = some x ∧
    ¬Demanded hinted g 0 ∧ g.nodes[1]? = some y ∧ Demanded hinted g 1 ∧
      usesOf g.nodes g.standing 1 = 2 := by
  have hbuilt : Built hinted := by
    refine .addNode (.addNode (.addNode (.addNode (.addNode ?_ ?_ _ _ _ _) ?_ _ _ _ _) ?_ _ _ _ _)
      ?_ _ _ _ _) ?_ _ _ _ _
    · exact (Built.new "hinted" .function).addBlock.select 0 |>.addVariable .int32 .value
    all_goals decide
  have hnodes : hinted.finish.toOption.map (fun g =>
      (g.nodes[0]?.map Node.shouldGenerate, g.nodes[1]?.map fun y => (y.shouldGenerate, y.refCount))) =
      some (some false, some (true, 2)) := by
    decide +kernel
  rcases h : hinted.finish with f | g
  · rw [h] at hnodes
    cases hnodes
  · rw [h] at hnodes
    obtain ⟨hdead, hlive⟩ := Prod.mk.inj (Option.some.inj hnodes)
    obtain ⟨x, hx, hdead⟩ := Option.map_eq_some_iff.mp hdead
    obtain ⟨y, hy, hlive⟩ := Option.map_eq_some_iff.mp hlive
    obtain ⟨hlive, htwice⟩ := Prod.mk.inj hlive
    obtain ⟨hcount, hiff, -⟩ := finish_counts hbuilt h hy
    refine ⟨g, x, y, rfl, hx, fun hdem => ?_, hy, hiff.mp hlive, hcount ▸ htwice⟩
    rw [(finish_counts hbuilt h hx).2.1.mpr hdem] at hdead
    cases hdead

end Draft
end Speculation
