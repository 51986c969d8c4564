import Speculation.Proofs.Graph.Built
import Mathlib.Data.List.Count

/-!
Finished graphs.

Finishing a draft keeps its blocks and, of each node, everything but the kinds of its edges, its
uses, its slot and what is noted for its guards. Slots are handed out in the order of the nodes, so
no two values get the same one.
-/

namespace Speculation

namespace Slot

lemma signed_inj {i j : Nat} (h : signed i = signed j) (hij : i ≤ j) (hj : j - i < UInt32.size) :
    i = j := by
  unfold UInt32.size at hj
  unfold signed at h
  rw [Int.bmod_def, Int.bmod_def] at h
  split at h <;> split at h <;> omega

lemma ofLocal_inj {i j : Nat} (h : ofLocal i = ofLocal j) (hij : i ≤ j) (hj : j - i < UInt32.size) :
    i = j := by
  refine signed_inj ?_ hij hj
  have := congrArg Slot.index h
  simp only [ofLocal] at this
  omega

end Slot

namespace Draft

lemma foldlM_keeps {ε α β : Type} {P : β → Prop} {f : β → α → Except ε β} {xs : List α} {b b' : β}
    (hf : ∀ a ∈ xs, ∀ b b', f b a = .ok b' → P b → P b') (h : xs.foldlM f b = .ok b') (hb : P b) :
    P b' := by
  induction xs generalizing b with
  | nil =>
    cases h
    exact hb
  | cons a xs ih =>
    rw [List.foldlM_cons] at h
    rcases ha : f b a with e | c
    · rw [ha] at h
      cases h
    · rw [ha] at h
      have hxs : ∀ a ∈ xs, ∀ b b', f b a = .ok b' → P b → P b' :=
        fun a h => hf a (List.mem_cons_of_mem _ h)
      exact ih hxs h (hf a List.mem_cons_self b c ha hb)

/-- The stages of finishing a draft. -/
lemma finish_eq_ok {d : Draft} {g : Graph} (h : d.finish = .ok g) :
    d.validate = .ok () ∧ ∃ fixed : List Node,
      (d.nodes.toList.zipIdx.mapM fun (n, id) => d.fixNode id n) = .ok fixed ∧
      annotateForwards (d.slotted (countRefs fixed.toArray d.blocks)) = .ok g := by
  unfold finish at h
  obtain ⟨u, hv, h⟩ := bind_eq_ok.mp h
  obtain ⟨fixed, hf, h⟩ := bind_eq_ok.mp h
  exact ⟨hv, fixed, lift_eq_ok.mp hf, lift_eq_ok.mp h⟩

lemma finish_of_fixed {d : Draft} {fixed : List Node} (hv : d.validate = .ok ())
    (hf : (d.nodes.toList.zipIdx.mapM fun (n, id) => d.fixNode id n) = .ok fixed) :
    d.finish = Breach.lift (annotateForwards (d.slotted (countRefs fixed.toArray d.blocks))) := by
  rw [finish, hv, hf]
  rfl

/-- A node apart from what is noted for its guards. -/
def bare (n : Node) : Node := { n with forwardTarget := none }

structure Noted (g g' : Graph) : Prop where
  graph : g' = { g with nodes := g'.nodes }
  nodes (n : NodeId) : g'.nodes[n]?.map bare = g.nodes[n]?.map bare

lemma annotateForward_noted {g g₁ g₂ : Graph} {b : BlockId} {pos : Nat} {id : NodeId}
    (h : annotateForward g₁ b pos id = .ok g₂) (hg : Noted g g₁) : Noted g g₂ := by
  unfold annotateForward at h
  obtain ⟨x, -, h⟩ := bind_eq_ok.mp h
  split at h
  iterate 2
    obtain ⟨store, -, h⟩ := bind_eq_ok.mp h
    split at h
    · cases h
      exact hg
    · obtain ⟨blk, -, h⟩ := bind_eq_ok.mp h
      obtain ⟨target, -, h⟩ := bind_eq_ok.mp h
      cases h
      refine ⟨by rw [hg.graph], fun n => ?_⟩
      rw [← hg.nodes n, Array.getElem?_modify]
      split
      · rw [Option.map_map]
        rfl
      · rfl
  · cases h
    exact hg

lemma annotateForwards_noted {g g' : Graph} (h : annotateForwards g = .ok g') : Noted g g' :=
  foldlM_keeps (P := Noted g)
    (fun _ _ _ _ hb => foldlM_keeps (P := Noted g) (fun _ _ _ _ hn => annotateForward_noted hn) hb)
    h ⟨rfl, fun _ => rfl⟩

lemma Noted.size {g g' : Graph} (h : Noted g g') : g'.nodes.size = g.nodes.size := by
  have hle : ∀ m, g'.nodes.size ≤ m ↔ g.nodes.size ≤ m := by
    intro m
    have hn := h.nodes m
    rw [← Array.getElem?_eq_none_iff, ← Array.getElem?_eq_none_iff,
      ← Option.map_eq_none_iff (f := bare), hn, Option.map_eq_none_iff]
  exact Nat.le_antisymm ((hle _).mpr (Nat.le_refl _)) ((hle _).mp (Nat.le_refl _))

@[simp]
lemma needsSlot_informed (vars : Array Variable) (n : Node) :
    needsSlot (informed vars n) = needsSlot n := by
  unfold informed
  split
  · split <;> rfl
  · rfl

@[simp]
lemma slot_informed (vars : Array Variable) (n : Node) : (informed vars n).slot = n.slot := by
  unfold informed
  split
  · split <;> rfl
  · rfl

/-- Only what is proven of a load may change. -/
lemma informed_eq (vars : Array Variable) (n : Node) :
    informed vars n = { n with proven := (informed vars n).proven } := by
  unfold informed
  split
  · split <;> rfl
  · rfl

def withSlot (vars : Array Variable) (next : Nat) (n : Node) : Node :=
  if needsSlot n then { informed vars n with slot := some (.ofLocal next) } else informed vars n

lemma foldl_withSlot (vars : Array Variable) (xs : List Node) (done : Array Node) (next i : Nat) :
    (xs.foldl (fun (done, next) n =>
      let n := informed vars n
      if needsSlot n then (done.push { n with slot := some (.ofLocal next) }, next + 1)
      else (done.push n, next)) (done, next)).1[i]? =
    if i < done.size then done[i]?
    else xs[i - done.size]?.map
      (withSlot vars (next + (xs.take (i - done.size)).countP needsSlot)) := by
  induction xs generalizing done next with
  | nil =>
    by_cases hi : i < done.size
    · simp [hi]
    · simp [hi]
  | cons x xs ih =>
    have hstep : (if needsSlot (informed vars x) then
          (done.push { informed vars x with slot := some (.ofLocal next) }, next + 1)
        else (done.push (informed vars x), next)) =
        (done.push (withSlot vars next x), next + if needsSlot x then 1 else 0) := by
      rw [needsSlot_informed, withSlot]
      split <;> rfl
    rw [List.foldl_cons]
    dsimp only
    rw [hstep, ih, Array.size_push, Array.getElem?_push]
    rcases Nat.lt_trichotomy i done.size with hi | rfl | hi
    · simp [hi, Nat.lt_succ_of_lt hi, Nat.ne_of_lt hi]
    · simp
    · obtain ⟨k, rfl⟩ : ∃ k, i = done.size + 1 + k := ⟨i - (done.size + 1), by omega⟩
      have h₁ : ¬done.size + 1 + k < done.size + 1 := by omega
      have h₂ : ¬done.size + 1 + k < done.size := by omega
      have h₃ : done.size + 1 + k - (done.size + 1) = k := by omega
      have h₄ : done.size + 1 + k - done.size = k + 1 := by omega
      rw [if_neg h₁, if_neg h₂, h₃, h₄, List.getElem?_cons_succ, List.take_succ_cons,
        List.countP_cons]
      congr 2
      omega

lemma assignSlots_getElem? (vars : Array Variable) (nodes : Array Node) (next i : Nat) :
    (assignSlots vars nodes next).1[i]? =
      nodes[i]?.map (withSlot vars (next + (nodes.toList.take i).countP needsSlot)) := by
  unfold assignSlots
  rw [← Array.foldl_toList, foldl_withSlot]
  simp

lemma assignSlots_snd (vars : Array Variable) (nodes : Array Node) (next : Nat) :
    (assignSlots vars nodes next).2 = next + nodes.toList.countP needsSlot := by
  unfold assignSlots
  rw [← Array.foldl_toList]
  generalize (#[] : Array Node) = done
  induction nodes.toList generalizing done next with
  | nil => rfl
  | cons x xs ih =>
    rw [List.foldl_cons, List.countP_cons]
    dsimp only
    rw [needsSlot_informed]
    split
    · rw [ih]
      omega
    · rw [ih]
      omega

def uncounted (n : Node) : Node := { n with refCount := 0 }

lemma countNode_uncounted (nodes : Array Node) (id n : NodeId) :
    (countNode nodes id)[n]?.map uncounted = nodes[n]?.map uncounted := by
  unfold countNode
  split
  · rfl
  · split
    · rename_i x hx hc
      rw [← Array.foldl_toList]
      clear hx hc
      induction x.children.toList generalizing nodes with
      | nil => rfl
      | cons e es ih =>
        rw [List.foldl_cons, ih, Array.getElem?_modify]
        split
        · rw [Option.map_map]
          rfl
        · rfl
    · rfl

lemma foldl_countNode_uncounted (ids : List NodeId) (nodes : Array Node) (n : NodeId) :
    (ids.foldl countNode nodes)[n]?.map uncounted = nodes[n]?.map uncounted := by
  induction ids generalizing nodes with
  | nil => rfl
  | cons id ids ih => rw [List.foldl_cons, ih, countNode_uncounted]

lemma countRefs_uncounted (nodes : Array Node) (blocks : Array Block) (n : NodeId) :
    (countRefs nodes blocks)[n]?.map uncounted = nodes[n]?.map resetRefs := by
  unfold countRefs
  have hreset : nodes[n]?.map resetRefs = (nodes.map resetRefs)[n]?.map uncounted := by
    rw [Array.getElem?_map, Option.map_map]
    rfl
  rw [← Array.foldl_toList, hreset]
  generalize nodes.map resetRefs = nodes
  induction blocks.toList generalizing nodes with
  | nil => rfl
  | cons b bs ih => rw [List.foldl_cons, ih, foldl_countNode_uncounted]

structure Fixed (a b : Node) : Prop where
  node : b = { a with children := b.children }
  children : b.children.map Edge.node = a.children.map Edge.node

lemma fixNode_fixed {d : Draft} {id : NodeId} {n n' : Node} (h : d.fixNode id n = .ok n') :
    Fixed n n' := by
  obtain ⟨kinds, -, h⟩ := bind_eq_ok.mp h
  refine foldlM_keeps (P := Fixed n) (fun k _ b b' hb hf => ?_) h ⟨rfl, rfl⟩
  rcases k with ⟨_ | kind, i⟩
  · cases hb
    exact hf
  · dsimp only at hb
    split at hb
    · cases hb
      exact hf
    · obtain ⟨e, -, hb⟩ := bind_eq_ok.mp hb
      cases hb
      refine ⟨by rw [hf.node], ?_⟩
      rw [← hf.children]
      apply Array.ext_getElem?
      intro j
      rw [Array.getElem?_map, Array.getElem?_map, Array.getElem?_modify]
      split
      · rw [Option.map_map]
        rfl
      · rfl

lemma mapM_zipIdx_getElem? {ε α β : Type} {f : α × Nat → Except ε β} {xs : List α} {ys : List β}
    {k : Nat} (h : (xs.zipIdx k).mapM f = .ok ys) :
    ys.length = xs.length ∧
      ∀ {i : Nat} {x : α}, xs[i]? = some x → ∃ y, ys[i]? = some y ∧ f (x, k + i) = .ok y := by
  induction xs generalizing k ys with
  | nil =>
    cases h
    exact ⟨rfl, nofun⟩
  | cons x xs ih =>
    rw [List.zipIdx_cons, List.mapM_cons] at h
    obtain ⟨y, hy, h⟩ := bind_eq_ok.mp h
    obtain ⟨ys', hys, h⟩ := bind_eq_ok.mp h
    cases h
    obtain ⟨hlen, hget⟩ := ih hys
    refine ⟨by rw [List.length_cons, List.length_cons, hlen], fun {i z} hz => ?_⟩
    cases i with
    | zero =>
      cases hz
      exact ⟨y, rfl, hy⟩
    | succ i =>
      obtain ⟨w, hw, hf⟩ := hget hz
      exact ⟨w, hw, by rw [← hf, Nat.add_right_comm]; rfl⟩

/-- A node of a finished graph, through the stages that made it. -/
structure Stages (d : Draft) (counted : Array Node) (n : NodeId) (x : Node) (m f z : Node) :
    Prop where
  draft : d.nodes[n]? = some m
  fix : d.fixNode n m = .ok f
  count : counted[n]? = some z
  reset : uncounted z = resetRefs f
  slotted : bare x =
    bare (withSlot d.vars (d.numVars + (counted.toList.take n).countP needsSlot) z)

lemma fixed_getElem? {d : Draft} {fixed : List Node}
    (h : (d.nodes.toList.zipIdx.mapM fun (n, id) => d.fixNode id n) = .ok fixed) :
    fixed.length = d.nodes.size ∧ ∀ {n : NodeId} {m : Node}, d.nodes[n]? = some m →
      ∃ f, fixed[n]? = some f ∧ d.fixNode n m = .ok f := by
  obtain ⟨hlen, hmap⟩ := mapM_zipIdx_getElem? h
  refine ⟨hlen.trans Array.length_toList, fun {n m} hm => ?_⟩
  obtain ⟨f, hf, hfix⟩ := hmap (by simpa using hm)
  exact ⟨f, hf, by simpa using hfix⟩

/-- Every node that gets its slot has come through the stages. -/
lemma stages_slotted {d : Draft} {fixed : List Node} {n : NodeId} {y : Node}
    (h : (d.nodes.toList.zipIdx.mapM fun (n, id) => d.fixNode id n) = .ok fixed)
    (hy : (d.slotted (countRefs fixed.toArray d.blocks)).nodes[n]? = some y) :
    ∃ m f z, Stages d (countRefs fixed.toArray d.blocks) n y m f z := by
  obtain ⟨hlen, hfixed⟩ := fixed_getElem? h
  have hget := assignSlots_getElem? d.vars (countRefs fixed.toArray d.blocks) d.numVars n
  obtain ⟨z, hz, rfl⟩ := Option.map_eq_some_iff.mp (hget.symm.trans hy)
  have hzn := countRefs_uncounted fixed.toArray d.blocks n
  rw [hz, List.getElem?_toArray] at hzn
  obtain ⟨f, hf, hzf⟩ := Option.map_eq_some_iff.mp hzn.symm
  have hlt : n < d.nodes.size := hlen ▸ (List.getElem?_eq_some_iff.mp hf).1
  have hm : d.nodes[n]? = some d.nodes[n] := Array.getElem?_eq_getElem hlt
  obtain ⟨f', hf', hfix'⟩ := hfixed hm
  rw [hf] at hf'
  cases hf'
  exact ⟨_, f, z, hm, hfix', hz, hzf.symm, rfl⟩

structure Finished (d : Draft) (fixed : List Node) (g : Graph) : Prop where
  length : fixed.length = d.nodes.size
  fix {n : NodeId} {m : Node} (h : d.nodes[n]? = some m) :
    ∃ f, fixed[n]? = some f ∧ d.fixNode n m = .ok f
  graph : g = { d.slotted (countRefs fixed.toArray d.blocks) with nodes := g.nodes }
  node {n : NodeId} {x : Node} (h : g.nodes[n]? = some x) :
    ∃ m f z, Stages d (countRefs fixed.toArray d.blocks) n x m f z
  total {n : NodeId} (h : n < d.nodes.size) : ∃ x, g.nodes[n]? = some x

lemma size_slotted {d : Draft} {fixed : List Node}
    (h : (d.nodes.toList.zipIdx.mapM fun (n, id) => d.fixNode id n) = .ok fixed) :
    (d.slotted (countRefs fixed.toArray d.blocks)).nodes.size = d.nodes.size := by
  obtain ⟨hlen, -⟩ := fixed_getElem? h
  have hle : ∀ n, (d.slotted (countRefs fixed.toArray d.blocks)).nodes.size ≤ n ↔
      d.nodes.size ≤ n := by
    intro n
    have hget := assignSlots_getElem? d.vars (countRefs fixed.toArray d.blocks) d.numVars n
    have hcount := countRefs_uncounted fixed.toArray d.blocks n
    rw [← Array.getElem?_eq_none_iff, slotted, hget, Option.map_eq_none_iff,
      ← Option.map_eq_none_iff (f := uncounted), hcount, Option.map_eq_none_iff,
      List.getElem?_toArray, List.getElem?_eq_none_iff, hlen]
  exact Nat.le_antisymm ((hle _).mpr (Nat.le_refl _)) ((hle _).mp (Nat.le_refl _))

lemma finish_finished {d : Draft} {g : Graph} (h : d.finish = .ok g) :
    d.validate = .ok () ∧ ∃ fixed, Finished d fixed g := by
  obtain ⟨hv, fixed, hfix, hnote⟩ := finish_eq_ok h
  have hn := annotateForwards_noted hnote
  obtain ⟨hlen, hfixed⟩ := fixed_getElem? hfix
  refine ⟨hv, fixed, hlen, hfixed, hn.graph, fun {n x} hx => ?_, fun {n} hlt => ?_⟩
  · have hslot := hn.nodes n
    rw [hx] at hslot
    obtain ⟨y, hy, hxy⟩ := Option.map_eq_some_iff.mp hslot.symm
    obtain ⟨m, f, z, hs⟩ := stages_slotted hfix hy
    exact ⟨m, f, z, hs.draft, hs.fix, hs.count, hs.reset, hxy.symm.trans hs.slotted⟩
  · have hlt' : n < g.nodes.size := by rw [hn.size, size_slotted hfix]; exact hlt
    exact ⟨_, Array.getElem?_eq_getElem hlt'⟩

/-- What a node has from the stages that made it. -/
lemma Stages.kept {d : Draft} {counted : Array Node} {n : NodeId} {x m f z : Node}
    (h : Stages d counted n x m f z) :
    x.op = m.op ∧ x.prediction = m.prediction ∧ x.origin = m.origin ∧ x.children = f.children ∧
      x.children = z.children ∧ x.refCount = z.refCount ∧ x.flags = z.flags ∧ x.op = z.op ∧
      x.flags = (resetRefs f).flags ∧ x.proven = (informed d.vars m).proven := by
  have hs : ∀ {α : Type} (p : Node → α), (∀ y, p (bare y) = p y) →
      (∀ y o, p { y with slot := o } = p y) → p x = p (informed d.vars z) := by
    intro α p hbare hslot
    rw [← hbare x, h.slotted, hbare, withSlot]
    split
    · rw [hslot]
    · rfl
  have hz : ∀ {α : Type} (p : Node → α), (∀ y, p (uncounted y) = p y) → p z = p (resetRefs f) := by
    intro α p hp
    rw [← hp z, h.reset]
  have hi : ∀ {α : Type} (p : Node → α), (∀ y t, p { y with proven := t } = p y) →
      p (informed d.vars z) = p z := by
    intro α p hp
    rw [informed_eq, hp]
  have hf := (fixNode_fixed h.fix).node
  have hop : x.op = z.op := (hs Node.op (fun _ => rfl) fun _ _ => rfl).trans
    (hi Node.op fun _ _ => rfl)
  have hzop : z.op = m.op := by
    rw [hz Node.op fun _ => rfl, resetRefs, hf]
  have hchildren : x.children = z.children := (hs Node.children (fun _ => rfl) fun _ _ => rfl).trans
    (hi Node.children fun _ _ => rfl)
  have hflags : x.flags = z.flags := (hs Node.flags (fun _ => rfl) fun _ _ => rfl).trans
    (hi Node.flags fun _ _ => rfl)
  refine ⟨hop.trans hzop, ?_, ?_, hchildren.trans (hz Node.children fun _ => rfl), hchildren, ?_,
    hflags, hop, hflags.trans (hz Node.flags fun _ => rfl), ?_⟩
  · rw [hs Node.prediction (fun _ => rfl) fun _ _ => rfl, hi Node.prediction fun _ _ => rfl,
      hz Node.prediction fun _ => rfl, resetRefs, hf]
  · rw [hs Node.origin (fun _ => rfl) fun _ _ => rfl, hi Node.origin fun _ _ => rfl,
      hz Node.origin fun _ => rfl, resetRefs, hf]
  · exact (hs Node.refCount (fun _ => rfl) fun _ _ => rfl).trans (hi Node.refCount fun _ _ => rfl)
  · have hproven : z.proven = m.proven := by
      rw [hz Node.proven fun _ => rfl, resetRefs, hf]
    rw [hs Node.proven (fun _ => rfl) fun _ _ => rfl]
    unfold informed
    rw [hzop]
    split
    · split
      · rfl
      · exact hproven
    · exact hproven

lemma slot_finish {d : Draft} (hd : d.Sane) {fixed : List Node} {g : Graph}
    (h : Finished d fixed g) {n : NodeId} {x : Node} (hx : g.nodes[n]? = some x) :
    n < d.nodes.size ∧ ∃ z, (countRefs fixed.toArray d.blocks)[n]? = some z ∧
      x.slot = if needsSlot z then
        some (.ofLocal (d.numVars +
          ((countRefs fixed.toArray d.blocks).toList.take n).countP needsSlot)) else none := by
  obtain ⟨m, f, z, hs⟩ := h.node hx
  have hzslot : z.slot = none := by
    calc z.slot = (uncounted z).slot := rfl
      _ = f.slot := by rw [hs.reset]; rfl
      _ = m.slot := by rw [(fixNode_fixed hs.fix).node]
      _ = none := hd.slotless hs.draft
  refine ⟨(Array.getElem?_eq_some_iff.mp hs.draft).1, z, hs.count, ?_⟩
  have hslot : (bare x).slot = _ := congrArg Node.slot hs.slotted
  refine hslot.trans ?_
  rw [bare, withSlot]
  split
  · rfl
  · rw [slot_informed]
    exact hzslot

lemma nodup_block {d : Draft} (hd : d.Sane) {b : BlockId} {blk : Block}
    (h : d.blocks[b]? = some blk) : blk.nodes.toList.Nodup := by
  have hnodup := List.nodup_flatMap.mp (List.nodup_append.mp hd.nodup).1
  exact hnodup.1 blk (Array.mem_toList_iff.mpr (Array.mem_of_getElem? h))

lemma block_unique {d : Draft} (hd : d.Sane) {b c : BlockId} {blk blk' : Block} {n : NodeId}
    (hb : d.blocks[b]? = some blk) (hc : d.blocks[c]? = some blk') (hn : n ∈ blk.nodes)
    (hn' : n ∈ blk'.nodes) : b = c := by
  have hpair := (List.nodup_flatMap.mp (List.nodup_append.mp hd.nodup).1).2
  rw [List.pairwise_iff_getElem] at hpair
  obtain ⟨hb', rfl⟩ := Array.getElem?_eq_some_iff.mp hb
  obtain ⟨hc', rfl⟩ := Array.getElem?_eq_some_iff.mp hc
  rcases Nat.lt_trichotomy b c with hlt | heq | hlt
  · exact (hpair b c hb' hc' hlt (Array.mem_toList_iff.mpr hn) (Array.mem_toList_iff.mpr hn')).elim
  · exact heq
  · exact (hpair c b hc' hb' hlt (Array.mem_toList_iff.mpr hn') (Array.mem_toList_iff.mpr hn)).elim

/-- What was built and finished is formed. -/
theorem Built.formed {d : Draft} (hd : Built d) {g : Graph} (h : d.finish = .ok g) : g.Formed := by
  have hs := hd.sane
  obtain ⟨-, fixed, hfin⟩ := finish_finished h
  have hblocks : g.blocks = d.blocks := congrArg Graph.blocks hfin.graph
  have hslot := fun {n x} hx => slot_finish hs hfin (n := n) (x := x) hx
  generalize countRefs fixed.toArray d.blocks = counted at hslot
  have hcount : ∀ {m n : NodeId} {z : Node}, m < n → counted[m]? = some z → needsSlot z →
      (counted.toList.take m).countP needsSlot < (counted.toList.take n).countP needsSlot := by
    intro m n z hmn hz hneeds
    have htake : (counted.toList.take (m + 1)).countP needsSlot =
        (counted.toList.take m).countP needsSlot + 1 := by
      rw [List.take_add_one, List.countP_append, Array.getElem?_toList, hz]
      simp [hneeds]
    have hsub := (List.take_sublist_take_left (l := counted.toList)
      (Nat.succ_le_of_lt hmn)).countP_le (p := needsSlot)
    exact Nat.lt_of_lt_of_le (by rw [htake]; exact Nat.lt_succ_self _) hsub
  have hinj : ∀ {m n : NodeId} {x y : Node} {o : Slot}, m < n → g.nodes[m]? = some x →
      g.nodes[n]? = some y → x.slot = some o → y.slot = some o → False := by
    intro m n x y o hmn hx hy hxo hyo
    obtain ⟨-, z, hz, hxz⟩ := hslot hx
    obtain ⟨hlt, w, hw, hyw⟩ := hslot hy
    rw [hxo] at hxz
    rw [hyo] at hyw
    split at hxz
    · rename_i hneeds
      split at hyw
      · have hle : (counted.toList.take n).countP needsSlot ≤ n :=
          Nat.le_trans List.countP_le_length (List.length_take_le _ _)
        have hbound := Nat.lt_of_le_of_lt hle (Nat.lt_of_lt_of_le hlt hs.size)
        have hc := hcount hmn hz hneeds
        have heq := Slot.ofLocal_inj (Option.some.inj (hxz.symm.trans hyw)) (by omega) (by omega)
        omega
      · cases hyw
    · cases hxz
  refine ⟨fun {n x o} hx ho => ?_, fun {m n x y o} hx hy hxo hyo => ?_, fun {b blk} hb => ?_,
    fun {b c blk blk' n} hb hc => ?_⟩
  · obtain ⟨-, z, -, hz⟩ := hslot hx
    rw [ho] at hz
    split at hz
    · exact ⟨_, Option.some.inj hz⟩
    · cases hz
  · rcases Nat.lt_trichotomy m n with hlt | heq | hlt
    · exact (hinj hlt hx hy hxo hyo).elim
    · exact heq
    · exact (hinj hlt hy hx hyo hxo).elim
  · rw [hblocks] at hb
    exact nodup_block hs hb
  · rw [hblocks] at hb hc
    exact block_unique hs hb hc

end Draft
end Speculation
