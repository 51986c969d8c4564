import Speculation.Proofs.Independence.Alike

/-!
Facts in two lowerings.

What is learnt of a node is learnt of it in both. At the start of a block all of it is forgotten, in
whichever way it was kept track of.
-/

namespace Speculation
namespace Facts

variable {f f₁ f₂ : Facts} {g g₁ g₂ : Graph} {m n : NodeId} {t : TypeSet}

lemma getElem?_setIfInBounds_map {α : Type} (xs : Array α) (m n : Nat) (a : α) :
    (xs.setIfInBounds m a)[n]? = if m = n then xs[n]?.map fun _ => a else xs[n]? := by
  rw [Array.getElem?_setIfInBounds]
  split
  · subst m
    split
    · rename_i h
      simp [Array.getElem?_eq_getElem h]
    · rename_i h
      simp [Array.getElem?_eq_none (Nat.le_of_not_lt h)]
  · rfl

lemma isTouched_touch (f : Facts) (m n : NodeId) :
    (f.touch m).isTouched n = ((f.touched[n]?.map fun t => if m = n then true else t).getD false) := by
  rw [isTouched, touch, Array.getD_eq_getD_getElem?, getElem?_setIfInBounds_map]
  split <;> simp

lemma isTouched_eq (f : Facts) (n : NodeId) : f.isTouched n = f.touched[n]?.getD false := by
  rw [isTouched, Array.getD_eq_getD_getElem?]

@[simp] lemma size_narrow : (f.narrow n t).proven.size = f.proven.size := Array.size_modify

lemma known_narrow :
    (f.narrow n t).known m = if m = n then (f.known m).inter t else f.known m := by
  unfold narrow known touch
  dsimp only
  rw [Array.getD_eq_getD_getElem?, Array.getD_eq_getD_getElem?, Array.getElem?_modify]
  by_cases hmn : m = n
  · subst hmn
    rw [if_pos rfl, if_pos rfl]
    rcases f.proven[m]? with _ | u
    · simp [TypeSet.inter, TypeSet.empty]
    · rfl
  · rw [if_neg (Ne.symm hmn), if_neg hmn]

/-! ### Narrowing -/

lemma filter_of_lt (h : n < f.proven.size) (t : TypeSet) : f.filter n t = .ok (f.narrow n t) := by
  rw [filter, provenOf_eq_ok.mpr ⟨h, rfl⟩]
  rfl

lemma filter_of_le (h : f.proven.size ≤ n) (t : TypeSet) : f.filter n t = .error .outOfRange := by
  rw [filter, provenOf, Breach.get_of_le h]
  rfl

def narrowEdges (f : Facts) (es : List Edge) : Facts :=
  es.foldl (fun f e => f.narrow e.node e.kind.filter) f

lemma filterEdges_of_lt {es : List Edge} (h : ∀ e ∈ es, e.node < f.proven.size) :
    es.foldlM (fun f e => f.filter e.node e.kind.filter) f = .ok (f.narrowEdges es) := by
  induction es generalizing f with
  | nil => rfl
  | cons e es ih =>
    obtain ⟨he, hes⟩ := List.forall_mem_cons.mp h
    rw [List.foldlM_cons, filter_of_lt he]
    exact ih fun e' he' => by rw [size_narrow]; exact hes e' he'

lemma filterEdges_of_le {es : List Edge} (h : ∃ e ∈ es, f.proven.size ≤ e.node) :
    es.foldlM (fun f e => f.filter e.node e.kind.filter) f = .error .outOfRange := by
  induction es generalizing f with
  | nil => simp at h
  | cons e es ih =>
    rw [List.foldlM_cons]
    rcases Nat.lt_or_ge e.node f.proven.size with hlt | hge
    · rw [filter_of_lt hlt]
      obtain ⟨e', he', hle⟩ := h
      rcases List.mem_cons.mp he' with rfl | he'
      · exact absurd hlt (Nat.not_lt_of_le hle)
      · exact ih ⟨e', he', by rwa [size_narrow]⟩
    · rw [filter_of_le hge]
      rfl

/-- A node whose operands are nodes of the graph executes. -/
lemma execute_of_node {d : Node} (hd : g.nodes[n]? = some d)
    (hes : ∀ e ∈ d.children, e.node < f.proven.size) :
    f.execute g n = (f.narrowEdges d.children.toList).learn d := by
  rw [execute, Graph.node_eq_ok.mpr hd]
  simp only [Bind.bind, Except.bind, ← Array.foldlM_toList]
  rw [filterEdges_of_lt fun e he => hes e (Array.mem_toList_iff.mp he)]

/-- No other one does. -/
lemma execute_of_operand {d : Node} (hd : g.nodes[n]? = some d)
    (hes : ∃ e ∈ d.children, f.proven.size ≤ e.node) : f.execute g n = .error .outOfRange := by
  obtain ⟨e, he, hle⟩ := hes
  rw [execute, Graph.node_eq_ok.mpr hd]
  simp only [Bind.bind, Except.bind, ← Array.foldlM_toList]
  rw [filterEdges_of_le ⟨e, Array.mem_toList_iff.mpr he, hle⟩]

/-! ### What is known of a shared node -/

namespace AlikeAt

lemma isTouched (h : AlikeAt f₁ f₂ n) : f₂.isTouched n = f₁.isTouched n := by
  rw [isTouched_eq, isTouched_eq, h.touched]

lemma touch (h : AlikeAt f₁ f₂ n) (m : NodeId) : AlikeAt (f₁.touch m) (f₂.touch m) n :=
  { h with
    touched := by
      simp only [Facts.touch, getElem?_setIfInBounds_map, h.touched] }

lemma narrow (h : AlikeAt f₁ f₂ n) (m : NodeId) (t : TypeSet) :
    AlikeAt (f₁.narrow m t) (f₂.narrow m t) n :=
  { h.touch m with
    proven := by simp only [Facts.narrow, Array.getElem?_modify, h.proven] }

/-- The node is one of both graphs or of none. -/
lemma lt_iff (h : AlikeAt f₁ f₂ n) : n < f₂.proven.size ↔ n < f₁.proven.size := by
  rw [← not_iff_not, Nat.not_lt, Nat.not_lt, ← Array.getElem?_eq_none_iff,
    ← Array.getElem?_eq_none_iff, h.proven]

lemma setStructures (h : AlikeAt f₁ f₂ n) (m : NodeId) (x : Option (List UInt64)) :
    AlikeAt { f₁ with structures := f₁.structures.setIfInBounds m x }
      { f₂ with structures := f₂.structures.setIfInBounds m x } n :=
  { h with structures := by simp only [getElem?_setIfInBounds_map, h.structures] }

lemma setArrayModes (h : AlikeAt f₁ f₂ n) (m : NodeId) (x : Option ArrayMode) :
    AlikeAt { f₁ with arrayModes := f₁.arrayModes.setIfInBounds m x }
      { f₂ with arrayModes := f₂.arrayModes.setIfInBounds m x } n :=
  { h with arrayModes := by simp only [getElem?_setIfInBounds_map, h.arrayModes] }

/-- Of a node that is the same in both graphs the same was proven beforehand. -/
lemma ofGraph (h : g₂.nodes[n]? = g₁.nodes[n]?) : AlikeAt (ofGraph g₁) (ofGraph g₂) n := by
  have hlt : n < g₂.nodes.size ↔ n < g₁.nodes.size := by
    rw [← not_iff_not, Nat.not_lt, Nat.not_lt, ← Array.getElem?_eq_none_iff,
      ← Array.getElem?_eq_none_iff, h]
  constructor <;> simp [Facts.ofGraph, h, hlt, Array.getElem?_replicate]

lemma forgetHeap (h : AlikeAt f₁ f₂ n) : AlikeAt f₁.forgetHeap f₂.forgetHeap n :=
  { h with
    structures := by simp only [Facts.forgetHeap, Array.getElem?_map, h.structures]
    arrayModes := by
      simp only [Facts.forgetHeap, Array.getElem?_mapIdx, h.arrayModes, h.isTouched] }

end AlikeAt

/-! ### What is not touched is as it was proven -/

namespace Clean

lemma isTouched_of_touch (h : (f.touch m).isTouched n = false) : f.isTouched n = false := by
  rw [isTouched_touch] at h
  rw [isTouched_eq]
  rcases ht : f.touched[n]? with _ | t
  · rfl
  · rw [ht] at h
    simp only [Option.map_some, Option.getD_some] at h ⊢
    split at h
    · cases h
    · exact h

/-- A node that stays untouched is another one, or there is none of that number. -/
lemma outside_of_touch (hf : f.Clean g) (h : (f.touch m).isTouched n = false) :
    m ≠ n ∨ g.nodes.size ≤ n := by
  by_contra hcon
  simp only [ne_eq, not_or, not_not, Nat.not_le] at hcon
  obtain ⟨rfl, hlt⟩ := hcon
  rw [isTouched_touch, Array.getElem?_eq_getElem (hf.touchedSize.symm ▸ hlt)] at h
  simp at h

lemma touch (hf : f.Clean g) (m : NodeId) : (f.touch m).Clean g :=
  { hf with
    proven := fun h => hf.proven (isTouched_of_touch h)
    arrayModes := fun h => hf.arrayModes (isTouched_of_touch h)
    touchedSize := by simpa [Facts.touch] using hf.touchedSize }

lemma narrow (hf : f.Clean g) (m : NodeId) (t : TypeSet) : (f.narrow m t).Clean g :=
  { hf.touch m with
    proven := by
      intro n h
      have hn := hf.proven (isTouched_of_touch h)
      simp only [Facts.narrow, Array.getElem?_modify]
      rcases hf.outside_of_touch h with hne | hge
      · rw [if_neg hne, hn]
      · rw [hn, Array.getElem?_eq_none hge]
        split <;> rfl
    provenSize := by simpa [Facts.narrow] using hf.provenSize }

lemma setStructures (hf : f.Clean g) (m : NodeId) (x : Option (List UInt64)) :
    Clean g { f with structures := f.structures.setIfInBounds m x } :=
  { hf with structuresSize := by simpa using hf.structuresSize }

lemma setArrayModes (hf : f.Clean g) (m : NodeId) (x : Option ArrayMode) :
    Clean g { f.touch m with arrayModes := f.arrayModes.setIfInBounds m x } :=
  { hf.touch m with
    arrayModes := by
      intro n h hlt
      rw [getElem?_setIfInBounds_map,
        if_neg ((hf.outside_of_touch h).resolve_right (Nat.not_le_of_lt hlt))]
      exact hf.arrayModes (isTouched_of_touch h) hlt
    arrayModesSize := by simpa using hf.arrayModesSize }

lemma forgetHeap (hf : f.Clean g) : f.forgetHeap.Clean g :=
  { hf with
    structuresSize := by simpa [Facts.forgetHeap] using hf.structuresSize
    arrayModesSize := by simpa [Facts.forgetHeap] using hf.arrayModesSize
    arrayModes := by
      intro n (h : f.isTouched n = false) hlt
      simp [Facts.forgetHeap, Array.getElem?_mapIdx, h, hf.arrayModes h hlt] }

lemma ofGraph (g : Graph) : (ofGraph g).Clean g where
  proven _ := by simp [Facts.ofGraph]
  provenSize := by simp [Facts.ofGraph]
  arrayModes _ hn := by simp [Facts.ofGraph, hn]
  arrayModesSize := by simp [Facts.ofGraph]
  structuresSize := by simp [Facts.ofGraph]
  touchedSize := by simp [Facts.ofGraph]

/-- At the start of a block nothing is left of what was learnt. -/
lemma beginBlock (hf : f.Clean g) : f.beginBlock g = Facts.ofGraph g := by
  have hget : ∀ {α : Type} {xs : Array α} {n : Nat}, xs.size = g.nodes.size → n < g.nodes.size →
      ∃ x, xs[n]? = some x := fun {α xs n} hs hn => ⟨_, Array.getElem?_eq_getElem (hs ▸ hn)⟩
  have hnone : ∀ {α : Type} {xs : Array α} {n : Nat}, xs.size = g.nodes.size → ¬n < g.nodes.size →
      xs[n]? = none := fun {α xs n} hs hn => Array.getElem?_eq_none (hs ▸ Nat.le_of_not_lt hn)
  rw [Facts.beginBlock, Facts.ofGraph, Facts.mk.injEq]
  refine ⟨?_, ?_, ?_, ?_⟩ <;> apply Array.ext_getElem? <;> intro n <;> by_cases hn : n < g.nodes.size
  · obtain ⟨t, ht⟩ := hget hf.provenSize hn
    have hnode : g.nodes[n]? = some g.nodes[n] := Array.getElem?_eq_getElem hn
    simp only [Array.getElem?_mapIdx, ht, Array.getElem?_map, hnode, Option.map_some,
      Option.getD_some]
    split
    · rfl
    · rename_i h
      have hproven := hf.proven (n := n) (by simpa using h)
      rwa [ht, hnode] at hproven
  · simp [hnone hf.provenSize hn, Nat.le_of_not_lt hn]
  · obtain ⟨x, hx⟩ := hget hf.arrayModesSize hn
    simp only [Array.getElem?_mapIdx, hx, Array.getElem?_replicate, hn, Option.map_some, if_true]
    split
    · rfl
    · rename_i h
      rw [← hx, hf.arrayModes (by simpa using h) hn]
  · simp [hnone hf.arrayModesSize hn, hn]
  · obtain ⟨x, hx⟩ := hget hf.structuresSize hn
    simp [hx, hn]
  · simp [hnone hf.structuresSize hn, hn]
  · obtain ⟨x, hx⟩ := hget hf.touchedSize hn
    simp [hx, hn]
  · simp [hnone hf.touchedSize hn, hn]

end Clean

/-! ### What a node adds -/

/-- Facts in two graphs are known in the same way: each is clean, and they agree on some nodes. -/
structure Match (P : NodeId → Prop) (g₁ g₂ : Graph) (f₁ f₂ : Facts) : Prop where
  clean₁ : f₁.Clean g₁
  clean₂ : f₂.Clean g₂
  alike {n : NodeId} (h : P n) : AlikeAt f₁ f₂ n

variable {P : NodeId → Prop}

/-- Two steps fail in the same way, or both give facts that are known in the same way. -/
def BothMatch (P : NodeId → Prop) (g₁ g₂ : Graph) (x y : Except Breach Facts) : Prop :=
  (∃ b, x = .error b ∧ y = .error b) ∨ ∃ f₁ f₂, x = .ok f₁ ∧ y = .ok f₂ ∧ Match P g₁ g₂ f₁ f₂

namespace Match

lemma narrow (h : Match P g₁ g₂ f₁ f₂) (m : NodeId) (t : TypeSet) :
    Match P g₁ g₂ (f₁.narrow m t) (f₂.narrow m t) :=
  ⟨h.clean₁.narrow m t, h.clean₂.narrow m t, fun hn => (h.alike hn).narrow m t⟩

lemma narrowEdges (h : Match P g₁ g₂ f₁ f₂) (es : List Edge) :
    Match P g₁ g₂ (f₁.narrowEdges es) (f₂.narrowEdges es) := by
  induction es generalizing f₁ f₂ with
  | nil => exact h
  | cons e es ih => exact ih (h.narrow _ _)

lemma filter (h : Match P g₁ g₂ f₁ f₂) (hm : P m) (t : TypeSet) :
    BothMatch P g₁ g₂ (f₁.filter m t) (f₂.filter m t) := by
  rcases Nat.lt_or_ge m f₁.proven.size with hlt | hge
  · exact .inr ⟨_, _, filter_of_lt hlt t, filter_of_lt ((h.alike hm).lt_iff.mpr hlt) t, h.narrow m t⟩
  · have hge' := Nat.le_of_not_lt (mt (h.alike hm).lt_iff.mp (Nat.not_lt_of_le hge))
    exact .inl ⟨_, filter_of_le hge t, filter_of_le hge' t⟩

lemma filterEdges (h : Match P g₁ g₂ f₁ f₂) {es : List Edge} (hes : ∀ e ∈ es, P e.node) :
    BothMatch P g₁ g₂ (es.foldlM (fun f e => f.filter e.node e.kind.filter) f₁)
      (es.foldlM (fun f e => f.filter e.node e.kind.filter) f₂) := by
  induction es generalizing f₁ f₂ with
  | nil => exact .inr ⟨_, _, rfl, rfl, h⟩
  | cons e es ih =>
    obtain ⟨he, hes⟩ := List.forall_mem_cons.mp hes
    rw [List.foldlM_cons, List.foldlM_cons]
    rcases h.filter he e.kind.filter with ⟨b, h₁, h₂⟩ | ⟨f₁', f₂', h₁, h₂, h'⟩ <;> rw [h₁, h₂]
    · exact .inl ⟨b, rfl, rfl⟩
    · exact ih h' hes

/-- What is learnt is about the first operand, if there is one. -/
lemma learn (h : Match P g₁ g₂ f₁ f₂) {d : Node} (hes : ∀ e ∈ d.children, P e.node) :
    BothMatch P g₁ g₂ (f₁.learn d) (f₂.learn d) := by
  have hchild {e : Edge} (he : d.child 0 = .ok e) : P e.node :=
    hes e (Array.mem_of_getElem? (Breach.get_eq_ok.mp he))
  unfold Facts.learn
  split
  · rcases d.child 0 with b | e
    · exact .inl ⟨b, rfl, rfl⟩
    · exact .inr ⟨_, _, rfl, rfl, h.clean₁.setStructures _ _, h.clean₂.setStructures _ _,
        fun hn => (h.alike hn).setStructures _ _⟩
  iterate 2
    · rcases he : d.child 0 with b | e
      · exact .inl ⟨b, rfl, rfl⟩
      · refine Match.filter ⟨?_, ?_, fun hn => ?_⟩ (hchild he) _
        · exact h.clean₁.setArrayModes _ _
        · exact h.clean₂.setArrayModes _ _
        · exact ((h.alike hn).touch _).setArrayModes _ _
  iterate 3
    · exact .inr ⟨_, _, rfl, rfl, h.clean₁.forgetHeap, h.clean₂.forgetHeap,
        fun hn => (h.alike hn).forgetHeap⟩
  · exact .inr ⟨_, _, rfl, rfl, h⟩

/-- The node and its operands are the same in both graphs, and so is what follows from its execution. -/
lemma execute {id : NodeId} (h : Match P g₁ g₂ f₁ f₂) (hid : g₂.node id = g₁.node id)
    (hes : ∀ d, g₁.node id = .ok d → ∀ e ∈ d.children, P e.node) :
    BothMatch P g₁ g₂ (f₁.execute g₁ id) (f₂.execute g₂ id) := by
  rw [Facts.execute, Facts.execute, hid]
  rcases hd : g₁.node id with b | d
  · exact .inl ⟨b, rfl, rfl⟩
  simp only [Bind.bind, Except.bind, ← Array.foldlM_toList]
  rcases h.filterEdges fun e he => hes d hd e (Array.mem_toList_iff.mp he) with
    ⟨b, h₁, h₂⟩ | ⟨f₁', f₂', h₁, h₂, h'⟩ <;> rw [h₁, h₂]
  · exact .inl ⟨b, rfl, rfl⟩
  · exact h'.learn (hes d hd)

end Match

end Facts
end Speculation
