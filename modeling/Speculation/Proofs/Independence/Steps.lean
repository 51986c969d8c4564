import Speculation.Lowering.Guard
import Speculation.Proofs.Independence.Alike
import Speculation.Proofs.Lowering.Growth

/-!
Single steps of two lowerings.

Whatever a lowering step does to one of two like states it does to the other: instructions, labels,
constants, events, exits and slow paths are added to both.
-/

namespace Speculation
namespace Lowering

variable {α β γ : Type} {c : Twins} {w w' : Names} {ls : List (Label × Label)} {s₁ s₂ s₁' s₂' : State}

lemma Twins.Renames.mono {l m : Label} (h : c.Renames w l m) (hw : w.Grows w') : c.Renames w' l m := by
  cases h with
  | code h => exact .code (hw.1 h)
  | pool h => exact .pool (hw.2 h)
  | given h => exact .given h

/-- The two labels are in the list, or known to both environments. -/
def Twins.Known (c : Twins) (ls : List (Label × Label)) (l m : Label) : Prop :=
  (l, m) ∈ ls ∨ c.Given l m

lemma Twins.Known.renames {l m : Label} (h : c.Known ls l m) (hls : ls ⊆ w.code) :
    c.Renames w l m :=
  h.elim (fun h => .code (hls h)) .given

@[simp] lemma Twins.known_of_mem {l m : Label} (h : (l, m) ∈ ls) : c.Known ls l m := .inl h

@[simp] lemma Twins.known_given {l m : Label} (h : c.Given l m) : c.Known ls l m := .inr h

@[simp] lemma Twins.known_exception : c.Known ls c.e₁.exceptionLabel c.e₂.exceptionLabel :=
  .inr .exception

/-! ### The environment -/

lemma Breach.get_congr {xs ys : Array α} {i : Nat} (h : ys[i]? = xs[i]?) :
    Breach.get ys i = Breach.get xs i := by
  rw [Breach.get, Breach.get, h]

lemma Twins.Shares.node {n : NodeId} (h : c.Shares n) : c.e₂.graph.node n = c.e₁.graph.node n :=
  Breach.get_congr h

lemma Twins.Shares.int32Constant {n : NodeId} (h : c.Shares n) :
    c.e₂.graph.int32Constant n = c.e₁.graph.int32Constant n := by
  rw [Graph.int32Constant, Graph.int32Constant, h.node]

lemma Twins.Shares.valueConstant {n : NodeId} (h : c.Shares n) :
    c.e₂.graph.valueConstant n = c.e₁.graph.valueConstant n := by
  rw [Graph.valueConstant, Graph.valueConstant, h.node]

lemma Twins.block_eq (c : Twins) : c.e₂.graph.block c.block = c.e₁.graph.block c.block :=
  Breach.get_congr c.blocks

lemma AlikeAt.shares (h : AlikeAt c w s₁ s₂) : c.Shares s₁.current := c.node h.member

lemma mem_of_child {d : Node} {i : Nat} {e : Edge} (h : d.child i = .ok e) : e ∈ d.children := by
  rw [Node.child, Breach.get] at h
  split at h
  · cases h
    exact Array.mem_of_getElem? (by assumption)
  · cases h

namespace Similar

lemma bindGraph {f g : Graph → Lower α} {R : α → α → Prop}
    (hf : Similar c ls R (f c.e₁.graph) (g c.e₂.graph)) :
    Similar c ls R (Lowering.graph >>= f) (Lowering.graph >>= g) :=
  bindRead hf

@[simp] lemma node {n : NodeId} (h : c.Shares n) :
    Similar c ls Eq (Lowering.node n) (Lowering.node n) := by
  refine bindRead ?_
  rw [h.node]
  exact assume _

lemma memberNode {n : NodeId} (h : c.Member n) :
    Similar c ls (fun d d' => d = d' ∧ c.e₁.graph.nodes[n]? = some d) (Lowering.node n)
      (Lowering.node n) := by
  have hn : c.Shares n := c.node h
  refine bindRead ?_
  rw [hn.node]
  rcases hd : c.e₁.graph.node n with b | d
  · exact throw _
  · refine pure ⟨rfl, ?_⟩
    rw [Graph.node, Breach.get] at hd
    split at hd
    · cases hd
      assumption
    · cases hd

lemma currentNode : Similar c ls (fun d d' => d = d' ∧ ∀ e ∈ d.children, c.Shares e.node)
    currentNode currentNode := by
  refine bindGet fun w s₁ s₂ hs _ => ?_
  rw [hs.current]
  refine (memberNode hs.member).weaken ?_
  rintro d _ ⟨rfl, hd⟩
  exact ⟨rfl, fun e he => c.operand hs.member hd he⟩

/-- A node of the block, with its operands. -/
lemma bindNode {n : NodeId} {f g : Node → Lower α} {R : α → α → Prop} (h : c.Member n)
    (hf : ∀ d, c.e₁.graph.nodes[n]? = some d → Similar c ls R (f d) (g d)) :
    Similar c ls R (Lowering.node n >>= f) (Lowering.node n >>= g) := by
  refine (memberNode h).bind ?_
  rintro d _ ⟨rfl, hd⟩
  exact hf d hd

lemma bindCurrentNode {f g : Node → Lower α} {R : α → α → Prop}
    (hf : ∀ d, (∀ e ∈ d.children, c.Shares e.node) → Similar c ls R (f d) (g d)) :
    Similar c ls R (Lowering.currentNode >>= f) (Lowering.currentNode >>= g) := by
  refine currentNode.bind ?_
  rintro d _ ⟨rfl, h⟩
  exact hf d h

lemma bindChild {i : Nat} {f g : Edge → Lower α} {R : α → α → Prop}
    (hf : ∀ e, c.Shares e.node → Similar c ls R (f e) (g e)) :
    Similar c ls R (Lowering.child i >>= f) (Lowering.child i >>= g) := by
  have hchild : Similar c ls (fun e e' => e = e' ∧ c.Shares e.node) (Lowering.child i)
      (Lowering.child i) := by
    refine bindCurrentNode fun d hd => ?_
    rcases he : d.child i with b | e
    · exact throw _
    · exact pure ⟨rfl, hd e (mem_of_child he)⟩
  refine hchild.bind ?_
  rintro e _ ⟨rfl, h⟩
  exact hf e h

@[simp] lemma variableOf (v : VarId) :
    Similar c ls Eq (variableOf v) (variableOf v) := by
  refine bindRead ?_
  rw [c.vars]
  exact assume _

/-- The label of a block, unless the block is there in one of the graphs only. -/
lemma bindBlockLabel {b : BlockId} {f g : Label → Lower α} {R : α → α → Prop} (h : c.Target b)
    (hf : ∀ l m, c.Given l m → Similar c ls R (f l) (g m)) :
    Similar c ls R (blockLabel b >>= f) (blockLabel b >>= g) := by
  have hlabel : Similar c ls c.Given (blockLabel b) (blockLabel b) := by
    refine bindRead fun w s₁ s₂ hs _ => ?_
    rcases hl : c.e₁.blockLabels[b]? with _ | l <;> rcases hm : c.e₂.blockLabels[b]? with _ | m <;>
      simp only [Breach.get, hl, hm]
    · exact .failed _ _ _
    · exact .astray₁ ⟨b, h, by simp [hl, hm]⟩ _ _
    · exact .astray₂ ⟨b, h, by simp [hl, hm]⟩ _ _
    · exact .ok ⟨.block hl hm, w, .refl w, hs⟩
  exact hlabel.bind hf

end Similar

/-! ### Code and labels -/

lemma getElem?_push_of_some {xs : Array α} {i : Nat} {x y : α} (h : xs[i]? = some x) :
    (xs.push y)[i]? = some x := by
  have hlt := (Array.getElem?_eq_some_iff.mp h).1
  rw [Array.getElem?_push_lt hlt, ← Array.getElem?_eq_getElem hlt, h]

lemma Alike.addCode (h : Alike c w s₁ s₂) {a b : Assembler} {p q : Piece}
    (ha : s₁.asm.Adds a [p]) (hb : s₂.asm.Adds b [q]) (hal : a.labels = s₁.asm.labels)
    (hbl : b.labels = s₂.asm.labels)
    (hpq : PieceAlike (c.Renames w) c.t₁.exits.size c.t₂.exits.size p q) :
    Alike c w { s₁ with asm := a } { s₂ with asm := b } :=
  { h with
    puts := h.puts.addCode ha hb (.cons hpq .nil)
    labels := by
      rw [State.labelTable, State.labelTable, hal, hbl]
      exact h.labels }

lemma Alike.emit (h : Alike c w s₁ s₂) (i : Inst) :
    Alike c w { s₁ with asm := s₁.asm.emit i } { s₂ with asm := s₂.asm.emit i } :=
  h.addCode (s₁.asm.adds_emit i) (s₂.asm.adds_emit i) (s₁.asm.labels_emit i) (s₂.asm.labels_emit i)
    (.plain i)

lemma Alike.comment (h : Alike c w s₁ s₂) (text text' : String) :
    Alike c w { s₁ with asm := s₁.asm.comment text } { s₂ with asm := s₂.asm.comment text' } :=
  { h with
    puts := h.puts.addCode (.of_eq rfl rfl) (.of_eq rfl rfl) .nil
    labels := h.labels }

lemma Alike.event (h : Alike c w s₁ s₂) {e : Event} (he : ∀ n o, e = .movHint n o → c.Shares n) :
    Alike c w { s₁ with events := s₁.events.push e } { s₂ with events := s₂.events.push e } :=
  { h with
    puts := { h.puts with events := h.puts.events.push rfl }
    labels := h.labels
    begun₁ := getElem?_push_of_some h.begun₁
    seen₁ := by
      intro i x hi hx
      rw [Array.size_push]
      exact Nat.le_succ_of_le (h.seen₁ hi hx)
    hints := by
      intro n o k hk hn
      rw [Array.getElem?_push] at hn
      split at hn
      · exact he n o (Option.some.inj hn)
      · exact h.hints hk hn }

section Labels

variable {a b : LabelTable} {e : Env} {l m : Label}

lemma LabelsAlike.lt (h : LabelsAlike c w a b) (hlm : (l, m) ∈ w.code) :
    l < a.labels.size ∧ m < b.labels.size := by
  obtain ⟨k, h₁, h₂⟩ := h.placed hlm
  exact ⟨(Array.getElem?_eq_some_iff.mp h₁).1, (Array.getElem?_eq_some_iff.mp h₂).1⟩

namespace LabelTable.Sound

lemma push (h : a.Sound e) : Sound e { a with labels := a.labels.push none } :=
  { h with
    free := fun hl => getElem?_push_of_some (h.free hl)
    made := by
      rw [Array.size_push]
      exact Nat.lt_succ_of_lt h.made }

/-- A label that is yet to be made is not that of a constant. -/
lemma new (h : a.Sound e) : a.labels.size ∉ a.poolLabels := fun hm =>
  Nat.lt_irrefl _ (Array.getElem?_eq_some_iff.mp (h.free hm)).1

end LabelTable.Sound

lemma Names.grows_code (w : Names) (p : Label × Label) :
    w.Grows { w with code := p :: w.code } := ⟨List.subset_cons_self _ _, List.Subset.refl _⟩

lemma Names.grows_pool (w : Names) (p : Label × Label) :
    w.Grows { w with pool := p :: w.pool } := ⟨List.Subset.refl _, List.subset_cons_self _ _⟩

lemma LabelsAlike.push (h : LabelsAlike c w a b) :
    LabelsAlike c { w with code := (a.labels.size, b.labels.size) :: w.code }
      { a with labels := a.labels.push none } { b with labels := b.labels.push none } where
  sound₁ := h.sound₁.push
  sound₂ := h.sound₂.push
  fresh hlm := by
    rcases List.mem_cons.mp hlm with heq | hlm
    · cases heq
      exact ⟨h.more₁, h.more₂, h.sound₁.new, h.sound₂.new⟩
    · exact h.fresh hlm
  placed hlm := by
    rcases List.mem_cons.mp hlm with heq | hlm
    · cases heq
      exact ⟨none, by simp, by simp⟩
    · obtain ⟨k, h₁, h₂⟩ := h.placed hlm
      exact ⟨k, getElem?_push_of_some h₁, getElem?_push_of_some h₂⟩
  inj hlm hlm' := by
    rcases List.mem_cons.mp hlm with heq | hlm <;> rcases List.mem_cons.mp hlm' with heq' | hlm'
    · cases heq
      cases heq'
      simp
    · cases heq
      exact iff_of_false (Nat.ne_of_gt (h.lt hlm').1) (Nat.ne_of_gt (h.lt hlm').2)
    · cases heq'
      exact iff_of_false (Nat.ne_of_lt (h.lt hlm).1) (Nat.ne_of_lt (h.lt hlm).2)
    · exact h.inj hlm hlm'
  pooled := h.pooled
  kept₁ hl hb := by
    rw [Array.getElem?_push_lt (Nat.lt_of_lt_of_le hl h.more₁), ← Array.getElem?_eq_getElem,
      h.kept₁ hl hb]
  kept₂ hl hb := by
    rw [Array.getElem?_push_lt (Nat.lt_of_lt_of_le hl h.more₂), ← Array.getElem?_eq_getElem,
      h.kept₂ hl hb]
  more₁ := by
    rw [Array.size_push]
    exact Nat.le_succ_of_le h.more₁
  more₂ := by
    rw [Array.size_push]
    exact Nat.le_succ_of_le h.more₂

lemma Alike.newLabel (h : Alike c w s₁ s₂) :
    Alike c { w with code := (s₁.asm.labels.size, s₂.asm.labels.size) :: w.code }
      { s₁ with asm := s₁.asm.newLabel.2 } { s₂ with asm := s₂.asm.newLabel.2 } :=
  { h with
    puts := (h.puts.mono fun _ _ h => h.mono (w.grows_code _)).addCode (.of_eq rfl rfl)
      (.of_eq rfl rfl) .nil
    labels := h.labels.push }

def LabelTable.place (t : LabelTable) (l : Label) (o : Nat) : LabelTable :=
  { t with labels := t.labels.set! l (some o) }

lemma LabelTable.getElem?_place {o : Nat} (h : a.labels[l]? = some none) (k : Label) :
    (a.place l o).labels[k]? = if l = k then some (some o) else a.labels[k]? := by
  have hlt := (Array.getElem?_eq_some_iff.mp h).1
  simp only [place, Array.set!_eq_setIfInBounds, Array.getElem?_setIfInBounds, hlt, if_true]

lemma LabelTable.Sound.place {o : Nat} (h : a.Sound e) (hl : a.labels[l]? = some none)
    (hp : l ∉ a.poolLabels) : (a.place l o).Sound e :=
  { h with
    free := by
      intro k hk
      rw [getElem?_place hl, if_neg fun hlk : l = k => hp (hlk ▸ hk)]
      exact h.free hk
    made := by simpa [LabelTable.place] using h.made }

/-- Two labels that go together are attached at corresponding places. -/
lemma LabelsAlike.place (h : LabelsAlike c w a b) (hlm : (l, m) ∈ w.code)
    (hl : a.labels[l]? = some none) (hm : b.labels[m]? = some none) {o o' : Nat}
    (ho : Shifted c.t₁.asm.offset c.t₂.asm.offset o o') :
    LabelsAlike c w (a.place l o) (b.place m o') := by
  obtain ⟨hl₁, hm₁, hlp, hmp⟩ := h.fresh hlm
  obtain ⟨k, rfl, rfl⟩ := ho
  refine ⟨h.sound₁.place hl hlp, h.sound₂.place hm hmp, h.fresh, fun {l' m'} hlm' => ?_, h.inj,
    h.pooled, fun {l'} hl' hb => ?_, fun {l'} hl' hb => ?_, ?_, ?_⟩
  · rw [LabelTable.getElem?_place hl, LabelTable.getElem?_place hm]
    by_cases heq : l = l'
    · rw [if_pos heq, if_pos ((h.inj hlm hlm').mp heq)]
      exact ⟨some k, rfl, rfl⟩
    · rw [if_neg heq, if_neg fun hm => heq ((h.inj hlm hlm').mpr hm)]
      exact h.placed hlm'
  · rw [LabelTable.getElem?_place hl, if_neg (Nat.ne_of_gt (Nat.lt_of_lt_of_le hl' hl₁))]
    exact h.kept₁ hl' hb
  · rw [LabelTable.getElem?_place hm, if_neg (Nat.ne_of_gt (Nat.lt_of_lt_of_le hl' hm₁))]
    exact h.kept₂ hl' hb
  · simpa [LabelTable.place] using h.more₁
  · simpa [LabelTable.place] using h.more₂

lemma Alike.attach (h : Alike c w s₁ s₂) (hlm : (l, m) ∈ w.code)
    (hl : s₁.asm.labels[l]? = some none) (hm : s₂.asm.labels[m]? = some none) :
    Alike c w (s₁.attached l) (s₂.attached m) :=
  { h with
    puts := h.puts.addCode (.of_eq rfl rfl) (.of_eq rfl rfl) .nil
    labels := h.labels.place hlm hl hm h.puts.offset }

/-- A constant has at most one label, and a label belongs to at most one constant. -/
lemma LabelTable.Sound.pools_unique (h : a.Sound e) {x y : UInt64} (hl : a.Pools l x)
    (hm : a.Pools m y) : l = m ↔ x = y := by
  obtain ⟨i, hx, hi⟩ := hl
  obtain ⟨j, hy, hj⟩ := hm
  obtain ⟨hi', rfl⟩ := Array.getElem?_eq_some_iff.mp hi
  obtain ⟨hj', rfl⟩ := Array.getElem?_eq_some_iff.mp hj
  obtain ⟨hx', rfl⟩ := Array.getElem?_eq_some_iff.mp hx
  obtain ⟨hy', rfl⟩ := Array.getElem?_eq_some_iff.mp hy
  have hil : i < a.poolLabels.toList.length := by simpa
  have hjl : j < a.poolLabels.toList.length := by simpa
  have hip : i < a.pool.toList.length := by simpa
  have hjp : j < a.pool.toList.length := by simpa
  have hlabels : a.poolLabels.toList[i] = a.poolLabels.toList[j] ↔ i = j :=
    h.nodupLabels.getElem_inj_iff
  have hbits : a.pool.toList[i] = a.pool.toList[j] ↔ i = j := h.nodup.getElem_inj_iff
  simp only [Array.getElem_toList] at hlabels hbits
  rw [hlabels, hbits]

/-- Between the two tables a constant may have got a label; in the second one it has `l`. -/
structure Interned (e : Env) (a a' : LabelTable) (l : Label) (x : UInt64) : Prop where
  sound : a'.Sound e
  pools : a'.Pools l x
  keeps {k : Label} {o : Option Nat} (h : a.labels[k]? = some o) : a'.labels[k]? = some o
  known {k : Label} (h : k ∈ a'.poolLabels) : k ∈ a.poolLabels ∨ a.labels.size ≤ k
  mono {k : Label} {y : UInt64} (h : a.Pools k y) : a'.Pools k y

lemma LabelTable.Sound.interned_found (h : a.Sound e) {k : Nat} {x : UInt64} (hk : a.pool[k]? = some x)
    (hl : a.poolLabels[k]? = some l) : Interned e a a l x :=
  ⟨h, ⟨k, hk, hl⟩, id, .inl, id⟩

lemma LabelTable.Sound.interned_new (h : a.Sound e) {x : UInt64} (hx : x ∉ a.pool) :
    Interned e a ⟨a.labels.push none, a.pool.push x, a.poolLabels.push a.labels.size⟩
      a.labels.size x where
  sound :=
    { size := by simp [h.size]
      nodup := by
        rw [Array.toList_push]
        exact List.nodup_append_comm.mp (List.nodup_cons.mpr ⟨by simpa using hx, h.nodup⟩)
      nodupLabels := by
        rw [Array.toList_push]
        exact List.nodup_append_comm.mp (List.nodup_cons.mpr ⟨by simpa using h.new, h.nodupLabels⟩)
      late := by
        intro l hl
        rcases Array.mem_push.mp hl with hl | rfl
        · exact h.late hl
        · exact h.made
      free := by
        intro l hl
        rcases Array.mem_push.mp hl with hl | rfl
        · exact getElem?_push_of_some (h.free hl)
        · simp
      made := by
        rw [Array.size_push]
        exact Nat.lt_succ_of_lt h.made }
  pools := ⟨a.pool.size, by simp, by simp [h.size]⟩
  keeps := getElem?_push_of_some
  known hk := (Array.mem_push.mp hk).imp_right fun h => Nat.le_of_eq h.symm
  mono := fun ⟨i, hi, hl⟩ => ⟨i, getElem?_push_of_some hi, getElem?_push_of_some hl⟩

/-- The label of a constant may be noted. -/
lemma LabelsAlike.intern {a' b' : LabelTable} {x : UInt64} (h : LabelsAlike c w a b)
    (ha : Interned c.e₁ a a' l x) (hb : Interned c.e₂ b b' m x) :
    LabelsAlike c { w with pool := (l, m) :: w.pool } a' b' := by
  have hsize : ∀ {t t' : LabelTable} {e : Env} {k : Label}, Interned e t t' k x →
      t.labels.size ≤ t'.labels.size := by
    intro t t' e k ht
    by_contra hlt
    have hk := ht.keeps (k := t'.labels.size) (Array.getElem?_eq_getElem (by omega))
    simp at hk
  refine ⟨ha.sound, hb.sound, fun hlm => ?_, fun hlm => ?_, h.inj, fun hlm => ?_, fun hl hb' => ?_,
    fun hl hb' => ?_, Nat.le_trans h.more₁ (hsize ha), Nat.le_trans h.more₂ (hsize hb)⟩
  · obtain ⟨hl, hm, hlp, hmp⟩ := h.fresh hlm
    have hlt := h.lt hlm
    refine ⟨hl, hm, fun hl' => ?_, fun hm' => ?_⟩
    · exact (ha.known hl').elim hlp fun hge => Nat.not_le_of_lt hlt.1 hge
    · exact (hb.known hm').elim hmp fun hge => Nat.not_le_of_lt hlt.2 hge
  · obtain ⟨k, h₁, h₂⟩ := h.placed hlm
    exact ⟨k, ha.keeps h₁, hb.keeps h₂⟩
  · rcases List.mem_cons.mp hlm with heq | hlm
    · cases heq
      exact ⟨x, ha.pools, hb.pools⟩
    · obtain ⟨y, h₁, h₂⟩ := h.pooled hlm
      exact ⟨y, ha.mono h₁, hb.mono h₂⟩
  · rw [← h.kept₁ hl hb']
    exact (ha.keeps (Array.getElem?_eq_getElem (Nat.lt_of_lt_of_le hl h.more₁))).trans
      (Array.getElem?_eq_getElem _).symm
  · rw [← h.kept₂ hl hb']
    exact (hb.keeps (Array.getElem?_eq_getElem (Nat.lt_of_lt_of_le hl h.more₂))).trans
      (Array.getElem?_eq_getElem _).symm

lemma leads_loadDoubleConstant {s : State} (hs : s.labelTable.Sound e) (f : Fpr) (x : Double) :
    Leads e s (loadDoubleConstant f x) (fun _ s' =>
      ∃ (k : Label) (t : LabelTable) (asm : Assembler) (loads : Array (Nat × UInt64)),
        s' = { s with
          asm
          pool := t.pool
          poolLabels := t.poolLabels
          loads } ∧ asm.labels = t.labels ∧
        s.asm.Adds asm [.inst (.loadDConst f 0) (some (.label k))] ∧
          Interned e s.labelTable t k x.bits) (fun _ => False) fun _ _ => False := by
  -- the load itself, from the state in which the constant has its label
  have hload : ∀ (s' : State) (k : Label), Leads e s'
      (Functor.discard (emitReloc (.loadDConst f 0) (.label k))) (fun _ s'' => ∃ asm : Assembler,
        s'' = { s' with asm } ∧ asm.labels = s'.asm.labels ∧
          s'.asm.Adds asm [.inst (.loadDConst f 0) (some (.label k))]) (fun _ => False)
      fun _ _ => False := by
    intro s' k
    obtain ⟨asm, ha, hadds, hlabels⟩ :=
      Assembler.adds_emitReloc (a := s'.asm) (i := .loadDConst f 0) (t := .label k) rfl
    simp only [emitReloc, leads_discard, leads_bind, leads_get, ha, leads_assume_ok]
    exact ⟨asm, rfl, hlabels, hadds⟩
  unfold loadDoubleConstant
  simp only [leads_bind, leads_modify, leads_get]
  rcases hi : intern x.bits s.pool with ⟨i, pool⟩
  unfold intern at hi
  split at hi
  · rename_i k hk
    cases hi
    obtain ⟨hlt, hbits, -⟩ := Array.findIdx?_eq_some_iff_getElem.mp hk
    have hlabel : i < s.poolLabels.size := Nat.lt_of_lt_of_eq hlt hs.size
    simp only [Array.getElem?_eq_getElem hlabel]
    refine (hload _ _).weaken ?_
    rintro _ _ ⟨asm, rfl, hl, hadds⟩
    refine ⟨_, s.labelTable, asm, _, rfl, hl, hadds, hs.interned_found (k := i) ?_
      (Array.getElem?_eq_getElem hlabel)⟩
    exact (Array.getElem?_eq_getElem hlt).trans (congrArg some (eq_of_beq hbits))
  · rename_i hk
    cases hi
    have hnone : s.poolLabels[s.pool.size]? = none :=
      Array.getElem?_eq_none (Nat.le_of_eq hs.size.symm)
    have hx : x.bits ∉ s.pool := fun hx => by
      simpa using Array.findIdx?_eq_none_iff.mp hk _ hx
    simp only [hnone, leads_bind, leads_modify, newLabel, leads_modifyGet]
    refine (hload _ _).weaken ?_
    rintro _ _ ⟨asm, rfl, hl, hadds⟩
    have hlabel : s.asm.Adds s.asm.newLabel.2 [] := .of_eq rfl rfl
    exact ⟨s.asm.labels.size, ⟨s.asm.labels.push none, s.pool.push x.bits,
      s.poolLabels.push s.asm.labels.size⟩, asm, _, rfl, hl, hlabel.trans hadds, hs.interned_new hx⟩

end Labels

lemma outcome_attach {e : Env} {s : State} {l : Label} (h : s.asm.labels[l]? = some none) :
    outcome (attach l) e s = (.ok (), s.attached l) := by
  have hok : s.asm.attach l = .ok (s.attached l).asm := by
    simp only [Assembler.attach, Breach.get, h, bind, Except.bind, pure, Except.pure]
    rfl
  show outcome (assume (s.asm.attach l) >>= fun asm => set { s with asm }) e s = _
  rw [hok]
  rfl

lemma outcome_attach_again {e : Env} {s : State} {l : Label} {o : Nat}
    (h : s.asm.labels[l]? = some (some o)) :
    outcome (attach l) e s = (.error (.failed (.breach .assertion)), s) := by
  have hfail : s.asm.attach l = .error .assertion := by
    simp [Assembler.attach, Breach.get, h, bind, Except.bind]
  show outcome (assume (s.asm.attach l) >>= fun asm => set { s with asm }) e s = _
  rw [hfail]
  rfl

/-! ### The same, while a node is lowered -/

lemma AlikeAt.of_alike {t₁ t₂ : State} (hs : AlikeAt c w s₁ s₂) (h : Alike c w' t₁ t₂)
    (h₁ : t₁.current = s₁.current ∧ t₁.position = s₁.position)
    (h₂ : t₂.current = s₂.current ∧ t₂.position = s₂.position) : AlikeAt c w' t₁ t₂ where
  toAlike := h
  current := by rw [h₂.1, h₁.1, hs.current]
  position := by rw [h₂.2, h₁.2, hs.position]
  member := h₁.1 ▸ hs.member

namespace Similar

/-- Instructions are emitted at corresponding places. -/
lemma emit (i : Inst) : Similar c ls (Shifted c.t₁.asm.offset c.t₂.asm.offset) (emit i) (emit i) :=
  fun w _ _ hs _ => .ok ⟨hs.puts.offset, w, .refl w,
    hs.of_alike (hs.toAlike.emit i) ⟨rfl, rfl⟩ ⟨rfl, rfl⟩⟩

@[simp] lemma emit' (i : Inst) : Similar c ls Eq (Lowering.emit' i) (Lowering.emit' i) :=
  discard (emit i)

/-- Instructions with fields are emitted at corresponding places. -/
lemma both_emitReloc {i : Inst} {t u : RelocTarget} (hf : Assembler.RelocTarget.fits t i = true)
    (hf' : Assembler.RelocTarget.fits u i = true) (hs : AlikeAt c w s₁ s₂)
    (h : TargetAlike (c.Renames w) t u) : Both c s₁ s₂ (emitReloc i t) (emitReloc i u)
      (fun a b t₁ t₂ => Shifted c.t₁.asm.offset c.t₂.asm.offset a b ∧
        ∃ w', w.Grows w' ∧ AlikeAt c w' t₁ t₂) fun t₁ t₂ => ∃ w', w.Grows w' ∧ AlikeAt c w' t₁ t₂ := by
  obtain ⟨a, ha, hadds, hl⟩ := Assembler.adds_emitReloc (a := s₁.asm) hf
  obtain ⟨b, hb, hadds', hl'⟩ := Assembler.adds_emitReloc (a := s₂.asm) hf'
  have hemit : ∀ {e : Env} {s : State} {u : RelocTarget} {a : Assembler},
      s.asm.emitReloc i u = .ok a → Leads e s (emitReloc i u)
        (fun o s' => o = s.asm.offset ∧ s' = { s with asm := a }) (fun _ => False)
        fun _ _ => False := by
    intro e s u a ha
    simp only [Lowering.emitReloc, leads_bind, leads_get, ha, leads_assume_ok]
    exact ⟨rfl, rfl⟩
  refine Both.of_leads (hemit ha) (hemit hb) ?_
  rintro _ _ _ _ ⟨rfl, rfl⟩ ⟨rfl, rfl⟩
  exact ⟨hs.puts.offset, w, .refl w, hs.of_alike
      (hs.toAlike.addCode hadds hadds' hl hl' (.reloc i h)) ⟨rfl, rfl⟩ ⟨rfl, rfl⟩⟩

lemma emitReloc {i : Inst} {t u : RelocTarget} (hf : Assembler.RelocTarget.fits t i = true)
    (hf' : Assembler.RelocTarget.fits u i = true)
    (h : ∀ w, ls ⊆ w.code → TargetAlike (c.Renames w) t u) :
    Similar c ls (Shifted c.t₁.asm.offset c.t₂.asm.offset) (emitReloc i t) (emitReloc i u) :=
  fun w _ _ hs hls => both_emitReloc hf hf' hs (h w hls)

lemma emitReloc_call (x : ExternalTarget) : Similar c ls (Shifted c.t₁.asm.offset c.t₂.asm.offset)
    (Lowering.emitReloc (.call 0) (.external x)) (Lowering.emitReloc (.call 0) (.external x)) :=
  emitReloc rfl rfl fun _ _ => rfl

@[simp] lemma jcc (k : Cond) {l m : Label} (h : c.Known ls l m) :
    Similar c ls Eq (jcc k l) (jcc k m) :=
  discard (emitReloc rfl rfl fun _ hls => h.renames hls)

@[simp] lemma jmp {l m : Label} (h : c.Known ls l m) : Similar c ls Eq (jmp l) (jmp m) :=
  discard (emitReloc rfl rfl fun _ hls => h.renames hls)

/-- Labels that are made together go together. -/
lemma bindNewLabel {f g : Label → Lower α} {R : α → α → Prop}
    (hf : ∀ l m, Similar c ((l, m) :: ls) R (f l) (g m)) :
    Similar c ls R (newLabel >>= f) (newLabel >>= g) := by
  intro w s₁ s₂ hs hls
  have hnew := hs.of_alike hs.toAlike.newLabel ⟨rfl, rfl⟩ ⟨rfl, rfl⟩
  refine Both.bind (.ok ((hf _ _ _ _ _ hnew ?_).mono ?_ ?_))
  · exact List.cons_subset_cons _ hls
  · rintro a b t₁ t₂ ⟨hab, w', hw, ht⟩
    exact ⟨hab, w', (w.grows_code _).trans hw, ht⟩
  · rintro t₁ t₂ ⟨w', hw, ht⟩
    exact ⟨w', (w.grows_code _).trans hw, ht⟩

lemma attached_newLabel (s : State) :
    State.attached { s with asm := s.asm.newLabel.2 } s.asm.labels.size =
      { s with asm := s.asm.here.2 } := by
  have hset : (s.asm.labels.push none).set! s.asm.labels.size (some s.asm.offset) =
      s.asm.labels.push (some s.asm.offset) := by
    rw [Array.set!_eq_setIfInBounds]
    apply Array.ext_getElem?
    intro i
    rw [Array.getElem?_setIfInBounds, Array.getElem?_push, Array.getElem?_push]
    by_cases h : s.asm.labels.size = i
    · simp [h]
    · simp [h, Ne.symm h]
  exact congrArg (fun labels => ({ s with
    asm := { s.asm.comment ("l" ++ toString s.asm.labels.size) with labels } } : State)) hset

/-- Labels that are made for the current places go together. -/
lemma bindHere {f g : Label → Lower α} {R : α → α → Prop}
    (hf : ∀ l m, Similar c ((l, m) :: ls) R (f l) (g m)) :
    Similar c ls R (here >>= f) (here >>= g) := by
  intro w s₁ s₂ hs hls
  have hnew := hs.toAlike.newLabel.attach (l := s₁.asm.labels.size) (m := s₂.asm.labels.size)
    List.mem_cons_self (by simp [Assembler.newLabel]) (by simp [Assembler.newLabel])
  rw [attached_newLabel, attached_newLabel] at hnew
  have hnew := hs.of_alike hnew ⟨rfl, rfl⟩ ⟨rfl, rfl⟩
  refine Both.bind (.ok ((hf _ _ _ _ _ hnew ?_).mono ?_ ?_))
  · exact List.cons_subset_cons _ hls
  · rintro a b t₁ t₂ ⟨hab, w', hw, ht⟩
    exact ⟨hab, w', (w.grows_code _).trans hw, ht⟩
  · rintro t₁ t₂ ⟨w', hw, ht⟩
    exact ⟨w', (w.grows_code _).trans hw, ht⟩

@[simp] lemma attach {l m : Label} (h : (l, m) ∈ ls) : Similar c ls Eq (attach l) (attach m) := by
  intro w s₁ s₂ hs hls
  obtain ⟨k, hl, hm⟩ := hs.labels.placed (hls h)
  have hl : s₁.asm.labels[l]? = _ := hl
  have hm : s₂.asm.labels[m]? = _ := hm
  unfold Both
  cases k with
  | some k =>
    rw [outcome_attach_again hl, outcome_attach_again hm]
    exact .failed _ _ _
  | none =>
    rw [outcome_attach hl, outcome_attach hm]
    exact .ok ⟨rfl, w, .refl w, hs.of_alike (hs.toAlike.attach (hls h) hl hm) ⟨rfl, rfl⟩ ⟨rfl, rfl⟩⟩

@[simp] lemma comment (text text' : String) :
    Similar c ls Eq (comment text) (comment text') :=
  fun w _ _ hs _ => .ok ⟨rfl, w, .refl w,
    hs.of_alike (hs.toAlike.comment text text') ⟨rfl, rfl⟩ ⟨rfl, rfl⟩⟩

@[simp] lemma loadDoubleConstant (f : Fpr) (x : Double) :
    Similar c ls Eq (loadDoubleConstant f x) (loadDoubleConstant f x) := by
  intro w s₁ s₂ hs hls
  refine Both.of_leads (leads_loadDoubleConstant hs.labels.sound₁ f x)
    (leads_loadDoubleConstant hs.labels.sound₂ f x) ?_
  rintro _ _ _ _ ⟨l, t, a, loads, rfl, hal, hadds, hint⟩ ⟨m, u, b, loads', rfl, hbl, hadds', hint'⟩
  refine ⟨rfl, _, w.grows_pool (l, m), hs.of_alike ?_ ⟨rfl, rfl⟩ ⟨rfl, rfl⟩⟩
  have hputs := (hs.puts.mono fun _ _ h => h.mono (w.grows_pool (l, m))).addCode hadds hadds'
    (.cons (.reloc _ (.pool List.mem_cons_self)) .nil)
  exact { hs.toAlike with
    puts := { hputs with }
    labels := by
      have h := hs.labels.intern hint hint'
      rw [State.labelTable, State.labelTable]
      dsimp only
      rw [hal, hbl]
      exact h }

end Similar

end Lowering
end Speculation
