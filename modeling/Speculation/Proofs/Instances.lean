import Speculation.Proofs.Running.Compiled
import Speculation.Proofs.Running.Instances

/-!
Tests for a prototype in compiled code.

A heap that was made by operations on objects has no chain of prototypes without an end. So wherever a
compile takes up a test for a prototype, and whatever machine is consistent with the ledger there and
has such a heap in its memory, the code comes to an end, with the right answer.
-/

namespace Speculation

open Lowering World

def Draft.testing : Draft :=
  let d : Draft := { name := "testing", kind := .function }
  let d := ((d.addArgument .top .value).2.addArgument .cell .value).2.addBlock.select 0
  let d := (d.addNode (.getLocal 0) [] .top).2
  let d := (d.addNode (.getLocal 1) [] .cell).2
  let d := (d.addNode .instanceOf [0, 1] .boolean).2
  (d.addNode .ret [2] .boolean).2

lemma Draft.built_testing : Draft.testing.Built := by
  refine Built.addNode (Built.addNode (Built.addNode (Built.addNode ?_ ?_ _ _ _ _) ?_ _ _ _ _)
    ?_ _ _ _ _) ?_ _ _ _ _
  · exact (((Built.new _ _).addArgument _ _).addArgument _ _).addBlock.select _
  all_goals decide +kernel

namespace Plan

variable {w : World} {cells : List Value} {p : Plan} {frame : FrameLayout} {b : BlockId} {j : Nat}
  {n : NodeId} {d : Node} {s : State} {c : Site} {val : NodeId → Value} {r : Registers} {mem : Memory}
  {e₀ e₁ : Edge} {u v : Value}

/-- A compile has taken up a test of the value of `e₀` for that of `e₁`, which is a cell, and a machine
that is consistent with the ledger there has the heap of the world in its memory. -/
structure Tests (p : Plan) (w : World) (frame : FrameLayout) (b : BlockId) (j : Nat) (n : NodeId)
    (d : Node) (s : State) (c : Site) (val : NodeId → Value) (r : Registers) (mem : Memory)
    (e₀ e₁ : Edge) : Prop where
  draft : ∃ g : Draft, g.Built ∧ g.finish = .ok p.graph
  compiled : ∃ base, (p.compile base).outcome = .ok c.artifact
  loaded : c.Loaded
  taken : p.TakesUp frame b j n d s
  op : d.op = .instanceOf
  first : d.children[0]? = some e₀
  second : d.children[1]? = some e₁
  stands : Stands val s.ledger r mem
  heap (x : UInt64) (hle : Memory.heapBase ≤ x.toNat) (hlt : x.toNat < w.memory.next) :
    r.Beyond p.graph x ∧ mem.byte? x = w.memory.byte? x
  told₀ : Told p.graph val s e₀
  told₁ : Told p.graph val s e₁
  cell : (val e₁.node).isCell = true

/-- **Tests for a prototype end with the right answer.** Along the way that cells were made the chain
of prototypes of every cell has an end, and does not come back to the cell; so every search for a
property ends. The code of a test finds whether the second operand is on the chain of the first one. A
first operand that is no cell has no chain; if it has to be one, the code leaves. -/
theorem instanceOf_answered (hw : w.Grown cells) :
    (∀ v, Existing cells v → ∃ ps, w.Ancestors v ps ∧ v ∉ ps) ∧
    (∀ v name, (v.isCell = true → Existing cells v) → ∃ z, runs (getProperty v name) w = (.ok z, w)) ∧
    ∀ p frame b j n d s c val r mem e₀ e₁, Tests p w frame b j n d s c val r mem e₀ e₁ → ∀ ps,
      ((val e₀.node).isCell = true → Existing cells (val e₀.node) ∧ w.Ancestors (val e₀.node) ps) →
      c.Yields (p.env frame) val j n d s r mem .jsBoolean
        (e₀.instanceOf (val e₀.node) (val e₁.node) ps) := by
  obtain ⟨h, hsettled⟩ := hw.settled
  have hhouses := hsettled.sound.houses
  refine ⟨fun v hv => ?_, fun v name hv => hw.getProperty hv name, ?_⟩
  · obtain ⟨x, hx⟩ := hsettled.cell hv
    obtain ⟨ps, hl⟩ := hsettled.line hx
    exact ⟨ps, hhouses.ancestors hl, hl.not_mem⟩
  intro p frame b j n d s c val r mem e₀ e₁ ht ps hps
  obtain ⟨g, hd, hg⟩ := ht.draft
  obtain ⟨base, hcompile⟩ := ht.compiled
  have hline : (val e₀.node).isCell = true → h.Line (val e₀.node) ps := by
    intro hcell
    obtain ⟨hexisting, hancestors⟩ := hps hcell
    obtain ⟨x, hx⟩ := hsettled.cell hexisting
    obtain ⟨qs, hl⟩ := hsettled.line hx
    rw [hancestors.unique (hhouses.ancestors hl)]
    exact hl
  refine ht.taken.yields hd hg hcompile ht.loaded rfl (by rw [ht.op]; rfl) (by simp [ht.op]) ?_
  intro final before k hk hu
  rw [ht.op]
  exact Course.Ends.lowerInstanceOf hk hu ht.taken.node ht.first ht.second ht.stands
    (hhouses.memory.aside ht.heap)
    ⟨ht.told₀.constant, ht.told₀.proven, ht.told₀.admits, ht.told₀.plain, ht.told₀.nonempty⟩
    ⟨ht.told₁.constant, ht.told₁.proven, ht.told₁.admits, ht.told₁.plain, ht.told₁.nonempty⟩
    ht.cell hline

/-! ### An object and its prototype -/

/-- Registers with two values, on the stack. -/
def holding (u v : Value) : Registers := (onStack.setGpr .first u.bits).setGpr .second v.bits

def withStack (w : World) : Memory :=
  w.memory.map (Memory.stackTop - Memory.stackSize) Memory.stackSize

lemma slot_holding (u v : Value) (i : Nat) : (holding u v).slot i = onStack.slot i :=
  Registers.slot_eq (by rw [holding, Registers.gpr_setGpr, if_neg (by decide), Registers.gpr_setGpr,
    if_neg (by decide)]) i

/-- Where the heap ends before the stack, the stack is mapped, and the heap is what it was. -/
lemma byte?_withStack {h : Heap} (hw : w.Sound 281474976710656 h) (hnext : w.memory.next ≤ 0x20000000) :
    (∀ i < 23, (withStack w).Mapped (onStack.slot i) 8) ∧
    ∀ x : UInt64, x.toNat < w.memory.next → (withStack w).byte? x = w.memory.byte? x := by
  have htop := World.stackTop_eq
  have hsize := World.stackSize_eq
  have hpage := Memory.pageSize_eq
  have hword : UInt64.size = 18446744073709551616 := rfl
  refine ⟨fun i hi k hk => ?_, fun x hx => ?_⟩
  · obtain ⟨hlow, hhigh⟩ := slot_onStack hi hk
    have hfresh := hw.houses.memory.fresh (a := onStack.slot i + UInt64.ofNat k) (by omega)
      (by omega)
    rcases hfresh with hno | hzero
    · rw [htop, hsize] at hlow
      rw [withStack, Memory.byte?_map (by omega), hno, if_neg Bool.false_ne_true, htop, hsize, hpage,
        if_pos (by omega)]
      rfl
    · rw [withStack, Memory.byte?_map_of_isSome (by omega) (by rw [hzero]; rfl), hzero]
      rfl
  · refine Memory.byte?_map_of_lt (by omega) (.inl ?_)
    rw [hpage, htop, hsize]
    omega

def beforeTest : State := (ofDraft .testing).stateAt ⟨3, 28⟩ 0 2

variable {u v : Value}

def InRegisters (ledger : Array ValueInfo) : Prop :=
  ledger.size = 3 ∧ ∀ x ∈ ledger, x.spillFormat = .none ∧
    (x.location = .none ∧ x.registerFormat = .none ∨ x.registerFormat = .js ∧
      (x.node = some 0 ∧ x.location = .gpr .first ∨ x.node = some 1 ∧ x.location = .gpr .second))

instance (ledger : Array ValueInfo) : Decidable (InRegisters ledger) := inferInstanceAs (Decidable (_ ∧ _))

lemma stands_holding {ledger : Array ValueInfo} (h : InRegisters ledger)
    (hmap : ∀ i < 23, mem.Mapped (onStack.slot i) 8) :
    Stands (fun n => if n = 0 then u else v) ledger (holding u v) mem where
  numberTag := rfl
  tagMask := rfl
  small := by
    rw [h.1]
    decide
  mapped hi := by
    rw [slot_holding]
    exact hmap _ (by have := h.1; omega)
  register {i x n} hx hn hl := by
    obtain ⟨-, ⟨hnone, -⟩ | ⟨hf, ⟨hnode, hloc⟩ | ⟨hnode, hloc⟩⟩⟩ := h.2 x (Array.mem_of_getElem? hx)
    · exact absurd hnone hl
    · rw [hf, hloc, Option.some.inj (hn.symm.trans hnode)]
      rfl
    · rw [hf, hloc, Option.some.inj (hn.symm.trans hnode)]
      rfl
  double {i x f} hx hl := by
    obtain ⟨-, ⟨hnone, -⟩ | ⟨-, ⟨-, hloc⟩ | ⟨-, hloc⟩⟩⟩ := h.2 x (Array.mem_of_getElem? hx)
    all_goals simp_all
  slot hx hn hf := absurd (h.2 _ (Array.mem_of_getElem? hx)).1 hf

/-- The values of the arguments are in registers. -/
lemma ledger_beforeTest : InRegisters beforeTest.ledger := by decide +kernel

/-- Arguments that are cells are what the compile takes them for. -/
lemma told_testing (hu : u.isCell = true) (hv : v.isCell = true) {e : Edge}
    (hnode : e.node < 2) :
    Told (ofDraft .testing).graph (fun n => if n = 0 then u else v) beforeTest e where
  constant h := by
    have hnone : ∀ n < 2, (ofDraft .testing).graph.valueConstant n = .ok none := by decide +kernel
    rw [hnone _ hnode] at h
    cases h
  proven _ := by
    split
    · exact hu
    · exact hv
  admits _ := by
    have hadmits : ∀ n < 2, (beforeTest.facts.known n).intersects .cell = true := by decide +kernel
    exact hadmits _ hnode
  plain i x hx _ := by
    obtain ⟨hs, ⟨-, hf⟩ | ⟨hf, -⟩⟩ := ledger_beforeTest.2 x (Array.mem_of_getElem? hx)
    all_goals
      rw [hs, hf]
      exact ⟨nofun, nofun⟩
  nonempty := by
    split
    · rintro rfl
      cases hu
    · rintro rfl
      cases hv

lemma apart_onStack {x : UInt64} {i : Nat} (hi : i < 23) (hx : x.toNat < 0x20000000) :
    8 ≤ (x - onStack.slot i).toNat := by
  have hstack := slot_onStack hi (k := 0) (by decide)
  have htop := World.stackTop_eq
  have hsize := World.stackSize_eq
  rw [show onStack.slot i + UInt64.ofNat 0 = onStack.slot i from UInt64.add_zero _] at hstack
  rw [UInt64.toNat_sub]
  omega

lemma beyond_onStack {x : UInt64} {g : Graph} (hslots : ∀ d ∈ g.nodes, d.slot = none ∨
    ∃ i < 3, d.slot = some (.ofLocal i)) (hx : x.toNat < 0x20000000) : onStack.Beyond g x := by
  intro n d i hd hi
  obtain hnone | ⟨j, hj, hslot⟩ := hslots d (Array.mem_of_getElem? hd)
  · rw [hi] at hnone
    cases hnone
  have hij : onStack.slot i = onStack.slot j := by
    show onStack.address (FrameLayout.address (.ofLocal i)) = _
    rw [Option.some.inj (hi.symm.trans hslot)]
    rfl
  rw [hij]
  exact apart_onStack (by omega) hx

lemma beyond_holding {x : UInt64} {g : Graph} (hslots : ∀ d ∈ g.nodes, d.slot = none ∨
    ∃ i < 3, d.slot = some (.ofLocal i)) (hx : x.toNat < 0x20000000) : (holding u v).Beyond g x := by
  intro n d i hd hi
  rw [slot_holding]
  exact beyond_onStack hslots hx hd hi

/-- An object can be made, and then one that has it as its prototype. -/
lemma exists_child : ∃ (w : World) (u v : Value) (ps : List Value), w.Grown [u, v] ∧
    w.memory.next ≤ 0x20000000 ∧ u.isCell = true ∧ v.isCell = true ∧ w.Ancestors u (v :: ps) := by
  obtain ⟨h, -, -, hs, hnext, -⟩ := lettered_start 281474976710656 (by decide) (Nat.le_refl _)
  have hbase : Memory.heapBase = 268435456 := rfl
  have hstart : startSize = 32768 := rfl
  have hsize : Layout.structureSize + Layout.cellSize = 104 := rfl
  have hcost : ∀ p, (Act.operate (.object p)).cost = 104 := fun _ => rfl
  obtain ⟨c₁, s₁, w₁, h₁, hrun₁, -, hmade₁, -⟩ :=
    hs.runs_newObject (show Value.null.bits ≠ Structure.stringKey by decide) (by omega)
  have hgrown₁ : w₁.Grown [.ofCell c₁] :=
    .step .start (show (Act.operate (.object .null)).Legal [] from .inl rfl) (by rw [hcost]; omega)
      (runs_bind_of_ok hrun₁)
  have hhouses₁ := hmade₁.sound.houses.memory
  have hnext₁ := hmade₁.grows.next
  have hcell₁ : (Value.ofCell c₁).isCell = true := hhouses₁.isCell hmade₁.cell
  have hkey : (Value.ofCell c₁).bits ≠ Structure.stringKey := by
    have hlow := hhouses₁.lt (Heap.cell?_eq_some.mp hmade₁.cell)
    have hhigh : Structure.stringKey.toNat = 18446744073709551615 := rfl
    rintro rfl
    omega
  obtain ⟨c₂, s₂, w₂, h₂, hrun₂, -, hmade₂, -⟩ :=
    hmade₁.sound.runs_newObject hkey (by omega)
  have hgrown₂ : w₂.Grown [.ofCell c₂, .ofCell c₁] :=
    .step hgrown₁ (show (Act.operate (.object (.ofCell c₁))).Legal _ from .inr (.inl List.mem_cons_self))
      (by rw [hcost]; omega) (runs_bind_of_ok hrun₂)
  have hhouses₂ := hmade₂.sound.houses.memory
  have hnext₂ := hmade₂.grows.next
  have hproto : runs (prototype (.ofCell c₂)) w₂ = (.ok (.ofCell c₁), w₂) :=
    hhouses₂.runs_prototype (v := .ofCell c₂) hmade₂.cell hmade₂.kind
  obtain ⟨ps, hps⟩ := hgrown₂.ancestors (v := .ofCell c₁) (.inl (by simp))
  exact ⟨w₂, .ofCell c₂, .ofCell c₁, ps, hgrown₂, by omega, hhouses₂.isCell (v := .ofCell c₂) hmade₂.cell,
    hcell₁, .next hproto hcell₁ hps⟩

theorem instanceOf_answered_child : ∃ (w : World) (u v : Value) (c : Site), w.Grown [u, v] ∧
    ((ofDraft .testing).compile 0x7e0000000000).outcome = .ok c.artifact ∧
    c.Yields ((ofDraft .testing).env ⟨3, 28⟩) (fun n => if n = 0 then u else v) 2 2
      ((ofDraft .testing).nodeAt 2) beforeTest (holding u v) (withStack w) .jsBoolean
      (.ok (.ofBool true)) := by
  obtain ⟨a, c, hcompile, hc, rfl, -⟩ := exists_loaded (ofDraft .testing) 0x7e0000000000
    (by decide +kernel) (by decide)
  obtain ⟨w, u, v, ps, hw, hnext, hu, hv, hps⟩ := exists_child
  obtain ⟨h, hsettled⟩ := hw.settled
  obtain ⟨hmap, hsame⟩ := byte?_withStack hsettled.sound hnext
  have hnode : ((ofDraft .testing).nodeAt 2).op = .instanceOf ∧
      ((ofDraft .testing).nodeAt 2).children[0]? = some { node := 0, kind := .untyped } ∧
      ((ofDraft .testing).nodeAt 2).children[1]? = some { node := 1, kind := .cell } := by
    decide +kernel
  have ht : (ofDraft .testing).TakesUp ⟨3, 28⟩ 0 2 2 ((ofDraft .testing).nodeAt 2) beforeTest :=
    takesUp_of_isOk (by decide +kernel) (by decide +kernel) (by decide +kernel) (by decide +kernel)
      (by decide +kernel) (by decide +kernel)
  have hyields := (instanceOf_answered hw).2.2 (ofDraft .testing) ⟨3, 28⟩ 0 2 2 _ beforeTest c
    (fun n => if n = 0 then u else v) (holding u v) (withStack w) _ _
    { draft := ⟨.testing, Draft.built_testing, finish_ofDraft (by decide +kernel)⟩
      compiled := ⟨_, hcompile⟩
      loaded := hc
      taken := ht
      op := hnode.1
      first := hnode.2.1
      second := hnode.2.2
      stands := stands_holding ledger_beforeTest hmap
      heap := fun x _ hlt => ⟨beyond_holding (by decide +kernel) (by omega), hsame x hlt⟩
      told₀ := told_testing hu hv (by decide)
      told₁ := told_testing hu hv (by decide)
      cell := hv } (v :: ps) fun _ => ⟨.inl List.mem_cons_self, hps⟩
  have hchild : ({ node := 0, kind := .untyped } : Edge).instanceOf u v (v :: ps) =
      .ok (.ofBool true) := by
    rw [Edge.instanceOf, if_pos hu, decide_eq_true List.mem_cons_self]
  exact ⟨w, u, v, c, hw, hcompile, hchild ▸ hyields⟩

end Plan
end Speculation
