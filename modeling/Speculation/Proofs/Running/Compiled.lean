import Speculation.Proofs.Compile.Success
import Speculation.Proofs.Running.Arith
import Speculation.Proofs.Running.Visits
import Speculation.Proofs.World.Pages

/-!
Integer arithmetic in compiled code.

Wherever a compile takes up an operation on integers, and whatever machine is consistent with the
ledger there, the code gives the result that it should or leaves through the right exit. It never
faults.
-/

namespace Speculation

open Lowering

def Draft.onConstants (op : Op) (x y : Int32) : Draft :=
  let d := ({ name := "constants", kind := .program : Draft }).addBlock.select 0
  let d := (d.addNode (.constant (.ofInt32 x)) [] .int32).2
  let d := (d.addNode (.constant (.ofInt32 y)) [] .int32).2
  let d := (d.addNode op [0, 1] .int32).2
  (d.addNode .ret [2] .int32).2

lemma Draft.built_onConstants (op : Op) (x y : Int32) : (Draft.onConstants op x y).Built := by
  refine Built.addNode (Built.addNode (Built.addNode (Built.addNode ?_ ?_ _ _ _ _) ?_ _ _ _ _)
    ?_ _ _ _ _) ?_ _ _ _ _
  · exact ((Built.new _ _).addBlock).select _
  · exact (by decide : 0 < UInt32.size)
  · exact (by decide : 1 < UInt32.size)
  · exact (by decide : 2 < UInt32.size)
  · exact (by decide : 3 < UInt32.size)

lemma Stands.of_constants {val : NodeId → Value} {ledger : Array ValueInfo} {r : Registers}
    {mem : Memory} (hn : r.gpr .numberTag = Value.numberTag) (hm : r.gpr .tagMask = Value.cellMask)
    (hs : ledger.size ≤ 268435456) (hmap : ∀ i < ledger.size, mem.Mapped (r.slot i) 8)
    (h : ∀ x ∈ ledger, x.location = .none ∧ x.spillFormat = .none) : Stands val ledger r mem where
  numberTag := hn
  tagMask := hm
  small := hs
  mapped hi := hmap _ hi
  register hx _ hl := absurd (h _ (Array.mem_of_getElem? hx)).1 hl
  double hx hl := by
    rw [(h _ (Array.mem_of_getElem? hx)).1] at hl
    cases hl
  slot hx _ hf := absurd (h _ (Array.mem_of_getElem? hx)).2 hf

namespace Plan

variable {p : Plan} {g : Draft} {base : UInt64} {a : Artifact} {frame : FrameLayout} {b : BlockId}
  {j : Nat} {n : NodeId} {d : Node} {s : State} {c : Site} {val : NodeId → Value} {r : Registers}
  {mem : Memory}

section Constants

def onConstants (op : Op) (x y : Int32) : Plan := ofDraft (.onConstants op x y)

def beforeOperation (op : Op) (x y : Int32) : State :=
  (outcome (lowerUpTo 0 2) ((onConstants op x y).env ⟨3, 28⟩) (onConstants op x y).start).2

def operation (op : Op) (x y : Int32) : Node := ((onConstants op x y).graph.nodes[2]?).getD default

/-- What was compiled can be loaded. -/
lemma exists_loaded (p : Plan) (base : UInt64) (h : (p.sketch base).isSome = true)
    (hroom : base.toNat + p.options.codeLimit < UInt64.size) :
    ∃ (a : Artifact) (c : Site), (p.compile base).outcome = .ok a ∧ c.Loaded ∧ c.artifact = a ∧
      c.world.blocks = #[(p.compile base).block] := by
  obtain ⟨⟨a, b⟩, hs⟩ := Option.isSome_iff_exists.mp h
  obtain ⟨code, ha, -⟩ := exists_compiled hs
  obtain ⟨-, hbase, -, hsize⟩ := compile_bounds ha
  generalize { a with code } = a' at ha hbase hsize
  let w : World := { artifacts := #[a'], blocks := #[(p.compile base).block] }
  refine ⟨a', { world := w, code := 0, artifact := a' }, ha, ⟨rfl, ?_⟩, rfl, rfl⟩
  show a'.base.toNat + a'.code.size < _
  rw [hbase]
  omega

/-- It finds its code block. -/
lemma block_of_loaded {p : Plan} {base : UInt64} {a : Artifact} {c : Site}
    (h : (p.compile base).outcome = .ok a) (hid : p.blockId = 0)
    (hblocks : c.world.blocks = #[(p.compile base).block]) :
    c.world.blocks[a.block]? = some (p.compile base).block := by
  rw [hblocks, (compile_bounds h).1, hid]
  rfl

def stateAt (p : Plan) (frame : FrameLayout) (b : BlockId) (j : Nat) : State :=
  (outcome (lowerUpTo b j) (p.env frame) p.start).2

def nodeAt (p : Plan) (n : NodeId) : Node := (p.graph.nodes[n]?).getD default

lemma takesUp_of_isOk {m k : Nat}
    (hframe : (FrameLayout.ofGraph p.graph).toOption.map
      (fun f => (f.numLocals, f.frameSlots)) = some (m, k))
    (hblock : p.graph.blocks[b]?.map (fun b => (b.reachable, b.nodes[j]?)) = some (true, some n))
    (hnode : p.graph.nodes[n]?.isSome = true) (hgen : (p.nodeAt n).shouldGenerate = true)
    (hok : (outcome (lowerUpTo b j) (p.env ⟨m, k⟩) p.start).1.isOk = true)
    (hskip : (p.stateAt ⟨m, k⟩ b j).skipNext = false) :
    p.TakesUp ⟨m, k⟩ b j n (p.nodeAt n) (p.stateAt ⟨m, k⟩ b j) where
  framed := by
    rcases hf : FrameLayout.ofGraph p.graph with _ | ⟨m, k⟩
    · rw [hf] at hframe
      cases hframe
    · rw [hf] at hframe
      cases hframe
      rfl
  block := by
    obtain ⟨blk, hb, h⟩ := Option.map_eq_some_iff.mp hblock
    exact ⟨blk, hb, congrArg Prod.fst h, congrArg Prod.snd h⟩
  node := by
    obtain ⟨d, hd⟩ := Option.isSome_iff_exists.mp hnode
    rw [nodeAt, hd]
    rfl
  generated := hgen
  lowered := by
    rcases hs : outcome (lowerUpTo b j) (p.env ⟨m, k⟩) p.start with ⟨_ | labels, s⟩
    · rw [hs] at hok
      cases hok
    · rw [stateAt, hs]
      exact ⟨labels, rfl⟩
  taken := hskip

/-- Registers of a machine with its frame on the stack. -/
def onStack : Registers :=
  ((({} : Registers).setGpr .frame 0x6ff80000).setGpr .numberTag Value.numberTag).setGpr .tagMask
    Value.cellMask

variable {op : Op} {x y : Int32} {val : NodeId → Value}

/-- Three values and the registers that are saved have slots on the stack. -/
lemma slot_onStack {i k : Nat} (hi : i < 23) (hk : k < 8) : Memory.stackTop - Memory.stackSize ≤
    (onStack.slot i + UInt64.ofNat k).toNat ∧ (onStack.slot i + UInt64.ofNat k).toNat < Memory.stackTop := by
  have hin : ∀ i < 23, ∀ k < 8, Memory.stackTop - Memory.stackSize ≤
      (onStack.slot i + UInt64.ofNat k).toNat ∧
      (onStack.slot i + UInt64.ofNat k).toNat < Memory.stackTop := by decide +kernel
  exact hin i hi k hk

lemma mapped_onStack {i : Nat} (h : i < 23) : Memory.new.Mapped (onStack.slot i) 8 := by
  intro k hk
  rw [Memory.byte?_new, if_pos (slot_onStack h hk)]
  rfl

lemma stands_onStack {ledger : Array ValueInfo} (h : ledger.size = 3 ∧
    ∀ z ∈ ledger, z.location = .none ∧ z.spillFormat = .none) : Stands val ledger onStack .new :=
  .of_constants (by decide +kernel) (by decide +kernel) (by rw [h.1]; decide)
    (fun i hi => mapped_onStack (by omega)) h.2

lemma takesUp_operation
    (hframe : (FrameLayout.ofGraph (onConstants op x y).graph).toOption.map
      (fun f => (f.numLocals, f.frameSlots)) = some (3, 28))
    (hblock : (onConstants op x y).graph.blocks[0]?.map (fun b => (b.reachable, b.nodes[2]?)) =
      some (true, some 2))
    (hnode : (onConstants op x y).graph.nodes[2]?.isSome = true)
    (hgen : (operation op x y).shouldGenerate = true)
    (hok : (outcome (lowerUpTo 0 2) ((onConstants op x y).env ⟨3, 28⟩)
      (onConstants op x y).start).1.isOk = true)
    (hskip : (beforeOperation op x y).skipNext = false) :
    (onConstants op x y).TakesUp ⟨3, 28⟩ 0 2 2 (operation op x y) (beforeOperation op x y) :=
  takesUp_of_isOk hframe hblock hnode hgen hok hskip

lemma integers_operation
    (hkids : ∀ j < 2, ((operation op x y).children[j]?.map fun e => (e.node, isInt e)) =
      some (j, true))
    (hconstant : (onConstants op x y).graph.valueConstant 0 = .ok (some (.ofInt32 x)) ∧
      (onConstants op x y).graph.valueConstant 1 = .ok (some (.ofInt32 y)))
    (hfacts : ∀ j < 2, ((beforeOperation op x y).facts.known j).intersects .int32 = true) :
    Course.Integers (onConstants op x y).graph (fun n => .ofInt32 (if n = 0 then x else y))
      (beforeOperation op x y).facts (operation op x y) [x, y] := by
  intro j z hz
  have hj : j < 2 := (List.getElem?_eq_some_iff.mp hz).1
  obtain ⟨e, he, hkid⟩ := Option.map_eq_some_iff.mp (hkids j hj)
  obtain ⟨hnode, hint⟩ := Prod.mk.inj hkid
  refine ⟨e, he, hint, ?_⟩
  have hvalue : Value.ofInt32 (if e.node = 0 then x else y) = .ofInt32 z ∧
      (onConstants op x y).graph.valueConstant e.node = .ok (some (.ofInt32 z)) := by
    obtain rfl | rfl : j = 0 ∨ j = 1 := by omega
    all_goals
      rw [hnode]
      cases hz
    · exact ⟨rfl, hconstant.1⟩
    · exact ⟨rfl, hconstant.2⟩
  exact {
    value := hvalue.1
    constant := fun hv => Option.some.inj (Except.ok.inj (hv.symm.trans hvalue.2))
    admits := hnode ▸ hfacts j hj }

end Constants

/-- Division and remainder of integers are guarded completely. The code of a division or a remainder
comes to its end with what `Integer.quotient` or `Integer.remainder` says, or leaves through an exit
of the kind they say, and never divides where there is no quotient. -/
theorem division_guarded (hd : g.Built) (hg : g.finish = .ok p.graph)
    (h : (p.compile base).outcome = .ok a) (hc : c.Loaded) (ha : c.artifact = a)
    (ht : p.TakesUp frame b j n d s) (hs : Stands val s.ledger r mem) {x y : Int32}
    (hx : Course.Integers p.graph val s.facts d [x, y]) :
    (d.op = .arithDiv → c.Performs (p.env frame) val j n d s r mem
      (Integer.quotient d.flags.canTruncate d.flags.needsNegZero x.toInt y.toInt)) ∧
    (d.op = .arithMod → c.Performs (p.env frame) val j n d s r mem
      (Integer.remainder d.flags.canTruncate d.flags.needsNegZero x.toInt y.toInt)) := by
  refine ⟨fun hop => ?_, fun hop => ?_⟩
  · refine ht.performs hd hg h hc ha (by rw [hop]; rfl) (by simp [hop]) ?_
    intro final before k hk hu
    rw [hop]
    exact Course.Ends.lowerDiv ht.node hk hu hs hx
  · refine ht.performs hd hg h hc ha (by rw [hop]; rfl) (by simp [hop]) ?_
    intro final before k hk hu
    rw [hop]
    exact Course.Ends.lowerMod ht.node hk hu hs hx

theorem division_guarded_eight : ∃ (a : Artifact) (c : Site),
    ((onConstants .arithDiv 8 (-2)).compile 0x7e0000000000).outcome = .ok a ∧ c.artifact = a ∧
    c.Performs ((onConstants .arithDiv 8 (-2)).env ⟨3, 28⟩)
      (fun n => .ofInt32 (if n = 0 then 8 else -2)) 2 2 (operation .arithDiv 8 (-2))
      (beforeOperation .arithDiv 8 (-2)) onStack .new (.ok (-4)) := by
  obtain ⟨a, c, h, hc, ha, -⟩ := exists_loaded (onConstants .arithDiv 8 (-2)) 0x7e0000000000
    (by decide +kernel) (by decide)
  have ht : (onConstants .arithDiv 8 (-2)).TakesUp ⟨3, 28⟩ 0 2 2 _ _ :=
    takesUp_operation (by decide +kernel) (by decide +kernel) (by decide +kernel)
      (by decide +kernel) (by decide +kernel) (by decide +kernel)
  have hx : Course.Integers (onConstants .arithDiv 8 (-2)).graph _
      (beforeOperation .arithDiv 8 (-2)).facts (operation .arithDiv 8 (-2)) [8, -2] :=
    integers_operation (by decide +kernel) (by decide +kernel) (by decide +kernel)
  have hflags : (operation .arithDiv 8 (-2)).flags.canTruncate = false ∧
      (operation .arithDiv 8 (-2)).flags.needsNegZero = false ∧
      (operation .arithDiv 8 (-2)).op = .arithDiv := by decide +kernel
  have hperforms := (division_guarded (Draft.built_onConstants _ _ _)
    (finish_ofDraft (by decide +kernel)) h hc ha ht (stands_onStack (by decide +kernel))
    hx).1 hflags.2.2
  rw [hflags.1, hflags.2.1] at hperforms
  exact ⟨a, c, h, ha, hperforms⟩

/-- Other integer arithmetic is exact or leaves. -/
theorem arithmetic_exact (hd : g.Built) (hg : g.finish = .ok p.graph)
    (h : (p.compile base).outcome = .ok a) (hc : c.Loaded) (ha : c.artifact = a)
    (ht : p.TakesUp frame b j n d s) (hs : Stands val s.ledger r mem) :
    (∀ x y : Int32, Course.Integers p.graph val s.facts d [x, y] →
      (d.op = .arithMul → c.Performs (p.env frame) val j n d s r mem
        (Integer.exactly d.flags.canTruncate d.flags.needsNegZero (x.toInt * y.toInt)
          (x.toInt * y.toInt = 0 ∧ (x.toInt < 0 ∨ y.toInt < 0)))) ∧
      (d.op = .arithMin → c.Performs (p.env frame) val j n d s r mem
        (.ok (min x.toInt y.toInt))) ∧
      (d.op = .arithMax → c.Performs (p.env frame) val j n d s r mem
        (.ok (max x.toInt y.toInt)))) ∧
    ∀ x : Int32, Course.Integers p.graph val s.facts d [x] →
      (d.op = .arithNegate → c.Performs (p.env frame) val j n d s r mem
        (Integer.exactly d.flags.canTruncate d.flags.needsNegZero (-x.toInt) (x.toInt = 0))) ∧
      (d.op = .arithAbs → c.Performs (p.env frame) val j n d s r mem
        (Integer.exactly d.flags.canTruncate false |x.toInt| False)) := by
  have hperforms : ∀ {res}, d.op.isConstant = false → (∀ v, d.op ≠ .movHint v) →
      (∀ final before, let k : Course := ⟨p.env frame, c, final, val, n, before⟩
        k.Sound → Unborn p.graph n before → k.Ends [] (s.visiting j n d.op) (lowerNode d.op)
          ⟨.next, r, mem⟩ (k.Computes res) fun _ _ => False) →
      c.Performs (p.env frame) val j n d s r mem res :=
    fun hop hhint => ht.performs hd hg h hc ha hop hhint
  refine ⟨fun x y hx => ⟨fun hop => ?_, fun hop => ?_, fun hop => ?_⟩,
    fun x hx => ⟨fun hop => ?_, fun hop => ?_⟩⟩
  all_goals
    refine hperforms (by rw [hop]; rfl) (by simp [hop]) ?_
    intro final before k hk hu
    rw [hop]
  · exact Course.Ends.lowerMul ht.node hk hu hs hx
  · exact Course.Ends.lowerMinMax (s := s.visiting j n .arithMin) ht.node hk hu hs true hx
  · exact Course.Ends.lowerMinMax (s := s.visiting j n .arithMax) ht.node hk hu hs false hx
  · exact Course.Ends.lowerNegate ht.node hk hu hs hx
  · exact Course.Ends.lowerAbs ht.node hk hu hs hx

theorem arithmetic_exact_large : ∃ (a : Artifact) (c : Site),
    ((onConstants .arithMul 65536 32768).compile 0x7e0000000000).outcome = .ok a ∧ c.artifact = a ∧
    c.Performs ((onConstants .arithMul 65536 32768).env ⟨3, 28⟩)
      (fun n => .ofInt32 (if n = 0 then 65536 else 32768)) 2 2 (operation .arithMul 65536 32768)
      (beforeOperation .arithMul 65536 32768) onStack .new (.error .overflow) := by
  obtain ⟨a, c, h, hc, ha, -⟩ := exists_loaded (onConstants .arithMul 65536 32768) 0x7e0000000000
    (by decide +kernel) (by decide)
  have ht : (onConstants .arithMul 65536 32768).TakesUp ⟨3, 28⟩ 0 2 2 _ _ :=
    takesUp_operation (by decide +kernel) (by decide +kernel) (by decide +kernel)
      (by decide +kernel) (by decide +kernel) (by decide +kernel)
  have hx : Course.Integers (onConstants .arithMul 65536 32768).graph _
      (beforeOperation .arithMul 65536 32768).facts (operation .arithMul 65536 32768) [65536, 32768] :=
    integers_operation (by decide +kernel) (by decide +kernel) (by decide +kernel)
  have hflags : (operation .arithMul 65536 32768).flags.canTruncate = false ∧
      (operation .arithMul 65536 32768).flags.needsNegZero = false ∧
      (operation .arithMul 65536 32768).op = .arithMul := by decide +kernel
  have hperforms := ((arithmetic_exact (Draft.built_onConstants _ _ _)
    (finish_ofDraft (by decide +kernel)) h hc ha ht
    (stands_onStack (by decide +kernel))).1 _ _ hx).1 hflags.2.2
  rw [hflags.1, hflags.2.1] at hperforms
  exact ⟨a, c, h, ha, hperforms⟩

end Plan
end Speculation
