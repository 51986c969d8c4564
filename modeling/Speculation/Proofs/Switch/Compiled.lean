import Speculation.Proofs.Compile.Success
import Speculation.Proofs.Compile.WellFormed
import Speculation.Proofs.Running.Compiled
import Speculation.Proofs.Switch.Dispatch

/-!
Switches of compiled graphs.

Wherever a compile takes up a switch over integers, and whatever machine is consistent with the ledger
there, the machine comes to where the code of the right block starts.
-/

namespace Speculation

open Lowering

/-- What a compile knows of the operand of an edge is true of its value. -/
structure Known (g : Graph) (val : NodeId → Value) (facts : Facts) (e : Edge) : Prop where
  constant {v : Value} (h : g.valueConstant e.node = .ok (some v)) : val e.node = v
  integer (h : (val e.node).isInt32 = true) : ∃ i, val e.node = .ofInt32 i
  proven (h : e.kind = .knownInt32 ∨ (facts.known e.node).subset .int32 = true) :
    (val e.node).isInt32 = true
  admits (h : (val e.node).isInt32 = true) : (facts.known e.node).intersects .int32 = true

namespace Plan

variable {p : Plan} {g : Draft} {base : UInt64} {a : Artifact} {frame : FrameLayout}
  {layout : Layout} {final s : State} {b : BlockId} {j k : Nat} {n : NodeId} {d : Node} {c : Site}
  {val : NodeId → Value} {r : Registers} {mem : Memory} {data : SwitchData} {e : Edge}

def Starts (p : Plan) (b : BlockId) (o : Nat) : Prop :=
  b < p.graph.blocks.size ∧ ∃ frame layout s, p.lower = .ok (frame, layout, s) ∧
    s.asm.labels[b]? = some (some o)

/-- No two of the switches over integers that there is code of go through the same table. -/
def Separate (p : Plan) : Prop :=
  ∀ frame layout s, p.lower = .ok (frame, layout, s) → ∀ m ∈ s.switches, ∀ n ∈ s.switches,
    ∀ data data', p.graph.op? m = some (.switch data) → p.graph.op? n = some (.switch data') →
      data.kind = .imm → data'.kind = .imm → data.table = data'.table → m = n

lemma blockLabels_getElem? (hb : b < p.graph.blocks.size) : (p.env frame).blockLabels[b]? = some b := by
  simp [env, hb]

lemma starts_of_label {l : Label} (hf : p.lower = .ok (frame, layout, final))
    (hl : (p.env frame).blockLabels[b]? = some l) (hat : final.asm.labels[l]? = some (some k)) :
    p.Starts b k := by
  obtain ⟨hlt, hl⟩ := Array.getElem?_eq_some_iff.mp hl
  simp only [env, Array.getElem_range, Array.size_range] at hlt hl
  subst hl
  exact ⟨hlt, frame, layout, final, hf, hat⟩

lemma start_lt (hf : p.lower = .ok (frame, layout, final)) (hb : b < p.graph.blocks.size)
    (hl : final.asm.labels[b]? = some (some k)) : k < layout.instsLength := by
  obtain ⟨s₁, hasm⟩ := assembled_of_lower hf
  have hcode : s₁.IsCode b :=
    (hasm.insts.aimed (aimed_start p frame)).rooted.block (blockLabels_getElem? hb)
  rw [hasm.length]
  exact hasm.inside b k (label_of_isCode hasm hcode hl)

lemma TakesUp.listed (hd : g.Built) (hg : g.finish = .ok p.graph)
    (hf : p.lower = .ok (frame, layout, final)) (ht : p.TakesUp frame b j n d s)
    (hop : d.op = .switch data) : n ∈ final.switches := by
  refine ht.lasts (R := fun s => n ∈ s.switches) hd hg hf (by rw [hop]; rfl) (by simp [hop])
    (fun h he => he.listed h) fun before _ hcoherent haimed => ?_
  have hgraph : (p.env frame).graph.op? (s.visiting j n d.op).current = some (.switch data) := by
    show p.graph.op? n = _
    rw [Graph.op?, ht.node, Option.map_some, hop]
  rw [hop] at hgraph haimed ⊢
  exact (Extending.leads_lowerSwitch hgraph haimed).mono (fun _ _ => id) (fun _ => id)
    fun _ _ _ => trivial

lemma opens_of_address {val : NodeId → Value} {before : List NodeId} {code : ByteArray}
    (hf : p.lower = .ok (frame, layout, final)) (hcode : Link.fillFields final.asm base = .ok code)
    (ha : p.artifact base frame layout final code = .ok c.artifact) (hc : c.Loaded) {x : UInt64}
    (h : blockAddress final.asm p.graph.blocks.size base b = .ok x) :
    (⟨p.env frame, c, final, val, n, before⟩ : Course).Opens b x := by
  obtain ⟨hb, o, hl, rfl⟩ := blockAddress_ok h
  obtain ⟨hsame, -, -, hbase, hlength⟩ := artifact_ok ha
  have hle : o ≤ c.artifact.code.size := hsame ▸ label_le hf hcode hl
  have hlt : o < c.artifact.instsLength := hlength ▸ start_lt hf hb hl
  have hroom := hc.room
  have hx : (base + UInt64.ofNat o).toNat = c.artifact.base.toNat + o := by
    rw [hbase]
    rw [hbase] at hroom
    exact Memory.toNat_add_ofNat (by omega)
  refine ⟨o, hl, by rw [Artifact.addressOf, hbase], ?_⟩
  simp only [Artifact.contains, Bool.and_eq_true, decide_eq_true_eq, UInt64.le_iff_toNat_le, hx]
  omega

/-- What a switch needs is there, once the compile has succeeded and its tables are in the world. -/
lemma TakesUp.serves {val : NodeId → Value} {before : List NodeId} (hd : g.Built)
    (hg : g.finish = .ok p.graph) (h : (p.compile base).outcome = .ok a)
    (hf : p.lower = .ok (frame, layout, final)) (hc : c.Loaded) (ha : c.artifact = a)
    (hclear : c.Clear) (hblock : c.world.blocks[a.block]? = some (p.compile base).block)
    (hsize : p.block.dense.size ≤ UInt64.size) (hsep : p.Separate)
    (ht : p.TakesUp frame b j n d s) (hop : d.op = .switch data) (hkind : data.kind = .imm) :
    ∃ t, (⟨p.env frame, c, final, val, n, before⟩ : Course).Serves
      (blockAddress final.asm p.graph.blocks.size base) data (p.compile base).block t := by
  subst ha
  have hmem := ht.listed hd hg hf hop
  have hgraph : p.graph.op? n = some (.switch data) := by
    rw [Graph.op?, ht.node, Option.map_some, hop]
  obtain ⟨frame', layout', s', code, hf', hcode, hart, hlink⟩ := build_ok h
  rw [hf] at hf'
  cases hf'
  have hlist : n ∈ final.switches.toList := Array.mem_toList_iff.mpr hmem
  have hlinked : Link.Writes p.block _ _ _ := Link.writes_linkTables_linked
    (resolves_blockAddress base (complete_of_lower hf).2) hgraph hkind hlist
    fun m hm data' hm' hk' htable => hsep _ _ _ hf m (Array.mem_toList_iff.mp hm) n hmem data' data hm'
      hgraph hk' hkind htable
  rw [Link.Writes, hlink] at hlinked
  obtain ⟨u, t, hu, htable, hmin, hlen, hlinked⟩ := hlinked
  refine ⟨t, hclear, hblock, htable, hlinked, ⟨u, hu, hmin, hlen⟩, fun {blk x} hx => ?_, ?_⟩
  · exact ⟨blk, blockLabels_getElem? (blockAddress_ok hx).1, opens_of_address hf hcode hart hc hx⟩
  · exact Nat.lt_of_lt_of_le (Array.getElem?_eq_some_iff.mp hu).1 hsize

end Plan

/-- The machine is where the switch goes with the value: where the code of the block of the last case
whose key equals it starts, or that of the fallthrough block. Only a switch whose operand is to be an
integer leaves, and only with another value. -/
def Machine.Dispatched (m : Machine) (p : Plan) (a : Artifact) (n : NodeId) (data : SwitchData)
    (e : Edge) (v : Value) : Prop :=
  if isInt e = true ∧ v.isInt32 = false then
    ∃ x ∈ a.exits, x.exit.kind = .badType ∧ x.exit.node = n ∧ m.place = x.stub
  else p.Starts (data.destination v) m.place

namespace Plan

variable {p : Plan} {g : Draft} {base : UInt64} {a : Artifact} {frame : FrameLayout} {s : State}
  {b : BlockId} {j : Nat} {n : NodeId} {d : Node} {c : Site} {val : NodeId → Value} {r : Registers}
  {mem : Memory} {data : SwitchData} {e : Edge}

/-- Switches over integers are dispatched as their cases say, through the table and through the helper
alike, and without a fault: an index into a table is always in its range. -/
theorem switch_dispatched (hd : g.Built) (hg : g.finish = .ok p.graph)
    (h : (p.compile base).outcome = .ok a) (hsep : p.Separate)
    (hsize : p.block.dense.size ≤ UInt64.size) (hc : c.Loaded) (ha : c.artifact = a)
    (hclear : c.Clear) (hblock : c.world.blocks[a.block]? = some (p.compile base).block)
    (ht : p.TakesUp frame b j n d s) (hop : d.op = .switch data) (hkind : data.kind = .imm)
    (he : d.children[0]? = some e) (hs : Stands val s.ledger r mem)
    (hknown : Known p.graph val s.facts e) :
    ∃ steps m, c.Goes steps ⟨r, mem, s.asm.offset⟩ m ∧
      m.Dispatched p a n data e (val e.node) := by
  obtain ⟨frame', layout, final, code, hf, -⟩ := build_ok h
  obtain rfl := Except.ok.inj ((outcome_of_lower hf).1.symm.trans ht.framed)
  let k : Course := ⟨p.env frame', c, final, val, n, []⟩
  have hends : ∀ before, let k' : Course := ⟨p.env frame', c, final, val, n, before⟩
      k'.Sound → Unborn p.graph n before → k'.Ends [] (s.visiting j n d.op) (lowerNode d.op)
        ⟨.next, r, mem⟩ (fun _ => k.Dispatches data e) fun _ => k.Dispatches data e := by
    intro before k' hk hu
    obtain ⟨t, hserves⟩ : ∃ t, k'.Serves (blockAddress final.asm p.graph.blocks.size base) data
        (p.compile base).block t := ht.serves hd hg h hf hc ha hclear hblock hsize hsep hop hkind
    rw [hop]
    exact Course.Ends.lowerSwitch hk hserves ht.node hop he hkind hs
      ⟨hknown.constant, hknown.integer, hknown.proven⟩ hknown.admits
  obtain ⟨s₁, t', steps, o, hres, hgo, hat⟩ := ht.goes hd hg h hf hc ha (by rw [hop]; rfl)
    (by simp [hop]) hends
  have hdispatch : k.Dispatches data e t' := hres.elim And.right id
  refine ⟨steps, ⟨t'.registers, t'.memory, o⟩, hgo, ?_⟩
  unfold Course.Dispatches at hdispatch
  unfold Machine.Dispatched
  split at hdispatch
  · rename_i hbad
    rw [if_pos hbad]
    rw [hdispatch] at hat
    exact exists_exitSite_of_at h hf hat
  · rename_i hgood
    rw [if_neg hgood]
    obtain ⟨l, hl, hspot⟩ := hdispatch
    rw [hspot] at hat
    exact starts_of_label hf hl hat

/-- The thunks lie far behind the code. -/
lemma clear_of_compile (h : (p.compile 0x7e0000000000).outcome = .ok a)
    (hlimit : p.options.codeLimit = 16777216) (ha : c.artifact = a) : c.Clear := by
  obtain ⟨-, hbase, hinsts, hsize⟩ := compile_bounds h
  intro t
  have hfar : (0x7e0000000000 : UInt64).toNat + 16777216 ≤ t.address.toNat := by
    cases t <;> decide
  rw [ha, Artifact.contains, hbase, Bool.and_eq_false_iff]
  exact .inr (decide_eq_false (by omega))

/-- The last keys that there are, in a table that goes on after them. -/
def lastKeys : SwitchData where
  kind := .imm
  table := 0
  cases := [(.imm 2147483646, 1), (.imm 2147483647, 1)]
  fallthrough := 2

/-- A switch over one of the first integers, whose difference from the least key wraps around. -/
def wrappingDraft : Draft :=
  let d : Draft := { name := "wrapping", kind := .function }
  let d := d.addBlock.addBlock.addBlock.select 0
  let d := (d.addNode (.constant (.ofInt32 (-2147483647))) [] .int32).2
  let d := ((d.addNode (.switch lastKeys) [0] .empty).2).select 1
  let d := (d.addNode (.constant .undefined) [] .other).2
  let d := ((d.addNode .ret [2] .empty).2).select 2
  let d := (d.addNode (.constant .undefined) [] .other).2
  (d.addNode .ret [4] .empty).2

lemma built_wrappingDraft : wrappingDraft.Built := by
  unfold wrappingDraft
  refine .addNode (.addNode (.select (.addNode (.addNode (.select (.addNode (.addNode
    (.select (.addBlock (.addBlock (.addBlock (.new _ _)))) _) ?_ _ _ _ _) ?_ _ _ _ _) _)
    ?_ _ _ _ _) ?_ _ _ _ _) _) ?_ _ _ _ _) ?_ _ _ _ _
  · exact (by decide : 0 < UInt32.size)
  · exact (by decide : 1 < UInt32.size)
  · exact (by decide : 2 < UInt32.size)
  · exact (by decide : 3 < UInt32.size)
  · exact (by decide : 4 < UInt32.size)
  · exact (by decide : 5 < UInt32.size)

def wrapping : Plan where
  graph := (ofDraft wrappingDraft).graph
  blockId := 0
  block := { name := "wrapping", numParameters := 1,
             dense := #[{ min := 2147483646, length := 4, targets := #[0, 0, 0, 0], default := 0 }] }
  context := 0

lemma separate_wrapping : wrapping.Separate := by
  intro frame layout s hs m hm n hn _ _ _ _ _ _ _
  have hlisted : wrapping.lower.toOption.map (fun x => x.2.2.switches) = some #[1] := by
    decide +kernel
  rw [hs] at hlisted
  have hswitches : s.switches = #[1] := Option.some.inj hlisted
  rw [hswitches, Array.mem_singleton] at hm hn
  rw [hm, hn]

lemma known_wrapping : Known wrapping.graph (fun _ => .ofInt32 (-2147483647))
    (wrapping.stateAt ⟨3, 28⟩ 0 1).facts { node := 0, kind := .int32 } where
  constant h := by
    have hv : wrapping.graph.valueConstant 0 = .ok (some (.ofInt32 (-2147483647))) := by decide +kernel
    exact Option.some.inj (Except.ok.inj (hv.symm.trans h))
  integer _ := ⟨_, rfl⟩
  proven _ := by decide +kernel
  admits _ := by decide +kernel

theorem switch_dispatched_wrapping : ∃ (a : Artifact) (c : Site) (steps : Nat) (m : Machine),
    (wrapping.compile 0x7e0000000000).outcome = .ok a ∧ c.artifact = a ∧
    c.Goes steps ⟨onStack, .new, (wrapping.stateAt ⟨3, 28⟩ 0 1).asm.offset⟩ m ∧
    wrapping.Starts 2 m.place := by
  obtain ⟨a, c, h, hc, ha, hblocks⟩ := exists_loaded wrapping 0x7e0000000000
    (by decide +kernel) (by decide)
  have ht : wrapping.TakesUp ⟨3, 28⟩ 0 1 1 _ _ :=
    takesUp_of_isOk (by decide +kernel) (by decide +kernel) (by decide +kernel) (by decide +kernel)
      (by decide +kernel) (by decide +kernel)
  have hclear : c.Clear := clear_of_compile h rfl ha
  have hnode : (wrapping.nodeAt 1).op = .switch lastKeys ∧
      (wrapping.nodeAt 1).children[0]? = some { node := 0, kind := .int32 } := by decide +kernel
  have hbound := block_of_loaded h rfl hblocks
  have hfinish : wrappingDraft.finish = .ok wrapping.graph := finish_ofDraft (by decide +kernel)
  have hs : Stands (fun _ => .ofInt32 (-2147483647)) (wrapping.stateAt ⟨3, 28⟩ 0 1).ledger onStack
    .new := stands_onStack (by decide +kernel)
  have hsize : wrapping.block.dense.size ≤ UInt64.size := by decide
  obtain ⟨steps, m, hgo, hm⟩ := switch_dispatched built_wrappingDraft hfinish h separate_wrapping
    hsize hc ha hclear hbound ht hnode.1 rfl hnode.2 hs known_wrapping
  have hdest : lastKeys.destination (.ofInt32 (-2147483647)) = 2 := by decide +kernel
  rw [Machine.Dispatched, if_neg (by decide +kernel), hdest] at hm
  exact ⟨a, c, steps, m, h, ha, hgo, hm⟩

end Plan

end Speculation
