import Speculation.Proofs.Compile.Ledger
import Speculation.Proofs.Integer.Opening

/-!
The code of a whole graph of integer dataflow.

Lowering succeeds, every label is attached in the end, and running the code from its entry on ends as
it should, provided that the frame fits above the stack limit.
-/

namespace Speculation

namespace Scene

open Lowering

variable {sc : Scene} {limit : UInt64} {o : Nat} {r r' : Registers} {mem : Memory}

/-- The frame fits above the stack limit. -/
structure Fits (sc : Scene) (limit : UInt64) : Prop where
  room : limit.toNat + 8 * sc.env.frame.frameSlots ≤ sc.frame.toNat
  low : sc.frame.toNat < 2147483648

/-- A condition that depends on no register but that of the frame. -/
def Steady (K : Condition) : Prop :=
  ∀ (r r' : Registers) (mem : Memory), r'.gpr .frame = r.gpr .frame → K r mem → K r' mem

def Checked (sc : Scene) (limit : UInt64) (K : Condition) : Condition := fun r mem =>
  r.gpr .frame = sc.frame ∧ mem.read? 8 sc.env.context = some limit.toNat ∧ K r mem

/-- What the code relies on at its entry. -/
def Enters (sc : Scene) (limit : UInt64) : Condition := sc.Checked limit (sc.Framed [])

def Starts (sc : Scene) : Condition := fun r mem =>
  sc.Framed [] r mem ∧ r.gpr .numberTag = Value.numberTag

lemma toInt_outgoing {n : Nat} (h : 8 * n < 2147483648) : (-Int32.ofNat (n * 8)).toInt = -(8 * n) := by
  rw [Int32.toInt_neg, Int32.toInt_ofNat_of_lt (by omega)]
  exact (Int.bmod_eq_of_le (by omega) (by omega)).trans (by omega)

def bottom (sc : Scene) : UInt64 := sc.frame + sc.env.frame.outgoingOffset.toInt64.toUInt64

lemma toNat_bottom (h : 8 * sc.env.frame.frameSlots ≤ sc.frame.toNat)
    (hlow : sc.frame.toNat < 2147483648) :
    sc.bottom.toNat + 8 * sc.env.frame.frameSlots = sc.frame.toNat := by
  have hk : sc.env.frame.outgoingOffset.toInt = -(8 * sc.env.frame.frameSlots) :=
    toInt_outgoing (by omega)
  have := toNat_add_extend (a := sc.frame) (k := sc.env.frame.outgoingOffset) (by omega) (by omega)
  unfold bottom
  omega

lemma Fits.le_bottom (h : sc.Fits limit) : limit.toNat ≤ sc.bottom.toNat := by
  have hroom := h.room
  have := toNat_bottom (by omega) h.low
  omega

def measurePieces (context : UInt64) (outgoing : Int32) : List Piece :=
  [.inst (.mov .result .frame) none, .inst (.alu .s64 .add .result (.imm outgoing)) none,
    .inst (.movImm .scratch context) none,
    .inst (.load .w64 false .scratch (.ofBase .scratch (Int32.ofNat Context.stackLimit))) none,
    .inst (.cmp .s64 .result (.reg .scratch)) none]

section Entry

variable {K : Condition} (hl : sc.Linked) (hK : Steady K)

include hK in
lemma Checked.of_frame (h : sc.Checked limit K r mem) (hf : r'.gpr .frame = r.gpr .frame) :
    sc.Checked limit K r' mem :=
  ⟨hf.trans h.1, h.2.1, hK _ _ _ hf h.2.2⟩

def Checks (sc : Scene) (limit : UInt64) (K : Condition) (A : Registers → Prop) : Condition :=
  fun r mem => sc.Checked limit K r mem ∧ r.gpr .numberTag = Value.numberTag ∧ A r

include hK in
lemma Checks.set {A B : Registers → Prop} {q : Gpr} {w : UInt64} (h : sc.Checks limit K A r mem)
    (hf : q ≠ .frame) (ht : q ≠ .numberTag) (hB : B (r.setGpr q w)) :
    sc.Checks limit K B (r.setGpr q w) mem :=
  ⟨h.1.of_frame hK (by rw [Registers.gpr_setGpr, if_neg hf.symm]),
    by rw [Registers.gpr_setGpr, if_neg ht.symm, h.2.1], hB⟩

lemma Checks.frame {A : Registers → Prop} (h : sc.Checks limit K A r mem) :
    r.gpr .frame = sc.frame := h.1.1

include hl hK

/-- The tag registers are set up. -/
lemma runs_tagPieces :
    sc.Runs o tagPieces (sc.Checked limit K) (sc.Checks limit K fun _ => True) := by
  refine Runs.cons (S := sc.Checks limit K fun _ => True)
    (.inst hl (by simp [Inst.encode, Encoding.uint64]) fun r mem h => ⟨_, _, Inst.steps_movImm, ?_⟩)
    (.inst hl (by simp [Inst.encode, Encoding.uint64]) fun r mem h => ⟨_, _, Inst.steps_movImm, ?_⟩)
  · exact ⟨h.of_frame hK (by rw [Registers.gpr_setGpr, if_neg (by decide)]),
      by rw [Registers.gpr_setGpr, if_pos rfl], trivial⟩
  · exact h.set hK (by decide) (by decide) trivial

omit hl hK in
def Measured (sc : Scene) (limit : UInt64) (K : Condition) : Condition := fun r mem =>
  (sc.Checked limit K r mem ∧ r.gpr .numberTag = Value.numberTag) ∧
    r.flags.carry = decide (sc.bottom.toNat < limit.toNat)

lemma runs_measurePieces :
    sc.Runs o (measurePieces sc.env.context sc.env.frame.outgoingOffset)
      (sc.Checks limit K fun _ => True) (sc.Measured limit K) := by
  refine Runs.cons (S := sc.Checks limit K fun r => r.gpr .result = sc.frame)
    (.inst hl (by simp [Inst.encode]) fun r mem h => ⟨_, _, Inst.steps_mov, ?_⟩) ?_
  · exact h.set hK (by decide) (by decide) (by rw [Registers.gpr_setGpr, if_pos rfl, h.frame])
  refine Runs.cons (S := sc.Checks limit K fun r => r.gpr .result = sc.bottom)
    (.inst hl (by simp [Inst.encode]) fun r mem h => ⟨_, _, Inst.steps_alu, ?_⟩) ?_
  · refine Checks.set (A := fun _ => True) hK ⟨h.1.of_frame hK rfl, h.2.1, trivial⟩ (by decide)
      (by decide) ?_
    rw [Registers.gpr_setGpr, if_pos rfl, h.2.2, bottom]
    rfl
  refine Runs.cons
    (S := sc.Checks limit K fun r => r.gpr .result = sc.bottom ∧ r.gpr .scratch = sc.env.context)
    (.inst hl (by simp [Inst.encode, Encoding.uint64]) fun r mem h => ⟨_, _, Inst.steps_movImm, ?_⟩) ?_
  · refine h.set hK (by decide) (by decide) ⟨?_, by rw [Registers.gpr_setGpr, if_pos rfl]⟩
    rw [Registers.gpr_setGpr, if_neg (by decide), h.2.2]
  refine Runs.cons
    (S := sc.Checks limit K fun r => r.gpr .result = sc.bottom ∧ r.gpr .scratch = limit)
    (.inst hl (by simp [Inst.encode]) fun r mem h => ⟨_, _, Inst.steps_load (x := limit.toNat) ?_, ?_⟩) ?_
  · have haddr : r.address (.ofBase .scratch (Int32.ofNat Context.stackLimit)) = sc.env.context := by
      show r.gpr .scratch + 0 = _
      rw [h.2.2.2, UInt64.add_zero]
    rw [haddr]
    exact h.1.2.1
  · refine h.set hK (by decide) (by decide) ⟨?_, by
      rw [Registers.gpr_setGpr, if_pos rfl, UInt64.ofNat_toNat]⟩
    rw [Registers.gpr_setGpr, if_neg (by decide), h.2.2.1]
  refine .inst hl (by simp [Inst.encode]) fun r mem h => ⟨_, _, Inst.steps_cmp, ?_⟩
  refine ⟨⟨h.1.of_frame hK rfl, h.2.1⟩, ?_⟩
  show decide ((r.gpr .result).toNat < (r.gpr .scratch).toNat) = _
  rw [h.2.2.1, h.2.2.2]

lemma runs_entry :
    sc.Runs o (tagPieces ++ measurePieces sc.env.context sc.env.frame.outgoingOffset)
      (sc.Checked limit K) (sc.Measured limit K) :=
  (runs_tagPieces hl hK).append (runs_measurePieces hl hK)

end Entry

lemma entryPieces_eq (env : Env) (overflow : Label) : entryPieces env overflow =
    (tagPieces ++ measurePieces env.context env.frame.outgoingOffset) ++
      [.inst (.jcc .b 0) (some (.label overflow))] := rfl

/-- The stack check succeeds if the frame fits. -/
lemma runs_entryPieces {overflow : Label} (hl : sc.Linked) (hf : sc.Fits limit) :
    sc.Runs o (entryPieces sc.env overflow) (sc.Enters limit) sc.Starts := by
  rw [entryPieces_eq]
  refine (runs_entry hl fun _ _ _ hf h => h.of_frame hf).append
    (.branch hl (fun m h hc _ => ?_) fun r mem h _ => ⟨h.1.1.2.2, h.1.2⟩)
  have hcarry : m.registers.flags.carry = true := hc
  rw [h.2, decide_eq_true_iff] at hcarry
  exact absurd hf.le_bottom (Nat.not_le.mpr hcarry)

end Scene

namespace Lowering

variable {sc : Scene} {blk : Block} {s s' : State} {l : Label}

/-! ### At the first node -/

/-- A set that includes the integers meets them. -/
lemma intersects_of_subset {t : TypeSet} (h : TypeSet.int32.subset t = true) :
    t.intersects .int32 = true := by
  unfold TypeSet.subset at h
  unfold TypeSet.intersects
  rw [beq_iff_eq] at h
  rw [bne_iff_ne]
  intro hz
  -- the lowest bit is that of the integers
  have h₁ := congrArg (fun x => x.toBitVec[0]) h
  have h₂ := congrArg (fun x => x.toBitVec[0]) hz
  simp [TypeSet.int32] at h₁ h₂
  rw [h₁] at h₂
  cases h₂

lemma proven_beginBlock {g : Graph} {n : NodeId} {d : Node} (hd : g.nodes[n]? = some d) :
    ((Facts.ofGraph g).beginBlock g).known n = d.proven := by
  have hlt := (Array.getElem?_eq_some_iff.mp hd).1
  have huntouched : ∀ m, (Facts.ofGraph g).isTouched m = false := by
    intro m
    rw [Facts.isTouched, Array.getD_eq_getD_getElem?, Facts.ofGraph, Array.getElem?_replicate]
    split <;> rfl
  rw [Facts.known, Array.getD_eq_getD_getElem?, Facts.beginBlock, Array.getElem?_mapIdx]
  simp only [huntouched]
  simp [Facts.ofGraph, hd]

/-- What was proven beforehand leaves it open that a value is an integer. -/
lemma known_beginBlock (hsc : sc.Staged blk) :
    Known sc [] ((Facts.ofGraph sc.graph).beginBlock sc.graph) := by
  have hshape : ∀ {n d}, n ∈ sc.nodes → sc.graph.nodes[n]? = some d → d.op.hasResult = true →
      d.proven = .top ∨ d.op.isConstant = true ∧ TypeSet.int32.subset d.proven = true := by
    intro n d hn hd hr
    obtain ⟨d', hd', hnode⟩ := hsc.node hn
    rw [hd] at hd'
    cases hd'
    have hshape := hnode.shape
    cases hop : d.op <;> rw [hop] at hshape hr <;> try exact hshape.elim
    case constant v => exact .inr ⟨rfl, hshape.2.2⟩
    case getLocal v => exact .inl hshape.2.1
    case setLocal v => cases hr
    case movHint v => cases hr
    case ret => cases hr
    all_goals exact .inl hshape.2
  refine ⟨fun {n d} hn hd hr => ?_, fun {n d} hn hd hr hc => ?_, fun {n d} hn hd hr hp _ => ?_⟩ <;>
    rw [proven_beginBlock hd] at * <;> rcases hshape hn hd hr with ht | ⟨hcon, ht⟩
  · rw [ht]
    decide
  · exact intersects_of_subset ht
  · rw [ht]
    decide
  · rw [hc] at hcon
    cases hcon
  · rw [ht] at hp
    cases hp
  · exact hsc.isInt32_of_isConstant hn hd hcon

lemma Opened.dead (h : Opened sc.env blk l s s') {i : Nat} {x : ValueInfo}
    (hx : s'.ledger[i]? = some x) : x = .dead := by
  rw [h.ledger, Array.getElem?_map] at hx
  obtain ⟨_, -, hx⟩ := Option.map_eq_some_iff.mp hx
  exact hx.symm

/-- At the head of the block no value is anywhere. -/
lemma Opened.rested (hsc : sc.Staged blk) (h : Opened sc.env blk l s s')
    (hb : Between sc.graph 0 [] s') (hf : s.facts = .ofGraph sc.graph)
    (hs : s.ledger.size = sc.graph.numLocals) (hR : sc.first = s'.replay) :
    Rested sc [] sc.nodes s' where
  between := hb
  nodes := rfl
  size := by rw [h.ledger, Array.size_map, hs]
  tidy hx := by
    rw [h.dead hx]
    exact ⟨.inl rfl, fun hl => absurd rfl hl, fun hf => absurd rfl hf, fun hn => by cases hn⟩
  stocked := by
    refine ⟨fun {i x n} hx hn => ?_, fun {n} hn => by cases hn⟩
    rw [h.dead hx] at hn
    cases hn
  told := by
    rw [hR]
    refine ⟨fun {o n} hn => ?_, fun {o n} hn => ?_, fun {o} _ => rfl⟩ <;> cases hn
  known := by
    rw [h.facts, hf]
    exact known_beginBlock hsc
  skip := h.skip

/-- What the code of the first node relies on is that the arguments are there. -/
lemma Opened.standing (h : Opened sc.env blk l s s') {r : Registers} {mem : Memory}
    (hm : sc.Starts r mem) : Standing sc [] s' r mem where
  passes := fun _ hn => by cases hn
  framed := hm.1
  tag := hm.2
  register {i x n q} hx hn := by
    rw [h.dead hx] at hn
    cases hn
  slot {i x n} hx hn := by
    rw [h.dead hx] at hn
    cases hn

/-! ### From the entry to the nodes -/

/-- The labels of code with one block once its nodes are lowered: those of the block, of the two
handlers, of the entry and of the stack overflow, and those of the stubs. -/
structure Labels (s : State) : Prop where
  labels : ∃ o, s.asm.labels = #[some o, none, none, some 0, none] ++ Array.replicate s.exits.size none
  stub {i : Nat} {x : Exit} (h : s.exits[i]? = some x) : x.stub = 5 + i

lemma Labels.entry (h : Labels s) : s.asm.labels[3]? = some (some 0) := by
  obtain ⟨o, ho⟩ := h.labels
  rw [ho, Array.getElem?_append_left (by simp)]
  rfl

lemma Labels.le_size (h : Labels s) : 5 ≤ s.asm.labels.size := by
  obtain ⟨o, ho⟩ := h.labels
  rw [ho]
  simp

lemma Labels.stubs (h : Labels s) : s.exits.toList.map Exit.stub = List.range' 5 s.exits.size := by
  refine List.ext_getElem? fun i => ?_
  rw [List.getElem?_map, Array.getElem?_toList]
  by_cases hi : i < s.exits.size
  · rw [Array.getElem?_eq_getElem hi, Option.map_some, h.stub (Array.getElem?_eq_getElem hi)]
    simp [hi]
  · rw [Array.getElem?_eq_none (Nat.le_of_not_lt hi)]
    simp [hi]

/-- What is yet to be attached. -/
lemma Labels.free (h : Labels s) {l : Label} :
    s.Free l ↔ l ∈ [4, 1, 2] ++ s.exits.toList.map Exit.stub := by
  obtain ⟨o, ho⟩ := h.labels
  rw [h.stubs, State.Free, ho]
  rcases l with _ | _ | _ | _ | _ | l <;> simp [Array.getElem?_append, Array.getElem?_replicate]
  omega

lemma Labels.nodup (h : Labels s) : ([4, 1, 2] ++ s.exits.toList.map Exit.stub).Nodup := by
  rw [h.stubs, List.nodup_append]
  refine ⟨by decide, List.nodup_range' .., fun a ha b hb => ?_⟩
  simp only [List.mem_cons, List.not_mem_nil, or_false] at ha
  rw [List.mem_range'_1] at hb
  omega

/-- Nothing but the nodes themselves, and exits, was noted for later. -/
structure State.Bare (s : State) : Prop where
  slowPaths : s.slowPaths = #[]
  pool : s.pool = #[]
  caches : s.caches = #[]
  watchpoints : s.watchpoints = #[]
  switches : s.switches = #[]

lemma State.Bare.of_idle (h : s.Bare) (hi : s'.idle = s.idle) : s'.Bare := by
  simp only [State.idle, Prod.mk.injEq] at hi
  exact ⟨hi.2.1.trans h.slowPaths, hi.2.2.2.1.trans h.pool, hi.2.2.2.2.2.1.trans h.caches,
    hi.2.2.2.2.2.2.2.1.trans h.watchpoints, hi.2.2.2.2.2.2.2.2.trans h.switches⟩

end Lowering

/-- The scene, with what a replay knows at the start of the block. -/
abbrev Scene.starting (sc : Scene) (R : Replay.State) : Scene := { sc with first := R }

lemma Scene.Staged.starting {sc : Scene} {blk : Block} (h : sc.Staged blk) (R : Replay.State) :
    (sc.starting R).Staged blk :=
  ⟨⟨h.linked.loaded, h.linked.size⟩, ⟨h.roomy.locals, h.roomy.arguments, h.roomy.vars⟩, h.flow,
    h.nodes, h.canonical⟩

namespace Plan

open Lowering

variable {p : Plan} {sc : Scene} {blk : Block} {limit : UInt64} {s s' : State} {frame : FrameLayout}

/-- The state once the nodes are lowered, with the code so far, and what a replay of the log knows at
the first node. -/
structure Drafted (sc : Scene) (blk : Block) (s : State) (R : Replay.State) (ps : List Piece) :
    Prop where
  made : s.asm.Made ps
  aims {p : Piece} (h : p ∈ ps) : p.Aims s.asm.labels.size
  heads : Heads sc.graph blk R
  labels : Labels s
  bare : s.Bare
  entry : ∃ qs, ps = entryPieces sc.env 4 ++ qs
  runs {limit : UInt64} (hf : sc.Fits limit) (h : Records (sc.starting R) s) :
    (sc.starting R).Runs 0 ps ((sc.starting R).Enters limit) fun _ _ => False

lemma entered_labels (hb : p.graph.blocks.size = 1) (h : Entered (p.env frame) p.start s) :
    s.asm.labels = #[none, none, none, some 0, none] := by
  rw [h.labels]
  simp [start, hb, Assembler.new, Assembler.offset]
  decide

/-- The nodes are lowered. -/
lemma leads_block (hsc : sc.Staged blk) (henv : sc.env = p.env frame) (hs : Small p.graph)
    (he : Entered (p.env frame) p.start s) (ho : Outside p.graph 0 s) :
    Leads (p.env frame) s (lowerBlock 0) (fun _ s' => ∃ R ps, Drafted sc blk s' R ps)
      (fun _ => False) fun _ _ => False := by
  have hflow : Integer.Flow (p.env frame).graph blk := henv ▸ hsc.flow
  have hgraph : sc.graph = p.graph := congrArg Env.graph henv
  have hblocks : p.graph.blocks = #[blk] := hflow.blocks
  have hlabels := entered_labels (p := p) (by simp [hblocks]) he
  have hb : (p.env frame).graph.blocks[0]? = some blk := by
    rw [hflow.blocks]
    rfl
  have hl : (p.env frame).blockLabels[0]? = some 0 := by simp [env, hblocks]
  unfold Leads
  rw [outcome_lowerBlock hb hflow.reachable]
  refine leads_bind.mpr (((leads_openBlock' hflow hs hl (by rw [State.Free, hlabels]; rfl)).also
    (leads_openBlock (T := fun _ => False) ho hb hflow.reachable)).weaken ?_)
  rintro _ s₂ ⟨h₂, hbetween⟩
  have hsc' := hsc.starting s₂.replay
  have henv' : (sc.starting s₂.replay).env = p.env frame := henv
  rw [← henv'] at h₂ hbetween ⊢
  have hrested : Rested (sc.starting s₂.replay) [] sc.nodes s₂ := by
    refine h₂.rested hsc' hbetween ?_ ?_ rfl
    · show s.facts = .ofGraph sc.graph
      rw [hgraph, he.rest]
      rfl
    · show s.ledger.size = sc.graph.numLocals
      rw [hgraph, he.rest]
      exact Array.size_replicate
  have hzip : blk.nodes.toList.zipIdx.map Prod.fst = sc.nodes := by
    rw [List.zipIdx_map_fst, hsc.nodes]
  refine Leads.weaken (Rested.does_lowerNodes hsc' (hzip ▸ hrested) ?_) ?_
  · obtain ⟨pre, r, -, hlast, -⟩ := hflow.last
    rw [hlast]
    simp
  rintro _ s₃ ⟨-, qs, h₃, hruns⟩
  refine ⟨s₂.replay, entryPieces sc.env 4 ++ qs, ?_⟩
  have hentry : ∀ q ∈ entryPieces sc.env 4, q.Aims 5 := by
    simp [entryPieces, tagPieces, stackPieces, Piece.Aims, Assembler.RelocTarget.fits,
      Inst.rel32Field?]
  have hstart : p.start.asm.Made [] := ⟨rfl, rfl, by simp⟩
  have hadds : p.start.asm.Adds s₂.asm (entryPieces sc.env 4) := by
    have h := he.adds.trans h₂.adds
    rw [List.append_nil, ← henv] at h
    have hfour : p.start.asm.labels.size + 1 = 4 := by simp [start, hblocks]
    rwa [hfour] at h
  have hlabels₂ : s₂.asm.labels = #[some s.asm.offset, none, none, some 0, none] := by
    rw [h₂.labels, hlabels]
    rfl
  have hexits₂ : s₂.exits = #[] := by
    rw [h₂.exits, he.rest]
    rfl
  obtain ⟨k, hk, hlabels₃⟩ := h₃.labels
  rw [hexits₂, Array.size_empty, Nat.zero_add] at hk
  rw [hlabels₂, ← hk] at hlabels₃
  have hsize : 5 ≤ s₃.asm.labels.size := by
    rw [hlabels₃]
    simp
  exact
    { made := by
        have h₂ := hstart.adds hadds fun q hq => (hentry q hq).fits
        exact h₂.adds h₃.adds fun q hq => (h₃.aims hq).fits
      aims := fun hq => by
        rcases List.mem_append.mp hq with hq | hq
        · exact (hentry _ hq).mono hsize
        · exact h₃.aims hq
      heads := by
        have := h₂.heads
        rwa [henv', ← henv] at this
      labels := ⟨⟨_, hlabels₃⟩, fun {i x} hx => by
        rw [h₃.stubs hx (by simp [hexits₂]), hlabels₂, hexits₂]
        rfl⟩
      bare := by
        refine State.Bare.of_idle (s := s₂) ⟨?_, ?_, ?_, ?_, ?_⟩ h₃.idle
        · rw [h₂.slowPaths, he.rest]
          rfl
        · rw [h₂.pool, he.rest]
          rfl
        · rw [h₂.caches, he.rest]
          rfl
        · rw [h₂.watchpoints, he.rest]
          rfl
        · rw [h₂.switches, he.rest]
          rfl
      entry := ⟨qs, rfl⟩
      runs := fun {limit} hf hr => by
        have hoffset : s₂.asm.offset = 0 + ((entryPieces sc.env 4).flatMap Piece.bytes).length :=
          hadds.offset
        have hnodes := hruns hr
        rw [hoffset] at hnodes
        refine (Scene.runs_entryPieces hsc'.linked ⟨hf.room, hf.low⟩).append (hnodes.conseq ?_ ?_)
        · exact fun _ _ hm => h₂.standing hm
        · exact fun _ _ => id }

/-- What the whole code of a graph is. -/
structure Lowered (sc : Scene) (blk : Block) (n : Nat) (layout : Layout) (s : State)
    (R : Replay.State) (ps : List Piece) : Prop where
  made : s.asm.Made ps
  aims {p : Piece} (h : p ∈ ps) : p.Aims s.asm.labels.size
  attached {l : Label} (h : l < s.asm.labels.size) : s.Attached l
  heads : Heads sc.graph blk R
  bare : s.Bare
  start : ∃ qs, ps = entryPieces sc.env 4 ++ qs
  runs {limit : UInt64} (hf : sc.Fits limit) (h : Records (sc.starting R) s) :
    ∃ qs rs, ps = qs ++ rs ∧
      (sc.starting R).Runs 0 qs ((sc.starting R).Enters limit) fun _ _ => False
  entry : s.asm.labels[layout.entry]? = some (some 0)
  overflow : LaidAt 0 ps s 4 (overflowPieces sc.env.rollbackLabel)
  rollback : LaidAt 0 ps s sc.env.rollbackLabel (handlerPieces .lookupExceptionHandlerFromCaller)
  program (h : layout.arityEntry = none) : sc.graph.kind = .program
  arity {l : Label} (h : layout.arityEntry = some l) : LaidAt 0 ps s l
    (countPieces n layout.entry ++ fixupPieces layout.entry sc.env.rollbackLabel)
  stub {i : Nat} {x : Exit} (h : s.exits[i]? = some x) : LaidAt 0 ps s x.stub (stubPieces i)
  size : s.exits.size ≤ s.asm.code.size

lemma leads_lowered {n : Nat} (hblank : Blank p.graph p.start) (hsc : sc.Staged blk)
    (henv : sc.env = p.env frame) (hs : Small p.graph) :
    Leads (p.env frame) p.start (lowerGraph n)
      (fun layout s => ∃ R ps, Lowered sc blk n layout s R ps) (fun _ => False) fun _ _ => False := by
  have hflow : Integer.Flow (p.env frame).graph blk := henv ▸ hsc.flow
  have hblocks : p.graph.blocks = #[blk] := hflow.blocks
  unfold lowerGraph
  refine leads_bind.mpr (((leads_lowerEntry' hflow).also
    (leads_lowerEntry (T := fun _ => False) hblank)).weaken ?_)
  rintro ⟨entry, overflow⟩ s₁ ⟨⟨hlabels, h₁⟩, houtside⟩
  have hsize : p.start.asm.labels.size = 3 := by simp [start, hblocks]
  rw [hsize] at hlabels
  cases hlabels
  have hrange : List.range p.graph.blocks.size = [0] := by
    rw [hblocks]
    rfl
  refine leads_bind.mpr (leads_graph.mpr (leads_bind.mpr ?_))
  show Leads _ _ (lowerBlocks (List.range p.graph.blocks.size)) _ _ _
  rw [hrange]
  refine leads_bind.mpr ((leads_block hsc henv hs h₁ houtside).weaken ?_)
  rintro _ s₂ ⟨R, ps, h₂⟩
  show Leads (p.env frame) s₂ (lowerRest n 3 4) _ _ _
  have hfive := h₂.labels.le_size
  have hexception : (p.env frame).exceptionLabel = 1 := by simp [env, hblocks]
  have hrollback : (p.env frame).rollbackLabel = 2 := by simp [env, hblocks]
  have hlabelled : (p.env frame).Labelled s₂ := by
    refine ⟨fun {b} hb => ⟨b, ?_, ?_⟩, ?_⟩
    · exact Array.getElem?_range.trans (if_pos hb)
    · have hb : b < p.graph.blocks.size := hb
      have hone : p.graph.blocks.size = 1 := by rw [hblocks]; rfl
      exact Nat.lt_of_lt_of_le (hone ▸ hb) (Nat.le_trans (by decide) hfive)
    · rw [hrollback]
      exact Nat.le_trans (by decide) hfive
  have hfree : ∀ {l}, s₂.Free l ↔ l ∈ [4, (p.env frame).exceptionLabel, (p.env frame).rollbackLabel] ++
      s₂.exits.toList.map Exit.stub := by
    rw [hexception, hrollback]
    exact h₂.labels.free
  have hnodup := h₂.labels.nodup
  rw [← hexception, ← hrollback] at hnodup
  refine (closing_lowerRest hlabelled (Nat.le_trans (by decide) hfive) (fun l hl => hfree.mpr hl) hnodup h₂.bare.pool
    h₂.bare.slowPaths).weaken ?_
  rintro layout s₃ ⟨qs, hclose, hend⟩
  have hlaid : ∀ {l rs}, LaidAt s₂.asm.offset qs s₃ l rs → LaidAt 0 (ps ++ qs) s₃ l rs := by
    rintro l rs ⟨k, hk, hw⟩
    rw [h₂.made.offset] at hw
    exact ⟨k, hk, hw.right⟩
  have hlogged := hclose.logged
  simp only [State.logged, Prod.mk.injEq] at hlogged
  obtain ⟨hexits, hviews, hevents, hidle⟩ := hlogged
  refine ⟨R, ps ++ qs, ?_⟩
  exact
    { made := h₂.made.adds hclose.adds fun q hq => (hclose.aims hq).fits
      aims := fun hq => by
        rcases List.mem_append.mp hq with hq | hq
        · exact (h₂.aims hq).mono hclose.size
        · exact hclose.aims hq
      attached := hclose.attached fun l hl => hfree.mp hl
      heads := h₂.heads
      bare := h₂.bare.of_idle hidle
      start := by
        obtain ⟨rs, hrs⟩ := h₂.entry
        exact ⟨rs ++ qs, by rw [hrs, List.append_assoc]⟩
      runs := fun hf hr =>
        ⟨ps, qs, rfl, h₂.runs hf
          ⟨hexits ▸ hr.exits, hviews ▸ hr.views, hevents ▸ hr.events⟩⟩
      entry := by
        rw [hend.entry]
        exact hclose.kept h₂.labels.entry
      overflow := henv ▸ hlaid hend.overflow
      rollback := henv ▸ hlaid hend.rollback
      program := fun h => by
        have := hend.program h
        rwa [← henv] at this
      arity := fun h => by
        rw [henv, hend.entry]
        exact hlaid (hend.arity h)
      stub := fun {i x} h => hlaid (hend.stub (hexits ▸ h))
      size := by
        have hle := hend.size
        have hoffset := hclose.adds.offset
        rw [hexits]
        unfold Assembler.offset at hoffset
        omega }

end Plan
end Speculation
