import Speculation.Proofs.Execution.Handlers
import Speculation.Proofs.Integer.Linking
import Speculation.Proofs.World.Frames
import Speculation.Proofs.World.Still

/-!
Calls of integer dataflow.

A call lays out the outermost frame, makes up missing arguments if the code asks for it, and enters
the code. `Plan.Linked` says that a site has the code of a plan; in any frame that fits above the
stack limit such code concludes as it should.
-/

namespace Speculation

/-- The artifact with exits that were taken since, none of them so often that it could not be counted
once more. -/
structure Artifact.Counted (a b : Artifact) : Prop where
  rest : b = { a with exits := b.exits }
  exit {k : Nat} {x : ExitSite} (h : a.exits[k]? = some x) :
    ∃ n : UInt32, b.exits[k]? = some { x with count := n } ∧ n.toNat + 1 < UInt32.size

namespace Plan

open Lowering World Execution

variable {p : Plan} {d : Draft} {blk : Block} {frame : FrameLayout} {layout : Layout} {s : State}
  {c : Site} {a b : Artifact} {base : UInt64} {passed : List Value} {f : UInt64} {limit : UInt64}
  {mem : Memory}

/-- The site has the code that the plan was lowered to. -/
structure Linked (p : Plan) (frame : FrameLayout) (layout : Layout) (s : State) (c : Site) : Prop where
  lower : p.lower = .ok (frame, layout, s)
  code : Link.fillFields s.asm c.artifact.base = .ok c.artifact.code
  graph : c.artifact.graph = p.graph
  events : c.artifact.events = s.events
  entry : s.asm.labelOffset layout.entry = .ok c.artifact.entry
  arity : layout.arityEntry.mapM s.asm.labelOffset = .ok c.artifact.arityEntry
  slots : c.artifact.frameSlots = frame.frameSlots
  block : c.artifact.block = p.blockId
  exit {k : Nat} {x : Exit} (h : s.exits[k]? = some x) : ∃ site,
    c.artifact.exits[k]? = some site ∧ site.exit = x ∧ site.count.toNat + 1 < UInt32.size
  loaded : c.Loaded
  size : c.artifact.code.size < 2147483648

lemma exitSites_exit {asm : Assembler} {exits : Array Exit} {sites : Array ExitSite}
    (h : exitSites asm exits = .ok sites) {k : Nat} {e : Exit} (he : exits[k]? = some e) :
    ∃ x, sites[k]? = some x ∧ x.exit = e := by
  have hall := forall₂_of_mapM h
  have hk : k < sites.toList.length := by
    rw [← hall.length_eq]
    simpa using (Array.getElem?_eq_some_iff.mp he).1
  obtain ⟨e', he', hex⟩ := getElem?_of_forall₂ hall (List.getElem?_eq_getElem hk)
  rw [Array.getElem?_toList, he] at he'
  cases he'
  refine ⟨_, by rw [← Array.getElem?_toList, List.getElem?_eq_getElem hk], ?_⟩
  obtain ⟨o, -, hex⟩ := bind_eq_ok.mp hex
  rw [← Except.ok.inj hex]

lemma artifact_entries {code : ByteArray} (h : p.artifact base frame layout s code = .ok a) :
    a.graph = p.graph ∧ a.events = s.events ∧ s.asm.labelOffset layout.entry = .ok a.entry ∧
      layout.arityEntry.mapM s.asm.labelOffset = .ok a.arityEntry ∧
      a.frameSlots = frame.frameSlots ∧ a.block = p.blockId := by
  unfold artifact at h
  simp only [bind, Except.bind] at h
  repeat' split at h
  all_goals cases h
  exact ⟨rfl, rfl, ‹_›, ‹_›, rfl, rfl⟩

lemma linked_of_compile (h : (p.compile base).outcome = .ok a) (hb : a.Counted b)
    {w : World} {code : Nat} (hw : w.artifacts[code]? = some b)
    (hroom : b.base.toNat + b.code.size < UInt64.size) (hsize : a.code.size < 2147483648) :
    ∃ frame layout s, p.Linked frame layout s ⟨w, code, b⟩ := by
  obtain ⟨frame, layout, s, bytes, hs, hf, ha, -⟩ := build_ok h
  obtain ⟨hcode, hexits, -, hbase, -⟩ := artifact_ok ha
  obtain ⟨hgraph, hevents, hentry, harity, hslots, hblock⟩ := artifact_entries ha
  have hrest := hb.rest
  refine ⟨frame, layout, s, hs, ?_, ?_, ?_, ?_, ?_, ?_, ?_, fun {k x} hx => ?_, ⟨hw, hroom⟩, ?_⟩
  · rw [hrest, hbase, hcode]
    exact hf
  · rw [hrest]
    exact hgraph
  · rw [hrest]
    exact hevents
  · rw [hrest]
    exact hentry
  · rw [hrest]
    exact harity
  · rw [hrest]
    exact hslots
  · rw [hrest]
    exact hblock
  · obtain ⟨site, hsite, hexit⟩ := exitSites_exit hexits hx
    obtain ⟨n, hn, hlt⟩ := hb.exit hsite
    exact ⟨_, hn, hexit, hlt⟩
  · rw [hrest]
    exact hsize

def scene (p : Plan) (frame : FrameLayout) (s : State) (blk : Block) (c : Site)
    (passed : List Value) (f : UInt64) : Scene where
  env := p.env frame
  nodes := blk.nodes.toList
  passed := passed
  site := c
  labels := s.asm.labels
  exits := s.exits
  views := s.views
  events := s.events
  first := {}
  frame := f

structure Addresses (g : Graph) (f : UInt64) : Prop where
  locals : 8 * g.numLocals ≤ f.toNat
  arguments : f.toNat + 8 * (Frame.headerSize + g.arguments.size) < 2147483648

section Lowered

variable {R : Replay.State} {ps : List Piece} (hl : p.Linked frame layout s c)
  (h : Lowered (p.scene frame s blk c passed f) blk p.block.numParameters layout s R ps)
include hl h

/-- The code of the site stands where it was assembled. -/
lemma Linked.has : (p.scene frame s blk c passed f).Has 0 ps := by
  have hbytes := Link.fillFields_ok _ h.made.code h.made.relocs h.made.fits hl.code
  refine ⟨⟨[], [], ?_, rfl⟩, fun q hq => h.links hl.lower (h.size_fillFields hl.code ▸ hl.size) hq⟩
  rw [List.nil_append, List.append_nil]
  exact hbytes

end Lowered

section Linked

variable (hd : d.Integer blk) (hg : d.finish = .ok p.graph) (hl : p.Linked frame layout s c)
include hd hg

lemma staged_scene (hl : c.Loaded) (hsize : c.artifact.code.size < 2147483648)
    (ha : Addresses p.graph f) (hp : ∀ v ∈ passed, v.Canonical) :
    (p.scene frame s blk c passed f).Staged blk where
  linked := ⟨hl, hsize⟩
  roomy := by
    obtain ⟨-, fixed, hfin⟩ := Draft.finish_finished hg
    refine ⟨ha.locals, ha.arguments, ?_⟩
    show p.graph.numVars ≤ p.graph.numLocals
    rw [Draft.numLocals_finish hfin]
    exact Nat.le_add_right _ _
  flow := hd.flow hg
  nodes := rfl
  canonical := hp _

lemma Linked.staged (hl : p.Linked frame layout s c) (ha : Addresses p.graph f)
    (hp : ∀ v ∈ passed, v.Canonical) : (p.scene frame s blk c passed f).Staged blk :=
  staged_scene hd hg hl.loaded hl.size ha hp

include hl

/-- What is known of the code of the plan is true of the code of the site. -/
lemma Linked.lowered (ha : Addresses p.graph f) (hp : ∀ v ∈ passed, v.Canonical) : ∃ R ps,
    Lowered (p.scene frame s blk c passed f) blk p.block.numParameters layout s R ps := by
  have hst : (p.scene frame s blk c passed f).Staged blk := hl.staged hd hg ha hp
  obtain ⟨layout', s', R, ps, hs, h⟩ := lower_integer hd hg hst rfl (outcome_of_lower hl.lower).1
  cases hl.lower.symm.trans hs
  exact ⟨R, ps, h⟩

lemma Linked.charted {R : Replay.State} {ps : List Piece}
    (h : Lowered (p.scene frame s blk c passed f) blk p.block.numParameters layout s R ps) :
    ((p.scene frame s blk c passed f).starting R).Charted where
  graph := hl.graph
  events := hl.events
  exit := hl.exit
  stub {k x} hx := by
    obtain ⟨o, ho, hw⟩ := h.stub hx
    have hoff : offsetOf s.asm.labels x.stub = o := by simp [offsetOf, ho]
    have hhas := Scene.Has.within (hl.has h) hw
    rw [← hoff] at hhas
    exact hhas
  few := by
    have hsize := h.size_fillFields hl.code ▸ hl.size
    exact Nat.lt_of_le_of_lt h.size (Nat.lt_trans hsize (by decide))
  mirrors {k x ledger} hx hv := by
    have hlower : Leads (p.env frame) p.start (lowerGraph p.block.numParameters) _ _ _ :=
      leads_lowerGraph (T := Sighted p.graph) (blank_start hd.built hg)
    have hs := (hlower.mono (fun _ _ => id) (fun _ => id) fun _ _ h => h.2).always
    rw [(outcome_of_lower hl.lower).2] at hs
    exact (hs.exits hx hv).mirrors

end Linked

/-! ### In a frame -/

lemma numLocals_le (h : FrameLayout.ofGraph p.graph = .ok frame) :
    p.graph.numLocals ≤ frame.frameSlots := by
  obtain ⟨n, -, h⟩ := bind_eq_ok.mp h
  cases h
  show _ ≤ p.graph.numLocals + saveAreaSlots + Frame.headerSize + n
  omega

lemma framed_of_frameAt {sc : Scene} {w : World} {block : Nat} {r : Registers} (hr : sc.Roomy)
    (hs : w.Stack limit) (hf : FrameAt w.memory block sc.frame sc.passed)
    (hfit : limit.toNat + 8 * sc.graph.numLocals ≤ sc.frame.toNat)
    (hreg : r.gpr .frame = sc.frame) : sc.Framed [] r w.memory where
  frame := hreg
  argument {k} hk := by
    have ha := Scene.toNat_address_argument hr hk
    have htop := hf.top
    have hroom := hr.arguments
    have hword : UInt64.size = 18446744073709551616 := rfl
    have heq : sc.address (.ofArgument k) =
        sc.frame + UInt64.ofNat (8 * (Frame.headerSize + k)) := by
      apply UInt64.toNat_inj.mp
      rw [ha, Memory.toNat_add_ofNat (by omega)]
    rcases hv : sc.passed[k]? with _ | v
    · -- the frame is at the top of the stack
      have hlt := List.getElem?_eq_none_iff.mp hv
      have hnone : w.memory.byte? (sc.address (.ofArgument k)) = none := hs.above (by omega)
      rw [Scene.word, Memory.read?, Memory.readBytes?, hnone]
      rfl
    · rw [Scene.word, heq, hf.argument hv]
      simp
  stored {j n} _ h := by cases h
  mapped {j} hj := by
    have ha := Scene.toNat_address_local hr hj
    have htop := hf.top
    have hlow := hs.low
    exact hs.mapped_of_le (by omega) (by omega)

/-- What a run comes to does not depend on what a replay knows at the start. -/
lemma concludes_of_starting {sc : Scene} {R : Replay.State} {x : Except Fault Outcome}
    (h : (sc.starting R).Concludes blk x) : sc.Concludes blk x := by
  rcases x with e | v | v | s
  · exact h
  · exact h
  · exact h
  · obtain ⟨hp, done, n, rest, h⟩ := h
    exact ⟨hp, done, n, rest, h.nodes, h.passes, h.fault, h.origin, h.resumes⟩

section Frame

variable (hd : d.Integer blk) (hg : d.finish = .ok p.graph) (hl : p.Linked frame layout s c)
  (ha : Addresses p.graph f) (hp : ∀ v ∈ passed, v.Canonical) (hc : c.world.context = p.context)
  (hs : (c.world.withMemory mem).Stack limit) (hf : FrameAt mem p.blockId f passed)
include hd hg hl ha hp hc hs hf

/-- In a frame that fits above the stack limit the code concludes as it should. -/
lemma Linked.concludes {r : Registers} (hfit : limit.toNat + 8 * frame.frameSlots ≤ f.toNat)
    (hr : r.gpr .frame = f) : ∃ n, 3 * n ≤ c.artifact.code.size ∧ ∀ fuel,
      (p.scene frame s blk c passed f).Concludes blk (c.runFrom (n + (2 + fuel)) ⟨r, mem, 0⟩).1 := by
  obtain ⟨R, ps, h⟩ := hl.lowered hd hg ha hp
  have hst := (hl.staged hd hg ha hp).starting R
  have hlocals := numLocals_le (outcome_of_lower hl.lower).1
  have hargs := ha.arguments
  have hroom : (p.scene frame s blk c passed f).Fits limit :=
    ⟨hfit, by show f.toNat < _; omega⟩
  obtain ⟨qs, rs, hps, hruns⟩ := h.runs hroom
    ⟨id, id, List.prefix_rfl⟩
  have hhas := hl.has h
  rw [hps] at hhas
  have henters : ((p.scene frame s blk c passed f).starting R).Enters limit r mem := by
    refine ⟨hr, ?_, framed_of_frameAt hst.roomy hs hf ?_ hr⟩
    · show mem.read? 8 p.context = _
      rw [← hc]
      exact hs.limit
    · show limit.toNat + 8 * p.graph.numLocals ≤ f.toNat
      omega
  obtain ⟨n, m', hgo, hn, hend⟩ := hruns hhas.left ⟨r, mem, 0⟩ rfl henters
  have hend := hend.resolve_right fun h => h.2
  have hle := hhas.left.le
  refine ⟨n, ?_, fun fuel => ?_⟩
  · show 3 * n ≤ (p.scene frame s blk c passed f).site.artifact.code.size
    dsimp only at hn
    omega
  · have hfin := hend.concludes hst h.heads (hl.charted hd hg h) fuel
    rw [← hgo (2 + fuel)] at hfin
    exact concludes_of_starting hfin

end Frame

/-! ### Runs that leave through an exit -/

/-- Whenever a run from here leaves through an exit, all arguments were passed, and it is right to
leave there. -/
def Leaves (sc : Scene) (blk : Block) (c : Site) (m : Machine) : Prop :=
  ∀ fuel s, (c.runFrom fuel m).1 = .ok (.exited s) →
    sc.graph.arguments.size ≤ sc.passed.length ∧ ∃ done n rest, sc.LeftAt blk done rest n s

section Leaves

variable {sc : Scene} {m m' : Machine} {n : Nat}

lemma Leaves.of_remains (h : Remains (c.thread m) (c.around m)) : Leaves sc blk c m :=
  fun fuel s hs => absurd hs (h fuel s)

lemma Leaves.of_concludes
    (h : ∀ fuel, sc.Concludes blk (c.runFrom (n + fuel) m).1) : Leaves sc blk c m := by
  intro fuel s hs
  have hrun : runs (run fuel (c.thread m)) (c.around m) =
      (.ok (.exited s), (c.runFrom fuel m).2) := Prod.ext hs rfl
  have hadd := run_add (j := n) hrun
  have hfin := h fuel
  rw [Nat.add_comm] at hfin
  have heq : (c.runFrom (fuel + n) m).1 = .ok (.exited s) := congrArg Prod.fst hadd
  rwa [heq] at hfin

lemma Leaves.goes (hgo : c.Goes n m m') (h : Leaves sc blk c m') : Leaves sc blk c m := by
  intro fuel s hs
  have hrun : runs (run fuel (c.thread m)) (c.around m) =
      (.ok (.exited s), (c.runFrom fuel m).2) := Prod.ext hs rfl
  have hadd := run_add (j := n) hrun
  refine h fuel s ?_
  rw [← hgo fuel, Nat.add_comm]
  exact congrArg Prod.fst hadd

end Leaves

lemma Linked.on (hl : p.Linked frame layout s c) {m : Machine} {ps : List Piece}
    (hs : s.asm.Stands m.place ps) :
    (c.thread m).On s.asm c.artifact.base 0 (c.around m) m.place ps where
  code := ⟨c.artifact, hl.loaded.artifact, rfl, hl.loaded.room, c.artifact.code, hl.code, rfl, rfl⟩
  pc := rfl
  le := Nat.zero_le _
  stands := hs

section Frame

variable (hd : d.Integer blk) (hg : d.finish = .ok p.graph) (hl : p.Linked frame layout s c)
  (ha : Addresses p.graph f) (hp : ∀ v ∈ passed, v.Canonical) (hc : c.world.context = p.context)
  (hs : (c.world.withMemory mem).Stack limit) (hf : FrameAt mem p.blockId f passed)
include hd hg hl ha hp hc hs hf

omit hf in
/-- In a frame that does not fit the stack overflows. -/
lemma Linked.overflows {r : Registers} (hslots : 8 * frame.frameSlots ≤ f.toNat)
    (hfit : f.toNat < limit.toNat + 8 * frame.frameSlots) (hr : r.gpr .frame = f) :
    Leaves (p.scene frame s blk c passed f) blk c ⟨r, mem, 0⟩ := by
  obtain ⟨R, ps, h⟩ := hl.lowered hd hg ha hp
  have hst := (hl.staged hd hg ha hp).starting R
  obtain ⟨qs, hps⟩ := h.start
  have hhas := hl.has h
  rw [hps, Scene.entryPieces_eq] at hhas
  have hlow : f.toNat < 2147483648 := by
    have := ha.arguments
    omega
  have hchecked : ((p.scene frame s blk c passed f).starting R).Checked limit
      (fun _ _ => True) r mem := by
    refine ⟨hr, ?_, trivial⟩
    show mem.read? 8 p.context = _
    rw [← hc]
    exact hs.limit
  obtain ⟨n, m', hgo, -, hend⟩ :=
    Scene.runs_entry hst.linked (K := fun _ _ => True) (fun _ _ _ _ => id) hhas.left.left
      ⟨r, mem, 0⟩ rfl hchecked
  refine .goes hgo ?_
  obtain hend | ⟨hplace, -, hcarry⟩ := hend
  · exact .of_concludes fun fuel =>
      concludes_of_starting (hend.concludes hst h.heads (hl.charted hd hg h) fuel)
  -- the branch is taken, to where the overflow is handled
  have hbottom : (p.scene frame s blk c passed f).bottom.toNat +
      8 * (p.scene frame s blk c passed f).env.frame.frameSlots =
        (p.scene frame s blk c passed f).frame.toNat := Scene.toNat_bottom hslots hlow
  have hholds : Cond.holds .b m'.registers.flags m'.registers.order = true := by
    show m'.registers.flags.carry = true
    rw [hcarry, decide_eq_true_iff]
    show (p.scene frame s blk c passed f).bottom.toNat < _
    have hslots' : (p.scene frame s blk c passed f).env.frame = frame := rfl
    have hframe : (p.scene frame s blk c passed f).frame = f := rfl
    rw [hslots', hframe] at hbottom
    omega
  obtain ⟨o, ho, hover⟩ := h.overflow
  obtain ⟨e, he, hhandler⟩ := h.rollback
  have hjcc := hhas.left.right.goes_jcc ⟨hl.loaded, hl.size⟩ hplace
  rw [hholds, if_pos rfl] at hjcc
  have hoff : offsetOf s.asm.labels 4 = o := by simp [offsetOf, ho]
  refine .goes hjcc (.of_remains ?_)
  exact .overflow (hl.on (m := ⟨m'.registers, m'.memory, _⟩) ⟨_, h.made, hoff ▸ hover⟩) rfl
    ⟨e, he, _, h.made, hhandler⟩

end Frame

/-! ### The arity check -/

section Arity

variable {sc : Scene} {r : Registers} {block o parameters : Nat} {entry : Label}

/-- The immediate operand of the arity check. -/
lemma toNat_parameters (n : Nat) :
    ((Int32.ofNat (min n 2147483647)).toInt64.toUInt64).toNat = min n 2147483647 := by
  have hlt : min n 2147483647 < 2147483648 := by omega
  have h := toNat_extend (Int32.ofNat (min n 2147483647))
  rw [Int32.toInt_ofNat_of_lt hlt] at h
  omega

/-- The code compares the number of arguments in the frame with the number of parameters. -/
lemma goes_count (parameters : Nat) (hl : sc.Linked) (hhas : sc.Has o (countPieces parameters entry))
    (hf : FrameAt mem block (r.gpr .frame) passed) : ∃ r', r'.gpr .frame = r.gpr .frame ∧
      sc.site.Goes 3 ⟨r, mem, o⟩ ⟨r', mem, if parameters ≤ passed.length then
        offsetOf sc.labels entry else o + ((countPieces parameters entry).flatMap Piece.bytes).length⟩ := by
  have hroom := hf.room
  have hsize := stackSize_eq
  have hload := hhas.head.goes hl r mem (Inst.steps_load hf.count)
  obtain ⟨r₁, hr₁⟩ : ∃ r₁, r₁ = r.setGpr .scratch (UInt64.ofNat passed.length) := ⟨_, rfl⟩
  rw [← hr₁] at hload
  have hcmp := hhas.tail.head.goes hl r₁ mem Inst.steps_cmp
  obtain ⟨r₂, hr₂⟩ : ∃ r₂ : Registers, r₂ = { r₁ with flags := (Size.run .s64 .sub
    (r₁.gpr .scratch) (r₁.operand (.imm (Int32.ofNat (min parameters 2147483647))))).2 } := ⟨_, rfl⟩
  rw [← hr₂] at hcmp
  have hjcc := hhas.tail.tail.goes_jcc hl (m := ⟨r₂, mem, _⟩) rfl
  have hcarry : r₂.flags.carry = decide (passed.length < parameters) := by
    have hscratch : r₁.gpr .scratch = UInt64.ofNat passed.length := by
      rw [hr₁, Registers.gpr_setGpr, if_pos rfl]
    have hword : UInt64.size = 18446744073709551616 := rfl
    have hcount : (UInt64.ofNat passed.length).toNat = passed.length :=
      UInt64.toNat_ofNat_of_lt' (by omega)
    have hflag : r₂.flags.carry = decide ((r₁.gpr .scratch).toNat <
        ((Int32.ofNat (min parameters 2147483647)).toInt64.toUInt64).toNat) := by
      rw [hr₂]
      rfl
    rw [hflag, hscratch, hcount, toNat_parameters]
    exact decide_eq_decide.mpr (by omega)
  refine ⟨r₂, ?_, ?_⟩
  · rw [hr₂, hr₁]
    show (r.setGpr .scratch _).gpr .frame = _
    rw [Registers.gpr_setGpr, if_neg (by decide)]
  · have hgo := (hload.trans hcmp).trans hjcc
    have hholds : Cond.holds .ae r₂.flags r₂.order = decide (parameters ≤ passed.length) := by
      show (!r₂.flags.carry) = _
      rw [hcarry, ← decide_not]
      exact decide_eq_decide.mpr Nat.not_lt
    simp only [hholds, decide_eq_true_eq] at hgo
    exact hgo

lemma runs_arityFixup {w : World} {m : Registers} {code : Nat} {A : Artifact} {B : CodeBlock}
    (hA : w.artifacts[code]? = some A) (hB : w.blocks[A.block]? = some B) :
    runs (Execution.callHelper .arityFixup m code) w =
      runs (do return m.setGpr .result (← fixArity (m.gpr .first) B.numParameters A.frameSlots)) w := by
  show runs (do return m.setGpr .result (← serve .arityFixup m code)) w = _
  have hblock : runs (codeBlock A.block) w = (.ok B, w) := by
    rw [codeBlock, runs_bind_of_ok runs_get, hB]
    rfl
  have hserve : runs (serve .arityFixup m code) w =
      runs (fixArity (m.gpr .first) B.numParameters A.frameSlots) w := by
    simp only [serve]
    rw [runs_bind_of_ok (runs_artifact hA), bind_assoc, runs_bind_of_ok (runs_artifact hA),
      runs_bind_of_ok hblock]
  rw [runs_bind, hserve, ← runs_bind]

/-- A test of a word against itself. -/
lemma zero_and_self (x : UInt64) : (Size.run .s64 .and x x).2.zero = decide (x = 0) := by
  show (x.toBitVec &&& x.toBitVec == 0#64) = _
  rw [BitVec.and_self, Bool.eq_iff_iff, beq_iff_eq, decide_eq_true_iff]
  exact ⟨fun h => UInt64.toBitVec_inj.mp h, fun h => h ▸ rfl⟩

lemma goes_fixup {rollback : Label} {B : CodeBlock} {moved : UInt64} {mem' : Memory} (hl : sc.Linked)
    (hhas : sc.Has o (fixupPieces entry rollback))
    (hB : sc.site.world.blocks[sc.site.artifact.block]? = some B)
    (hfix : runs (fixArity (r.gpr .frame) B.numParameters sc.site.artifact.frameSlots)
      (sc.site.world.withMemory mem) = (.ok moved, sc.site.world.withMemory mem'))
    (hne : moved ≠ 0) : ∃ r', r'.gpr .frame = moved ∧
      sc.site.Goes 6 ⟨r, mem, o⟩ ⟨r', mem', offsetOf sc.labels entry⟩ := by
  have hmov := hhas.head.goes hl r mem Inst.steps_mov
  obtain ⟨r₁, hr₁⟩ : ∃ r₁, r₁ = r.setGpr .result (r.gpr .frame) := ⟨_, rfl⟩
  rw [← hr₁] at hmov
  have hfirst : r₁.gpr .first = r.gpr .frame := by
    rw [hr₁, Registers.gpr_setGpr, if_pos (by decide)]
  have hhelper : runs (Execution.callHelper .arityFixup r₁ sc.site.code)
      (sc.site.world.withMemory mem) = (.ok (r₁.setGpr .result moved),
        sc.site.world.withMemory mem') := by
    rw [runs_arityFixup (w := sc.site.world.withMemory mem) hl.loaded.artifact hB, hfirst,
      runs_bind_of_ok hfix, runs_pure]
  have hcall := sc.site.goes_call hl.loaded (f := .arityFixup) (m := ⟨r₁, mem, _⟩)
    (hhas.tail.head.next rfl) hhelper
  have htest := hhas.tail.tail.head.goes hl (r₁.setGpr .result moved) mem' Inst.steps_test
  obtain ⟨r₂, hr₂⟩ : ∃ r₂ : Registers, r₂ = { r₁.setGpr .result moved with
    flags := (Size.run .s64 .and ((r₁.setGpr .result moved).gpr .result)
      ((r₁.setGpr .result moved).operand (.reg .result))).2 } := ⟨_, rfl⟩
  rw [← hr₂] at htest
  have hjcc := hhas.tail.tail.tail.head.goes_jcc hl (m := ⟨r₂, mem', _⟩) rfl
  have hzero : Cond.holds .e r₂.flags r₂.order = false := by
    rw [hr₂]
    show (Size.run .s64 .and ((r₁.setGpr .result moved).gpr .result)
      ((r₁.setGpr .result moved).gpr .result)).2.zero = false
    rw [Registers.gpr_setGpr, if_pos rfl, zero_and_self, decide_eq_false hne]
  rw [hzero] at hjcc
  have hmov' := hhas.tail.tail.tail.tail.head.goes hl r₂ mem' Inst.steps_mov
  have hjmp := hhas.tail.tail.tail.tail.tail.goes_jmp hl
    (m := ⟨r₂.setGpr .frame (r₂.gpr .result), mem', _⟩) rfl
  refine ⟨_, ?_, ((((hmov.trans hcall).trans htest).trans hjcc).trans hmov').trans hjmp⟩
  have hresult : r₂.gpr .result = (r₁.setGpr .result moved).gpr .result := by
    rw [hr₂]
    rfl
  rw [Registers.gpr_setGpr, if_pos rfl, hresult, Registers.gpr_setGpr, if_pos rfl]

/-- Without room for the missing arguments the run ends in the handler. -/
lemma remains_fixup {asm : Assembler} {k : Nat} {rollback : Label} {t : Thread} {w : World}
    {A : Artifact} {B : CodeBlock}
    (hon : t.On asm base 0 w k (fixupPieces entry rollback)) (hcallers : t.callers = [])
    (hA : w.artifacts[t.code]? = some A) (hB : w.blocks[A.block]? = some B)
    (hfix : ∀ x w', runs (fixArity (t.registers.gpr .frame) B.numParameters A.frameSlots) w =
      (.ok x, w') → x = 0)
    (hl : ∃ e, asm.labels[rollback]? = some (some e) ∧
      asm.Stands e (handlerPieces .lookupExceptionHandlerFromCaller)) : Remains t w := by
  refine .compute hon rfl fun m _ t₁ k₁ heff h₁ hcode₁ hreg₁ hon₁ => ?_
  cases heff
  refine .call hon₁ fun m w₂ t₂ k₂ hm h₂ hreg₂ hon₂ => ?_
  have hfirst : t₁.registers.gpr .first = t.registers.gpr .frame := by
    rw [hreg₁, Registers.gpr_setGpr, if_pos (by decide)]
  have hzero : t₂.registers.gpr .result = 0 := by
    have hrun := runs_arityFixup (w := w) (m := t₁.registers) (hcode₁ ▸ hA) hB
    rw [hfirst] at hrun
    have hm := hrun.symm.trans hm
    rcases hx : runs (fixArity (t.registers.gpr .frame) B.numParameters A.frameSlots) w
      with ⟨e | x, w'⟩
    · rw [runs_bind, hx] at hm
      cases hm
    · rw [runs_bind_of_ok hx] at hm
      cases hm
      rw [hreg₂, Registers.gpr_setGpr, if_pos rfl, hfix _ _ hx]
  refine .compute hon₂ rfl fun m₃ _ t₃ k₃ heff h₃ hcode₃ hreg₃ hon₃ => ?_
  cases heff
  have hholds : Cond.holds .e t₃.registers.flags t₃.registers.order = true := by
    rw [hreg₃]
    show (Size.run .s64 .and (t₂.registers.gpr .result) (t₂.registers.gpr .result)).2.zero = true
    rw [hzero]
    rfl
  refine .branch hon₃ (fun _ t₄ e he h₄ hcode hpc => ?_) fun hc => ?_
  · obtain ⟨e', he', hs⟩ := hl
    cases he.symm.trans he'
    exact .handler (.inr rfl) ⟨hcode ▸ hon₃.code, hpc, Nat.zero_le _, hs⟩
      (h₄.trans (h₃.trans (h₂.trans (h₁.trans hcallers))))
  · rw [hholds] at hc
    cases hc

end Arity

/-! ### From the call to the entry -/

/-- A frame with all that a run from the entry relies on, after at most nine steps. -/
structure Arrival (c : Site) (limit : UInt64) (block parameters : Nat) (passed : List Value)
    (m : Machine) (k : Nat) (r : Registers) (mem : Memory) (passed' : List Value) : Prop where
  goes : c.Goes k m ⟨r, mem, 0⟩
  le : k ≤ 9
  stack : (c.world.withMemory mem).Stack limit
  frame : FrameAt mem block (r.gpr .frame) passed'
  passed : passed' = passed ∨ passed' = padded passed parameters ∧ passed.length < parameters

/-- A call goes to the entry, in a frame with room for every parameter, unless there is no such room
on the stack. -/
lemma Linked.enters {R : Replay.State} {ps : List Piece} (hl : p.Linked frame layout s c)
    (h : Lowered (p.scene frame s blk c passed f) blk p.block.numParameters layout s R ps)
    {B : CodeBlock} (hB : c.world.blocks[p.blockId]? = some B)
    (hn : B.numParameters = p.block.numParameters)
    (hs : (c.world.withMemory mem).Stack limit) {r : Registers}
    (hf : FrameAt mem p.blockId (r.gpr .frame) passed) :
    (∃ k r' mem' passed', Arrival c limit p.blockId p.block.numParameters passed
      ⟨r, mem, c.artifact.arityEntry.getD c.artifact.entry⟩ k r' mem' passed') ∨
    ¬Fits limit frame.frameSlots p.block.numParameters ∧
      ∀ sc, Leaves sc blk c ⟨r, mem, c.artifact.arityEntry.getD c.artifact.entry⟩ := by
  have hentry : c.artifact.entry = 0 :=
    Except.ok.inj (hl.entry.symm.trans (Link.labelOffset_eq h.entry))
  have hart := hl.arity
  rcases harity : layout.arityEntry with _ | l
  · rw [harity] at hart
    have hnone : c.artifact.arityEntry = none := (Except.ok.inj hart).symm
    rw [hnone, Option.getD_none, hentry]
    exact .inl ⟨0, r, mem, passed, .refl _, by omega, hs, hf, .inl rfl⟩
  · obtain ⟨o, ho, hw⟩ := h.arity harity
    have hsome : c.artifact.arityEntry = some o := by
      rw [harity, Option.mapM_some, Link.labelOffset_eq ho] at hart
      exact (Except.ok.inj hart).symm
    rw [hsome, Option.getD_some]
    have hlink : (p.scene frame s blk c passed f).Linked := ⟨hl.loaded, hl.size⟩
    have hhas := Scene.Has.within (hl.has h) hw
    have hoff : offsetOf (p.scene frame s blk c passed f).labels layout.entry = 0 := by
      have hlabel : s.asm.labels[layout.entry]? = some (some 0) := h.entry
      simp [offsetOf, scene, hlabel]
    obtain ⟨r₁, hr₁, hcount⟩ := goes_count p.block.numParameters hlink hhas.left hf
    rw [hoff] at hcount
    rw [← hr₁] at hf
    split at hcount
    · exact .inl ⟨3, r₁, mem, passed, hcount, by omega, hs, hf, .inl rfl⟩
    · rename_i hlt
      have hlt := Nat.not_le.mp hlt
      have hB' : c.world.blocks[c.artifact.block]? = some B := hl.block ▸ hB
      have hfix := fixesArity frame.frameSlots (w := c.world.withMemory mem) hs hf hlt
      generalize hrun : runs (fixArity (r₁.gpr .frame) p.block.numParameters frame.frameSlots)
        (c.world.withMemory mem) = x at hfix
      rw [← hn, ← hl.slots] at hrun
      -- without room the helper gives no frame, and the code goes to the handler
      have hleaves : (∀ y w', x = (.ok y, w') → y = 0) → ∀ sc, Leaves sc blk c
          ⟨r, mem, o⟩ := by
        intro hzero sc
        refine .goes hcount (.of_remains ?_)
        obtain ⟨e, he, hhandler⟩ := h.rollback
        exact remains_fixup (hl.on (m := ⟨r₁, mem, _⟩) ⟨ps, h.made, hw.after⟩) rfl
          hl.loaded.artifact hB' (fun y w' hy => hzero y w' (hrun.symm.trans hy))
          ⟨e, he, _, h.made, hhandler⟩
      rcases hfix with ⟨e, w', hno⟩ | ⟨w', hno⟩ | ⟨moved, mem', hs', hf'⟩
      · exact .inr ⟨hno, hleaves fun y w' hy => by cases hy⟩
      · exact .inr ⟨hno, hleaves fun y w' hy => by cases hy; rfl⟩
      · have hne : moved ≠ 0 := by
          rintro rfl
          have htop := hf'.top
          have hroom := hf'.room
          rw [stackTop_eq] at htop
          rw [stackSize_eq] at hroom
          have : (0 : UInt64).toNat = 0 := rfl
          omega
        obtain ⟨r₂, hr₂, hgo⟩ := goes_fixup hlink hhas.right hB' hrun hne
        rw [hoff] at hgo
        rw [← hr₂] at hf'
        exact .inl ⟨9, r₂, mem', _, hcount.trans hgo, by omega, hs', hf', .inr ⟨rfl, hlt⟩⟩

end Plan
end Speculation
