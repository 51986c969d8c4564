import Speculation.Proofs.Compile.Ledger
import Speculation.Proofs.Integer.Calls
import Speculation.Proofs.World.Pages

/-!
Integer dataflow is compiled correctly.

A call of the code gives the value that the graph computes in two's complement arithmetic, or leaves
through the exit of the first node whose speculation fails; then an interpreter finds the arguments
and the locals as they were before that node.
-/

namespace Speculation

namespace Integer

open World

variable {g : Graph} {blk : Block} {passed : List Value} {n : Nat}

/-- Missing arguments are undefined anyway. -/
lemma getD_padded (passed : List Value) (n k : Nat) :
    (padded passed n)[k]?.getD .undefined = passed[k]?.getD .undefined := by
  rw [padded, List.getElem?_append]
  split
  · rfl
  · rename_i hk
    rw [List.getElem?_eq_none (Nat.not_lt.mp hk), List.getElem?_replicate]
    split <;> rfl

/-- Making up missing arguments changes no value. -/
lemma evaluate_padded (nodes : List NodeId) : evaluate g (padded passed n) nodes =
    evaluate g passed nodes := by
  have hargument : argument g (padded passed n) = argument g passed := by
    funext v
    unfold argument
    rcases (g.vars[v]?.bind fun x => x.operand.argument?) with _ | k
    · rfl
    · exact getD_padded passed n k
  have hcompute : compute g (padded passed n) = compute g passed := by
    funext val x
    unfold compute
    rw [hargument]
  unfold evaluate extend
  rw [hcompute]

def returned (g : Graph) (passed : List Value) (nodes : List NodeId) : Value :=
  ((nodes.getLast?.bind fun n => g.nodes[n]?).bind fun x =>
    x.children[0]?.map fun e => evaluate g passed nodes e.node).getD .undefined

/-- An exit was taken at the node `n`, and an interpreter can go on before it. -/
structure Exits (g : Graph) (blk : Block) (passed : List Value) (n : NodeId) (s : ExitState) : Prop where
  origin {d : Speculation.Node} (h : g.nodes[n]? = some d) : s.origin = d.origin
  resumes : ∃ done rest, blk.nodes.toList = done ++ n :: rest ∧
    Resumes g blk passed (evaluate g passed blk.nodes.toList) done (n :: rest) s.values

/-- What a call comes to: the value of the graph if no speculation fails, and else an exit at the first
node whose speculation fails. -/
def Answers (g : Graph) (blk : Block) (passed : List Value) (x : Except Fault Outcome) : Prop :=
  match firstFault g passed blk.nodes.toList with
  | none => x = .ok (.returned (returned g passed blk.nodes.toList))
  | some (n, kind) => ∃ s, x = .ok (.exited s) ∧ s.kind = kind ∧ Exits g blk passed n s

section Scene

variable {sc : Scene} {x : Except Fault Outcome} {done rest : List NodeId} {m : NodeId}
  {s : ExitState}

/-- The scene is that of a call with these values passed, missing arguments perhaps made up. -/
structure Stages (g : Graph) (blk : Block) (passed : List Value) (sc : Scene) : Prop where
  graph : sc.graph = g
  nodes : sc.nodes = blk.nodes.toList
  passed : sc.passed = passed ∨ ∃ n, sc.passed = padded passed n

variable (h : Stages g blk passed sc)
include h

lemma Stages.val : sc.val = evaluate g passed blk.nodes.toList := by
  rw [Scene.val, h.graph, h.nodes]
  obtain hp | ⟨n, hp⟩ := h.passed <;> rw [hp]
  exact evaluate_padded _

lemma Stages.getD (k : Nat) : sc.passed[k]?.getD .undefined = passed[k]?.getD .undefined := by
  obtain hp | ⟨n, hp⟩ := h.passed <;> rw [hp]
  exact getD_padded _ _ _

lemma Stages.passes (hp : sc.Passes sc.nodes) : firstFault g passed blk.nodes.toList = none := by
  rw [firstFault, List.findSome?_eq_none_iff, ← h.val, ← h.graph, ← h.nodes]
  exact hp

lemma Stages.fault (hl : sc.LeftAt blk done rest m s) :
    firstFault g passed blk.nodes.toList = some (m, s.kind) := by
  have hdone : done.findSome? (faultOf g sc.val) = none := by
    rw [List.findSome?_eq_none_iff, ← h.graph]
    exact hl.passes
  rw [firstFault, ← h.val, ← h.nodes, hl.nodes, List.findSome?_append, hdone, Option.none_or,
    List.findSome?_cons, ← h.graph, hl.fault]

lemma Stages.exits (hl : sc.LeftAt blk done rest m s) : Exits g blk passed m s where
  origin hd := hl.origin (h.graph ▸ hd)
  resumes := by
    have hr := hl.resumes
    rw [h.graph, h.val] at hr
    exact ⟨done, rest, h.nodes ▸ hl.nodes, hr.arguments_size,
      fun hk => (hr.argument hk).trans (h.getD _), hr.locals_size, hr.recovers⟩

/-- A run that concludes as it should has given the answer, if no argument is missing. -/
lemma Stages.answers (hargs : g.arguments.size ≤ sc.passed.length) (hc : sc.Concludes blk x) :
    Answers g blk passed x := by
  unfold Answers
  rcases x with e | v | v | s
  · exact absurd hargs (Nat.not_le.mpr (h.graph ▸ hc))
  · rw [h.passes hc.1]
    show _ = _
    rw [hc.2, Scene.result, h.val, h.graph, h.nodes]
    rfl
  · exact hc.elim
  · obtain ⟨-, done, m, rest, hl⟩ := hc
    rw [h.fault hl]
    exact ⟨s, rfl, rfl, h.exits hl⟩

end Scene

end Integer

/-- The world has the code of a plan, with its code block and its context, and a stack. -/
structure World.Hosts (w : World) (p : Plan) (code : Nat) (b : Artifact) (limit : UInt64) : Prop where
  artifact : w.artifacts[code]? = some b
  room : b.base.toNat + b.code.size < UInt64.size
  context : w.context = p.context
  block : ∃ B, w.blocks[p.blockId]? = some B ∧ B.numParameters = p.block.numParameters
  id : p.blockId + 1 < UInt64.size
  stack : w.Stack limit

namespace Plan

open Lowering World Execution

variable {p : Plan} {d : Draft} {blk : Block} {frame : FrameLayout} {w : World} {code : Nat}
  {a b : Artifact} {base limit : UInt64} {this : Value} {args : List Value}

def installed (w : World) (code : Nat) : World := w.after (install code)

lemma installed_eq (w : World) (code : Nat) :
    ∃ cs, installed w code = { w with installed := cs } := by
  by_cases h : w.installed.contains code
  · exact ⟨w.installed, if_pos h⟩
  · exact ⟨w.installed.push code, if_neg h⟩

/-- A call lays the frame out and goes to where callers enter. -/
lemma runs_callCode (h : w.Hosts p code b limit) (hblock : b.block = p.blockId)
    (hroom : 8 * (Frame.headerSize + (this :: args).length) ≤ Memory.stackSize) : ∃ f mem,
    ((installed w code).withMemory mem).Stack limit ∧ FrameAt mem p.blockId f (this :: args) ∧
    runs (callCode code this args) w = Site.runFrom ⟨installed w code, code, b⟩ stepLimit
      ⟨Registers.setGpr {} .frame f, mem, b.arityEntry.getD b.entry⟩ := by
  obtain ⟨cs, hcs⟩ := installed_eq w code
  have hinstall : runs (install code) w = (.ok (), installed w code) := rfl
  have hartifact : (installed w code).artifacts[code]? = some b := by
    rw [hcs]
    exact h.artifact
  have hstack : (installed w code).Stack limit := by
    rw [hcs]
    exact ⟨h.stack.mapped, h.stack.above, h.stack.context, h.stack.low, h.stack.limit⟩
  obtain ⟨f, mem, hrun, hs, hf⟩ := runs_pushFrame this args hstack hartifact
    (by rw [hblock]; exact h.id) (by rwa [List.length_cons, Nat.add_comm args.length] at hroom)
  refine ⟨f, mem, hs, hblock ▸ hf, ?_⟩
  rw [callCode, runs_bind_of_ok hinstall, runs_bind_of_ok hrun,
    runs_bind_of_ok (runs_artifact (w := (installed w code).withMemory mem) hartifact)]
  rfl

lemma addresses_of_frameAt {g : Graph} {mem : Memory} {block slots : Nat} {f : UInt64}
    {passed : List Value} (hf : FrameAt mem block f passed) (hlocals : g.numLocals ≤ slots)
    (hslots : 8 * (slots + g.arguments.size) < 268435456) : Addresses g f := by
  have htop := hf.top
  have hroom := hf.room
  rw [stackTop_eq] at htop
  rw [stackSize_eq] at hroom
  exact ⟨by omega, by omega⟩

structure Called (p : Plan) (blk : Block) (frame : FrameLayout) (layout : Layout) (s : State)
    (c : Site) (limit : UInt64) (passed : List Value) (m : Machine) : Prop where
  linked : p.Linked frame layout s c
  context : c.world.context = p.context
  enters : (∃ k r mem passed', Arrival c limit p.blockId p.block.numParameters passed m k r mem
    passed') ∨ ¬Fits limit frame.frameSlots p.block.numParameters ∧ ∀ sc, Leaves sc blk c m

section Call

variable (hd : d.Integer blk) (hg : d.finish = .ok p.graph)
  (ha : (p.compile base).outcome = .ok a) (hb : a.Counted b) (h : w.Hosts p code b limit)
  (hsize : a.code.size < 2147483648)
  (hslots : 8 * (a.frameSlots + p.graph.arguments.size) < 268435456)
  (hp : ∀ v ∈ this :: args, v.Canonical)
include hd hg ha hb h hsize hslots hp

lemma exists_called (hroom : 8 * (Frame.headerSize + (this :: args).length) ≤ Memory.stackSize) :
    ∃ frame layout s c m, Called p blk frame layout s c limit (this :: args) m ∧
      frame.frameSlots = a.frameSlots ∧ c.artifact.code = a.code ∧
      runs (callCode code this args) w = c.runFrom stepLimit m := by
  obtain ⟨cs, hcs⟩ := installed_eq w code
  obtain ⟨frame, layout, s, hl⟩ := linked_of_compile (w := installed w code) ha hb
    (by rw [hcs]; exact h.artifact) h.room hsize
  have hslots' : frame.frameSlots = a.frameSlots := by
    have hrest := congrArg Artifact.frameSlots hb.rest
    exact hl.slots.symm.trans hrest
  obtain ⟨f, mem, hs, hf, hrun⟩ := runs_callCode h hl.block hroom
  have hlocals := numLocals_le (outcome_of_lower hl.lower).1
  obtain ⟨R, ps, hlow⟩ := hl.lowered hd hg
    (addresses_of_frameAt hf hlocals (hslots'.symm ▸ hslots)) hp
  obtain ⟨B, hB, hn⟩ := h.block
  refine ⟨frame, layout, s, _, _, ⟨hl, ?_, ?_⟩, hslots', ?_, hrun⟩
  · rw [hcs]
    exact h.context
  · exact hl.enters hlow (by rw [hcs]; exact hB) hn hs
      (by rwa [Registers.gpr_setGpr, if_pos rfl])
  · have hcode := congrArg Artifact.code hb.rest
    exact hcode

end Call

section Called

variable {layout : Layout} {s : State} {c : Site} {passed passed' : List Value} {m : Machine}
  {k : Nat} {r : Registers} {mem : Memory}

/-- The values in the frame at the entry are those that were passed, or missing ones were made up. -/
lemma Arrival.stages (h : Arrival c limit p.blockId p.block.numParameters passed m k r mem passed')
    (frame : FrameLayout) (s : State) (f : UInt64) :
    Integer.Stages p.graph blk passed (p.scene frame s blk c passed' f) where
  graph := rfl
  nodes := rfl
  passed := h.passed.imp id fun hp => ⟨_, hp.1⟩

/-- What is made up is undefined, so its box is the only one. -/
lemma Arrival.canonical (h : Arrival c limit p.blockId p.block.numParameters passed m k r mem passed')
    (hp : ∀ v ∈ passed, v.Canonical) : ∀ v ∈ passed', v.Canonical := by
  obtain rfl | ⟨rfl, -⟩ := h.passed
  · exact hp
  · intro v hv
    obtain hv | hv := List.mem_append.mp hv
    · exact hp v hv
    · rw [(List.mem_replicate.mp hv).2]
      intro hint
      exact absurd hint (by decide)

lemma Arrival.length (h : Arrival c limit p.blockId p.block.numParameters passed m k r mem passed') :
    passed.length ≤ passed'.length ∧ passed'.length ≤ max passed.length p.block.numParameters := by
  obtain rfl | ⟨rfl, hlt⟩ := h.passed
  · exact ⟨Nat.le_refl _, Nat.le_max_left _ _⟩
  · rw [length_padded (Nat.le_of_lt hlt)]
    exact ⟨Nat.le_of_lt hlt, Nat.le_max_right _ _⟩

variable (hd : d.Integer blk) (hg : d.finish = .ok p.graph) (hp : ∀ v ∈ passed, v.Canonical)
  (h : Called p blk frame layout s c limit passed m)
include hd hg hp h

/-- A run with room for its frame gives the answer. -/
lemma Called.answers (hargs : p.graph.arguments.size ≤ passed.length)
    (hfits : Fits limit frame.frameSlots (max passed.length p.block.numParameters))
    (hsize : c.artifact.code.size ≤ 2 * stepLimit) :
    Integer.Answers p.graph blk passed (c.runFrom stepLimit m).1 := by
  have hlocals := numLocals_le (outcome_of_lower h.linked.lower).1
  obtain ⟨k, r, mem, passed', harr⟩ := h.enters.resolve_right fun hno => hno.1 <| by
    unfold Fits at hfits ⊢
    omega
  obtain ⟨hle, hmax⟩ := harr.length
  have htop := harr.frame.top
  have hfit : limit.toNat + 8 * frame.frameSlots ≤ (r.gpr .frame).toNat := by
    unfold Fits at hfits
    omega
  have haddress : Addresses p.graph (r.gpr .frame) := by
    rw [stackTop_eq] at htop
    exact ⟨by omega, by omega⟩
  obtain ⟨n, hn, hrun⟩ := h.linked.concludes hd hg haddress (harr.canonical hp) h.context harr.stack
    harr.frame hfit rfl
  have hsteps : stepLimit = k + (n + (2 + (stepLimit - 2 - n - k))) := by
    have hlimit : stepLimit = 10000000 := rfl
    have hk := harr.le
    omega
  have hrun := hrun (stepLimit - 2 - n - k)
  rw [← harr.goes, ← hsteps] at hrun
  exact (harr.stages _ _ _).answers (Nat.le_trans hargs hle) hrun

/-- A run that leaves through an exit leaves where it should. -/
lemma Called.exits (hslots : 8 * (frame.frameSlots + p.graph.arguments.size) < 268435456)
    {fuel : Nat} {x : ExitState} (hx : (c.runFrom fuel m).1 = .ok (.exited x)) : ∃ n,
    Integer.firstFault p.graph passed blk.nodes.toList = some (n, x.kind) ∧
      Integer.Exits p.graph blk passed n x := by
  have hlocals := numLocals_le (outcome_of_lower h.linked.lower).1
  obtain ⟨sc, hst, hleaves⟩ : ∃ sc, Integer.Stages p.graph blk passed sc ∧ Leaves sc blk c m := by
    obtain ⟨k, r, mem, passed', harr⟩ | ⟨-, hleaves⟩ := h.enters
    · refine ⟨_, harr.stages frame s (r.gpr .frame), .goes harr.goes ?_⟩
      have haddress := addresses_of_frameAt harr.frame hlocals hslots
      by_cases hfit : limit.toNat + 8 * frame.frameSlots ≤ (r.gpr .frame).toNat
      · obtain ⟨n, -, hrun⟩ := h.linked.concludes hd hg haddress (harr.canonical hp) h.context
          harr.stack harr.frame hfit rfl
        exact .of_concludes fun fuel => by
          have hrun := hrun fuel
          rwa [← Nat.add_assoc] at hrun
      · have htop := harr.frame.top
        have hroom := harr.frame.room
        rw [stackTop_eq] at htop
        rw [stackSize_eq] at hroom
        exact h.linked.overflows hd hg haddress (harr.canonical hp) h.context harr.stack (by omega)
          (by omega) rfl
    · exact ⟨p.scene frame s blk c passed 0, ⟨rfl, rfl, .inl rfl⟩, hleaves _⟩
  obtain ⟨-, done, n, rest, hl⟩ := hleaves fuel x hx
  exact ⟨n, hst.fault hl, hst.exits hl⟩

end Called

/-! ### The world of one plan -/

/-- The world in which a plan was compiled, with no other code. -/
def hosting (p : Plan) (a : Artifact) : World where
  memory := World.grounds
  context := p.context
  blocks := #[p.block]
  artifacts := #[a]

/-- No exit of fresh code was taken. -/
lemma counted_of_compile (h : (p.compile base).outcome = .ok a) : a.Counted a := by
  obtain ⟨frame, layout, s, bytes, -, -, ha, -⟩ := build_ok h
  obtain ⟨-, hexits, -⟩ := artifact_ok ha
  refine ⟨rfl, fun {k x} hx => ⟨0, ?_, by decide⟩⟩
  obtain ⟨e, -, hex⟩ := getElem?_of_forall₂ (forall₂_of_mapM hexits) (Array.getElem?_toList ▸ hx)
  obtain ⟨o, -, hex⟩ := bind_eq_ok.mp hex
  rw [hx, ← Except.ok.inj hex]

lemma hosts_hosting (hid : p.blockId = 0) (hc : p.context = UInt64.ofNat Memory.heapBase)
    (hroom : a.base.toNat + a.code.size < UInt64.size) :
    (p.hosting a).Hosts p 0 a Memory.stackLimit := by
  have hm : (p.hosting a).memory = World.grounds := by simp only [hosting]
  have hx : (p.hosting a).context = UInt64.ofNat Memory.heapBase := hc
  have hs : (p.hosting a).Stack Memory.stackLimit := stack_grounds hm hx
  have hb : (p.hosting a).blocks[p.blockId]? = some p.block := by rw [hid]; rfl
  have ha : (p.hosting a).artifacts[0]? = some a := rfl
  refine ⟨ha, hroom, rfl, ⟨p.block, hb, rfl⟩, ?_, hs⟩
  rw [hid]
  decide

end Plan

/-! ### An example -/

/-- An argument added to itself, after one local was told of it and another was stored. -/
def Draft.double : Draft :=
  let d : Draft := { name := "double", kind := .function }
  let d := ((d.addArgument .other .value).2.addArgument .top .value).2
  let d := (((d.addVariable .top .value).2.addVariable .top .value).2.addVariable .top .value).2
  let d := d.addBlock.select 0
  let d := (d.addNode (.getLocal 1) [] .int32).2
  let d := (d.addNode (.movHint 2) [0] .empty).2
  let d := (d.addNode (.setLocal 3) [0] .empty).2
  let d := (d.addNode .arithAdd [0, 0] .int32).2
  (d.addNode .ret [3] .empty).2

lemma Draft.built_double : Draft.double.Built := by
  refine .addNode (.addNode (.addNode (.addNode (.addNode ?_ ?_ _ _ _ _) ?_ _ _ _ _)
    ?_ _ _ _ _) ?_ _ _ _ _) ?_ _ _ _ _
  · exact ((((((Built.new _ _).addArgument _ _).addArgument _ _).addVariable _ _).addVariable _ _
      ).addVariable _ _).addBlock.select _
  all_goals decide

lemma Draft.arguments_double : Draft.double.arguments = #[0, 1] := rfl

lemma Draft.integer_double : Draft.double.Integer { nodes := #[0, 1, 2, 3, 4] } where
  built := built_double
  kinds := rfl
  blocks := rfl
  reachable := rfl
  arguments {v x} hv hx := by
    obtain rfl | rfl : v = 0 ∨ v = 1 := by
      rwa [arguments_double, Array.mem_def, List.mem_pair] at hv
    all_goals
      cases Option.some.inj hx
      rfl
  live {v} hv := absurd hv (Array.not_mem_empty v)
  node {n x} hx := by
    have hlt : n < 5 := (Array.getElem?_eq_some_iff.mp hx).1
    have hops : ∀ e ∈ x.children, (Draft.double.nodes[e.node]?.map fun y => y.op.hasResult) = some true := by
      interval_cases n <;> cases Option.some.inj hx <;> decide
    refine ⟨fun {e} he => Option.map_eq_some_iff.mp (hops e he), fun h => ?_, ?_⟩
    · interval_cases n <;> cases Option.some.inj hx <;> first | rfl | cases h
    · interval_cases n <;> cases Option.some.inj hx
      · exact ⟨rfl, by simp [arguments_double], rfl⟩
      · exact ⟨rfl, by simp [arguments_double], _, rfl, rfl⟩
      · exact ⟨rfl, by simp [arguments_double], _, rfl, rfl⟩
      · exact ⟨rfl, rfl⟩
      · exact rfl
  last {n x} hn hx hr := by
    have hlt : n < 5 := (Array.getElem?_eq_some_iff.mp hx).1
    interval_cases n <;> cases Option.some.inj hx <;> first | rfl | cases hr

namespace Plan

open Lowering World Execution Memory

def double : Plan :=
  { ofDraft .double with
    block := { name := "double", numParameters := 2 }
    context := UInt64.ofNat Memory.heapBase }

/-- What the plan says before anything is run. -/
lemma eval_double : (FrameLayout.ofGraph double.graph).toOption.map (·.frameSlots) = some 30 ∧
    Draft.double.finish.isOk = true ∧
    (double.lower.toOption.all fun x => x.2.2.asm.code.size ≤ 1000) = true ∧
    double.graph.arguments.size = 2 ∧ double.graph.numVars = 3 ∧
    usesOf double.graph.nodes [3, 4] 0 ≠ 0 := by
  decide +kernel

lemma frame_double : ∃ frame, FrameLayout.ofGraph double.graph = .ok frame ∧
    frame.frameSlots = 30 := by
  have h := eval_double.1
  rcases hf : FrameLayout.ofGraph double.graph with _ | f <;> rw [hf] at h
  · cases h
  · exact ⟨f, rfl, Option.some.inj h⟩

lemma finish_double : Draft.double.finish = .ok double.graph := finish_ofDraft eval_double.2.1

lemma code_double {frame : FrameLayout} {layout : Layout} {s : State}
    (hs : double.lower = .ok (frame, layout, s)) :
    s.asm.code.size ≤ double.options.codeLimit := by
  have h := eval_double.2.2.1
  rw [hs] at h
  exact (of_decide_eq_true h).trans (by decide)

lemma size_arguments_double : double.graph.arguments.size = 2 := eval_double.2.2.2.1

lemma slots_double : 8 * (30 + double.graph.arguments.size) < 268435456 := by
  rw [size_arguments_double]
  decide

/-- What the dataflow gives for an argument that can be doubled, and for one that cannot. -/
lemma evaluates_double :
    Integer.firstFault double.graph [.undefined, .ofInt32 21] [0, 1, 2, 3, 4] = none ∧
    Integer.returned double.graph [.undefined, .ofInt32 21] [0, 1, 2, 3, 4] = .ofInt32 42 ∧
    Integer.firstFault double.graph [.undefined, .ofInt32 2147483647] [0, 1, 2, 3, 4] =
      some (3, .overflow) ∧
    Integer.evaluate double.graph [.undefined, .ofInt32 2147483647] [0, 1, 2, 3, 4] 0 =
      .ofInt32 2147483647 ∧
    Integer.lastAssigned double.graph [0, 1, 2] (.ofLocal 0) = some (0, false) ∧
    Integer.lastAssigned double.graph [0, 1, 2] (.ofLocal 1) = some (0, true) ∧
    Integer.lastAssigned double.graph [0, 1, 2] (.ofLocal 2) = none := by
  decide +kernel

lemma canonical_double (i : Int32) : ∀ v ∈ [Value.undefined, .ofInt32 i], v.Canonical := by
  intro v hv
  obtain rfl | rfl := List.mem_pair.mp hv
  · intro h
    exact absurd h (by decide)
  · intro _
    exact Value.isInteger_ofInt32 i

end Plan

/-! ### The two theorems -/

namespace Plan

open Lowering World Execution

variable {p : Plan} {d : Draft} {blk : Block} {frame : FrameLayout} {w : World} {code : Nat}
  {a b : Artifact} {base limit : UInt64} {this : Value} {args : List Value}

/-- A place where code may be, for what does not depend on the code. -/
def nowhere (g : Graph) : Artifact where
  graph := g
  block := 0
  base := 0
  code := ⟨#[]⟩
  instsLength := 0
  entry := 0
  arityEntry := none
  exits := #[]
  events := #[]
  caches := #[]
  calls := #[]
  jumps := #[]
  osrEntries := []
  frameSlots := 0
  exitThreshold := 0
  log := none

/-- Integer dataflow whose frame can be addressed compiles, if the code is not too big. -/
lemma compiles_integer (hd : d.Integer blk) (hg : d.finish = .ok p.graph)
    (hframe : FrameLayout.ofGraph p.graph = .ok frame)
    (hslots : 8 * (frame.frameSlots + p.graph.arguments.size) < 268435456)
    (hcode : ∀ layout s, p.lower = .ok (frame, layout, s) →
      s.asm.code.size ≤ p.options.codeLimit)
    (hlimit : ∀ layout s, p.lower = .ok (frame, layout, s) → s.asm.code.size ≤ 2 * stepLimit)
    (base : UInt64) :
    ∃ a, (p.compile base).outcome = .ok a ∧ a.frameSlots = frame.frameSlots ∧
      a.code.size ≤ 2 * stepLimit := by
  have hlocals := numLocals_le hframe
  have hheader : Frame.headerSize = 5 := rfl
  have hf : (UInt64.ofNat (8 * p.graph.numLocals)).toNat = 8 * p.graph.numLocals :=
    UInt64.toNat_ofNat_of_lt' (by have : UInt64.size = 18446744073709551616 := rfl; omega)
  have hst : (p.scene frame p.start blk ⟨{ artifacts := #[nowhere p.graph] }, 0, nowhere p.graph⟩ []
      (UInt64.ofNat (8 * p.graph.numLocals))).Staged blk :=
    staged_scene hd hg ⟨rfl, Nat.zero_lt_succ _⟩ (Nat.zero_lt_succ _) ⟨Nat.le_of_eq hf.symm, by rw [hf]; omega⟩
      (List.forall_mem_nil _)
  obtain ⟨layout, s, R, ps, hs, h⟩ := lower_integer hd hg hst rfl hframe
  have hle := hlimit layout s hs
  have hsteps : 2 * stepLimit < 2147483648 := by decide
  obtain ⟨a, ha, hsize⟩ := h.compile hs (hcode layout s hs) (Nat.lt_of_le_of_lt hle hsteps) base
  obtain ⟨frame', layout', s', bytes, hs', -, ha', -⟩ := build_ok ha
  cases hs.symm.trans hs'
  exact ⟨a, ha, (artifact_entries ha').2.2.2.2.1, hsize ▸ hle⟩

/-- A call of compiled code in a frame that fits gives the answer. -/
lemma callCode_answers (hd : d.Integer blk) (hg : d.finish = .ok p.graph)
    (ha : (p.compile base).outcome = .ok a) (hb : a.Counted b) (h : w.Hosts p code b limit)
    (hsize : a.code.size ≤ 2 * stepLimit) (hp : ∀ v ∈ this :: args, v.Canonical) (hargs : p.graph.arguments.size ≤ (this :: args).length)
    (hfits : Fits limit a.frameSlots (max (this :: args).length p.block.numParameters)) :
    Integer.Answers p.graph blk (this :: args) (runs (callCode code this args) w).1 := by
  have hlow := h.stack.low
  have hsteps : stepLimit = 10000000 := rfl
  rw [stackTop_eq, stackSize_eq] at hlow
  have hroom := hfits
  unfold Fits at hroom
  rw [stackTop_eq] at hroom
  obtain ⟨frame, layout, s, c, m, hcalled, hslots, hbytes, hrun⟩ := exists_called hd hg ha hb h
    (by omega) (by omega) hp (by rw [stackSize_eq]; omega)
  rw [hrun]
  exact hcalled.answers hd hg hp hargs (by rwa [hslots]) (hbytes ▸ hsize)

lemma hosts_double (ha : (double.compile 0).outcome = .ok a) :
    (double.hosting a).Hosts double 0 a Memory.stackLimit ∧ a.frameSlots = 30 ∧
      a.code.size ≤ 2 * stepLimit := by
  obtain ⟨frame, hframe, hslots⟩ := frame_double
  obtain ⟨a', ha', hslots', hsize⟩ := compiles_integer Draft.integer_double finish_double hframe
    (hslots ▸ slots_double) (fun layout s hs => code_double hs)
    (fun layout s hs => (code_double hs).trans (by decide)) 0
  cases ha.symm.trans ha'
  obtain ⟨-, hbase, -⟩ := compile_bounds ha
  have hsteps : stepLimit = 10000000 := rfl
  have hword : UInt64.size = 18446744073709551616 := rfl
  have hroom : a.base.toNat + a.code.size < UInt64.size := by
    rw [hbase, UInt64.toNat_zero]
    omega
  exact ⟨hosts_hosting rfl rfl hroom, hslots'.trans hslots, hsize⟩

/-- Integer dataflow compiles, unless the code is too big, and calls of the code give the value that
the graph computes, or leave through the exit of the first node whose speculation fails. -/
theorem callCode_integer (hd : d.Integer blk) (hg : d.finish = .ok p.graph)
    (hframe : FrameLayout.ofGraph p.graph = .ok frame)
    (hcode : ∀ layout s, p.lower = .ok (frame, layout, s) →
      s.asm.code.size ≤ p.options.codeLimit)
    (hlimit : ∀ layout s, p.lower = .ok (frame, layout, s) → s.asm.code.size ≤ 2 * stepLimit)
    (base limit : UInt64)
    (hlow : Memory.stackTop - Memory.stackSize ≤ limit.toNat)
    (hp : ∀ v ∈ this :: args, v.Canonical)
    (hargs : p.graph.arguments.size ≤ (this :: args).length)
    (hfits : Fits limit frame.frameSlots (max (this :: args).length p.block.numParameters)) :
    ∃ a, (p.compile base).outcome = .ok a ∧
      ∀ (w : World) (code : Nat) (b : Artifact), a.Counted b → w.Hosts p code b limit →
        Integer.Answers p.graph blk (this :: args) (runs (callCode code this args) w).1 := by
  have hslots : 8 * (frame.frameSlots + p.graph.arguments.size) < 268435456 := by
    rw [stackTop_eq, stackSize_eq] at hlow
    unfold Fits at hfits
    rw [stackTop_eq] at hfits
    omega
  obtain ⟨a, ha, hslots', hsize⟩ := compiles_integer hd hg hframe hslots hcode hlimit base
  exact ⟨a, ha, fun w code b hb h =>
    callCode_answers hd hg ha hb h hsize hp hargs (by rwa [hslots'])⟩

/-- Without a failing speculation the call gives twice the argument. -/
theorem callCode_integer_double : ∃ a, (double.compile 0).outcome = .ok a ∧
    (runs (callCode 0 .undefined [.ofInt32 21]) (double.hosting a)).1 =
      .ok (.returned (.ofInt32 42)) := by
  obtain ⟨frame, hframe, hslots⟩ := frame_double
  obtain ⟨a, ha, h⟩ := callCode_integer Draft.integer_double finish_double hframe
    (fun layout s hs => code_double hs) (fun layout s hs => (code_double hs).trans (by decide)) 0
    Memory.stackLimit (by decide) (canonical_double 21) size_arguments_double.le (by rw [Fits, hslots]; decide)
  obtain ⟨hhosts, -⟩ := hosts_double ha
  have hanswers := h (double.hosting a) 0 a (counted_of_compile ha) hhosts
  obtain ⟨hfirst, hvalue, -⟩ := evaluates_double
  unfold Integer.Answers at hanswers
  rw [hfirst] at hanswers
  refine ⟨a, ha, hanswers.trans ?_⟩
  rw [hvalue]

/-- A call that leaves through an exit leaves through that of the first node whose speculation fails,
and an interpreter finds the arguments, and what the locals were told to be or held before it. -/
theorem callCode_exited (hd : d.Integer blk) (hg : d.finish = .ok p.graph)
    (ha : (p.compile base).outcome = .ok a) (hb : a.Counted b) (h : w.Hosts p code b limit)
    (hsize : a.code.size < 2147483648)
    (hslots : 8 * (a.frameSlots + p.graph.arguments.size) < 268435456)
    (hp : ∀ v ∈ this :: args, v.Canonical)
    (hroom : 8 * (Frame.headerSize + (this :: args).length) ≤ Memory.stackSize) {x : ExitState}
    (hx : (runs (callCode code this args) w).1 = .ok (.exited x)) : ∃ n,
    Integer.firstFault p.graph (this :: args) blk.nodes.toList = some (n, x.kind) ∧
      Integer.Exits p.graph blk (this :: args) n x := by
  obtain ⟨frame, layout, s, c, m, hcalled, hslots', -, hrun⟩ :=
    exists_called hd hg ha hb h hsize hslots hp hroom
  rw [hrun] at hx
  exact hcalled.exits hd hg hp (by rwa [hslots']) hx

/-- Twice the greatest integer is none, and an interpreter finds the argument, the local that was told
of it and the one that holds it. -/
theorem callCode_exited_double : ∃ a x, (double.compile 0).outcome = .ok a ∧
    (runs (callCode 0 .undefined [.ofInt32 2147483647]) (double.hosting a)).1 = .ok (.exited x) ∧
    x.kind = .overflow ∧ x.values.arguments = #[.undefined, .ofInt32 2147483647] ∧
    x.values.locals = #[.ofInt32 2147483647, .ofInt32 2147483647, .undefined] := by
  obtain ⟨frame, hframe, hslots⟩ := frame_double
  obtain ⟨a, ha, -, -⟩ := compiles_integer Draft.integer_double finish_double hframe
    (hslots ▸ slots_double) (fun layout s hs => code_double hs)
    (fun layout s hs => (code_double hs).trans (by decide)) 0
  obtain ⟨hhosts, hslots', hsize⟩ := hosts_double ha
  have hcounted := counted_of_compile ha
  have hsteps : stepLimit = 10000000 := rfl
  -- the speculation of the sum fails
  have hanswers := callCode_answers Draft.integer_double finish_double ha hcounted hhosts hsize
    (canonical_double 2147483647) size_arguments_double.le (by rw [Fits, hslots']; decide)
  obtain ⟨-, -, hfirst, hvalue, hhinted, hstored, hunassigned⟩ := evaluates_double
  unfold Integer.Answers at hanswers
  rw [hfirst] at hanswers
  obtain ⟨x, hx, -, -⟩ := hanswers
  -- so it is left there
  obtain ⟨n, hfault, hexits⟩ := callCode_exited Draft.integer_double finish_double ha hcounted
    hhosts (by omega) (hslots' ▸ slots_double) (canonical_double 2147483647) (by decide) hx
  obtain ⟨rfl, hkind⟩ := Prod.mk.inj (Option.some.inj (hfirst.symm.trans hfault))
  obtain ⟨done, rest, hnodes, hr⟩ := hexits.resumes
  obtain ⟨rfl, rfl⟩ : done = [0, 1, 2] ∧ rest = [4] := by
    rcases done with _ | ⟨_, _ | ⟨_, _ | ⟨_, _ | ⟨_, _ | ⟨_, done⟩⟩⟩⟩⟩ <;> simp at hnodes
    obtain ⟨rfl, rfl, rfl, rfl⟩ := hnodes
    exact ⟨rfl, rfl⟩
  obtain ⟨-, -, -, -, hvars, huses⟩ := eval_double
  have hn := hr.arguments_size.trans size_arguments_double
  have hm := hr.locals_size.trans hvars
  refine ⟨a, x, ha, hx, hkind.symm, ?_, ?_⟩
  · refine Array.ext hn fun k hk _ => (hr.argument (Array.getElem?_eq_getElem hk)).trans ?_
    have hk2 : k < 2 := hn ▸ hk
    interval_cases k <;> rfl
  · refine Array.ext hm fun j hj _ => ?_
    have hrec := hr.recovers (Array.getElem?_eq_getElem hj)
    have hj3 : j < 3 := hm ▸ hj
    interval_cases j
    · exact (hrec.hinted hhinted (.inr huses)).trans hvalue
    · exact (hrec.stored hstored).trans hvalue
    · exact hrec.unassigned hunassigned fun u hu => absurd hu (Array.not_mem_empty u)

end Plan
end Speculation
