import Speculation.Proofs.Running.Comparisons

/-!
Comparisons and the branches on them.

A comparison that only the branch right after it uses is lowered together with that branch. Otherwise its
truth value is boxed and recorded, and the branch that is taken up later looks at it. For the same values,
used in the same kinds, both come to the same: a machine that is consistent with the ledger comes to the
code of the same block, or it leaves for the same reason.
-/

namespace Speculation

open Lowering

/-- A machine runs on to another one, perhaps in a world that helpers have changed. -/
def Site.Runs (c : Site) (m : Machine) (c' : Site) (m' : Machine) : Prop :=
  ∃ steps, ∀ fuel, c.runFrom (steps + fuel) m = c'.runFrom fuel m'

namespace Site

variable {c c' c'' : Site} {m m' m'' : Machine} {steps : Nat}

lemma Goes.runs (h : c.Goes steps m m') : c.Runs m c m' := ⟨steps, h⟩

lemma Runs.trans (h : c.Runs m c' m') (h' : c'.Runs m' c'' m'') : c.Runs m c'' m'' := by
  obtain ⟨n, h⟩ := h
  obtain ⟨k, h'⟩ := h'
  exact ⟨n + k, fun fuel => by rw [Nat.add_assoc, h, h']⟩

end Site

/-- A place where a compile takes up a node, and a machine that has come there. -/
structure Visit where
  plan : Plan
  frame : FrameLayout
  block : BlockId
  position : Nat
  node : NodeId
  content : Node
  state : State
  site : Site
  val : NodeId → Value
  registers : Registers
  memory : Memory

/-- The type of a boolean is known without a look at the heap. -/
lemma World.typeOf_ofBool (w : World) (z : Bool) : w.typeOf (.ofBool z) = .boolean := by
  have hint : (Value.ofBool z).isInt32 = false := by cases z <;> decide
  have hdouble : (Value.ofBool z).double? = none := by cases z <;> decide
  rw [typeOf, TypeSet.ofValue, hint, hdouble, Value.isBoolean_ofBool]
  rfl

namespace Visit

def machine (x : Visit) : Machine := ⟨x.registers, x.memory, x.state.asm.offset⟩

/-- The code of a finished graph is loaded, and the machine is consistent with the ledger. -/
structure Holds (x : Visit) : Prop where
  draft : ∃ g : Draft, g.Built ∧ g.finish = .ok x.plan.graph
  compiled : ∃ base, (x.plan.compile base).outcome = .ok x.site.artifact
  loaded : x.site.Loaded
  takesUp : x.plan.TakesUp x.frame x.block x.position x.node x.content x.state
  stands : Stands x.val x.state.ledger x.registers x.memory

/-- The node `n` has the value, and what the compile knows of it is true in the world. -/
structure Operand (x : Visit) (w : World) (n : NodeId) (v : Value) : Prop where
  value : x.val n = v
  known : Described w x.plan.graph x.val x.state.facts n
  plain : Plain x.state.ledger n

/-- The node compares two values, which it uses in these kinds. The machine has the heap of the world in its
memory. That no object passes for undefined is watched for, or it is not. -/
structure Compares (x : Visit) (w : World) (watched : Bool) (op : Comparison) (a b : UseKind)
    (u v : Value) : Prop extends x.Holds where
  op : x.content.op = .compare op
  operands : ∃ m n, x.content.children = #[⟨m, a⟩, ⟨n, b⟩] ∧ x.Operand w m u ∧ x.Operand w n v
  heap (i : UInt64) (hle : Memory.heapBase ≤ i.toNat) (hlt : i.toNat < w.memory.next) :
    x.registers.Beyond x.plan.graph i ∧ x.memory.byte? i = w.memory.byte? i
  watched : (x.plan.env x.frame).noMasquerades = watched

structure EndsBlock (x : Visit) (length : Nat) (taken notTaken : BlockId) : Prop where
  last : ∃ blk, x.plan.graph.blocks[x.block]? = some blk ∧ blk.nodes.size = x.position + length
  inside : taken < x.plan.graph.blocks.size ∧ notTaken < x.plan.graph.blocks.size

/-- The comparison is lowered together with the branch after it, which ends the block. -/
structure Fused (x : Visit) (taken notTaken : BlockId) : Prop extends x.EndsBlock 2 taken notTaken where
  fuses : x.plan.graph.Fuses x.block x.position x.node taken notTaken

def Unfused (x : Visit) : Prop := ∀ taken notTaken, ¬x.plan.graph.Fuses x.block x.position x.node taken notTaken

/-- The node ends its block with a branch on a boolean, of which the edge requires that it is one, or
nothing. -/
structure BranchesOn (x : Visit) (w : World) (n : NodeId) (z : Bool) (taken notTaken : BlockId) : Prop
    extends x.Holds, x.EndsBlock 1 taken notTaken where
  op : x.content.op = .branch taken notTaken
  child : ∃ kind ∈ [UseKind.boolean, .untyped], x.content.children = #[⟨n, kind⟩]
  operand : x.Operand w n (.ofBool z)

/-- The machine comes to the code of the one block or of the other, or it leaves through an exit of the
node. It is at the site `c` then. -/
def Parts (x : Visit) (c : Site) (taken notTaken : BlockId) (out : Except ExitKind Bool) : Prop :=
  ∃ m, x.site.Runs x.machine c m ∧ m.Forks x.plan x.site.artifact x.node taken notTaken out

/-- The machine `m`, which has come from the node `x`, runs on to where the node `y` of the same code is taken
up. -/
structure Continues (y x : Visit) (m : Machine) : Prop where
  plan : y.plan = x.plan
  artifact : y.site.artifact = x.site.artifact
  run : x.site.Runs m y.site y.machine

/-- The machine is at the end of the code of the node, whose value, a boxed boolean, is in a register where
the ledger has it; or it has left through an exit of the node. -/
def Gives (x : Visit) (out : Except ExitKind Bool) (m : Machine) : Prop :=
  match out with
  | .ok z => ∃ s' q, outcome (lowerNode x.content.op) (x.plan.env x.frame)
      (x.state.visiting x.position x.node x.content.op) = (.ok (), s') ∧ m.place = s'.asm.offset ∧
    Stands (Function.update x.val x.node (.ofBool z)) s'.ledger m.registers m.memory ∧
    m.registers.gpr q = (Value.ofBool z).bits ∧ m.registers.gpr .frame = x.registers.gpr .frame ∧
    Plain s'.ledger x.node ∧
    (x.content.refCount ≠ 0 → ∃ i, x.content.slot = some (.ofLocal i) ∧ s'.ledger[i]? = some
      { node := some x.node, useCount := x.content.refCount, registerFormat := .jsBoolean, location := .gpr q })
  | .error kind => ∃ y ∈ x.site.artifact.exits, y.exit.kind = kind ∧ y.exit.node = x.node ∧ m.place = y.stub

variable {x y : Visit} {w : World} {h : Heap} {limit : Nat} {watched : Bool} {op : Comparison} {a b : UseKind}
  {u v : Value} {l k : Look} {taken notTaken : BlockId} {n : NodeId} {z : Bool}

/-- A branch on a boolean goes to the block that belongs to it. -/
lemma BranchesOn.parts (hx : x.BranchesOn w n z taken notTaken) : x.Parts x.site taken notTaken (.ok z) := by
  obtain ⟨g, hd, hg⟩ := hx.draft
  obtain ⟨base, hcompile⟩ := hx.compiled
  obtain ⟨blk, hb, hsize⟩ := hx.last
  obtain ⟨kind, hkind, hchildren⟩ := hx.child
  have hstays : Along Stays (x.plan.env x.frame) (lowerNode x.content.op) := by
    rw [hx.op]
    exact Along.Stays.lowerBranch _ _
  have hends : ∀ layout final before, x.plan.lower = .ok (x.frame, layout, final) →
      let k : Course := ⟨x.plan.env x.frame, x.site, final, x.val, x.node, before⟩
      k.Sound → Unborn x.plan.graph x.node before →
        k.Ends [] (x.state.visiting x.position x.node x.content.op) (lowerNode x.content.op)
          ⟨.next, x.registers, x.memory⟩ (k.Parts taken notTaken (.ok z) x.registers x.memory) fun _ =>
            k.Quits (Except.ok (.ofBool z)) x.registers x.memory := by
    intro layout final before hf k hk hu
    rw [hx.op]
    refine Course.Ends.lowerBranch (e := ⟨n, kind⟩) hk hx.takesUp.node hchildren (by simpa using hkind) hx.stands
      ⟨hx.operand.value, hx.operand.known.constant, ?_, hx.operand.plain⟩
    refine hx.operand.known.intersects ?_
    rw [hx.operand.value, World.typeOf_ofBool]
    rfl
  obtain ⟨steps, m, hgo, -, hforks⟩ := hx.takesUp.forks hd hg hcompile hx.loaded rfl (by rw [hx.op]; rfl)
    (by simp [hx.op]) hb hx.inside.1 hx.inside.2
    ((hstays _).weaken fun _ _ hs => ⟨hs.block, .inl hsize⟩) hends
  exact ⟨m, hgo.runs, hforks⟩

/-- No other branch is lowered together with the comparison. -/
lemma Fused.fuses_iff (hx : x.Fused taken notTaken) (t f : BlockId) : some (taken, notTaken) = some (t, f) ↔
    x.plan.graph.Fuses x.block x.position x.node t f := by
  refine ⟨fun heq => ?_, fun hf => congrArg some (hx.fuses.unique hf)⟩
  obtain ⟨rfl, rfl⟩ := Prod.mk.inj (Option.some.inj heq)
  exact hx.fuses

lemma Fused.endsWith (hx : x.Fused taken notTaken) (hop : x.content.op = .compare op) {blk : Block}
    (ht : x.plan.TakesUp x.frame x.block x.position x.node x.content x.state)
    (hsize : blk.nodes.size = x.position + 2) :
    Leads (x.plan.env x.frame) (x.state.visiting x.position x.node x.content.op) (lowerNode x.content.op)
      (fun _ s' => s'.block = x.state.block ∧ Plan.EndsWith blk x.position s') (fun _ => True)
      fun _ _ => True := by
  have hfuses : x.plan.graph.Fuses x.state.block x.position x.node taken notTaken := by
    rw [ht.block_eq]
    exact hx.fuses
  have hskips : Leads (x.plan.env x.frame) (x.state.visiting x.position x.node (.compare op)) (lowerCompare op)
      (fun _ s' => s'.block = x.state.block ∧ s'.skipNext = true) (fun _ => True) fun _ _ => True :=
    leads_lowerCompare_fused hfuses
  rw [hop]
  exact hskips.weaken fun _ s' hs => ⟨hs.1, .inr ⟨hsize, hs.2⟩⟩

section Compares

variable (hx : x.Compares w watched op a b u v) (hw : w.Sound limit h) (hl : h.Looks l) (hlu : l.value = u)
  (hk : h.Looks k) (hkv : k.value = v) (hints : ∀ y ∈ [u, v], y.isInt32 = true → ∃ i, y = .ofInt32 i)
  (hkinds : (a, b) ∈ op.kinds)
include hx hw hl hlu hk hkv hints hkinds

lemma Compares.settles {fused : Option (BlockId × BlockId)} {base : UInt64} {layout : Layout} {final : State}
    {before : List NodeId} (hcompile : (x.plan.compile base).outcome = .ok x.site.artifact)
    (hf : x.plan.lower = .ok (x.frame, layout, final)) (hfused : ∀ t f, fused = some (t, f) ↔
      x.plan.graph.Fuses x.block x.position x.node t f) :
    let k' : Course := ⟨x.plan.env x.frame, x.site, final, x.val, x.node, before⟩
    k'.Sound → Unborn x.plan.graph x.node before →
      k'.Settles [] (x.state.visiting x.position x.node x.content.op) (lowerNode x.content.op)
        ⟨.next, x.registers, x.memory⟩ fused (Look.outcome watched op a b l k) x.registers x.memory := by
  intro k' hsound hu
  obtain ⟨m, n, hchildren, hm, hn⟩ := hx.operands
  have hcompared : ∀ {e : Edge} {o : Look} {y : Value}, x.Operand w e.node y → h.Looks o → o.value = y →
      y ∈ [u, v] → k'.Compared w h (x.state.visiting x.position x.node x.content.op) e o :=
    fun he ho hoy hy => ⟨ho, he.value.trans hoy.symm, he.known, he.plain, fun hi => hoy ▸ hints _ hy (hoy ▸ hi)⟩
  have hfused' : ∀ t f, fused = some (t, f) ↔ k'.env.graph.Fuses
      (x.state.visiting x.position x.node x.content.op).block
      (x.state.visiting x.position x.node x.content.op).position k'.cur t f := fun t f => by
    rw [hfused t f]
    show _ ↔ x.plan.graph.Fuses x.state.block x.position x.node t f
    rw [hx.takesUp.block_eq]
  rw [← hx.watched, hx.op]
  rw [hx.op] at hcompared hfused'
  exact .lowerCompare (a := ⟨m, a⟩) (b := ⟨n, b⟩) hsound hu hx.stands (hcompared hm hl hlu (by simp))
    (hcompared hn hk hkv (by simp)) hw.houses.memory (hw.houses.memory.aside hx.heap)
    (.of_compile hcompile hf hx.loaded) hx.takesUp.node hchildren hkinds hfused'

/-- A comparison that is lowered together with the branch after it goes to one of its blocks. -/
lemma Compares.parts (hfused : x.Fused taken notTaken) :
    x.Parts x.site taken notTaken (Look.outcome watched op a b l k) := by
  obtain ⟨g, hd, hg⟩ := hx.draft
  obtain ⟨base, hcompile⟩ := hx.compiled
  obtain ⟨blk, hb, hsize⟩ := hfused.last
  obtain ⟨steps, m, hgo, -, hforks⟩ := hx.takesUp.forks hd hg hcompile hx.loaded rfl (by rw [hx.op]; rfl)
    (by simp [hx.op]) hb hfused.inside.1 hfused.inside.2 (hfused.endsWith hx.op hx.takesUp hsize)
    fun layout final before hf =>
      hx.settles hw hl hlu hk hkv hints hkinds hcompile hf hfused.fuses_iff
  exact ⟨m, hgo.runs, hforks⟩

/-- A comparison that is lowered on its own gives its value. -/
lemma Compares.gives (hunfused : x.Unfused) : ∃ m, x.site.Runs x.machine x.site m ∧
    x.Gives (Look.outcome watched op a b l k) m := by
  obtain ⟨g, hd, hg⟩ := hx.draft
  obtain ⟨base, hcompile⟩ := hx.compiled
  have hnone : ∀ t f, none = some (t, f) ↔ x.plan.graph.Fuses x.block x.position x.node t f := fun t f =>
    ⟨nofun, fun hf => absurd hf (hunfused t f)⟩
  obtain ⟨steps, m, hgo, ⟨s₁, hlowered, hplace, hgives⟩ | ⟨kind, hkind, y, hy, hexit⟩⟩ :=
    hx.takesUp.decides (P := fun s' r' mem' => ∃ z q, Look.outcome watched op a b l k = .ok z ∧
        Stands (Function.update x.val x.node (.ofBool z)) s'.ledger r' mem' ∧
        r'.gpr q = (Value.ofBool z).bits ∧ r'.gpr .frame = x.registers.gpr .frame ∧ Plain s'.ledger x.node ∧
        (x.content.refCount ≠ 0 → ∃ i, x.content.slot = some (.ofLocal i) ∧ s'.ledger[i]? = some
          { node := some x.node, useCount := x.content.refCount, registerFormat := .jsBoolean,
            location := .gpr q }))
      (R := fun kind _ => Look.outcome watched op a b l k = .error kind) hd hg hcompile hx.loaded rfl
      (by rw [hx.op]; rfl) (by simp [hx.op]) fun layout final before hf hsound hu => by
        refine Course.Ends.mono (hx.settles hw hl hlu hk hkv hints hkinds hcompile hf hnone hsound hu) ?_ ?_
        · rintro s' t' ⟨⟨-, hres⟩, hkept⟩
          rcases ho : Look.outcome watched op a b l k with kind | z <;> rw [ho] at hres
          · exact .inr ⟨kind, hres, rfl⟩
          · obtain ⟨hspot, hst, d, q, hd', hrecords, hbits, -⟩ := hres
            obtain rfl := Option.some.inj (hx.takesUp.node.symm.trans hd')
            obtain ⟨hframe, hplain⟩ := hkept hspot
            exact .inl ⟨hspot, z, q, rfl, hst, hbits, hframe, hplain, hrecords⟩
        · rintro s' t' ⟨-, kind, hkind, hspot⟩
          refine ⟨kind, hspot, ?_⟩
          rcases ho : Look.outcome watched op a b l k with e | z <;> rw [ho] at hkind
          · exact congrArg Except.error (Except.error.inj hkind)
          · cases hkind
  · obtain ⟨z, q, hz, hst, hq, hframe, hplain, hentry⟩ := hgives
    refine ⟨m, hgo.runs, ?_⟩
    rw [hz]
    exact ⟨s₁, q, hlowered, hplace, hst, hq, hframe, hplain, hentry⟩
  · refine ⟨m, hgo.runs, ?_⟩
    rw [hkind]
    exact ⟨y, hy, hexit⟩

end Compares

/-- A branch that is taken up later goes to the block that belongs to the value of the comparison. -/
lemma BranchesOn.continues {m : Machine} (hy : y.BranchesOn w x.node z taken notTaken)
    (hc : y.Continues x m) (hm : x.site.Runs x.machine x.site m) : x.Parts y.site taken notTaken (.ok z) := by
  obtain ⟨m', hrun, hforks⟩ := hy.parts
  refine ⟨m', (hm.trans hc.run).trans hrun, ?_⟩
  show x.plan.Starts _ _
  rw [← hc.plan]
  exact hforks

/-- **Fusion preserves the decision.** For two values that are used in the same kinds, there is one outcome
of a comparison: a truth value, or an exit for a bad type, if anything is required of the values. Wherever
the comparison is lowered together with the branch after it, the machine comes to the block that belongs to
that outcome, or it leaves. Wherever it is lowered on its own, its value is boxed and recorded, or the
machine leaves likewise; and as soon as a branch on that value is taken up, the machine comes to the block
that belongs to the same outcome. No other kinds of uses are ever chosen for a comparison. -/
theorem fused_and_unfused_agree (hw : w.Sound limit h) (hu : h.Language u) (hv : h.Language v)
    (hints : ∀ y ∈ [u, v], y.isInt32 = true → ∃ i, y = .ofInt32 i) (op : Comparison) (watched : Bool) :
    (∀ (d : Draft) (n : Node) ks, n.op = .compare op → n.children.size = 2 → d.chosenKinds n = .ok ks →
      ∃ a b, ks = [some a, some b] ∧ (a, b) ∈ op.kinds) ∧
    ∀ a b, (a, b) ∈ op.kinds → ∃ out : Except ExitKind Bool,
      (∀ kind, out = .error kind → kind = .badType ∧ (a, b) ≠ (.untyped, .untyped)) ∧
      ∀ x : Visit, x.Compares w watched op a b u v →
        (∀ taken notTaken, x.Fused taken notTaken → x.Parts x.site taken notTaken out) ∧
        (x.Unfused → ∃ m, x.site.Runs x.machine x.site m ∧ x.Gives out m ∧
          ∀ z, out = .ok z → ∀ (y : Visit) (w' : World) taken notTaken, y.Continues x m →
            y.BranchesOn w' x.node z taken notTaken → x.Parts y.site taken notTaken out) := by
  refine ⟨fun d n ks hop hn hks => Draft.chosenKinds_compare hop hn hks, fun a b hkinds => ?_⟩
  obtain ⟨l, hl, hlu⟩ := hw.exists_looks hu
  obtain ⟨k, hk, hkv⟩ := hw.exists_looks hv
  refine ⟨Look.outcome watched op a b l k, fun _ hout => ⟨Look.eq_badType hout, ?_⟩, fun x hx => ⟨fun t f hfused =>
    hx.parts hw hl hlu hk hkv hints hkinds hfused, fun hunfused => ?_⟩⟩
  · rintro ⟨⟩
    cases hout
  obtain ⟨m, hrun, hgives⟩ := hx.gives hw hl hlu hk hkv hints hkinds hunfused
  refine ⟨m, hrun, hgives, fun z hz y w' t f hc hy => ?_⟩
  rw [hz]
  exact hy.continues hc hrun

end Visit

/-! ### One comparison, lowered in both ways -/

/-- Decide which one of two arguments is less. Unless the branch is right after the comparison, a hint is
between them. -/
def Draft.deciding (fused : Bool) : Draft :=
  let d : Draft := { name := "deciding", kind := .function }
  let d := ((d.addArgument .top .value).2.addArgument .top .value).2
  let d := d.addBlock.addBlock.addBlock.select 0
  let d := (d.addNode (.getLocal 0) [] .top).2
  let d := (d.addNode (.getLocal 1) [] .top).2
  let d := (d.addNode (.compare .less) [0, 1] .boolean).2
  let d := if fused then d else (d.addNode (.movHint 0) [2] .empty).2
  let d := ((d.addNode (.branch 1 2) [2] .empty).2).select 1
  let d := ((d.addNode (.jump 1) [] .empty).2).select 2
  (d.addNode (.jump 2) [] .empty).2

lemma Draft.built_deciding (fused : Bool) : (Draft.deciding fused).Built := by
  cases fused
  · refine Built.addNode (.select (.addNode (.select (.addNode (.addNode (.addNode (.addNode (.addNode
      (.select (.addBlock (.addBlock (.addBlock (((Built.new _ _).addArgument _ _).addArgument _ _)))) _)
      ?_ _ _ _ _) ?_ _ _ _ _) ?_ _ _ _ _) ?_ _ _ _ _) ?_ _ _ _ _) _) ?_ _ _ _ _) _) ?_ _ _ _ _
    all_goals decide
  · refine Built.addNode (.select (.addNode (.select (.addNode (.addNode (.addNode (.addNode
      (.select (.addBlock (.addBlock (.addBlock (((Built.new _ _).addArgument _ _).addArgument _ _)))) _)
      ?_ _ _ _ _) ?_ _ _ _ _) ?_ _ _ _ _) ?_ _ _ _ _) _) ?_ _ _ _ _) _) ?_ _ _ _ _
    all_goals decide

namespace Plan

def deciding (fused : Bool) : Plan := ofDraft (.deciding fused)

lemma finish_deciding (fused : Bool) : (Draft.deciding fused).finish = .ok (deciding fused).graph :=
  finish_ofDraft (by cases fused <;> decide +kernel)

/-- The comparison of `deciding`, as it is taken up. -/
structure ComparesNow (fused : Bool) : Prop where
  takesUp : (deciding fused).TakesUp ⟨3, 28⟩ 0 2 2 ((deciding fused).nodeAt 2) ((deciding fused).stateAt ⟨3, 28⟩ 0 2)
  inRegisters : InRegisters ((deciding fused).stateAt ⟨3, 28⟩ 0 2).ledger
  unknown : ∀ n < 2, (deciding fused).graph.valueConstant n = .ok none ∧
    ((deciding fused).stateAt ⟨3, 28⟩ 0 2).facts.known n = .top
  op : ((deciding fused).nodeAt 2).op = .compare .less
  children : ((deciding fused).nodeAt 2).children = #[⟨0, .untyped⟩, ⟨1, .untyped⟩]
  slots : ∀ d ∈ (deciding fused).graph.nodes, d.slot = none ∨ ∃ i < 3, d.slot = some (.ofLocal i)
  block : (deciding fused).graph.blocks[0]?.map (·.nodes) =
    some (if fused then #[0, 1, 2, 3] else #[0, 1, 2, 3, 4])
  inside : 1 < (deciding fused).graph.blocks.size ∧ 2 < (deciding fused).graph.blocks.size

lemma comparesNow_deciding (fused : Bool) : ComparesNow fused := by
  constructor
  case takesUp =>
    refine takesUp_of_isOk ?_ ?_ ?_ ?_ ?_ ?_
    all_goals cases fused <;> decide +kernel
  all_goals cases fused <;> decide +kernel

/-- The branch of `deciding` is right after the comparison. -/
structure BranchesNow : Prop where
  refCount : ((deciding true).nodeAt 2).refCount = 1
  branch : (deciding true).graph.nodes[3]?.map (fun d => (d.op, d.children)) = some (.branch 1 2, #[⟨2, .boolean⟩])

lemma branchesNow_deciding : BranchesNow := by
  constructor
  all_goals decide +kernel

/-- A hint comes first in `deciding`, and lowering it changes nothing that the branch depends on. -/
structure BranchesLater : Prop where
  hint : (deciding false).TakesUp ⟨3, 28⟩ 0 3 3 ((deciding false).nodeAt 3) ((deciding false).stateAt ⟨3, 28⟩ 0 3)
  hintOp : ((deciding false).nodeAt 3).op = .movHint 0
  ledger : ((deciding false).stateAt ⟨3, 28⟩ 0 3).ledger = ((deciding false).stateAt ⟨3, 28⟩ 0 4).ledger
  offset : ((deciding false).stateAt ⟨3, 28⟩ 0 3).asm.offset = ((deciding false).stateAt ⟨3, 28⟩ 0 4).asm.offset
  takesUp : (deciding false).TakesUp ⟨3, 28⟩ 0 4 4 ((deciding false).nodeAt 4) ((deciding false).stateAt ⟨3, 28⟩ 0 4)
  op : ((deciding false).nodeAt 4).op = .branch 1 2
  children : ((deciding false).nodeAt 4).children = #[⟨2, .boolean⟩]
  unknown : (deciding false).graph.valueConstant 2 = .ok none
  boolean : TypeSet.boolean.isA (((deciding false).stateAt ⟨3, 28⟩ 0 4).facts.known 2) = true

lemma branchesLater_deciding : BranchesLater := by
  constructor
  case hint =>
    refine takesUp_of_isOk ?_ ?_ ?_ ?_ ?_ ?_
    all_goals decide +kernel
  case takesUp =>
    refine takesUp_of_isOk ?_ ?_ ?_ ?_ ?_ ?_
    all_goals decide +kernel
  all_goals decide +kernel

end Plan

namespace Visit

open Plan

def deciding (fused : Bool) (c : Site) (w : World) (u v : Value) : Visit where
  plan := .deciding fused
  frame := ⟨3, 28⟩
  block := 0
  position := 2
  node := 2
  content := (Plan.deciding fused).nodeAt 2
  state := (Plan.deciding fused).stateAt ⟨3, 28⟩ 0 2
  site := c
  val n := if n = 0 then u else v
  registers := holding u v
  memory := withStack w

lemma operand_deciding {fused : Bool} {c : Site} {w : World} {u v x : Value} {n : NodeId} (hn : n < 2)
    (hx : (if n = 0 then u else v) = x) (htop : (w.typeOf x).isA .top = true) :
    (deciding fused c w u v).Operand w n x where
  value := hx
  known :=
    { constant := fun h => by
        rw [show (deciding fused c w u v).plan = .deciding fused from rfl,
          ((comparesNow_deciding fused).unknown n hn).1] at h
        cases h
      typed := by
        rw [show (deciding fused c w u v).val n = x from hx]
        exact (congrArg _ ((comparesNow_deciding fused).unknown n hn).2).trans htop }
  plain i y hy _ := by
    obtain ⟨hs, ⟨-, hf⟩ | ⟨hf, -⟩⟩ := (comparesNow_deciding fused).inRegisters.2 y (Array.mem_of_getElem? hy)
    all_goals
      rw [hs, hf]
      exact ⟨nofun, nofun⟩

lemma holds_deciding {fused : Bool} {c : Site} {w : World} {h : Heap} {u v : Value}
    (hcompile : ((Plan.deciding fused).compile 0x7e0000000000).outcome = .ok c.artifact) (hc : c.Loaded)
    (hw : w.Sound 281474976710656 h) (hnext : w.memory.next ≤ 0x20000000) :
    (deciding fused c w u v).Holds where
  draft := ⟨_, Draft.built_deciding fused, finish_deciding fused⟩
  compiled := ⟨_, hcompile⟩
  loaded := hc
  takesUp := by
    dsimp only [deciding]
    exact (comparesNow_deciding fused).takesUp
  stands := stands_holding (comparesNow_deciding fused).inRegisters (byte?_withStack hw hnext).1

lemma compares_deciding {fused : Bool} {c : Site} {w : World} {h : Heap} {u v : Value}
    (hcompile : ((Plan.deciding fused).compile 0x7e0000000000).outcome = .ok c.artifact) (hc : c.Loaded)
    (hw : w.Sound 281474976710656 h) (hnext : w.memory.next ≤ 0x20000000)
    (hu : (w.typeOf u).isA .top = true) (hv : (w.typeOf v).isA .top = true) :
    (deciding fused c w u v).Compares w true .less .untyped .untyped u v where
  toHolds := holds_deciding hcompile hc hw hnext
  op := (comparesNow_deciding fused).op
  operands := ⟨0, 1, (comparesNow_deciding fused).children, operand_deciding (by decide) rfl hu,
    operand_deciding (by decide) rfl hv⟩
  heap i _ hlt := ⟨beyond_holding (comparesNow_deciding fused).slots (by omega), (byte?_withStack hw hnext).2 i hlt⟩
  watched := rfl

lemma fused_deciding {c : Site} {w : World} {u v : Value} : (deciding true c w u v).Fused 1 2 := by
  have hnow := comparesNow_deciding true
  obtain ⟨blk, hb, hnodes⟩ := Option.map_eq_some_iff.mp hnow.block
  obtain ⟨d, hd, hbranch⟩ := Option.map_eq_some_iff.mp branchesNow_deciding.branch
  obtain ⟨hop, hchildren⟩ := Prod.mk.inj hbranch
  exact
    { last := ⟨blk, hb, congrArg Array.size hnodes⟩
      inside := hnow.inside
      fuses := ⟨_, blk, 3, d, ⟨2, .boolean⟩, hnow.takesUp.node, branchesNow_deciding.refCount, hb,
        by rw [hnodes]; rfl, hd, hop, by rw [hchildren]; rfl, rfl⟩ }

lemma unfused_deciding {c : Site} {w : World} {u v : Value} : (deciding false c w u v).Unfused := by
  rintro t f ⟨-, blk, m, d, -, -, -, hb, hm, hd, hop, -⟩
  obtain ⟨blk', hb', hnodes⟩ := Option.map_eq_some_iff.mp (comparesNow_deciding false).block
  obtain rfl := Option.some.inj (hb'.symm.trans hb)
  rw [hnodes] at hm
  obtain rfl : 3 = m := Option.some.inj hm
  obtain rfl := Option.some.inj (branchesLater_deciding.hint.node.symm.trans hd)
  cases branchesLater_deciding.hintOp.symm.trans hop

lemma branches_deciding {c : Site} {w : World} {u v : Value} {z : Bool} {m : Machine}
    (hx : (deciding false c w u v).Compares w true .less .untyped .untyped u v)
    (hm : (deciding false c w u v).Gives (.ok z) m) : ∃ y : Visit,
      y.site = c ∧ y.Continues (deciding false c w u v) m ∧ y.BranchesOn w 2 z 1 2 := by
  obtain ⟨s', q, hout, hplace, hstands, -, -, hplain, -⟩ := hm
  have hnow := comparesNow_deciding false
  have hlater := branchesLater_deciding
  have hs := hnow.takesUp.succeeds hlater.hint (by rw [hnow.op]; rfl) (by simp [hnow.op]) hout
  let y : Visit :=
    { plan := .deciding false, frame := ⟨3, 28⟩, block := 0, position := 4, node := 4
      content := (Plan.deciding false).nodeAt 4, state := (Plan.deciding false).stateAt ⟨3, 28⟩ 0 4
      site := c, val := Function.update (deciding false c w u v).val 2 (.ofBool z)
      registers := m.registers, memory := m.memory }
  have hval : y.val 2 = .ofBool z :=
    Function.update_self 2 (Value.ofBool z) (deciding false c w u v).val
  have hmachine : y.machine = m := by
    rcases m with ⟨r, mem, place⟩
    exact congrArg (Machine.mk r mem) ((hplace.trans hs.offset.symm).trans hlater.offset).symm
  obtain ⟨blk, hb, hnodes⟩ := Option.map_eq_some_iff.mp hnow.block
  refine ⟨y, rfl, ⟨rfl, rfl, 0, fun fuel => by rw [hmachine, Nat.zero_add]; rfl⟩, ?_⟩
  exact
    { draft := hx.draft
      compiled := hx.compiled
      loaded := hx.loaded
      takesUp := hlater.takesUp
      stands := hlater.ledger ▸ hstands.fades hs.ledger
      last := ⟨blk, hb, congrArg Array.size hnodes⟩
      inside := hnow.inside
      op := hlater.op
      child := ⟨.boolean, by decide, hlater.children⟩
      operand :=
        { value := hval
          known :=
            { constant := fun h => by
                rw [show y.plan = .deciding false from rfl, hlater.unknown] at h
                cases h
              typed := by
                rw [hval, World.typeOf_ofBool]
                exact hlater.boolean }
          plain := hlater.ledger ▸ hplain.fades hs.ledger } }

theorem fused_and_unfused_agree_less : ∃ (w : World) (c c' : Site) (z : Bool),
    ((Plan.deciding true).compile 0x7e0000000000).outcome = .ok c.artifact ∧
    ((Plan.deciding false).compile 0x7e0000000000).outcome = .ok c'.artifact ∧
    (deciding true c w (.ofInt32 0) (.ofInt32 1)).Parts c 1 2 (.ok z) ∧
    (deciding false c' w (.ofInt32 0) (.ofInt32 1)).Parts c' 1 2 (.ok z) := by
  obtain ⟨_, c, hcompile, hc, rfl, -⟩ := exists_loaded (.deciding true) 0x7e0000000000
    (by decide +kernel) (by decide)
  obtain ⟨_, c', hcompile', hc', rfl, -⟩ := exists_loaded (.deciding false) 0x7e0000000000
    (by decide +kernel) (by decide)
  obtain ⟨h, hw, hnext⟩ := World.sound_start 281474976710656 (by decide) (Nat.le_refl _)
  replace hnext : World.start.memory.next ≤ 0x20000000 := hnext.trans (by decide)
  have htop : ∀ i : Int32, (World.start.typeOf (.ofInt32 i)).isA .top = true := fun i => by
    rw [World.typeOf, TypeSet.ofValue, if_pos (Value.isInt32_ofInt32 i)]
    rfl
  have hlanguage : ∀ i : Int32, h.Language (.ofInt32 i) := fun i =>
    .inl (Value.isNumber_of_isInt32 (Value.isInt32_ofInt32 i))
  have hints : ∀ y ∈ [Value.ofInt32 0, .ofInt32 1], y.isInt32 = true → ∃ i, y = .ofInt32 i := by simp
  obtain ⟨out, hout, hagree⟩ := (fused_and_unfused_agree hw (hlanguage 0) (hlanguage 1) hints .less true).2
    .untyped .untyped (by decide)
  obtain ⟨z, rfl⟩ : ∃ z, out = .ok z := by
    rcases out with kind | z
    · exact absurd rfl (hout kind rfl).2
    · exact ⟨z, rfl⟩
  have hx' := compares_deciding hcompile' hc' hw hnext (htop 0) (htop 1)
  obtain ⟨m, -, hgives, hbranch⟩ := (hagree _ hx').2 unfused_deciding
  obtain ⟨y, rfl, hy, hbranches⟩ := branches_deciding hx' hgives
  exact ⟨.start, c, _, z, hcompile, hcompile',
    (hagree _ (compares_deciding hcompile hc hw hnext (htop 0) (htop 1))).1 1 2 fused_deciding,
    hbranch z rfl y _ 1 2 hy hbranches⟩

end Visit
end Speculation
