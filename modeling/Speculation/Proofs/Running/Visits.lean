import Speculation.Proofs.Running.Results
import Speculation.Proofs.SlowPath.Compiled

/-!
The code of a node of a compiled graph.

A compile comes by every node of every reachable block. What is shown of the lowering of a node from
a coherent state on holds there, and the code that it emits is part of what is linked and loaded.
-/

namespace Speculation

open Lowering

lemma Block.drop_zipIdx {blk : Block} {j : Nat} {n : NodeId} (h : blk.nodes[j]? = some n) :
    blk.nodes.toList.zipIdx.drop j = (n, j) :: blk.nodes.toList.zipIdx.drop (j + 1) := by
  have hj : blk.nodes.toList.zipIdx[j]? = some (n, j) := by
    simp [List.getElem?_zipIdx, h]
  obtain ⟨hlt, hval⟩ := List.getElem?_eq_some_iff.mp hj
  rw [List.drop_eq_getElem_cons hlt, hval]

namespace Lowering

variable {α : Type} {env : Env} {s s' : State} {b : BlockId} {j : Nat}

def State.visiting (s : State) (j : Nat) (n : NodeId) (op : Op) : State :=
  { s with position := j, current := n, asm := s.asm.comment ("@" ++ toString n ++ ": " ++ op.name) }

/-- Taking up a node changes nothing that counts. -/
lemma Coherent.visiting {g : Graph} {n : NodeId} {before : List NodeId} {op : Op}
    (h : Coherent g n before [] { s with position := j, current := n }) :
    Coherent g n before [] (s.visiting j n op) :=
  h.adjust ⟨rfl, rfl, rfl, rfl, rfl, rfl, rfl⟩ rfl h.gprs h.fprs h.guarded h.agrees h.now.mirrors

lemma Proceeds.visiting {n : NodeId} {op : Op} (h : Aimed env s) :
    Proceeds env s (s.visiting j n op) := by
  have htaken : Proceeds env s { s with position := j, current := n } := Unseen.proceeds rfl
  have hcomment : ProceedsBy env { s with position := j, current := n }
      (comment ("@" ++ toString n ++ ": " ++ op.name)) :=
    Extending.comment _ _ (htaken.aimed h) (List.forall_mem_nil _)
  exact htaken.trans hcomment

lemma leads_outcome {x : Lower α} :
    Leads env s x (fun a s' => outcome x env s = (.ok a, s')) (fun _ => True) fun _ _ => True := by
  unfold Leads
  split
  · assumption
  · trivial
  · trivial

lemma Extending.openBlock {ls : List Label} (b : BlockId) : Extending env ls (openBlock b) := by
  unfold Lowering.openBlock
  exact bind graph fun _ => bind (assume _) fun _ => bind (modify fun _ => rfl) fun _ =>
    bind (blockLabel _) fun _ => bind (attach _) fun _ => bind (comment _) fun _ =>
    bind (resetBlock _) fun _ => modify fun _ => rfl

lemma Extending.lowerNodes {ls : List Label} (xs : List (NodeId × Nat)) :
    Extending env ls (lowerNodes xs) := by
  unfold Lowering.lowerNodes
  exact bind (forIn fun _ _ => bind (lowerAt _ _) fun _ => pure _) fun _ => pure _

lemma gives_lowerUpTo : Gives env [] s (lowerUpTo b j) fun labels s' => s'.IsCode labels.1 := by
  refine gives_lowerEntry.bind fun labels s₁ _ hlabels => gives_lowerBlocks.bind fun _ s₂ h₂ _ => ?_
  refine .after (.openBlock _) fun _ s₃ h₃ => .after .graph fun _ s₄ h₄ =>
    .after (.assume _) fun _ s₅ h₅ => .after (.lowerNodes _) fun _ s₆ h₆ => .pure ?_
  have h := (((h₂.trans h₃).trans h₄).trans h₅).trans h₆
  exact fun _ _ => h.isCode hlabels.1

/-- What comes after the blocks takes nothing back. -/
lemma leads_lowerRest_extends {n : Nat} {entry overflow : Label} (hs : Aimed env s)
    (hentry : s.IsCode entry) :
    Leads env s (lowerRest n entry overflow) (fun _ s' => Extends env s s') (fun _ => True)
      fun _ _ => True := by
  have hinsts : Gives env [entry] s (restInsts n entry overflow) fun _ _ => True :=
    .after .graph fun g s₁ _ => .after .emitSlowPaths fun _ s₂ _ =>
      (gives_arityEntry List.mem_cons_self).bind fun a s₃ _ _ =>
        gives_closeInsts.conseq fun _ _ _ _ _ => trivial
  exact (hinsts.lowerRest hs hentry).weaken fun _ s' ⟨_, _, h, _⟩ => h

def afterNode (n : NodeId) : Lower Unit := do
  advance n
  if (← read).assertState then checkState

/-- A node that is lowered itself is lowered in the state in which it is visited. Its operands are used
up then, unless it is a join. -/
lemma leads_lowerAt_visiting {n : NodeId} {d : Node} {Q : Unit → State → Prop} {T : State → Prop}
    {F : Failure → State → Prop} (hs : s.skipNext = false) (hd : env.graph.nodes[n]? = some d)
    (hg : d.shouldGenerate = true) (hc : d.op.isConstant = false) (hh : ∀ v, d.op ≠ .movHint v)
    (hx : ∀ x ∈ [afterNode n, useChildren n >>= fun _ => afterNode n],
      Leads env (s.visiting j n d.op) (lowerCurrent d >>= fun _ => x) Q T F) :
    Leads env s (lowerAt j n) Q T F := by
  have hcomment : s.asm.isLogging = false →
      s.visiting j n d.op = { s with position := j, current := n } := by
    intro hlog
    have hnone : s.asm.log = none := by simpa [Assembler.isLogging] using hlog
    have hasm : ∀ text, s.asm.comment text = s.asm := fun text => by
      have hlog : s.asm.log.map (·.push ("; " ++ text)) = s.asm.log := by rw [hnone, Option.map_none]
      rw [Assembler.comment, Assembler.logLine, hlog]
    rw [State.visiting, hasm]
  have hjoin := hx _ List.mem_cons_self
  have huses := hx _ (List.mem_cons_of_mem _ List.mem_cons_self)
  rw [lowerAt, leads_bind, leads_get, hs, if_neg Bool.false_ne_true, leads_bind, leads_modify, leads_bind,
    leads_node hd]
  split
  · rename_i hop
    rw [hop] at hc
    cases hc
  · rename_i hop
    rw [hop] at hc
    cases hc
  · rename_i hop
    exact absurd hop (hh _)
  · rw [leads_ite]
    refine ⟨fun _ => ?_, fun h => absurd hg h⟩
    rw [leads_bind, leads_get, leads_ite]
    refine ⟨fun _ => ?_, fun hlog => ?_⟩
    · rw [leads_bind, comment, leads_modify]
      split
      · exact hjoin
      · exact huses
    · rw [hcomment (by simpa using hlog)] at hjoin huses
      split
      · exact hjoin
      · exact huses

/-- `P` is true of whatever comes of a state of which it is true. -/
structure Lasting (env : Env) (P : State → Prop) : Prop where
  aimed {s : State} (h : P s) : Aimed env s
  proceeds {s s' : State} (h : P s) (hp : Proceeds env s s') : P s'

namespace Lasting

variable {P : State → Prop}

lemma leads {x : Lower α} (hP : Lasting env P) (h : P s) (hx : Extending env [] x) :
    Leads env s x (fun _ => P) (fun _ => True) fun _ _ => True :=
  (hx s (hP.aimed h) (List.forall_mem_nil _)).mono (fun _ _ => hP.proceeds h)
    (fun _ _ => trivial) fun _ _ _ => trivial

/-- A node that is lowered itself is lowered in the state in which it is visited, to its end or
not. -/
lemma leads_lowerAt {n : NodeId} {d : Node} (hP : Lasting env P) (hs : s.skipNext = false)
    (hd : env.graph.nodes[n]? = some d) (hg : d.shouldGenerate = true)
    (hc : d.op.isConstant = false) (hh : ∀ v, d.op ≠ .movHint v)
    (hx : Leads env (s.visiting j n d.op) (lowerNode d.op) (fun _ => P) P fun _ _ => True) :
    Leads env s (lowerAt j n) (fun _ => P) (fun _ => True) fun _ _ => True := by
  have hcurrent : Leads env (s.visiting j n d.op) (lowerCurrent d) (fun _ => P) (fun _ => True)
      fun _ _ => True := by
    refine leads_tryCatch.mpr (leads_bind.mpr (hx.mono (fun _ s' h => ?_) (fun s' h => ?_)
      fun _ _ _ => trivial))
    · exact hP.proceeds h (Unseen.proceeds (.drop _))
    · exact hP.leads h (.bind .dropGuards fun _ => .bind .bindPlaceholder fun _ => .dropGuards)
  have hrest : ∀ {x : Lower Unit}, Extending env [] x →
      Leads env (s.visiting j n d.op) (lowerCurrent d >>= fun _ => x) (fun _ => P) (fun _ => True)
        fun _ _ => True := fun hx =>
    leads_bind.mpr (hcurrent.mono (fun _ _ h => hP.leads h hx) (fun _ => id) fun _ _ => id)
  have hafter : Extending env [] (afterNode n) :=
    .bind (.advance n) fun _ => .bind .read fun _ => .ite .checkState (.pure _)
  refine leads_lowerAt_visiting hs hd hg hc hh fun x hx => hrest ?_
  obtain rfl | rfl : x = afterNode n ∨ x = _ := by simpa using hx
  · exact hafter
  · exact .bind (.useChildren n) fun _ => hafter

/-- What has come of the first nodes of a block lasts to the end. -/
lemma leads_lowerFrom {m k : Nat} {blk : Block} {labels : Label × Label} {xs : List (NodeId × Nat)}
    (hP : Lasting env P) (hentry : ∀ s, P s → s.IsCode labels.1)
    (hb : env.graph.blocks[b]? = some blk) (hk : blk.nodes.toList.zipIdx.drop k = xs)
    (h : Leads env s (lowerNodes xs) (fun _ => P) (fun _ => True) fun _ _ => True) :
    Leads env s (lowerFrom m b k labels) (fun _ s' => ∃ s₁, P s₁ ∧ Extends env s₁ s')
      (fun _ => True) fun _ _ => True := by
  have hblocks : ∀ bs, Extending env [] (lowerBlocks bs) := fun bs s hs hl =>
    (gives_lowerBlocks hs hl).weaken fun _ _ h => h.1
  have hblock : env.graph.block b = .ok blk := by simp [Graph.block, Breach.get, hb]
  rw [lowerFrom, leads_bind, leads_graph, hblock]
  refine Leads.then (P := fun x s' => x = blk ∧ s' = s) ⟨rfl, rfl⟩ ?_
  rintro x _ ⟨rfl, rfl⟩
  rw [hk]
  refine h.then fun _ s₂ h₂ => ?_
  refine (hP.leads h₂ .graph).then fun _ s₃ h₃ => (hP.leads h₃ (hblocks _)).then fun _ s₄ h₄ => ?_
  exact (leads_lowerRest_extends (hP.aimed h₄) (hentry s₄ h₄)).weaken fun _ s₅ h₅ => ⟨s₄, h₄, h₅⟩

end Lasting

end Lowering

/-- A compile takes up a node that it lowers: the node is at position `j` of block `b`, and the
lowering has come as far as the state `s`. -/
structure Plan.TakesUp (p : Plan) (frame : FrameLayout) (b : BlockId) (j : Nat) (n : NodeId)
    (d : Node) (s : State) : Prop where
  framed : FrameLayout.ofGraph p.graph = .ok frame
  block : ∃ blk, p.graph.blocks[b]? = some blk ∧ blk.reachable = true ∧ blk.nodes[j]? = some n
  node : p.graph.nodes[n]? = some d
  generated : d.shouldGenerate = true
  lowered : ∃ labels, outcome (lowerUpTo b j) (p.env frame) p.start = (.ok labels, s)
  taken : s.skipNext = false

/-- The machine has come to the end of the code of a node, with the result, a raw integer with a
clear high half, in the register where the ledger has it; or it has come to the stub of an exit of
the node. -/
def Machine.Delivers (m : Machine) (a : Artifact) (val : NodeId → Value) (n : NodeId) (d : Node)
    (s : State) (res : Except ExitKind Int) : Prop :=
  match res with
  | .ok z => m.place = s.asm.offset ∧
    Stands (Function.update val n (.ofInt32 (.ofInt z))) s.ledger m.registers m.memory ∧
    ∃ q, m.registers.gpr q = (Int32.ofInt z).toUInt32.toUInt64 ∧
      (d.refCount ≠ 0 → ∃ i, d.slot = some (.ofLocal i) ∧ s.ledger[i]? =
        some { node := some n, useCount := d.refCount, registerFormat := .int32, location := .gpr q })
  | .error kind => ∃ x ∈ a.exits, x.exit.kind = kind ∧ x.exit.node = n ∧ m.place = x.stub

/-- The machine leaves through an exit of a kind with `R`. -/
def Moment.Leaves (t : Moment) (R : ExitKind → Memory → Prop) : Prop :=
  ∃ kind, t.spot = .exit kind ∧ R kind t.memory

/-- The machine goes on with `P`, or it leaves with `R`. -/
def Moment.Decides (t : Moment) (P : Registers → Memory → Prop) (R : ExitKind → Memory → Prop) : Prop :=
  t.spot = .next ∧ P t.registers t.memory ∨ t.Leaves R

/-- The node has the value, which is in a register in the format, and the ledger says so; or the machine
leaves. Since it had the registers `r` and the memory `mem`, memory has changed at most in the slots of
values. -/
def Course.Yields (k : Course) (format : DataFormat) (res : Except ExitKind Value) (r : Registers)
    (mem : Memory) (s : State) (t : Moment) : Prop :=
  Confined k.env.graph r mem t.memory ∧
  match res with
  | .ok v => t.spot = .next ∧
    Stands (Function.update k.val k.cur v) s.ledger t.registers t.memory ∧
    ∃ d q, k.env.graph.nodes[k.cur]? = some d ∧ k.Records d q format s ∧
      Represents format (t.registers.gpr q) v
  | .error kind => t.spot = .exit kind

def Course.Quits (k : Course) (res : Except ExitKind Value) (r : Registers) (mem : Memory)
    (t : Moment) : Prop :=
  Confined k.env.graph r mem t.memory ∧ ∃ kind, res = .error kind ∧ t.spot = .exit kind

/-- The code of a node that is taken up in the state `s` gives the value in the format or leaves, and
changes memory at most in the slots of values. It never faults on the way. -/
def Site.Yields (c : Site) (env : Env) (val : NodeId → Value) (j : Nat) (n : NodeId) (d : Node)
    (s : State) (r : Registers) (mem : Memory) (format : DataFormat) (res : Except ExitKind Value) :
    Prop :=
  ∃ steps m, c.Goes steps ⟨r, mem, s.asm.offset⟩ m ∧ Confined env.graph r mem m.memory ∧
    match res with
    | .ok v => ∃ s₁ q, outcome (lowerNode d.op) env (s.visiting j n d.op) = (.ok (), s₁) ∧
      m.place = s₁.asm.offset ∧ Stands (Function.update val n v) s₁.ledger m.registers m.memory ∧
      Represents format (m.registers.gpr q) v ∧
      (d.refCount ≠ 0 → ∃ i, d.slot = some (.ofLocal i) ∧ s₁.ledger[i]? =
        some { node := some n, useCount := d.refCount, registerFormat := format, location := .gpr q })
    | .error kind => ∃ x ∈ c.artifact.exits, x.exit.kind = kind ∧ x.exit.node = n ∧ m.place = x.stub

/-- The code of a node that is taken up in the state `s` gives the result or leaves. It never faults
on the way. -/
def Site.Performs (c : Site) (env : Env) (val : NodeId → Value) (j : Nat) (n : NodeId) (d : Node)
    (s : State) (r : Registers) (mem : Memory) (res : Except ExitKind Int) : Prop :=
  ∃ s₁ steps m, outcome (lowerNode d.op) env (s.visiting j n d.op) = (.ok (), s₁) ∧
    c.Goes steps ⟨r, mem, s.asm.offset⟩ m ∧ m.Delivers c.artifact val n d s₁ res

namespace Plan

variable {p : Plan} {g : Draft} {base : UInt64} {a : Artifact} {frame : FrameLayout} {b : BlockId}
  {j : Nat} {n : NodeId} {d : Node} {s : State} {c : Site} {val : NodeId → Value} {r : Registers}
  {mem : Memory} {res : Except ExitKind Int}

/-- What the lowering of a node has come to lasts to the end of the compile. -/
lemma TakesUp.lasts {layout : Layout} {final : State} {R : State → Prop} (hd : g.Built)
    (hg : g.finish = .ok p.graph) (hf : p.lower = .ok (frame, layout, final))
    (ht : p.TakesUp frame b j n d s) (hop : d.op.isConstant = false) (hhint : ∀ v, d.op ≠ .movHint v)
    (hR : ∀ {s s'}, R s → Extends (p.env frame) s s' → R s')
    (hx : ∀ before, Unborn p.graph n before →
      Coherent p.graph n before [] (s.visiting j n d.op) → Aimed (p.env frame) (s.visiting j n d.op) →
      Leads (p.env frame) (s.visiting j n d.op) (lowerNode d.op)
        (fun _ s' => Proceeds (p.env frame) (s.visiting j n d.op) s' ∧ R s')
        (fun s' => Proceeds (p.env frame) (s.visiting j n d.op) s' ∧ R s') fun _ _ => True) :
    R final := by
  obtain ⟨-, hout⟩ := outcome_of_lower hf
  obtain ⟨blk, hb, hr, hn⟩ := ht.block
  obtain ⟨labels, hs⟩ := ht.lowered
  rw [outcome_lowerGraph hb hr (k := j), outcome_bind, hs] at hout
  obtain ⟨before, hbetween, hahead⟩ :=
    (leads_lowerUpTo_ahead (T := fun _ => False) (blank_start hd hg) hb hr).result hs
  obtain ⟨hproceeds, hentry⟩ :=
    Leads.result (gives_lowerUpTo (aimed_start p frame) (List.forall_mem_nil _)) hs
  rw [Block.drop_zipIdx hn] at hahead
  have hmem : n ∈ blk.nodes := hahead.mem List.mem_cons_self
  have hu : Unborn p.graph n before :=
    ⟨hahead.fresh List.mem_cons_self, fun hd' => Option.some.inj (hd'.symm.trans ht.node) ▸ hop⟩
  have hvisit : Proceeds (p.env frame) s (s.visiting j n d.op) :=
    .visiting (hproceeds.aimed (aimed_start p frame))
  have haimed := hvisit.aimed (hproceeds.aimed (aimed_start p frame))
  let P : State → Prop := fun s' => Aimed (p.env frame) s' ∧ s'.IsCode labels.1 ∧ R s'
  have hP : Lasting (p.env frame) P :=
    ⟨fun h => h.1, fun h hp => ⟨hp.aimed h.1, hp.isCode h.2.1, hR h.2.2 hp.toExtends⟩⟩
  have hends : Leads (p.env frame) (s.visiting j n d.op) (lowerNode d.op) (fun _ => P) P
      fun _ _ => True :=
    (hx before hu (hbetween.coherent hb hmem j).visiting haimed).mono
      (fun _ _ h => ⟨h.1.aimed haimed, (hvisit.trans h.1).isCode hentry, h.2⟩)
      (fun _ h => ⟨h.1.aimed haimed, (hvisit.trans h.1).isCode hentry, h.2⟩) fun _ _ => id
  have hnodes : Leads (p.env frame) s
      (lowerNodes ((n, j) :: blk.nodes.toList.zipIdx.drop (j + 1))) (fun _ => P) (fun _ => True)
      fun _ _ => True := by
    rw [lowerNodes_cons]
    exact (hP.leads_lowerAt ht.taken ht.node ht.generated hop hhint hends).then fun _ s' h =>
      hP.leads h (.lowerNodes _)
  have hfrom := hP.leads_lowerFrom (m := p.block.numParameters) (fun _ h => h.2.1) hb
    (Block.drop_zipIdx hn) hnodes
  obtain ⟨s₁, ⟨-, -, hr₁⟩, hrest⟩ := hfrom.result hout
  exact hR hr₁ hrest

/-- What is shown of the lowering of a node is true of the code that a compile makes of it. -/
lemma TakesUp.goes {layout : Layout} {final : State} {Q T : State → Moment → Prop} (hd : g.Built)
    (hg : g.finish = .ok p.graph) (h : (p.compile base).outcome = .ok a)
    (hf : p.lower = .ok (frame, layout, final)) (hc : c.Loaded) (ha : c.artifact = a)
    (ht : p.TakesUp frame b j n d s) (hop : d.op.isConstant = false) (hhint : ∀ v, d.op ≠ .movHint v)
    (hx : ∀ before, let k : Course := ⟨p.env frame, c, final, val, n, before⟩
      k.Sound → Unborn p.graph n before →
        k.Ends [] (s.visiting j n d.op) (lowerNode d.op) ⟨.next, r, mem⟩ Q T) :
    ∃ s₁ t' steps o, (outcome (lowerNode d.op) (p.env frame) (s.visiting j n d.op) = (.ok (), s₁) ∧
        Q s₁ t' ∨ T s₁ t') ∧
      c.Goes steps ⟨r, mem, s.asm.offset⟩ ⟨t'.registers, t'.memory, o⟩ ∧
      (⟨p.env frame, c, final, val, n, []⟩ : Course).At s₁ t'.spot o := by
  subst ha
  obtain ⟨frame', layout', s', code, hs', hcode, hart, -⟩ := build_ok h
  rw [hf] at hs'
  cases hs'
  obtain ⟨rfl, -, -, rfl, -⟩ := artifact_ok hart
  let k : Course := ⟨p.env frame, c, final, val, n, []⟩
  let R : State → Prop := fun s₂ => ∃ s₁ t',
    (outcome (lowerNode d.op) k.env (s.visiting j n d.op) = (.ok (), s₁) ∧ Q s₁ t' ∨ T s₁ t') ∧
      Extends k.env s₁ s₂ ∧ k.Reaches (s.visiting j n d.op) ⟨.next, r, mem⟩ s₁ t'
  have hlast : R final := by
    refine ht.lasts hd hg hf hop hhint (fun ⟨s₁, t', hres, he, hreach⟩ he' =>
      ⟨s₁, t', hres, he.trans he', hreach⟩) fun before hu hcoherent haimed => ?_
    have hlowers := hx before ⟨hc, hcode⟩ hu hcoherent haimed (List.forall_mem_nil _)
    refine (hlowers.and leads_outcome).mono ?_ ?_ fun _ _ _ => trivial
    · rintro _ s₁ ⟨⟨hp, t', hreach, hq⟩, hs₁⟩
      exact ⟨hp, s₁, t', .inl ⟨hs₁, hq⟩, .refl s₁, hreach⟩
    · rintro s₁ ⟨⟨hp, t', hreach, ht'⟩, -⟩
      exact ⟨hp, s₁, t', .inr ht', .refl s₁, hreach⟩
  obtain ⟨s₁, t', hres, he, hreach⟩ := hlast
  obtain ⟨steps, o, hgo, hat⟩ := hreach he _ rfl
  exact ⟨s₁, t', steps, o, hres, hgo, hat⟩

lemma exists_exitSite_of_at {layout : Layout} {k : Course} {kind : ExitKind} {s₁ : State} {o : Nat}
    (h : (p.compile base).outcome = .ok a) (hf : p.lower = .ok (frame, layout, k.final))
    (hat : k.At s₁ (.exit kind) o) :
    ∃ x ∈ a.exits, x.exit.kind = kind ∧ x.exit.node = k.cur ∧ o = x.stub := by
  obtain ⟨frame', layout', s', code, hs', -, hart, -⟩ := build_ok h
  rw [hf] at hs'
  cases hs'
  obtain ⟨-, hexits, -⟩ := artifact_ok hart
  obtain ⟨x, hx, hkind, hnode, hlabel⟩ := hat
  obtain ⟨y, hy, rfl, hstub⟩ := exists_exitSite hexits hx
  exact ⟨y, hy, hkind, hnode, Option.some.inj (Option.some.inj (hlabel.symm.trans hstub))⟩

/-- What is shown of the lowering of an operation on integers is true of the code that a compile makes
of it. -/
lemma TakesUp.performs_of_lower (hd : g.Built) (hg : g.finish = .ok p.graph)
    (h : (p.compile base).outcome = .ok a) (hc : c.Loaded) (ha : c.artifact = a)
    (ht : p.TakesUp frame b j n d s) (hop : d.op.isConstant = false) (hhint : ∀ v, d.op ≠ .movHint v)
    (hx : ∀ layout final before, p.lower = .ok (frame, layout, final) →
      let k : Course := ⟨p.env frame, c, final, val, n, before⟩
      k.Sound → Unborn p.graph n before → k.Ends [] (s.visiting j n d.op) (lowerNode d.op)
        ⟨.next, r, mem⟩ (k.Computes res) fun _ _ => False) :
    c.Performs (p.env frame) val j n d s r mem res := by
  obtain ⟨frame', layout, final, code, hf, -⟩ := build_ok h
  obtain rfl := Except.ok.inj ((outcome_of_lower hf).1.symm.trans ht.framed)
  -- the course does not depend on the nodes before, as far as its results go
  have hcomputes : ∀ before, let k : Course := ⟨p.env frame', c, final, val, n, before⟩
      k.Sound → Unborn p.graph n before → k.Ends [] (s.visiting j n d.op) (lowerNode d.op)
        ⟨.next, r, mem⟩ ((⟨p.env frame', c, final, val, n, []⟩ : Course).Computes res)
        fun _ _ => False := fun before hk hu => hx layout final before hf hk hu
  obtain ⟨s₁, t', steps, o, ⟨hlowered, hres⟩ | hfalse, hgo, hat⟩ :=
    ht.goes hd hg h hf hc ha hop hhint hcomputes
  case inr => exact hfalse.elim
  refine ⟨s₁, steps, ⟨t'.registers, t'.memory, o⟩, hlowered, hgo, ?_⟩
  cases res with
  | ok z =>
    obtain ⟨hspot, hstands, e, q, hnode, hrec, hq⟩ := hres
    obtain rfl := Option.some.inj (ht.node.symm.trans hnode)
    rw [hspot] at hat
    exact ⟨hat, hstands, q, hq, hrec⟩
  | error kind =>
    have hspot : t'.spot = .exit kind := hres
    rw [hspot] at hat
    exact ha ▸ exists_exitSite_of_at h hf hat

/-- So it is if it does not depend on what comes out in the end. -/
lemma TakesUp.performs (hd : g.Built) (hg : g.finish = .ok p.graph)
    (h : (p.compile base).outcome = .ok a) (hc : c.Loaded) (ha : c.artifact = a)
    (ht : p.TakesUp frame b j n d s) (hop : d.op.isConstant = false) (hhint : ∀ v, d.op ≠ .movHint v)
    (hx : ∀ final before, let k : Course := ⟨p.env frame, c, final, val, n, before⟩
      k.Sound → Unborn p.graph n before → k.Ends [] (s.visiting j n d.op) (lowerNode d.op)
        ⟨.next, r, mem⟩ (k.Computes res) fun _ _ => False) :
    c.Performs (p.env frame) val j n d s r mem res :=
  ht.performs_of_lower hd hg h hc ha hop hhint fun _ final before _ => hx final before

/-- What is shown of the lowering of a node with a value is true of the code that a compile makes of
it. -/
lemma TakesUp.yields {format : DataFormat} {res : Except ExitKind Value} (hd : g.Built)
    (hg : g.finish = .ok p.graph) (h : (p.compile base).outcome = .ok a) (hc : c.Loaded)
    (ha : c.artifact = a) (ht : p.TakesUp frame b j n d s) (hop : d.op.isConstant = false)
    (hhint : ∀ v, d.op ≠ .movHint v)
    (hx : ∀ final before, let k : Course := ⟨p.env frame, c, final, val, n, before⟩
      k.Sound → Unborn p.graph n before → k.Ends [] (s.visiting j n d.op) (lowerNode d.op)
        ⟨.next, r, mem⟩ (k.Yields format res r mem) fun _ => k.Quits res r mem) :
    c.Yields (p.env frame) val j n d s r mem format res := by
  obtain ⟨frame', layout, final, code, hf, -⟩ := build_ok h
  obtain rfl := Except.ok.inj ((outcome_of_lower hf).1.symm.trans ht.framed)
  let k : Course := ⟨p.env frame', c, final, val, n, []⟩
  have hyields : ∀ before, let k' : Course := ⟨p.env frame', c, final, val, n, before⟩
      k'.Sound → Unborn p.graph n before → k'.Ends [] (s.visiting j n d.op) (lowerNode d.op)
        ⟨.next, r, mem⟩ (k.Yields format res r mem) fun _ => k.Quits res r mem :=
    fun before hk hu => hx final before hk hu
  obtain ⟨s₁, t', steps, o, hres, hgo, hat⟩ := ht.goes hd hg h hf hc ha hop hhint hyields
  refine ⟨steps, ⟨t'.registers, t'.memory, o⟩, hgo, ?_⟩
  have hleaves : ∀ kind, t'.spot = .exit kind →
      ∃ x ∈ c.artifact.exits, x.exit.kind = kind ∧ x.exit.node = n ∧ o = x.stub := by
    intro kind hspot
    rw [hspot] at hat
    exact ha ▸ exists_exitSite_of_at h hf hat
  obtain ⟨hlowered, hconf, hres⟩ | ⟨hconf, kind, rfl, hspot⟩ := hres
  · refine ⟨hconf, ?_⟩
    cases res with
    | ok v =>
      obtain ⟨hspot, hstands, e, q, hnode, hrec, hrep⟩ := hres
      obtain rfl := Option.some.inj (ht.node.symm.trans hnode)
      rw [hspot] at hat
      exact ⟨s₁, q, hlowered, hat, hstands, hrep, hrec⟩
    | error kind => exact hleaves kind hres
  · exact ⟨hconf, hleaves kind hspot⟩

/-- So is what is shown of the lowering of a node after which the machine goes on or has left. -/
lemma TakesUp.decides {P : State → Registers → Memory → Prop} {R : ExitKind → Memory → Prop} (hd : g.Built)
    (hg : g.finish = .ok p.graph) (h : (p.compile base).outcome = .ok a) (hc : c.Loaded)
    (ha : c.artifact = a) (ht : p.TakesUp frame b j n d s) (hop : d.op.isConstant = false)
    (hhint : ∀ v, d.op ≠ .movHint v)
    (hx : ∀ layout final before, p.lower = .ok (frame, layout, final) →
      let k : Course := ⟨p.env frame, c, final, val, n, before⟩
      k.Sound → Unborn p.graph n before → k.Ends [] (s.visiting j n d.op) (lowerNode d.op)
        ⟨.next, r, mem⟩ (fun s' t' => t'.Decides (P s') R) fun _ t' => t'.Leaves R) :
    ∃ steps m, c.Goes steps ⟨r, mem, s.asm.offset⟩ m ∧
      ((∃ s₁, outcome (lowerNode d.op) (p.env frame) (s.visiting j n d.op) = (.ok (), s₁) ∧
        m.place = s₁.asm.offset ∧ P s₁ m.registers m.memory) ∨
      ∃ kind, R kind m.memory ∧
        ∃ x ∈ c.artifact.exits, x.exit.kind = kind ∧ x.exit.node = n ∧ m.place = x.stub) := by
  obtain ⟨frame', layout, final, code, hf, -⟩ := build_ok h
  obtain rfl := Except.ok.inj ((outcome_of_lower hf).1.symm.trans ht.framed)
  obtain ⟨s₁, t', steps, o, hres, hgo, hat⟩ := ht.goes (Q := fun s' t' => t'.Decides (P s') R)
    (T := fun _ t' => t'.Leaves R) hd hg h hf hc ha hop hhint fun before => hx layout final before hf
  refine ⟨steps, ⟨t'.registers, t'.memory, o⟩, hgo, ?_⟩
  have hleaves : t'.Leaves R → ∃ kind, R kind t'.memory ∧
      ∃ x ∈ c.artifact.exits, x.exit.kind = kind ∧ x.exit.node = n ∧ o = x.stub := by
    rintro ⟨kind, hspot, hR⟩
    rw [hspot] at hat
    exact ⟨kind, hR, ha ▸ exists_exitSite_of_at h hf hat⟩
  rcases hres with ⟨hlowered, ⟨hspot, hP⟩ | hout⟩ | hout
  · rw [hspot] at hat
    exact .inl ⟨s₁, hlowered, hat, hP⟩
  · exact .inr (hleaves hout)
  · exact .inr (hleaves hout)

end Plan
end Speculation
