import Speculation.Proofs.Integer.Stands

/-!
Emitting code for integer dataflow.

`Ready` is what holds in the middle of lowering a node: besides the agreement of ledger and banks,
that values are in the formats of integer dataflow, that the ledger counts the uses to come, that the
log tells what was assigned to the locals, and that the facts are true of the values. Emitting an
instruction keeps it, and so does a guard, whose exit is taken exactly where its condition holds.

Every node of the block has the value that its operation gives for the values of its operands, and
where a value is an integer at all, it is the box of one. A node's speculation fails if an operand is
no integer, or else if its result overflows.
-/

/-! ### Emitting -/

namespace Speculation

/-- What running integer dataflow relies on. -/
structure Scene.Staged (sc : Scene) (blk : Block) : Prop where
  linked : sc.Linked
  roomy : sc.Roomy
  flow : Integer.Flow sc.graph blk
  nodes : sc.nodes = blk.nodes.toList
  canonical {v : Value} (h : v ∈ sc.passed) : v.Canonical

namespace Lowering

variable {α β : Type} {sc : Scene} {blk : Block} {done rest : List NodeId} {cur : NodeId}
  {s s' s'' : State} {P S : Condition}

def core (x : ValueInfo) : Option NodeId × Nat × Bool := (x.node, x.useCount, x.isConstant)

/-- A value of integer dataflow is in a general purpose register, or in its slot, or a constant. -/
structure Tidy (x : ValueInfo) : Prop where
  location : x.location = .none ∨ ∃ q, x.location = .gpr q
  register (h : x.location ≠ .none) : x.registerFormat.Plain
  spill (h : x.spillFormat ≠ .none) : x.spillFormat.Plain
  somewhere (hn : x.node.isSome = true) (hc : x.isConstant = false) :
    x.location ≠ .none ∨ x.spillFormat ≠ .none

/-- The ledger counts, for the values of `done`, the uses to come. -/
structure Stocked (sc : Scene) (done : List NodeId) (uses : NodeId → Nat)
    (ledger : Array ValueInfo) : Prop where
  count {i : Nat} {x : ValueInfo} {n : NodeId} (hx : ledger[i]? = some x)
    (hn : x.node = some n) : x.useCount = uses n
  alive {n : NodeId} (hn : n ∈ done) (hu : uses n ≠ 0) :
    ∃ (d : Node) (i : Nat) (x : ValueInfo), sc.graph.nodes[n]? = some d ∧
      d.slot = some (.ofLocal i) ∧ ledger[i]? = some x ∧ x.node = some n

/-- The facts leave it open that a value is an integer, and if they say so, it is one. -/
structure Known (sc : Scene) (done : List NodeId) (facts : Facts) : Prop where
  open' {n : NodeId} {d : Node} (hn : n ∈ sc.nodes) (hd : sc.graph.nodes[n]? = some d)
    (hr : d.op.hasResult = true) : (facts.known n).intersects .int32 = true
  /-- Only constants can be of no kind at all. -/
  within {n : NodeId} {d : Node} (hn : n ∈ sc.nodes) (hd : sc.graph.nodes[n]? = some d)
    (hr : d.op.hasResult = true) (hc : d.op.isConstant = false) :
    (facts.known n).inter .top = facts.known n
  true' {n : NodeId} {d : Node} (hn : n ∈ sc.nodes) (hd : sc.graph.nodes[n]? = some d)
    (hr : d.op.hasResult = true) (hp : (facts.known n).subset .int32 = true)
    (h : sc.Passes done) : (sc.val n).isInt32 = true

/-- Something is known of every value. -/
lemma Known.lt_size {sc : Scene} {done : List NodeId} {facts : Facts} {n : NodeId} {d : Node}
    (h : Known sc done facts) (hn : n ∈ sc.nodes) (hd : sc.graph.nodes[n]? = some d)
    (hr : d.op.hasResult = true) : n < facts.proven.size := by
  by_contra hle
  have hopen := h.open' hn hd hr
  rw [Facts.known, Array.getD_eq_getD_getElem?,
    Array.getElem?_eq_none (Nat.not_lt.mp hle)] at hopen
  exact absurd hopen (by decide)

def State.heard (s : State) : List (Slot × Replay.OperandState) :=
  (Replay.after s.events.toList s.events.size).operands

/-- The state in the middle of lowering the node `cur`, after `done` and before `rest`. -/
structure Ready (sc : Scene) (done : List NodeId) (cur : NodeId) (rest : List NodeId)
    (s : State) : Prop where
  coherent : Coherent sc.graph cur done.reverse [] s
  nodes : sc.nodes = done ++ cur :: rest
  size : s.ledger.size = sc.graph.numLocals
  tidy {i : Nat} {x : ValueInfo} (h : s.ledger[i]? = some x) : Tidy x
  stocked : Stocked sc done (usesOf sc.graph.nodes (cur :: rest)) s.ledger
  told : Integer.Told sc.graph sc.first done (Replay.after s.events.toList s.events.size)
  known : Known sc done s.facts

lemma entry_of_cores {ledger ledger' : Array ValueInfo} (h : ledger'.map core = ledger.map core)
    {i : Nat} {x : ValueInfo} (hx : ledger[i]? = some x) :
    ∃ y, ledger'[i]? = some y ∧ core y = core x := by
  have hc : (ledger'.map core)[i]? = some (core x) := by
    rw [h, Array.getElem?_map, hx]
    rfl
  rw [Array.getElem?_map] at hc
  exact Option.map_eq_some_iff.mp hc

structure Steady (s s' : State) : Prop where
  cores : s'.ledger.map core = s.ledger.map core
  facts : s'.facts = s.facts
  heard : s'.heard = s.heard

namespace Steady

lemma refl (s : State) : Steady s s := ⟨rfl, rfl, rfl⟩

lemma trans (h : Steady s s') (h' : Steady s' s'') : Steady s s'' :=
  ⟨h'.cores.trans h.cores, h'.facts.trans h.facts, h'.heard.trans h.heard⟩

lemma of_same (h : Same s s') : Steady s s' :=
  ⟨by rw [h.ledger], h.facts, by rw [State.heard, State.heard, h.events]⟩

lemma size (h : Steady s s') : s'.ledger.size = s.ledger.size := by
  have := congrArg Array.size h.cores
  simpa using this

lemma symm (h : Steady s s') : Steady s' s := ⟨h.cores.symm, h.facts.symm, h.heard.symm⟩

end Steady

lemma Stocked.of_cores {ledger ledger' : Array ValueInfo} {uses : NodeId → Nat}
    (h : Stocked sc done uses ledger) (hc : ledger'.map core = ledger.map core) :
    Stocked sc done uses ledger' := by
  refine ⟨fun {i x n} hx hn => ?_, fun {n} hn hu => ?_⟩
  · obtain ⟨y, hy, hyx⟩ := entry_of_cores hc.symm hx
    simp only [core, Prod.mk.injEq] at hyx
    rw [← hyx.2.1]
    exact h.count hy (hyx.1.trans hn)
  · obtain ⟨d, i, x, hd, hs, hx, hxn⟩ := h.alive hn hu
    obtain ⟨y, hy, hyx⟩ := entry_of_cores hc hx
    simp only [core, Prod.mk.injEq] at hyx
    exact ⟨d, i, y, hd, hs, hy, hyx.1.trans hxn⟩

lemma told_of_operands {R R' : Replay.State} (h : Integer.Told sc.graph sc.first done R)
    (ho : R'.operands = R.operands) : Integer.Told sc.graph sc.first done R' := by
  have ho' : ∀ o, R'.operand? o = R.operand? o := fun o => by
    rw [Replay.State.operand?, Replay.State.operand?, ho]
  exact ⟨fun hn => by rw [ho', h.stored hn], fun hn => by rw [ho', h.hinted hn],
    fun hn => by rw [ho', h.unassigned hn]⟩

namespace Ready

/-- Values were moved. -/
lemma move (h : Ready sc done cur rest s) (hc : Coherent sc.graph cur done.reverse [] s')
    (hs : Steady s s') (ht : ∀ (i : Nat) (x : ValueInfo), s'.ledger[i]? = some x → Tidy x) :
    Ready sc done cur rest s' where
  coherent := hc
  nodes := h.nodes
  size := hs.size.trans h.size
  tidy hx := ht _ _ hx
  stocked := h.stocked.of_cores hs.cores
  told := told_of_operands h.told hs.heard
  known := hs.facts ▸ h.known

lemma same (h : Ready sc done cur rest s) (hs : Same s s') (hs' : Sighted sc.graph s') :
    Ready sc done cur rest s' :=
  h.move (h.coherent.same hs hs') (.of_same hs) fun _ _ hx => h.tidy (hs.ledger ▸ hx)

lemma calm {x : Lower α} {Q : α → State → Prop} {S : α → State → Condition}
    (h : Ready sc done cur rest s) (hx : Calm x) (hd : Does sc s x P Q S) :
    Does sc s x P (fun a s' => Q a s' ∧ Ready sc done cur rest s' ∧ Same s s') S :=
  (hd.and (hx.keeps h.coherent)).conseq (fun _ _ => id)
    (fun _ _ ⟨hQ, hc, hs⟩ => ⟨hQ, h.same hs hc.sighted, hs⟩) fun _ _ _ _ _ => id

/-- A register that a value is in belongs to it. -/
lemma owner_of_location (h : Ready sc done cur rest s) {i : Nat} {x : ValueInfo}
    (hx : s.ledger[i]? = some x) (hl : x.location ≠ .none) :
    s.owner x.location = some (.ofLocal i) := by
  obtain ⟨-, -, ho | ⟨_, hp, -⟩⟩ := h.coherent.agrees.resident hx hl
  · exact ho
  · cases hp

lemma restores (h : Ready sc done cur rest s) {r : Registers} {mem : Memory}
    (hm : sc.Stands done s.ledger s.owner r mem) : sc.Restores s.ledger r mem := by
  refine hm.restores (fun i x q hx hl => ?_) fun i x q hx hl => ?_
  · obtain hn | ⟨_, hn⟩ := (h.tidy hx).location <;> rw [hn] at hl <;> cases hl
  · rw [← hl]
    exact h.owner_of_location hx (by simp [hl])

lemma supplied (h : Ready sc done cur rest s) : sc.Supplied done (cur :: rest) s.ledger := by
  intro n hn hu
  obtain ⟨d, i, x, hd, hs, hx, hxn⟩ := h.stocked.alive hn hu
  obtain ⟨-, d', hd', -, -, hconst⟩ := h.coherent.agrees.named hx hxn
  rw [hd] at hd'
  cases hd'
  refine ⟨d, i, x, hd, hs, h.size ▸ (Array.getElem?_eq_some_iff.mp hx).1, hx, hxn, ?_⟩
  rw [hconst]
  rcases hc : x.isConstant
  · exact .inr ((h.tidy hx).somewhere (by simp [hxn]) hc)
  · exact .inl rfl

/-- It is right to leave where a fault has been found and every value can be restored. -/
lemma departs (h : Ready sc done cur rest s) {kind : ExitKind} {r : Registers} {mem : Memory}
    (hp : sc.Passes done) (hf : Integer.faultOf sc.graph sc.val cur = some (cur, kind))
    (hm : sc.Framed done r mem) (hr : sc.Restores s.ledger r mem) :
    sc.Departs done rest cur kind s.ledger r mem :=
  ⟨h.nodes, hp, hf, h.supplied, hm, hr⟩

end Ready

/-! ### Instructions -/

/-- An instruction without a field is emitted. -/
lemma does_piece {i : Inst} (h : ∀ o, sc.Runs o [.inst i none] P S) :
    Does sc s (emit' i) P (fun _ s' => s' = { s with asm := s.asm.emit i }) fun _ _ => S := by
  refine leads_emit'.mpr ⟨rfl, [.inst i none], ?_, fun _ => h _⟩
  refine .of_adds (s.asm.adds_emit i) (s.asm.labels_emit i) rfl rfl List.prefix_rfl ?_ rfl
  intro p hp
  rw [List.mem_singleton.mp hp]
  exact trivial

lemma does_inst {i : Inst} (hl : sc.Linked) (hi : 3 ≤ i.encode.length)
    (h : ∀ r mem, P r mem → ∃ r' mem', i.Steps r mem r' mem' ∧ S r' mem') :
    Does sc s (emit' i) P (fun _ s' => s' = { s with asm := s.asm.emit i }) fun _ _ => S :=
  does_piece fun _ => .inst hl hi h

/-- An instruction is emitted in the middle of a node. -/
lemma Ready.does_emit {i : Inst} (h : Ready sc done cur rest s) (hl : sc.Linked)
    (hi : 3 ≤ i.encode.length)
    (hS : ∀ r mem, P r mem → ∃ r' mem', i.Steps r mem r' mem' ∧ S r' mem') :
    Does sc s (emit' i) P (fun _ s' => Ready sc done cur rest s' ∧ Same s s') fun _ _ => S :=
  (h.calm (Calm.emit' i) (does_inst hl hi hS)).conseq (fun _ _ => id)
    (fun _ _ h => h.2) fun _ _ _ _ _ => id

/-! ### Looking things up -/

section Finds

variable {n : NodeId} {d : Node} {o : Slot} {i : Nat} {x : ValueInfo} {env : Env}

lemma finds_get : Finds env s get s := rfl

lemma finds_read : Finds env s read env := rfl

lemma finds_graph : Finds env s graph env.graph := rfl

lemma finds_node (hd : env.graph.nodes[n]? = some d) : Finds env s (node n) d :=
  .of_leads ((leads_node hd).mpr ⟨rfl, rfl⟩)

lemma finds_currentNode (hd : env.graph.nodes[s.current]? = some d) : Finds env s currentNode d :=
  finds_get.bind (finds_node hd)

lemma finds_assume {a : α} {y : Except Breach α} (h : y = .ok a) : Finds env s (assume y) a := by
  rw [h]
  rfl

lemma finds_check {a : α} {y : Except CompileError α} (h : y = .ok a) :
    Finds env s (check y) a := by
  rw [h]
  rfl

lemma finds_child {k : Nat} {e : Edge} (hd : env.graph.nodes[s.current]? = some d)
    (he : d.children[k]? = some e) : Finds env s (child k) e :=
  (finds_currentNode hd).bind (finds_assume (by simp [Node.child, Breach.get, he]))

lemma finds_variableOf {v : VarId} {y : Variable} (hy : env.graph.vars[v]? = some y) :
    Finds env s (variableOf v) y :=
  finds_read.bind (finds_assume (by simp [Breach.get, hy]))

lemma finds_slotOf (hd : env.graph.nodes[n]? = some d) (ho : d.slot = some o) :
    Finds env s (slotOf n) o :=
  .of_leads ((leads_slotOf hd ho).mpr ⟨rfl, rfl⟩)

lemma finds_ledgerIndex (hi : o.local? = some i) (hx : s.ledger[i]? = some x) :
    Finds env s (ledgerIndex o) i :=
  .of_leads ((leads_ledgerIndex hi hx).mpr ⟨rfl, rfl⟩)

lemma finds_infoAt (hx : s.ledger[i]? = some x) : Finds env s (infoAt i) x :=
  .of_leads ((leads_infoAt hx).mpr ⟨rfl, rfl⟩)

lemma finds_info (hd : env.graph.nodes[n]? = some d) (ho : d.slot = some o)
    (hi : o.local? = some i) (hx : s.ledger[i]? = some x) : Finds env s (info n) x :=
  .of_leads ((leads_info hd ho hi hx).mpr ⟨rfl, rfl⟩)

end Finds

/-! ### Guards -/

def State.withExit (s : State) (x : Exit) : State :=
  { s with
    asm := s.asm.newLabel.2
    exits := s.exits.push x
    views := s.views.push (s.exitLedger.getD s.ledger) }

lemma Ready.leads_jccExit {d : Node} {c : Cond} {x : Exit} (h : Ready sc done cur rest s)
    (hl : sc.Linked) (hd : sc.graph.nodes[cur]? = some d) (hx : x.stub = s.asm.labels.size)
    (hnode : x.node = cur) (hev : x.streamIndex = s.events.size) (hov : x.override = none)
    (hor : x.origin = d.origin)
    (hleave : ∀ r mem, P r mem → c.holds r.flags r.order = true →
      sc.Departs done rest cur x.kind s.ledger (Scene.undone r x.undo) mem) :
    Leads sc.env (s.withExit x) (jccExit c s.exits.size)
      (fun _ s' => ∃ qs, Grows s s' qs ∧ (Records sc s' → sc.Runs s.asm.offset qs P
        fun r mem => P r mem ∧ c.holds r.flags r.order = false))
      (fun _ => False) fun _ _ => False := by
  obtain ⟨a, ha, hadds, hlabels⟩ := (s.withExit x).asm.adds_emitReloc (i := .jcc c 0)
    (t := .label x.stub) rfl
  have hget : Breach.get (s.withExit x).exits s.exits.size = .ok x := by
    simp [Breach.get, State.withExit]
  rw [jccExit, leads_bind, leads_get, hget, leads_bind, leads_assume_ok]
  rw [jcc, leads_discard, emitReloc, leads_bind, leads_get, ha, leads_bind, leads_assume_ok]
  refine ⟨[.inst (.jcc c 0) (some (.label x.stub))], ?_, fun hr => ?_⟩
  · have hsize : a.labels.size = s.asm.labels.size + 1 := by
      rw [hlabels]
      simp [State.withExit, Assembler.newLabel]
    refine
      { adds := ⟨hadds.code, hadds.relocs⟩
        labels := ⟨1, by simp [State.withExit], by
          rw [show _ = a.labels from rfl, hlabels]
          simp [State.withExit, Assembler.newLabel]⟩
        stubs := fun {i y} hy hi => ?_
        exits := fun {i y} hy => ?_
        views := fun {i v} hv => ?_
        events := List.prefix_rfl
        aims := fun hp => ?_
        idle := rfl }
    · simp only [State.withExit, Array.getElem?_push] at hy
      split at hy
      · rename_i hi'
        cases hy
        rw [hx, hi', Nat.sub_self, Nat.add_zero]
      · have := (Array.getElem?_eq_some_iff.mp hy).1
        omega
    · have hlt := (Array.getElem?_eq_some_iff.mp hy).1
      simp only [State.withExit, Array.getElem?_push]
      rw [if_neg (Nat.ne_of_lt hlt), hy]
    · have hlt := (Array.getElem?_eq_some_iff.mp hv).1
      simp only [State.withExit, Array.getElem?_push]
      rw [if_neg (Nat.ne_of_lt hlt), hv]
    · rw [List.mem_singleton.mp hp]
      refine ⟨rfl, fun l hl => ?_⟩
      obtain hl | hl := hl
      · cases hl
        rw [show _ = a.labels from rfl, hsize, hx]
        exact Nat.lt_succ_self _
      · cases hl
  · have hexit : sc.exits[s.exits.size]? = some x := hr.exits (by simp [State.withExit])
    have hview : sc.views[s.exits.size]? = some s.ledger := by
      refine hr.views ?_
      simp [State.withExit, h.coherent.ledger, ← h.coherent.sighted.size]
    have htold : Integer.Told sc.graph sc.first done
        (Replay.after sc.events.toList x.streamIndex) := by
      obtain ⟨es, hes⟩ := hr.events
      have hes' : sc.events.toList = s.events.toList ++ es := hes.symm
      rw [hes', hev, Replay.after_append (by simp)]
      exact h.told
    refine .branch hl (fun m hP hc hplace => .inl ⟨s.exits.size, x, s.ledger, done, rest, ?_⟩)
      fun r mem hP hc => ⟨hP, hc⟩
    refine ⟨hexit, hview, hplace, hov, fun {d'} hd' => ?_, htold, ?_⟩
    · rw [hnode, hd] at hd'
      cases hd'
      exact hor
    · rw [hnode]
      exact hleave _ _ hP hc

def exitOf (s : State) (d : Node) (kind : ExitKind) : Exit :=
  { kind, origin := d.origin, streamIndex := s.exitStream.getD s.events.size, node := s.current,
    stub := s.asm.labels.size }

lemma leads_newExit {env : Env} {d : Node} {kind : ExitKind} {Q : Nat → State → Prop}
    {T : State → Prop} {F : Failure → State → Prop} (hd : env.graph.nodes[s.current]? = some d) :
    Leads env s (newExit kind) Q T F ↔ Q s.exits.size (s.withExit (exitOf s d kind)) := by
  rw [newExit, leads_bind, newLabel, leads_modifyGet, leads_bind, currentNode, leads_bind, leads_get,
    leads_node hd, leads_modifyGet]
  rfl

/-- A guard leaves where its condition holds, and goes on where it does not. -/
lemma Ready.does_guard {d : Node} {c : Cond} {kind : ExitKind} (h : Ready sc done cur rest s)
    (hl : sc.Linked) (hd : sc.graph.nodes[cur]? = some d) (hk : kind ≠ .argumentTypeCheck)
    (hleave : ∀ r mem, P r mem → c.holds r.flags r.order = true →
      sc.Departs done rest cur kind s.ledger r mem) :
    Does sc s (guard' kind c) P (fun _ s' => Ready sc done cur rest s' ∧ Same s s')
      fun _ _ r mem => P r mem ∧ c.holds r.flags r.order = false := by
  have hcur := h.coherent.current
  have hd' : sc.graph.nodes[s.current]? = some d := by rw [hcur, hd]
  have hdoes : Does sc s (guard' kind c) P (fun _ _ => True)
      fun _ _ r mem => P r mem ∧ c.holds r.flags r.order = false := by
    refine leads_discard.mpr (leads_bind.mpr ((leads_newExit hd').mpr (leads_bind.mpr ?_)))
    refine (h.leads_jccExit hl hd rfl hcur ?_ rfl rfl hleave).weaken fun _ _ hq => ⟨trivial, hq⟩
    simp [exitOf, h.coherent.stream]
  exact (h.calm (Calm.guard' hk c) hdoes).conseq (fun _ _ => id) (fun _ _ h => h.2)
    fun _ _ _ _ _ => id

/-- A guard whose exit takes something back. -/
lemma Ready.does_guardUndo {d : Node} {c : Cond} {kind : ExitKind} {u : Undo}
    (h : Ready sc done cur rest s) (hl : sc.Linked) (hd : sc.graph.nodes[cur]? = some d)
    (hk : kind ≠ .argumentTypeCheck)
    (hleave : ∀ r mem, P r mem → c.holds r.flags r.order = true →
      sc.Departs done rest cur kind s.ledger (Execution.undo r u) mem) :
    Does sc s (guardUndo kind c u) P (fun _ s' => Ready sc done cur rest s' ∧ Same s s')
      fun _ _ r mem => P r mem ∧ c.holds r.flags r.order = false := by
  have hcur := h.coherent.current
  have hd' : sc.graph.nodes[s.current]? = some d := by rw [hcur, hd]
  have hdoes : Does sc s (guardUndo kind c u) P (fun _ _ => True)
      fun _ _ r mem => P r mem ∧ c.holds r.flags r.order = false := by
    refine leads_bind.mpr ((leads_newExit hd').mpr (leads_bind.mpr ?_))
    -- the exit that is changed is the one just recorded
    have hmodify : { s.withExit (exitOf s d kind) with
          exits := (s.withExit (exitOf s d kind)).exits.modify s.exits.size fun e =>
            { e with undo := some u } } =
        s.withExit { exitOf s d kind with undo := some u } := by
      simp only [State.withExit, State.mk.injEq, true_and, and_true]
      apply Array.ext_getElem?
      intro i
      simp only [Array.getElem?_modify, Array.getElem?_push]
      split <;> split <;> simp_all
    rw [modifyExit, leads_modify, hmodify]
    refine (h.leads_jccExit (x := { exitOf s d kind with undo := some u }) hl hd rfl hcur ?_ rfl rfl
      hleave).weaken fun _ _ hq => ⟨trivial, hq⟩
    simp [exitOf, h.coherent.stream]
  exact (h.calm (Calm.guardUndo hk c u) hdoes).conseq (fun _ _ => id) (fun _ _ h => h.2)
    fun _ _ _ _ _ => id

end Lowering
end Speculation

/-! ### The values of the nodes -/

namespace Speculation

namespace Integer

variable {g : Graph} {passed : List Value} {nodes : List NodeId} {n : NodeId}
  {x : Speculation.Node}

lemma foldl_extend_of_notMem (f : NodeId → Value) (hn : n ∉ nodes) :
    nodes.foldl (extend g passed) f n = f n := by
  induction nodes generalizing f with
  | nil => rfl
  | cons m ms ih =>
    obtain ⟨hnm, hns⟩ := not_or.mp (mt List.mem_cons.mpr hn)
    rw [List.foldl_cons, ih _ hns, extend, if_neg hnm]

lemma compute_congr {f f' : NodeId → Value} (h : ∀ e ∈ x.children, f e.node = f' e.node) :
    compute g passed f x = compute g passed f' x := by
  have hop : ∀ i, operand f x i = operand f' x i := by
    intro i
    unfold operand
    rcases he : x.children[i]? with _ | e
    · rfl
    · rw [Option.map_some, Option.map_some, h e (Array.mem_of_getElem? he)]
  unfold compute
  rw [hop 0, hop 1]

/-- The value of a node is what its operation gives for those of its operands. -/
lemma evaluate_eq (hnodup : nodes.Nodup)
    (hdef : ∀ pre post, nodes = pre ++ n :: post → ∀ e ∈ x.children, e.node ∈ pre)
    (hn : n ∈ nodes) (hx : g.nodes[n]? = some x) :
    evaluate g passed nodes n = compute g passed (evaluate g passed nodes) x := by
  obtain ⟨pre, post, rfl⟩ := List.append_of_mem hn
  obtain ⟨-, hcons, hdis⟩ := List.nodup_append.mp hnodup
  have hpost : n ∉ post := (List.nodup_cons.mp hcons).1
  have hsplit : evaluate g passed (pre ++ n :: post) =
      post.foldl (extend g passed) (extend g passed (evaluate g passed pre) n) := by
    simp [evaluate]
  have hn' : evaluate g passed (pre ++ n :: post) n = compute g passed (evaluate g passed pre) x := by
    rw [hsplit, foldl_extend_of_notMem _ hpost, extend, if_pos rfl, hx]
    rfl
  rw [hn']
  refine compute_congr fun e he => ?_
  have hpre := hdef pre post rfl e he
  -- what was evaluated before stays
  have hne : e.node ≠ n := hdis e.node hpre n List.mem_cons_self
  have hnot : e.node ∉ post := fun h => hdis e.node hpre e.node (List.mem_cons_of_mem _ h) rfl
  rw [hsplit, foldl_extend_of_notMem _ hnot, extend, if_neg hne]

lemma canonical_argument (hp : ∀ v ∈ passed, v.Canonical) (v : VarId) :
    (argument g passed v).Canonical := by
  unfold argument
  have hundefined : Value.undefined.Canonical := fun h => absurd h (by decide)
  rcases (g.vars[v]?.bind fun y => y.operand.argument?) with _ | i
  · exact hundefined
  · rw [Option.bind_some]
    rcases hw : passed[i]? with _ | w
    · exact hundefined
    · exact hp w (List.mem_of_getElem? hw)

lemma canonical_compute (hx : Node g x) (hp : ∀ v ∈ passed, v.Canonical) (f : NodeId → Value) :
    (compute g passed f x).Canonical := by
  have hshape := hx.shape
  intro hint
  unfold compute at hint ⊢
  split at hint
  · rename_i v hop
    rw [hop] at hshape
    exact hshape.2.1
  · exact canonical_argument hp _ hint
  · split at hint
    · exact Value.isInteger_ofInt32 _
    · cases hint

structure Binary (g : Graph) (x : Speculation.Node) (a b : Edge) : Prop where
  children : x.children = #[a, b]
  left : a.kind = .int32
  right : b.kind = .int32
  op : x.op = .arithAdd ∨ x.op = .arithSub ∨ ∃ op, x.op = .bit op

namespace Binary

variable {a b : Edge} {val : NodeId → Value}

lemma operand_left (h : Binary g x a b) : operand val x 0 = val a.node := by
  simp [operand, h.children]

lemma operand_right (h : Binary g x a b) : operand val x 1 = val b.node := by
  simp [operand, h.children]

lemma arith_isSome (h : Binary g x a b) (i j : Int32) : ∃ r, arith x.op i j = some r := by
  obtain hop | hop | ⟨op, hop⟩ := h.op <;> exact ⟨_, by rw [hop]; rfl⟩

/-- The speculation fails if an operand is no integer. -/
lemma fault_badType (h : Binary g x a b)
    (hbad : (val a.node).isInt32 = false ∨ (val b.node).isInt32 = false) :
    fault val x = some .badType := by
  obtain ⟨r, hr⟩ := h.arith_isSome (val a.node).payload (val b.node).payload
  unfold fault
  rw [h.operand_left, h.operand_right, hr]
  rcases hbad with hbad | hbad <;> simp [hbad]

/-- With integers it fails if the result overflows and that matters. -/
lemma fault_of_integers (h : Binary g x a b) (ha : (val a.node).isInt32 = true)
    (hb : (val b.node).isInt32 = true) {r : Int32 × Bool}
    (hr : arith x.op (val a.node).payload (val b.node).payload = some r) :
    fault val x = if r.2 && !x.flags.canTruncate then some .overflow else none := by
  unfold fault
  rw [h.operand_left, h.operand_right, hr]
  simp [ha, hb]

lemma compute_eq (h : Binary g x a b) {r : Int32 × Bool}
    (hr : arith x.op (val a.node).payload (val b.node).payload = some r) :
    compute g passed val x = .ofInt32 r.1 := by
  unfold compute
  rw [h.operand_left, h.operand_right]
  obtain hop | hop | ⟨op, hop⟩ := h.op <;> rw [hop] at hr ⊢ <;> simp only [hr]

end Binary

end Integer

namespace Scene

variable {sc : Scene} {blk : Block} {done rest : List NodeId} {n cur : NodeId} {x : Node}

namespace Staged

variable (h : sc.Staged blk)
include h

lemma nodup : sc.nodes.Nodup := by
  rw [h.nodes]
  exact h.flow.formed.nodup (b := 0) (by rw [h.flow.blocks]; rfl)

lemma node (hn : n ∈ sc.nodes) : ∃ x, sc.graph.nodes[n]? = some x ∧ Integer.Node sc.graph x :=
  h.flow.node (Array.mem_toList_iff.mp (h.nodes ▸ hn))

lemma val_eq (hn : n ∈ sc.nodes) (hx : sc.graph.nodes[n]? = some x) :
    sc.val n = Integer.compute sc.graph sc.passed sc.val x := by
  refine Integer.evaluate_eq h.nodup (fun pre post hsplit e he => ?_) hn hx
  exact h.flow.defined (h.nodes ▸ hsplit) hx he

lemma canonical_val (hn : n ∈ sc.nodes) : (sc.val n).Canonical := by
  obtain ⟨x, hx, hnode⟩ := h.node hn
  rw [h.val_eq hn hx]
  exact Integer.canonical_compute hnode (fun _ => h.canonical) _

lemma val_constant {v : Value} (hn : n ∈ sc.nodes)
    (hv : sc.graph.valueConstant n = .ok (some v)) : v.IsInteger ∧ sc.val n = v := by
  obtain ⟨x, hx, hnode⟩ := h.node hn
  have hshape := hnode.shape
  rw [Graph.valueConstant_of_node hx, Except.ok.injEq] at hv
  rw [h.val_eq hn hx]
  unfold Op.value? at hv
  split at hv
  · rename_i w hop
    rw [hop] at hshape
    rw [← Option.some.inj hv]
    exact ⟨hshape.2.1, by simp [Integer.compute, hop]⟩
  · rename_i hop
    rw [hop] at hshape
    exact hshape.elim
  · cases hv

lemma isInt32_of_isConstant (hn : n ∈ sc.nodes) (hx : sc.graph.nodes[n]? = some x)
    (hc : x.op.isConstant = true) : (sc.val n).isInt32 = true := by
  obtain ⟨v, hv⟩ := Option.ne_none_iff_exists'.mp fun hnone =>
    Bool.false_ne_true ((Op.value?_eq_none.mp hnone).symm.trans hc)
  obtain ⟨hint, hval⟩ := h.val_constant hn (by rw [Graph.valueConstant_of_node hx, hv])
  rw [hval]
  exact hint.isInt32

lemma val_int32Constant {c : Int32} (hn : n ∈ sc.nodes)
    (hc : sc.graph.int32Constant n = .ok (some c)) : (sc.val n).IsInteger ∧ (sc.val n).payload = c := by
  obtain ⟨d, hd, hc⟩ := Graph.int32Constant_eq_ok.mp hc
  unfold Op.int32? at hc
  split at hc
  · rename_i v hop
    obtain ⟨hint, hval⟩ := h.val_constant hn (v := v)
      (by rw [Graph.valueConstant_of_node hd, hop]; rfl)
    rw [hint.int32?] at hc
    exact ⟨hval ▸ hint, by rw [hval, Option.some.inj hc]⟩
  · cases hc

/-- All constants are integers. -/
lemma valueConstant_eq_none (hn : n ∈ sc.nodes) (hc : sc.graph.int32Constant n = .ok none) :
    sc.graph.valueConstant n = .ok none := by
  obtain ⟨x, hx, hnode⟩ := h.node hn
  have hshape := hnode.shape
  rw [Graph.int32Constant_of_node hx, Except.ok.injEq] at hc
  rw [Graph.valueConstant_of_node hx, Except.ok.injEq, Op.value?_eq_none]
  cases hop : x.op <;> rw [hop] at hc hshape <;> try rfl
  case constant v =>
    rw [Op.int32?, hshape.2.1.int32?] at hc
    cases hc
  case doubleConstant => exact hshape.elim

lemma operand (hn : sc.nodes = done ++ cur :: rest) (hx : sc.graph.nodes[cur]? = some x) {e : Edge}
    (he : e ∈ x.children) : e.node ∈ done :=
  h.flow.defined (h.nodes ▸ hn) hx he

end Staged

lemma faultOf_eq (hx : sc.graph.nodes[n]? = some x) (hg : x.shouldGenerate = true)
    (val : NodeId → Value) :
    Integer.faultOf sc.graph val n = (Integer.fault val x).map fun kind => (n, kind) := by
  simp [Integer.faultOf, hx, hg]

end Scene
end Speculation
