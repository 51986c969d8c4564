import Speculation.Proofs.Integer.Locals
import Speculation.Proofs.Lowering.Whole

/-!
The nodes of integer dataflow in sequence.

Between two nodes every value stands where the ledger has it. Lowering one more node keeps this,
whatever the node is, and running its code does, until the return ends the run.
-/

namespace Speculation

namespace Scene

variable {sc : Scene} {blk : Block} {done rest : List NodeId} {cur n : NodeId} {d : Node}

lemma Staged.block (h : sc.Staged blk) : sc.graph.blocks[0]? = some blk := by
  rw [h.flow.blocks]
  rfl

lemma Staged.mem_block (h : sc.Staged blk) (hn : sc.nodes = done ++ cur :: rest) :
    cur ∈ blk.nodes := by
  rw [← Array.mem_toList_iff, ← h.nodes, hn]
  simp

/-- What a node requires of its operands holds once its speculation has succeeded. -/
lemma Staged.required (h : sc.Staged blk) (hn : sc.nodes = done ++ cur :: rest)
    (hd : sc.graph.nodes[cur]? = some d) (hg : d.shouldGenerate = true) (hop : d.op ≠ .ret)
    (hm : ∀ v, d.op ≠ .movHint v) {e : Edge} (he : e ∈ d.children) :
    e.kind = .untyped ∨
      e.kind = .int32 ∧ (sc.Passes (done ++ [cur]) → (sc.val e.node).isInt32 = true) := by
  obtain ⟨d', hd', hnode⟩ := h.node (n := cur) (by rw [hn]; simp)
  rw [hd] at hd'
  cases hd'
  have hbinary : ∀ a b, Integer.Binary sc.graph d a b → e.kind = .untyped ∨
      e.kind = .int32 ∧ (sc.Passes (done ++ [cur]) → (sc.val e.node).isInt32 = true) := by
    intro a b hb
    have hfault : sc.Passes (done ++ [cur]) →
        (sc.val a.node).isInt32 = true ∧ (sc.val b.node).isInt32 = true := by
      intro hp
      have hnone := hp cur (by simp)
      rw [faultOf_eq hd hg] at hnone
      by_contra hbad
      rw [hb.fault_badType] at hnone
      · cases hnone
      · rw [not_and_or] at hbad
        simpa using hbad
    rw [hb.children] at he
    simp only [List.mem_toArray, List.mem_cons, List.not_mem_nil, or_false] at he
    obtain rfl | rfl := he
    · exact .inr ⟨hb.left, fun hp => (hfault hp).1⟩
    · exact .inr ⟨hb.right, fun hp => (hfault hp).2⟩
  have hshape := hnode.shape
  cases hop' : d.op <;> rw [hop'] at hshape hop hm <;> try exact hshape.elim
  case constant v =>
    rw [hshape.1] at he
    simp at he
  case getLocal v =>
    rw [hshape.1] at he
    simp at he
  case setLocal v =>
    obtain ⟨⟨a, hch, hk⟩, -⟩ := hshape
    rw [hch] at he
    simp only [List.mem_toArray, List.mem_cons, List.not_mem_nil, or_false] at he
    rw [he]
    exact .inl hk
  case movHint v => exact absurd rfl (hm v)
  case ret => exact absurd rfl hop
  all_goals
    obtain ⟨⟨a, b, hch, ha, hb⟩, -⟩ := hshape
    exact hbinary a b ⟨hch, ha, hb, by simp [hop']⟩

end Scene

namespace Lowering

variable {sc : Scene} {blk : Block} {done rest kids : List NodeId} {cur n : NodeId} {s s' : State}
  {d : Node} {e : Edge} {v : VarId} {pos : Nat}

abbrev Standing (sc : Scene) (done : List NodeId) (s : State) : Condition :=
  sc.Stands done s.ledger s.owner

def State.takeUp (s : State) (pos : Nat) (n : NodeId) : State :=
  { s with position := pos, current := n }

lemma Rested.ready (hsc : sc.Staged blk) (h : Rested sc done (cur :: rest) s) :
    Ready sc done cur rest (s.takeUp pos cur) where
  coherent := h.between.coherent hsc.block (hsc.mem_block h.nodes) pos
  nodes := h.nodes
  size := h.size
  tidy := h.tidy
  stocked := h.stocked
  told := h.told
  known := h.known

lemma Rested.locked (h : Rested sc done rest s) : Locked [] s := by
  intro q hq
  rw [h.between.unlocked] at hq
  exact absurd hq (Nat.lt_irrefl 0)

/-- The node has been lowered. -/
lemma Made.rested (hsc : sc.Staged blk) (h : Made sc done cur rest [] s) (hl : ∀ l, s.locks l = 0)
    (hk : Known sc (done ++ [cur]) (s.facts.narrowEdges d.children.toList)) (hskip : s.skipNext = false) :
    Rested sc (done ++ [cur]) rest { s with facts := s.facts.narrowEdges d.children.toList } where
  between := by
    have hcoh : Coherent sc.graph cur (cur :: done.reverse) []
        { s with facts := s.facts.narrowEdges d.children.toList } :=
      h.coherent.adjust ⟨rfl, rfl, rfl, rfl, rfl, rfl, rfl⟩ rfl h.coherent.gprs h.coherent.fprs
        h.coherent.guarded h.coherent.agrees h.coherent.now.mirrors
    rw [List.reverse_concat]
    exact .of_coherent hcoh hsc.block (hsc.mem_block h.nodes) hl
  nodes := by rw [h.nodes, List.append_assoc, List.singleton_append]
  size := h.size
  tidy := h.tidy
  stocked := by
    have := h.stocked
    simpa using this
  told := h.told
  known := hk
  skip := hskip

lemma Passes.of_concat (h : sc.Passes (done ++ [cur])) : sc.Passes done :=
  fun n hn => h n (List.mem_append_left _ hn)

lemma usesOf_skip {nodes : Array Node} (h : ∀ n, usesBy nodes cur n = 0) :
    usesOf nodes (cur :: rest) = usesOf nodes rest := by
  funext n
  rw [Integer.usesOf_cons, h, Nat.zero_add]

/-- A node that has no code and whose value, if it has one, is not used. -/
lemma Rested.pass (h : Rested sc done (cur :: rest) s)
    (hb : Between sc.graph 0 (cur :: done.reverse) s') (hl : s'.ledger = s.ledger)
    (hf : s'.facts = s.facts) (hskip : s'.skipNext = s.skipNext)
    (hnone : ∀ n, usesBy sc.graph.nodes cur n = 0) (hunused : usesOf sc.graph.nodes rest cur = 0)
    (htold : Integer.Told sc.graph sc.first (done ++ [cur])
      (Replay.after s'.events.toList s'.events.size)) :
    Rested sc (done ++ [cur]) rest s' where
  between := by
    rw [List.reverse_concat]
    exact hb
  nodes := by rw [h.nodes, List.append_assoc, List.singleton_append]
  size := hl ▸ h.size
  tidy hx := h.tidy (hl ▸ hx)
  stocked := by
    have hst := h.stocked
    rw [usesOf_skip hnone] at hst
    rw [hl]
    refine ⟨hst.count, fun {n} hn hu => hst.alive ?_ hu⟩
    rcases List.mem_append.mp hn with hn | hn
    · exact hn
    · rw [List.mem_singleton.mp hn] at hu
      exact absurd hunused hu
  told := htold
  known := hf ▸ h.known.mono Passes.of_concat
  skip := hskip.trans h.skip

lemma Standing.same {regs : Registers} {mem : Memory} (h : Standing sc done s regs mem)
    (hl : s'.ledger = s.ledger) (ho : s'.owner = s.owner) : Standing sc done s' regs mem := by
  unfold Standing
  rw [hl, ho]
  exact h

/-- A constant is recorded; there is no code for it. -/
lemma Rested.does_constant (hsc : sc.Staged blk) (h : Rested sc done (cur :: rest) s)
    (hd : sc.graph.nodes[cur]? = some d) {w : Value} (hop : d.op = .constant w) :
    Does sc (s.takeUp pos cur)
      (if d.slot.isSome then setInfo cur (.ofConstant cur d.refCount) else pure ())
      (Standing sc done s) (fun _ s' => Rested sc (done ++ [cur]) rest s')
      fun _ s' => Standing sc (done ++ [cur]) s' := by
  have hready : Ready sc done cur rest (s.takeUp pos cur) := h.ready hsc
  obtain ⟨d', hd', hnode⟩ := hsc.node hready.mem
  rw [hd] at hd'
  cases hd'
  have hshape := hnode.shape
  rw [hop] at hshape
  have hc : d.op.isConstant = true := by rw [hop]; rfl
  have hfault := Integer.faultOf_eq_none hd (fun i j => by rw [hop]; rfl) sc.val
  have hassigns := Integer.assigns_eq_none (g := sc.graph) hd
    (fun v hv => by rw [hop] at hv; cases hv) fun v hv => by rw [hop] at hv; cases hv
  have hnone : ∀ n, usesBy sc.graph.nodes cur n = 0 := fun n =>
    Draft.usesBy_eq_zero fun x hx e he => by
      rw [hd] at hx
      cases hx
      rw [hshape.1] at he
      simp at he
  obtain ⟨o, ho⟩ := hsc.flow.slot hd (by rw [hop]; rfl) (.inr hc)
  obtain ⟨i, rfl, -, hi⟩ := hsc.flow.beyond hd ho
  obtain ⟨x, hx⟩ : ∃ x, (s.takeUp pos cur).ledger[i]? = some x :=
    ⟨_, Array.getElem?_eq_getElem (h.size.symm ▸ hi)⟩
  have hfresh : cur ∉ done.reverse := fun hmem => hready.fresh hsc (List.mem_reverse.mp hmem)
  have hcoh := hready.coherent.record (k := d.refCount) hfresh hd ho (hsc.local?_ofLocal hi) hx hc
  have hxn : x.node = none := by
    by_contra hne
    obtain ⟨m, hm⟩ := Option.ne_none_iff_exists'.mp hne
    obtain ⟨hb, e, he, hes, -⟩ := h.between.agrees.named hx hm
    obtain rfl := h.between.formed.slot_inj he hd hes ho
    exact hfresh hb
  rw [ho, Option.isSome_some, if_pos rfl]
  refine .silent ((leads_setInfo hd ho (hsc.local?_ofLocal hi) hx).mpr ⟨?_,
    .of_eq rfl rfl rfl List.prefix_rfl rfl, fun regs mem hm => ?_⟩)
  · exact
      { between := by
          rw [List.reverse_concat]
          exact .of_coherent hcoh hsc.block (hsc.mem_block h.nodes) h.between.unlocked
        nodes := by rw [h.nodes, List.append_assoc, List.singleton_append]
        size := (Array.size_setIfInBounds ..).trans h.size
        tidy := fun hz => tidy_set (s := s) (fun _ _ => h.tidy)
          ⟨.inl rfl, fun hl => absurd rfl hl, fun hf => absurd rfl hf, fun _ hc => by cases hc⟩ _ _ hz
        stocked := by
          have hst := h.stocked
          rw [usesOf_skip hnone] at hst
          exact hst.birth hd ho hx hxn rfl (hsc.refCount_eq h.nodes hd)
        told := h.told.extend hassigns
        known := h.known.mono Passes.of_concat
        skip := h.skip }
  · exact (hm.extend hfault fun o n => by simp [hassigns o]).set
      (fun _ _ _ _ _ _ hp => hp) nofun fun _ _ hf => absurd rfl hf

/-- A hint is logged; there is no code for it. -/
lemma Rested.does_hint (hsc : sc.Staged blk) (h : Rested sc done (cur :: rest) s)
    (hd : sc.graph.nodes[cur]? = some d) (hop : d.op = .movHint v) :
    Does sc (s.takeUp pos cur)
      (do event (.movHint (← assume (d.child 0)).node (← variableOf v).operand))
      (Standing sc done s) (fun _ s' => Rested sc (done ++ [cur]) rest s')
      fun _ s' => Standing sc (done ++ [cur]) s' := by
  have hready : Ready sc done cur rest (s.takeUp pos cur) := h.ready hsc
  obtain ⟨d', hd', hnode⟩ := hsc.node hready.mem
  rw [hd] at hd'
  cases hd'
  have hshape := hnode.shape
  rw [hop] at hshape
  obtain ⟨⟨e, hch⟩, y, j, hy, -, hyo, -⟩ := hshape
  have hfault := Integer.faultOf_eq_none hd (fun i j => by rw [hop]; rfl) sc.val
  have hassigns := Integer.assigns_eq hd hch hy (.inr ⟨hop, rfl⟩)
  have hnone : ∀ n, usesBy sc.graph.nodes cur n = 0 := fun n => by
    simp [usesBy, hd, Draft.countsUses, hop]
  have hcoh : Coherent sc.graph cur done.reverse []
      { s.takeUp pos cur with events := s.events.push (.movHint e.node y.operand) } :=
    hready.coherent.change ⟨rfl, rfl, rfl, rfl, rfl, rfl, rfl⟩ rfl (by simp) hready.coherent.gprs
      hready.coherent.fprs hready.coherent.guarded hready.coherent.agrees hready.coherent.now.mirrors
  refine .after (finds_assume (a := e) (by simp [Node.child, Breach.get, hch]))
    (.after (finds_variableOf hy) (.silent ⟨?_, .of_eq rfl rfl rfl (prefix_push _) rfl,
      fun regs mem hm => ?_⟩))
  · refine h.pass ?_ rfl rfl rfl hnone (hsc.usesOf_of_effect h.nodes hd (by rw [hop]; rfl)) ?_
    · exact .of_coherent hcoh.lowered hsc.block (hsc.mem_block h.nodes) h.between.unlocked
    · rw [Replay.after_push]
      exact h.told.assign hassigns
  · refine hm.extend hfault fun o n => ?_
    rw [hassigns]
    split <;> simp

/-- A node that nothing needs is left out. -/
lemma Rested.does_skip (hsc : sc.Staged blk) (h : Rested sc done (cur :: rest) s)
    (hd : sc.graph.nodes[cur]? = some d) (hg : d.shouldGenerate = false) :
    Does sc (s.takeUp pos cur) (pure ()) (Standing sc done s)
      (fun _ s' => Rested sc (done ++ [cur]) rest s')
      fun _ s' => Standing sc (done ++ [cur]) s' := by
  have hready : Ready sc done cur rest (s.takeUp pos cur) := h.ready hsc
  obtain ⟨d', hd', hnode⟩ := hsc.node hready.mem
  rw [hd] at hd'
  cases hd'
  have hr : d.op.hasResult = true := by
    by_contra hne
    rw [hnode.effects (by simpa using hne)] at hg
    cases hg
  have hassigns := Integer.assigns_eq_none (g := sc.graph) hd (fun v hv => by rw [hv] at hr; cases hr)
    fun v hv => by rw [hv] at hr; cases hr
  have hnone : ∀ n, usesBy sc.graph.nodes cur n = 0 := fun n => by
    simp [usesBy, hd, Draft.countsUses, hg]
  have hunused : usesOf sc.graph.nodes rest cur = 0 := by
    rw [← hsc.refCount_eq h.nodes hd]
    by_contra hne
    simp [Node.shouldGenerate, hne] at hg
  refine .pure (h.pass ?_ rfl rfl rfl hnone hunused (h.told.extend hassigns)) fun regs mem hm => ?_
  · exact .of_coherent hready.coherent.lowered hsc.block (hsc.mem_block h.nodes) h.between.unlocked
  · exact hm.extend (by simp [Integer.faultOf, hd, hg]) fun o n => by simp [hassigns o]

/-! ### Nodes with code -/

def lowerGenerated (d : Node) (cur : NodeId) : Lower Unit := do
  lowerCurrent d
  useChildren cur
  advance cur
  if (← read).assertState then checkState

lemma skipNext_of_idle (h : s'.idle = s.idle) : s'.skipNext = s.skipNext :=
  congrArg (fun t => t.2.2.1) h

/-- The code of every node but the return makes the node's value, if it has one. -/
lemma Ready.makes (hsc : sc.Staged blk) (h : Ready sc done cur rest s) (hl : Locked [] s)
    (hd : sc.graph.nodes[cur]? = some d) (hg : d.shouldGenerate = true)
    (hop : Generates d.op) (hret : d.op ≠ .ret) : Makes sc done cur rest s (lowerNode d.op) := by
  have hcur := h.coherent.current
  obtain ⟨d', hd', hnode⟩ := hsc.node h.mem
  rw [hd] at hd'
  cases hd'
  have hshape := hnode.shape
  cases hop' : d.op <;> rw [hop'] at hshape hop hret <;> try exact hop.elim
  case getLocal v => exact h.does_getLocal hsc hl hd hg hop'
  case setLocal v => exact h.does_setLocal hsc hl hcur hd hg hop'
  case ret => exact absurd rfl hret
  all_goals
    rw [← hop']
    obtain ⟨⟨a, b, hch, ha, hb⟩, -⟩ := hshape
    exact h.does_binary hsc hl hcur hd hg ⟨hch, ha, hb, by simp [hop']⟩

lemma Ready.does_generated (hsc : sc.Staged blk) (h : Ready sc done cur rest s)
    (hl : Locked [] s) (hskip : s.skipNext = false) (hd : sc.graph.nodes[cur]? = some d)
    (hg : d.shouldGenerate = true) (hop : Generates d.op) (hret : d.op ≠ .ret) :
    Does sc s (lowerGenerated d cur) (Standing sc done s)
      (fun _ s' => Rested sc (done ++ [cur]) rest s')
      fun _ s' => Standing sc (done ++ [cur]) s' := by
  have hm : ∀ v, d.op ≠ .movHint v := by
    intro v hv
    rw [hv] at hop
    exact hop
  have hcode : Does sc s (lowerNode d.op) (Standing sc done s)
      (fun _ s' => Made sc done cur rest (childrenOf sc.graph cur) s')
      fun _ s' r mem => Remains sc (done ++ [cur]) (childrenOf sc.graph cur) s' r mem ∧ True :=
    (h.makes hsc hl hd hg hop hret).conseq (fun _ _ hm => ⟨hm, trivial⟩) (fun _ _ => id)
      fun _ _ _ _ _ hm => ⟨hm, trivial⟩
  refine (does_generate hsc hd hop hcode).idle.conseq (fun _ _ => id) ?_ fun _ _ _ _ _ hm => hm.1
  rintro _ _ ⟨⟨s₁, h₁, hl₁, rfl⟩, hidle⟩
  refine h₁.rested hsc hl₁ ?_ ((skipNext_of_idle hidle).trans hskip)
  refine (h₁.known.mono Passes.of_concat).execute hsc fun e he => ?_
  exact hsc.required h.nodes hd hg hret hm (Array.mem_toList_iff.mp he)

/-- The code of the return ends the run. -/
lemma Ready.does_last (hsc : sc.Staged blk) (h : Ready sc done cur rest s) (hl : Locked [] s)
    (hd : sc.graph.nodes[cur]? = some d) (hop : d.op = .ret) :
    Does sc s (lowerGenerated d cur) (Standing sc done s) (fun _ _ => True)
      fun _ _ _ _ => False := by
  have hcode : Does sc s (lowerNode d.op) (Standing sc done s)
      (fun _ s' => Made sc done cur rest (childrenOf sc.graph cur) s')
      fun _ s' r mem => Remains sc (done ++ [cur]) (childrenOf sc.graph cur) s' r mem ∧ False := by
    rw [hop]
    exact (h.does_return hsc hl h.coherent.current hd hop).conseq (fun _ _ hm => ⟨hm, trivial⟩)
      (fun _ _ => id) fun _ _ _ _ _ => False.elim
  exact (does_generate hsc hd (by rw [hop]; trivial) hcode).conseq (fun _ _ => id)
    (fun _ _ _ => trivial) fun _ _ _ _ _ hm => hm.2

/-- The listing says which node the code is of. -/
lemma Ready.does_comment (h : Ready sc done cur rest s) (text : String) {P : Condition} :
    Does sc s (comment text) P (fun _ s' => Ready sc done cur rest s' ∧ Same s s')
      fun _ _ => P := by
  have hdoes : Does sc s (comment text) P (fun _ _ => True) fun _ _ => P :=
    .silent ⟨trivial, .of_adds (.of_eq rfl rfl) rfl rfl rfl List.prefix_rfl (by simp) rfl,
      fun _ _ => id⟩
  exact (h.calm (Calm.comment text) hdoes).conseq (fun _ _ => id) (fun _ _ h => h.2)
    fun _ _ _ _ _ => id

/-- A node with code is taken up and lowered. -/
lemma Rested.does_generated {Q : Unit → State → Prop} {S : Unit → State → Condition} {text : String}
    (hsc : sc.Staged blk) (h : Rested sc done (cur :: rest) s)
    (hcode : ∀ s₁, Ready sc done cur rest s₁ → Locked [] s₁ → s₁.skipNext = false →
      Does sc s₁ (lowerGenerated d cur) (Standing sc done s₁) Q S) :
    Does sc (s.takeUp pos cur)
      (do if (← get).asm.isLogging then comment text
          lowerGenerated d cur) (Standing sc done s) Q S := by
  have hready : Ready sc done cur rest (s.takeUp pos cur) := h.ready hsc
  have hrest : ∀ s₁, Ready sc done cur rest s₁ → Same (s.takeUp pos cur) s₁ →
      s₁.idle = (s.takeUp pos cur).idle → Does sc s₁ (lowerGenerated d cur) (Standing sc done s) Q S := by
    intro s₁ h₁ hs₁ hidle
    refine (hcode s₁ h₁ (fun q hq => h.locked q ?_) ((skipNext_of_idle hidle).trans h.skip)).conseq
      (fun regs mem hm => hm.same hs₁.ledger hs₁.owner) (fun _ _ => id) fun _ _ _ _ _ => id
    rw [hs₁.locks] at hq
    exact hq
  refine .after finds_get (.ite (fun _ => ?_) fun _ => hrest _ hready (Same.refl _) rfl)
  exact (hready.does_comment text).idle.bind fun _ s₁ ⟨⟨h₁, hs₁⟩, hidle⟩ => hrest s₁ h₁ hs₁ hidle

/-! ### Node after node -/

/-- One node, after which either the next one is up or, if it was the return, the run has ended. -/
lemma Rested.does_lowerAt (hsc : sc.Staged blk) (h : Rested sc done (cur :: rest) s)
    (hd : sc.graph.nodes[cur]? = some d) :
    Does sc s (lowerAt pos cur) (Standing sc done s)
      (fun _ s' => d.op ≠ .ret → Rested sc (done ++ [cur]) rest s')
      fun _ s' r mem => d.op ≠ .ret ∧ Standing sc (done ++ [cur]) s' r mem := by
  have hnext : ∀ {x : Lower Unit}, d.op ≠ .ret →
      Does sc (s.takeUp pos cur) x (Standing sc done s)
        (fun _ s' => Rested sc (done ++ [cur]) rest s')
        (fun _ s' => Standing sc (done ++ [cur]) s') →
      Does sc (s.takeUp pos cur) x (Standing sc done s)
        (fun _ s' => d.op ≠ .ret → Rested sc (done ++ [cur]) rest s')
        fun _ s' r mem => d.op ≠ .ret ∧ Standing sc (done ++ [cur]) s' r mem := fun hret hx =>
    hx.conseq (fun _ _ => id) (fun _ _ h' _ => h') fun _ _ _ _ _ hm => ⟨hret, hm⟩
  obtain ⟨d', hd', hnode⟩ := hsc.node (n := cur) (by rw [h.nodes]; simp)
  rw [hd] at hd'
  cases hd'
  have hshape := hnode.shape
  refine .after finds_get (.ite (fun hskip => ?_) fun _ => ?_)
  · rw [h.skip] at hskip
    cases hskip
  refine Does.bind (Q := fun _ s' => s' = s.takeUp pos cur) (S := fun _ _ => Standing sc done s)
    (.silent ⟨rfl, .of_eq rfl rfl rfl List.prefix_rfl rfl, fun _ _ => id⟩) ?_
  rintro _ _ rfl
  refine .after (finds_node hd) ?_
  have hgenerated : ∀ text, Generates d.op → d.op ≠ .ret →
      Does sc (s.takeUp pos cur)
        (if d.shouldGenerate = true then do
          if (← get).asm.isLogging then comment text
          lowerGenerated d cur
        else pure ()) (Standing sc done s)
        (fun _ s' => d.op ≠ .ret → Rested sc (done ++ [cur]) rest s')
        fun _ s' r mem => d.op ≠ .ret ∧ Standing sc (done ++ [cur]) s' r mem := by
    intro text hop hret
    refine hnext hret (.ite (fun hg => ?_) fun hg => h.does_skip hsc hd (by simpa using hg))
    exact h.does_generated hsc fun s₁ h₁ hl₁ hskip₁ =>
      h₁.does_generated hsc hl₁ hskip₁ hd hg hop hret
  cases hop : d.op <;> rw [hop] at hshape hgenerated hnext <;> try exact hshape.elim
  case constant w => exact hnext nofun (h.does_constant hsc hd hop)
  case movHint v => exact hnext nofun (h.does_hint hsc hd hop)
  case ret =>
    refine .ite (fun hg => ?_) fun hg => absurd (hnode.effects (by rw [hop]; rfl)) hg
    refine (h.does_generated hsc fun s₁ h₁ hl₁ _ => h₁.does_last hsc hl₁ hd hop).conseq
      (fun _ _ => id) (fun _ _ _ hret => absurd rfl hret) fun _ _ _ _ _ => False.elim
  case getLocal v => exact hgenerated _ trivial nofun
  case setLocal v => exact hgenerated _ trivial nofun
  case arithAdd => exact hgenerated _ trivial nofun
  case arithSub => exact hgenerated _ trivial nofun
  case bit op => exact hgenerated _ trivial nofun

/-- The nodes that are left, whose last is the return. -/
lemma Rested.does_lowerNodes {xs : List (NodeId × Nat)} (hsc : sc.Staged blk)
    (h : Rested sc done (xs.map Prod.fst) s) (hne : xs ≠ []) :
    Does sc s (lowerNodes xs) (Standing sc done s) (fun _ _ => True) fun _ _ _ _ => False := by
  induction xs generalizing done s with
  | nil => exact absurd rfl hne
  | cons p xs ih =>
    obtain ⟨d, hd, -⟩ := hsc.node (n := p.1) (by rw [h.nodes]; simp)
    have hcons : lowerNodes (p :: xs) = lowerAt p.2 p.1 >>= fun _ => lowerNodes xs := by
      unfold lowerNodes
      simp only [List.forIn_cons, bind_assoc, pure_bind]
    rw [hcons]
    refine (h.does_lowerAt hsc hd).bind fun _ s₁ h₁ => ?_
    by_cases hxs : xs = []
    · -- the last node is the return
      subst hxs
      obtain ⟨pre, r, x, hsplit, hx, hret, -⟩ := hsc.flow.last
      have hnodes := h.nodes
      rw [hsc.nodes, hsplit] at hnodes
      have hr : [r] = [p.1] := (List.append_inj' hnodes rfl).2
      cases hr
      rw [hd] at hx
      cases hx
      exact .pure trivial fun _ _ hm => hm.1 hret
    · have hret : d.op ≠ .ret := fun hop =>
        hxs (List.map_eq_nil_iff.mp (hsc.rest_of_ret h.nodes hd hop))
      exact (ih (h₁ hret) hxs).conseq (fun _ _ hm => hm.2) (fun _ _ => id) fun _ _ _ _ _ => id

end Lowering
end Speculation
