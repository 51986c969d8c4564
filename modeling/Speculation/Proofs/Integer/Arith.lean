import Speculation.Proofs.Integer.Uses

/-!
The code of operations on integers.

`Makes` is the specification of the code of a node: from a machine where every value stands it leads
to one where the result is made as well, unless the node's speculation fails, and then the code is
left. The operations differ in which register gets the result and in how an overflow is noticed.
-/

namespace Speculation

namespace Integer.Binary

variable {g : Graph} {d : Speculation.Node} {a b : Edge}

lemma hasResult (h : Binary g d a b) : d.op.hasResult = true := by
  obtain hop | hop | ⟨op, hop⟩ := h.op <;> rw [hop] <;> rfl

lemma varying (h : Binary g d a b) : d.op.isConstant = false := by
  obtain hop | hop | ⟨op, hop⟩ := h.op <;> rw [hop] <;> rfl

lemma countsUses (h : Binary g d a b) (hg : d.shouldGenerate = true) :
    Draft.countsUses d = true := by
  obtain hop | hop | ⟨op, hop⟩ := h.op <;> simp [Draft.countsUses, hg, hop]

end Integer.Binary

structure Integer.Pair (g : Graph) (cur : NodeId) (d : Speculation.Node) (a b : Edge) : Prop where
  left : a ∈ d.children
  right : b ∈ d.children
  leftKind : a.kind = .int32
  rightKind : b.kind = .int32
  /-- Twice the same operand is two uses. -/
  twice (h : a.node = b.node) : usesBy g.nodes cur a.node = 2

namespace Integer

variable {g : Graph} {cur : NodeId} {d : Speculation.Node} {a b : Edge}

lemma Binary.pair (h : Binary g d a b) (hd : g.nodes[cur]? = some d)
    (hc : Draft.countsUses d = true) : Pair g cur d a b where
  left := by simp [h.children]
  right := by simp [h.children]
  leftKind := h.left
  rightKind := h.right
  twice hab := by
    rw [usesBy_eq_count hd hc, Lowering.childrenOf, hd, Option.map_some, Option.getD_some,
      h.children]
    simp [hab]

lemma Pair.swap (h : Pair g cur d a b) : Pair g cur d b a where
  left := h.right
  right := h.left
  leftKind := h.rightKind
  rightKind := h.leftKind
  twice hab := hab ▸ h.twice hab.symm

/-- An operand is among the children. -/
lemma Pair.mem_childrenOf (h : Pair g cur d a b) (hd : g.nodes[cur]? = some d) :
    a.node ∈ Lowering.childrenOf g cur := by
  rw [Lowering.childrenOf, hd, Option.map_some, Option.getD_some]
  exact List.mem_map_of_mem (Array.mem_toList_iff.mpr h.left)

end Integer

namespace Lowering

variable {sc : Scene} {blk : Block} {done rest : List NodeId} {cur : NodeId} {s s' : State}
  {r : Gpr} {d : Node} {a b : Edge} {v w : Value} {src : Operand} {res : Int32 × Bool}
  {format : DataFormat}

abbrev Makes (sc : Scene) (done : List NodeId) (cur : NodeId) (rest : List NodeId) (s : State)
    (x : Lower Unit) : Prop :=
  Does sc s x (At sc done s fun _ => True)
    (fun _ s' => Made sc done cur rest (childrenOf sc.graph cur) s')
    fun _ s' => Remains sc (done ++ [cur]) (childrenOf sc.graph cur) s'

lemma rests_true : Rests s fun _ => True := fun _ _ _ => id

lemma Ready.does_intResult (hsc : sc.Staged blk) (h : Ready sc done cur rest s)
    (hop : sc.Operates cur d v w res) (hc : Draft.countsUses d = true)
    (hr : d.op.hasResult = true) (hv : d.op.isConstant = false)
    (hu : Usable s (childrenOf sc.graph cur) (.gpr r)) :
    Does sc s (gprResult r .int32)
      (fun regs mem => Computed sc done s v w res r regs mem ∧
        (res.2 && !d.flags.canTruncate) = false)
      (fun _ s' => Made sc done cur rest (childrenOf sc.graph cur) s')
      fun _ s' => Remains sc (done ++ [cur]) (childrenOf sc.graph cur) s' := by
  refine (h.does_gprResult hsc hop.node hc hr hv hu (.inr (.inr rfl))).conseq ?_ (fun _ _ => id)
    fun _ _ _ _ _ => id
  rintro regs mem ⟨hm, hok⟩
  have hfault : Integer.faultOf sc.graph sc.val cur = none := by
    rw [hop.good hm.left.isInt32 hm.right.isInt32, hok]
    rfl
  have hassigns := Integer.assigns_eq_none (g := sc.graph) hop.node
    (fun v hv => by rw [hv] at hr; cases hr) fun v hv => by rw [hv] at hr; cases hr
  rw [hop.value]
  exact ⟨hm.stands.extend hfault fun o n => by simp [hassigns o], by rw [hm.result, Value.payload_ofInt32],
    Value.isInteger_ofInt32 _⟩

lemma Ready.does_guarded (src : Operand) (hsc : sc.Staged blk) (h : Ready sc done cur rest s)
    (hop : sc.Operates cur d v w res) (hc : Draft.countsUses d = true)
    (hr : d.op.hasResult = true) (hv : d.op.isConstant = false)
    (hu : Usable s (childrenOf sc.graph cur) (.gpr r))
    (hfree : d.flags.canTruncate = false → s.owner (.gpr r) = none) :
    Does sc s
      (do alu32 (Integer.aluOf d.op) r src
          unless d.flags.canTruncate do guard' .overflow .o
          gprResult r .int32)
      (At sc done s fun regs => Carries v (.reg r) regs ∧ Acts d.op w src regs)
      (fun _ s' => Made sc done cur rest (childrenOf sc.graph cur) s')
      fun _ s' => Remains sc (done ++ [cur]) (childrenOf sc.graph cur) s' := by
  refine ((h.does_alu src (B := fun _ => True) hsc hu.locked hop fun _ _ _ => id).conseq
    (fun regs mem ⟨hm, hr⟩ => ⟨hm, trivial, hr⟩) (fun _ _ => id) fun _ _ _ _ _ => id).bind
    fun _ s₁ ⟨h₁, hs₁⟩ => ?_
  have hu₁ := hu.of_same hs₁
  rcases hct : d.flags.canTruncate
  · refine (h₁.does_guardOverflow hsc hop hct ?_).conseq (fun _ _ h => h.1) (fun _ _ => id)
      (fun _ _ _ _ _ => id) |>.bind fun _ s₂ ⟨h₂, hs₂⟩ => ?_
    · rw [hs₁.owner]
      exact hfree hct
    · refine (h₂.does_intResult hsc hop hc hr hv (hu₁.of_same hs₂)).conseq ?_ (fun _ _ => id)
        fun _ _ _ _ _ => id
      rintro regs mem ⟨hm, ho⟩
      exact ⟨hm, by rw [ho]; rfl⟩
  · refine (h₁.does_intResult hsc hop hc hr hv hu₁).conseq ?_ (fun _ _ => id) fun _ _ _ _ _ => id
    rintro regs mem ⟨hm, -⟩
    exact ⟨hm, by rw [hct]; simp⟩

/-- The left operand is in a register and the right one is an operand of the instruction. -/
structure Loaded (sc : Scene) (done : List NodeId) (cur : NodeId) (rest : List NodeId)
    (a : Edge) (q : Gpr) (b : Edge) (src : Operand) (s : State) : Prop where
  ready : Ready sc done cur rest s
  locked : ∃ rs, Locked rs s ∧ rs.length < 12
  lock : 0 < s.locks (.gpr q)
  integral : Integral s q
  held : Held s src
  left (h : sc.graph.valueConstant a.node = .ok none) : Owned sc.graph s a.node (.gpr q)
  right {p : Gpr} (h : src = .reg p) : Owned sc.graph s b.node (.gpr p)

lemma Ready.does_left (hsc : sc.Staged blk) (h : Ready sc done cur rest s) (hl : Locked [] s)
    (hop : sc.Operates cur d (sc.val a.node) w res) (hc : Draft.countsUses d = true)
    (hp : Integer.Pair sc.graph cur d a b) :
    Does sc s (fillInt a) (At sc done s fun _ => True)
      (fun op s' => Fetched sc done cur rest [] s a.node op.reg s')
      fun op s' => At sc done s' (Carries (sc.val a.node) (.reg op.reg)) :=
  (h.does_fillInt hsc hl (by simp) rests_true hop.node hc hp.left hp.leftKind fun hbad =>
    hop.bad (.inl hbad)).conseq (fun _ _ => id) (fun _ _ => id)
    fun _ _ _ _ _ ⟨hm, _, hr⟩ => ⟨hm, hr⟩

lemma Fetched.rests {q : Gpr} {s₀ : State} (h : Fetched sc done cur rest [] s₀ a.node q s) :
    Rests s (Carries v (.reg q)) := .carries fun p hp => by
  cases hp
  exact h.filled.lock

/-- The right operand is offered as well. -/
lemma Fetched.loaded {q : Gpr} {s₀ : State} (h : Fetched sc done cur rest [] s₀ a.node q s)
    (ho : Offered sc done cur rest [q] s b.node src s') : Loaded sc done cur rest a q b src s' := by
  obtain ⟨p, hlocked⟩ := ho.locked
  exact ⟨ho.ready, ⟨_, hlocked, by simp⟩, Nat.lt_of_lt_of_le h.filled.lock (ho.onward.locks _),
    ho.firm q h.filled.lock h.integral, ho.held,
    fun hnone => (h.owned hnone).of_owner (ho.onward.owner h.filled.lock), ho.owned⟩

lemma Fetched.does_right (hsc : sc.Staged blk) {q : Gpr} {s₀ : State}
    (h : Fetched sc done cur rest [] s₀ a.node q s) (hop : sc.Operates cur d v (sc.val b.node) res)
    (hc : Draft.countsUses d = true) (hp : Integer.Pair sc.graph cur d a b) :
    Does sc s (intRhs b) (At sc done s (Carries v (.reg q)))
      (fun src s' => Loaded sc done cur rest a q b src s')
      fun src s' => At sc done s' fun regs =>
        Carries v (.reg q) regs ∧ Carries (sc.val b.node) src regs :=
  (h.ready.does_intRhs hsc h.locked (by simp) h.rests hop.node hc hp.right hp.rightKind fun hbad =>
    hop.bad (.inr hbad)).conseq (fun _ _ => id) (fun _ _ ho => h.loaded ho) fun _ _ _ _ _ => id

/-- The summands are where the instruction takes them from, one in the register of the result. -/
lemma Loaded.does_target (hsc : sc.Staged blk) {q : Gpr} (h : Loaded sc done cur rest a q b src s)
    {A : Registers → Prop} (hA : Rests s A) (hk : a.node ∈ childrenOf sc.graph cur)
    (hn : a.node ∈ sc.nodes) :
    Does sc s (intResultFrom a ⟨q, format⟩)
      (At sc done s fun regs => A regs ∧ Carries v (.reg q) regs)
      (fun p s' => Target sc done cur rest s a.node p.1 p.2 s')
      fun p s' => At sc done s' fun regs => A regs ∧ Carries v (.reg p.1) regs := by
  obtain ⟨rs, hl, hrs⟩ := h.locked
  exact h.ready.does_intResultFrom hsc hl hrs hA hn hk h.lock h.integral h.left

/-- Summands in a register each are in different ones if one of them ends with the sum. -/
lemma Loaded.ne_of_again (hsc : sc.Staged blk) {q : Gpr} (h : Loaded sc done cur rest a q b src s)
    (ht : Target sc done cur rest s a.node r true s') (hp : Integer.Pair sc.graph cur d a b) :
    src ≠ .reg r := by
  rintro rfl
  obtain ⟨⟨x, o, hx, ho, hown⟩, -, huse⟩ := ht.again rfl
  obtain ⟨y, o', hy, ho', hown'⟩ := h.right rfl
  rw [ht.onward.owner (h.held r rfl), hown'] at hown
  cases hown
  -- then they are one value, which has two uses here
  obtain ⟨i, rfl, -⟩ := hsc.flow.beyond hx ho
  have hab := ht.ready.coherent.formed.slot_inj hx hy ho ho'
  rw [Integer.usesOf_cons, hp.twice hab] at huse
  omega

lemma Ready.does_sum (hsc : sc.Staged blk) (h : Ready sc done cur rest s) (hl : Locked [] s)
    (hop : sc.Operates cur d (sc.val a.node) (sc.val b.node) res)
    (hc : Draft.countsUses d = true) (hp : Integer.Pair sc.graph cur d a b)
    (hadd : d.op = .arithAdd) :
    Makes sc done cur rest s (do
      let op ← fillInt a
      let src ← intRhs b
      let (r, reused) ← intResultFrom a op
      alu32 .add r src
      unless d.flags.canTruncate do
        if reused then guardUndo .overflow .o (.add r src)
        else guard' .overflow .o
      gprResult r .int32) := by
  have hr : d.op.hasResult = true := by rw [hadd]; rfl
  have hv : d.op.isConstant = false := by rw [hadd]; rfl
  have halu : Integer.aluOf d.op = .add := by rw [hadd]; rfl
  refine (h.does_left hsc hl hop hc hp).bind fun op s₁ h₁ => ?_
  refine (h₁.does_right hsc hop hc hp).bind fun src s₂ h₂ => ?_
  have hn : a.node ∈ sc.nodes := by
    rw [h.nodes]
    exact List.mem_append_left _ (hsc.operand h.nodes hop.node hp.left)
  refine ((h₂.does_target (A := Carries (sc.val b.node) src) hsc (.carries h₂.held)
    (hp.mem_childrenOf hop.node) hn).conseq (fun _ _ ⟨hm, ha, hb⟩ => ⟨hm, hb, ha⟩)
    (fun _ _ => id) fun _ _ _ _ _ => id).bind fun ⟨r, reused⟩ s₃ h₃ => ?_
  dsimp only
  cases reused with
  | false =>
    rw [← halu]
    refine (h₃.ready.does_guarded _ hsc hop hc hr hv h₃.usable fun _ =>
      (h₃.fresh rfl).1.2).conseq (fun regs mem ⟨hm, hb, ha⟩ => ⟨hm, ha, hb.acts _⟩)
      (fun _ _ => id) fun _ _ _ _ _ => id
  | true =>
    have hne := h₂.ne_of_again hsc h₃ hp
    obtain ⟨ho, hint, -⟩ := h₃.again rfl
    rcases hct : d.flags.canTruncate
    · have hstep := h₃.ready.does_alu src
        (B := fun regs => (regs.operand src).toUInt32.toInt32 = (sc.val b.node).payload)
        hsc h₃.usable.locked hop fun regs regs' hregs hb => by
          rw [Registers.operand_congr fun q hq => hregs q fun hqr => hne (hqr ▸ hq), hb]
      rw [halu] at hstep
      refine (hstep.conseq (fun regs mem ⟨hm, hb, ha⟩ => ⟨hm, hb.2, ha, hb.acts _⟩)
        (fun _ _ => id) fun _ _ _ _ _ => id).bind fun _ s₄ ⟨h₄, hs₄⟩ => ?_
      have ho₄ : Owned sc.graph s₄ a.node (.gpr r) := ho.of_owner (by rw [hs₄.owner])
      have hint₄ : Integral s₄ r := Firm.of_ledger hs₄.ledger r h₃.usable.locked hint
      refine (h₄.does_guardSum hsc hop hadd hct ho₄ hint₄ (lt_of_locked h₃.usable.locked)).bind
        fun _ s₅ ⟨h₅, hs₅⟩ => ?_
      refine (h₅.does_intResult hsc hop hc hr hv (h₃.usable.of_same (hs₄.trans hs₅))).conseq ?_
        (fun _ _ => id) fun _ _ _ _ _ => id
      rintro regs mem ⟨hm, hfits⟩
      exact ⟨hm, by rw [hfits]; rfl⟩
    · have hstep := h₃.ready.does_guarded src hsc hop hc hr hv h₃.usable fun hct' => by
        rw [hct] at hct'
        cases hct'
      rw [hct, halu] at hstep
      exact hstep.conseq (fun regs mem ⟨hm, hb, ha⟩ => ⟨hm, ha, hb.acts _⟩) (fun _ _ => id)
        fun _ _ _ _ _ => id

lemma finds_onlyLeftConstant {env : Env} {x y : Node} (hx : env.graph.nodes[a.node]? = some x)
    (hy : env.graph.nodes[b.node]? = some y) :
    Finds env s (onlyLeftConstant a b) (x.op.int32?.isSome && y.op.int32?.isNone) := by
  refine finds_graph.bind ((finds_assume (Graph.int32Constant_of_node hx)).bind ?_)
  rcases x.op.int32? with _ | c
  · rfl
  · exact (finds_assume (Graph.int32Constant_of_node hy)).bind rfl

lemma Ready.operands (hsc : sc.Staged blk) (h : Ready sc done cur rest s)
    (hd : sc.graph.nodes[cur]? = some d) (hp : Integer.Pair sc.graph cur d a b) :
    ∃ x y, sc.graph.nodes[a.node]? = some x ∧ sc.graph.nodes[b.node]? = some y := by
  have hnode : ∀ e ∈ d.children, ∃ x, sc.graph.nodes[e.node]? = some x := fun e he => by
    obtain ⟨x, hx, -⟩ := hsc.node (n := e.node) (by
      rw [h.nodes]
      exact List.mem_append_left _ (hsc.operand h.nodes hd he))
    exact ⟨x, hx⟩
  obtain ⟨x, hx⟩ := hnode a hp.left
  obtain ⟨y, hy⟩ := hnode b hp.right
  exact ⟨x, y, hx, hy⟩

lemma Ready.does_addInt (hsc : sc.Staged blk) (h : Ready sc done cur rest s) (hl : Locked [] s)
    (hop : sc.Operates cur d (sc.val a.node) (sc.val b.node) res)
    (hc : Draft.countsUses d = true) (hp : Integer.Pair sc.graph cur d a b)
    (hadd : d.op = .arithAdd) : Makes sc done cur rest s (addInt d a b) := by
  obtain ⟨x, y, hx, hy⟩ := h.operands hsc hop.node hp
  obtain ⟨swapped, hs⟩ : ∃ swapped, Finds sc.env s (onlyLeftConstant a b) swapped :=
    ⟨_, finds_onlyLeftConstant hx hy⟩
  refine .after hs ?_
  cases swapped with
  | true => exact h.does_sum hsc hl (hop.swap hadd) hc hp.swap hadd
  | false => exact h.does_sum hsc hl hop hc hp hadd

lemma Ready.does_subInt (hsc : sc.Staged blk) (h : Ready sc done cur rest s) (hl : Locked [] s)
    (hop : sc.Operates cur d (sc.val a.node) (sc.val b.node) res)
    (hc : Draft.countsUses d = true) (hp : Integer.Pair sc.graph cur d a b)
    (hsub : d.op = .arithSub) : Makes sc done cur rest s (subInt d a b) := by
  have hr : d.op.hasResult = true := by rw [hsub]; rfl
  have hv : d.op.isConstant = false := by rw [hsub]; rfl
  have halu : Integer.aluOf d.op = .sub := by rw [hsub]; rfl
  refine (h.does_left hsc hl hop hc hp).bind fun op s₁ h₁ => ?_
  refine (h₁.does_right hsc hop hc hp).bind fun src s₂ h₂ => ?_
  have hn : a.node ∈ sc.nodes := by
    rw [h.nodes]
    exact List.mem_append_left _ (hsc.operand h.nodes hop.node hp.left)
  have hA : Rests s₂ (Carries (sc.val b.node) src) := .carries h₂.held
  -- whether or not the result goes over the left operand, the rest is the same
  have hfinish : ∀ r reused s₃, Target sc done cur rest s₂ a.node r reused s₃ →
      (d.flags.canTruncate = false → reused = false) →
      Does sc s₃
        (do alu32 .sub r src
            unless d.flags.canTruncate do guard' .overflow .o
            gprResult r .int32)
        (At sc done s₃ fun regs =>
          Carries (sc.val b.node) src regs ∧ Carries (sc.val a.node) (.reg r) regs)
        (fun _ s' => Made sc done cur rest (childrenOf sc.graph cur) s')
        fun _ s' => Remains sc (done ++ [cur]) (childrenOf sc.graph cur) s' := by
    intro r reused s₃ h₃ hfresh
    rw [← halu]
    exact (h₃.ready.does_guarded _ hsc hop hc hr hv h₃.usable fun hct =>
      (h₃.fresh (hfresh hct)).1.2).conseq (fun regs mem ⟨hm, hb, ha⟩ => ⟨hm, ha, hb.acts _⟩)
      (fun _ _ => id) fun _ _ _ _ _ => id
  refine Does.conseq (P := At sc done s₂ fun regs =>
    Carries (sc.val b.node) src regs ∧ Carries (sc.val a.node) (.reg op.reg) regs) ?_
    (fun _ _ ⟨hm, ha, hb⟩ => ⟨hm, hb, ha⟩) (fun _ _ => id) fun _ _ _ _ _ => id
  refine .ite (fun hct => ?_) fun _ => ?_
  · refine (h₂.does_target hsc hA (hp.mem_childrenOf hop.node) hn).bind fun ⟨r, reused⟩ s₃ h₃ => ?_
    exact (Does.pure (Q := fun t s' => t = r ∧ s' = s₃) ⟨rfl, rfl⟩ fun _ _ => id).bind
      fun _ _ ⟨hr, hs⟩ => hr ▸ hs ▸ hfinish r reused s₃ h₃ fun hct' => by
        rw [hct] at hct'
        cases hct'
  · obtain ⟨rs, hl₂, hrs⟩ := h₂.locked
    refine h₂.ready.does_copy (n := a.node) hsc hl₂ hrs hA h₂.lock fun r s₃ h₃ => ?_
    exact (Does.pure (Q := fun t s' => t = r ∧ s' = s₃) ⟨rfl, rfl⟩ fun _ _ => id).bind
      fun _ _ ⟨hr, hs⟩ => hr ▸ hs ▸ hfinish r false s₃ h₃ fun _ => rfl

/-- The right operand of a bitwise operation. The count of a shift by a constant is reduced. -/
lemma Fetched.does_bitRhs (op : BitOp) (hsc : sc.Staged blk) {q : Gpr} {s₀ : State}
    {k : Operand → Lower Unit} {Q : Unit → State → Prop} {S : Unit → State → Condition}
    (h : Fetched sc done cur rest [] s₀ a.node q s) (hop : sc.Operates cur d v (sc.val b.node) res)
    (hc : Draft.countsUses d = true) (hp : Integer.Pair sc.graph cur d a b)
    (hk : ∀ src s', Loaded sc done cur rest a q b src s' →
      Does sc s' (k src) (At sc done s' fun regs =>
        Carries v (.reg q) regs ∧ Acts (.bit op) (sc.val b.node) src regs) Q S) :
    Does sc s
      (assume (sc.graph.int32Constant b.node) >>= fun
        | some c => pure (.imm (if isShift op then c &&& 31 else c)) >>= k
        | none => intRhs b >>= k)
      (At sc done s (Carries v (.reg q))) Q S := by
  obtain ⟨-, y, -, hy⟩ := h.ready.operands hsc hop.node hp
  obtain ⟨w, hv⟩ : ∃ w, sc.graph.int32Constant b.node = .ok w :=
    ⟨_, Graph.int32Constant_of_node hy⟩
  refine .after (finds_assume hv) ?_
  rcases w with _ | c
  · exact ((h.does_right hsc hop hc hp).conseq (fun _ _ => id) (fun _ _ => id)
      fun _ _ _ _ _ ⟨hm, ha, hb⟩ => ⟨hm, ha, hb.acts _⟩).bind hk
  · have hn : b.node ∈ sc.nodes := by
      rw [h.ready.nodes]
      exact List.mem_append_left _ (hsc.operand h.ready.nodes hop.node hp.right)
    obtain ⟨hint, hval⟩ := hsc.val_int32Constant hn hv
    refine ((h.ready.does_immediate (n := b.node) (c := if isShift op then c &&& 31 else c)
      (B := fun src regs => Carries v (.reg q) regs ∧ Acts (.bit op) (sc.val b.node) src regs)
      h.locked rfl fun regs hr => ⟨hr, hint, fun i => ?_⟩).conseq (fun _ _ => id)
        (fun _ _ ho => h.loaded ho) fun _ _ _ _ _ => id).bind hk
    show Integer.arith _ i (low (Int32.toInt64 _).toUInt64) = _
    rw [low_immediate, hval]
    split
    · rename_i hshift
      exact Integer.arith_and_31 hshift i c
    · rfl

/-- The operands of an operation are those of its node. -/
lemma finds_operands {env : Env} (hd : env.graph.nodes[s.current]? = some d)
    (hc : d.children = #[a, b]) : Finds env s (child 0) a ∧ Finds env s (child 1) b :=
  ⟨finds_child hd (by rw [hc]; rfl), finds_child hd (by rw [hc]; rfl)⟩

lemma Ready.does_bit (hsc : sc.Staged blk) (h : Ready sc done cur rest s) (hl : Locked [] s)
    (hcur : s.current = cur) (hch : d.children = #[a, b])
    (hop : sc.Operates cur d (sc.val a.node) (sc.val b.node) res)
    (hc : Draft.countsUses d = true) (hp : Integer.Pair sc.graph cur d a b) {op : BitOp}
    (hbit : d.op = .bit op) : Makes sc done cur rest s (lowerBit op) := by
  have hr : d.op.hasResult = true := by rw [hbit]; rfl
  have hv : d.op.isConstant = false := by rw [hbit]; rfl
  have halu : Integer.aluOf d.op = bitAlu op := by rw [hbit]; rfl
  have hfits : res.2 = false := by
    have := hop.arith
    rw [hbit] at this
    cases this
    rfl
  have hn : a.node ∈ sc.nodes := by
    rw [h.nodes]
    exact List.mem_append_left _ (hsc.operand h.nodes hop.node hp.left)
  have hd : sc.env.graph.nodes[s.current]? = some d := by
    rw [hcur]
    exact hop.node
  obtain ⟨ha, hb⟩ := finds_operands hd hch
  refine .after ha (.after hb ((h.does_left hsc hl hop hc hp).bind fun op1 s₁ h₁ => ?_))
  refine .after finds_graph (h₁.does_bitRhs op hsc hop hc hp fun src s₂ h₂ => ?_)
  have hA : Rests s₂ (Acts (.bit op) (sc.val b.node) src) := .acts h₂.held
  have hswap : ∀ regs mem, At sc done s₂ (fun regs => Carries (sc.val a.node) (.reg op1.reg) regs ∧
      Acts (.bit op) (sc.val b.node) src regs) regs mem →
      At sc done s₂ (fun regs => Acts (.bit op) (sc.val b.node) src regs ∧
        Carries (sc.val a.node) (.reg op1.reg) regs) regs mem :=
    fun _ _ ⟨hm, ha, hb⟩ => ⟨hm, hb, ha⟩
  refine ((h₂.does_target hsc hA (hp.mem_childrenOf hop.node) hn).conseq hswap (fun _ _ => id)
    fun _ _ _ _ _ => id).bind fun ⟨r, reused⟩ s₃ h₃ => ?_
  dsimp only
  rw [← halu]
  have hstep := h₃.ready.does_alu src (B := fun _ => True) hsc h₃.usable.locked hop
    fun _ _ _ => id
  refine (hstep.conseq (fun regs mem ⟨hm, hb, ha⟩ => ⟨hm, trivial, ha, hbit ▸ hb⟩)
    (fun _ _ => id) fun _ _ _ _ _ => id).bind fun _ s₄ ⟨h₄, hs₄⟩ => ?_
  refine (h₄.does_intResult hsc hop hc hr hv (h₃.usable.of_same hs₄)).conseq ?_ (fun _ _ => id)
    fun _ _ _ _ _ => id
  rintro regs mem ⟨hm, -⟩
  exact ⟨hm, by rw [hfits]; rfl⟩

/-! ### Nodes -/

lemma arithMode_int32 (ha : a.kind = .int32) (hb : b.kind = .int32) : arithMode a b = .int32 := by
  simp [arithMode, isInt, ha, hb]

/-- The code of an operation makes its value. -/
lemma Ready.does_binary (hsc : sc.Staged blk) (h : Ready sc done cur rest s) (hl : Locked [] s)
    (hcur : s.current = cur) (hd : sc.graph.nodes[cur]? = some d) (hg : d.shouldGenerate = true)
    (hb : Integer.Binary sc.graph d a b) : Makes sc done cur rest s (lowerNode d.op) := by
  have hmem : cur ∈ sc.nodes := by
    rw [h.nodes]
    simp
  obtain ⟨res, hop⟩ := hsc.operates hmem hd hg hb
  have hc := hb.countsUses hg
  have hp := hb.pair hd hc
  have hd' : sc.env.graph.nodes[s.current]? = some d := by
    rw [hcur]
    exact hd
  obtain ⟨ha', hb'⟩ := finds_operands hd' hb.children
  have hmode := arithMode_int32 hb.left hb.right
  obtain hop' | hop' | ⟨op, hop'⟩ := hb.op <;> rw [hop']
  · refine .after (finds_currentNode hd') (.after ha' (.after hb' ?_))
    rw [hmode]
    exact h.does_addInt hsc hl hop hc hp hop'
  · refine .after (finds_currentNode hd') (.after ha' (.after hb' ?_))
    rw [hmode]
    exact h.does_subInt hsc hl hop hc hp hop'
  · exact h.does_bit hsc hl hcur hb.children hop hc hp hop'

end Lowering
end Speculation
