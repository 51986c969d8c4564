import Speculation.Proofs.Independence.Steps

/-!
Values, registers, exits and calls in two lowerings.

The ledger is the same in both and the banks are alike, so both hand out the same registers, spill the
same values and log the same events.
-/

namespace Speculation
namespace Lowering
variable {α β γ : Type} {c : Twins} {w : Names} {ls : List (Label × Label)} {s₁ s₂ : State}

/-- The search for the store of a value looks at nodes of the block only. -/
lemma forwardStoreFrom_congr {g g' : Graph} {ids : List NodeId}
    (h : ∀ n ∈ ids, g'.node n = g.node n) (i : Nat) (value : NodeId) (converted : Bool) :
    g'.forwardStoreFrom ids i value converted = g.forwardStoreFrom ids i value converted := by
  induction ids generalizing i value converted with
  | nil => rfl
  | cons id rest ih =>
    have ih := ih fun n hn => h n (List.mem_cons_of_mem _ hn)
    rw [Graph.forwardStoreFrom, Graph.forwardStoreFrom, h id List.mem_cons_self]
    simp only [ih]

namespace Twins

lemma member_of_block {blk : Block} (hb : c.e₁.graph.block c.block = .ok blk) {n : NodeId}
    (hn : n ∈ blk.nodes) : c.Member n := by
  refine c.members (b := blk) ?_ hn
  rw [Graph.block, Breach.get] at hb
  split at hb
  · cases hb
    assumption
  · cases hb

lemma node_of_block {blk : Block} (hb : c.e₁.graph.block c.block = .ok blk) {i : Nat} {n : NodeId}
    (hn : blk.nodes[i]? = some n) : c.e₂.graph.node n = c.e₁.graph.node n :=
  Shares.node (c.node (member_of_block hb (Array.mem_of_getElem? hn)))

lemma findForwardStore_eq (c : Twins) (pos : Nat) :
    c.e₂.graph.findForwardStore c.block pos = c.e₁.graph.findForwardStore c.block pos := by
  rw [Graph.findForwardStore, Graph.findForwardStore, c.block_eq]
  rcases hb : c.e₁.graph.block c.block with e | blk
  · rfl
  simp only [bind, Except.bind]
  split
  · rfl
  · refine forwardStoreFrom_congr (fun n hn => ?_) _ _ _
    obtain ⟨i, hi⟩ := List.mem_iff_getElem?.mp (List.mem_of_mem_drop hn)
    exact node_of_block hb (by simpa using hi)

lemma forwardResume_eq (c : Twins) (pos store : Nat) :
    c.e₂.graph.forwardResume c.block pos store = c.e₁.graph.forwardResume c.block pos store := by
  rw [Graph.forwardResume, Graph.forwardResume, c.block_eq]
  rcases hb : c.e₁.graph.block c.block with e | blk
  · rfl
  simp only [bind, Except.bind, Breach.get]
  rcases hp : blk.nodes[pos]? with _ | n
  · rfl
  rcases hs : blk.nodes[store]? with _ | m
  · simp only [node_of_block hb hp]
  rcases hn : blk.nodes[store + 1]? with _ | k
  · simp only [node_of_block hb hp, node_of_block hb hs, c.vars, Option.mapM_none]
  · simp only [node_of_block hb hp, node_of_block hb hs, node_of_block hb hn, c.vars, Option.mapM_some]

end Twins

/-- Both drop a guard. -/
lemma AlikeAt.drop (hs : AlikeAt c w s₁ s₂) (l : Location) : AlikeAt c w (s₁.drop l) (s₂.drop l) := by
  cases l with
  | none =>
    exact { hs with
      puts := { hs.puts with }
      guards := by simp only [State.guards_drop, hs.guards]
      guarded₁ := hs.guarded₁.drop }
  | gpr r =>
    exact { hs with
      puts := { hs.puts with }
      gprs := hs.gprs.unlock
      guards := by simp only [State.guards_drop, hs.guards]
      guarded₁ := hs.guarded₁.drop }
  | fpr f =>
    exact { hs with
      puts := { hs.puts with }
      fprs := hs.fprs.unlock
      guards := by simp only [State.guards_drop, hs.guards]
      guarded₁ := hs.guarded₁.drop }

lemma AlikeAt.dropAll (hs : AlikeAt c w s₁ s₂) (gs : List Location) :
    AlikeAt c w (gs.foldl State.drop s₁) (gs.foldl State.drop s₂) := by
  induction gs generalizing s₁ s₂ with
  | nil => exact hs
  | cons l gs ih => exact ih (hs.drop l)

namespace Similar

/-! ### The ledger and the banks -/

@[simp] lemma event {e : Event} (he : ∀ n o, e = .movHint n o → c.Shares n) :
    Similar c ls Eq (event e) (event e) :=
  modify fun _ _ _ hs => hs.of_alike (hs.toAlike.event he) ⟨rfl, rfl⟩ ⟨rfl, rfl⟩

@[simp] lemma slotOf {n : NodeId} (h : c.Shares n) : Similar c ls Eq (slotOf n) (slotOf n) := by
  unfold Lowering.slotOf
  refine bindEq (node h) fun d => ?_
  split <;> simp

@[simp] lemma ledgerIndex (o : Slot) : Similar c ls Eq (ledgerIndex o) (ledgerIndex o) := by
  unfold Lowering.ledgerIndex
  split
  · refine bindGet fun w s₁ s₂ hs _ => ?_
    rw [hs.ledger]
    split <;> simp
  · exact internal _

@[simp] lemma infoAt (i : Nat) : Similar c ls Eq (infoAt i) (infoAt i) :=
  bindGet fun _ _ _ hs _ => by
    rw [hs.ledger]
    exact pureEq _

@[simp] lemma info {n : NodeId} (h : c.Shares n) : Similar c ls Eq (info n) (info n) :=
  bindEq (slotOf h) fun _ => bindEq (ledgerIndex _) fun _ => infoAt _

@[simp] lemma setInfoAt (i : Nat) (x : ValueInfo) :
    Similar c ls Eq (setInfoAt i x) (setInfoAt i x) :=
  modify fun _ _ _ hs =>
    { hs with
      puts := { hs.puts with }
      ledger := by rw [hs.ledger]
      slots := by rw [Array.size_setIfInBounds, hs.slots] }

@[simp] lemma setInfo {n : NodeId} (h : c.Shares n) (x : ValueInfo) :
    Similar c ls Eq (setInfo n x) (setInfo n x) :=
  bindEq (slotOf h) fun _ => bindEq (ledgerIndex _) fun _ => setInfoAt _ _

lemma modifyGprs {f : Bank Gpr → Bank Gpr} (h : ∀ b c : Bank Gpr, b.Alike c → (f b).Alike (f c))
    (hl : ∀ (b : Bank Gpr) q, (f b).locksOf q = b.locksOf q) :
    Similar c ls Eq (modifyGprs f) (modifyGprs f) :=
  modify fun _ _ _ hs =>
    { hs with
      puts := { hs.puts with }
      gprs := h _ _ hs.gprs
      guarded₁ := hs.guarded₁.congr (fun q => by cases q <;> simp [State.locks, hl]) rfl }

lemma modifyFprs {f : Bank Fpr → Bank Fpr} (h : ∀ b c : Bank Fpr, b.Alike c → (f b).Alike (f c))
    (hl : ∀ (b : Bank Fpr) q, (f b).locksOf q = b.locksOf q) :
    Similar c ls Eq (modifyFprs f) (modifyFprs f) :=
  modify fun _ _ _ hs =>
    { hs with
      puts := { hs.puts with }
      fprs := h _ _ hs.fprs
      guarded₁ := hs.guarded₁.congr (fun q => by cases q <;> simp [State.locks, hl]) rfl }

@[simp] lemma retainGpr (r : Gpr) (o : Slot) (order : SpillOrder) :
    Similar c ls Eq (Lowering.modifyGprs (·.retain r o order)) (Lowering.modifyGprs (·.retain r o order)) :=
  modifyGprs (fun _ _ => .retain) fun _ _ => Bank.locksOf_retain

@[simp] lemma retainFpr (r : Fpr) (o : Slot) (order : SpillOrder) :
    Similar c ls Eq (Lowering.modifyFprs (·.retain r o order)) (Lowering.modifyFprs (·.retain r o order)) :=
  modifyFprs (fun _ _ => .retain) fun _ _ => Bank.locksOf_retain

@[simp] lemma releaseGpr (r : Gpr) :
    Similar c ls Eq (Lowering.modifyGprs (·.release r)) (Lowering.modifyGprs (·.release r)) :=
  modifyGprs (fun _ _ => .release) fun _ _ => Bank.locksOf_release

@[simp] lemma releaseFpr (r : Fpr) :
    Similar c ls Eq (Lowering.modifyFprs (·.release r)) (Lowering.modifyFprs (·.release r)) :=
  modifyFprs (fun _ _ => .release) fun _ _ => Bank.locksOf_release

@[simp] lemma setOrderGpr (r : Gpr) (order : SpillOrder) :
    Similar c ls Eq (Lowering.modifyGprs (·.setOrder r order)) (Lowering.modifyGprs (·.setOrder r order)) :=
  modifyGprs (fun _ _ => .setOrder) fun _ _ => Bank.locksOf_setOrder

/-- Both hold a register, and go on. -/
lemma bindHoldGpr {R : α → α → Prop} {b b' : Bank Gpr} {r : Gpr} {f g : Unit → Lower α}
    (hs : AlikeAt c w s₁ s₂) (hls : ls ⊆ w.code) (h : b.Alike b') (hb : s₁.gprs.Adds r b)
    (hf : Similar c ls R (f ()) (g ())) :
    Both c s₁ s₂ (holdGpr b r >>= f) (holdGpr b' r >>= g)
      (fun a a' t₁ t₂ => R a a' ∧ ∃ w', w.Grows w' ∧ AlikeAt c w' t₁ t₂)
      fun t₁ t₂ => ∃ w', w.Grows w' ∧ AlikeAt c w' t₁ t₂ :=
  Both.bind (.ok (hf w _ _
    { hs with
      puts := { hs.puts with }
      gprs := h
      guards := congrArg (Location.gpr r :: ·) hs.guards
      guarded₁ := hs.guarded₁.holdGpr hb } hls))

lemma bindHoldFpr {R : α → α → Prop} {b b' : Bank Fpr} {r : Fpr} {f g : Unit → Lower α}
    (hs : AlikeAt c w s₁ s₂) (hls : ls ⊆ w.code) (h : b.Alike b') (hb : s₁.fprs.Adds r b)
    (hf : Similar c ls R (f ()) (g ())) :
    Both c s₁ s₂ (holdFpr b r >>= f) (holdFpr b' r >>= g)
      (fun a a' t₁ t₂ => R a a' ∧ ∃ w', w.Grows w' ∧ AlikeAt c w' t₁ t₂)
      fun t₁ t₂ => ∃ w', w.Grows w' ∧ AlikeAt c w' t₁ t₂ :=
  Both.bind (.ok (hf w _ _
    { hs with
      puts := { hs.puts with }
      fprs := h
      guards := congrArg (Location.fpr r :: ·) hs.guards
      guarded₁ := hs.guarded₁.holdFpr hb } hls))

@[simp] lemma lockGpr (r : Gpr) : Similar c ls Eq (lockGpr r) (lockGpr r) := by
  intro w s₁ s₂ hs hls
  refine Both.bind (.ok ?_)
  rcases hs.gprs.lock r with ⟨e, hb, hc⟩ | ⟨b, b', hb, hc, h⟩
  · rw [hb, hc]
    exact throw _ w s₁ s₂ hs hls
  · rw [hb, hc]
    obtain ⟨rfl, hr⟩ := Bank.lock_eq_ok hb
    exact bindHoldGpr hs hls h (fun q => Bank.locksOf_addLock (hs.gprs.sound.entryAt_isSome.mpr hr))
      (pureEq ())

@[simp] lemma lockFpr (r : Fpr) : Similar c ls Eq (lockFpr r) (lockFpr r) := by
  intro w s₁ s₂ hs hls
  refine Both.bind (.ok ?_)
  rcases hs.fprs.lock r with ⟨e, hb, hc⟩ | ⟨b, b', hb, hc, h⟩
  · rw [hb, hc]
    exact throw _ w s₁ s₂ hs hls
  · rw [hb, hc]
    obtain ⟨rfl, hr⟩ := Bank.lock_eq_ok hb
    exact bindHoldFpr hs hls h (fun q => Bank.locksOf_addLock (hs.fprs.sound.entryAt_isSome.mpr hr))
      (pureEq ())

@[simp] lemma unlockGpr (r : Gpr) : Similar c ls Eq (unlockGpr r) (unlockGpr r) :=
  modify fun _ _ _ hs => hs.drop (.gpr r)

@[simp] lemma unlockFpr (r : Fpr) : Similar c ls Eq (unlockFpr r) (unlockFpr r) :=
  modify fun _ _ _ hs => hs.drop (.fpr r)

@[simp] lemma dropGuards : Similar c ls Eq dropGuards dropGuards :=
  modify fun _ _ _ hs => hs.guards ▸ hs.dropAll _

@[simp] lemma isLockedGpr (r : Gpr) : Similar c ls Eq (isLockedGpr r) (isLockedGpr r) :=
  bindGet fun _ _ _ hs _ => by
    rw [hs.gprs.isLocked]
    exact pureEq _

@[simp] lemma mov (d r : Gpr) : Similar c ls Eq (mov d r) (mov d r) := ite (pureEq _) (emit' _)

@[simp] lemma dmov (d r : Fpr) : Similar c ls Eq (dmov d r) (dmov d r) := ite (pureEq _) (emit' _)

@[simp] lemma discard_movImm (d : Gpr) (x : UInt64) : Similar c ls Eq
    (Functor.discard (movImm d x)) (Functor.discard (movImm d x)) := discard (emit _)

@[simp] lemma alu32 (op : AluOp) (d : Gpr) (x : Operand) :
    Similar c ls Eq (alu32 op d x) (alu32 op d x) := emit' _

@[simp] lemma alu64 (op : AluOp) (d : Gpr) (x : Operand) :
    Similar c ls Eq (alu64 op d x) (alu64 op d x) := emit' _

@[simp] lemma cmp32 (r : Gpr) (x : Operand) : Similar c ls Eq (cmp32 r x) (cmp32 r x) := emit' _

@[simp] lemma cmp64 (r : Gpr) (x : Operand) : Similar c ls Eq (cmp64 r x) (cmp64 r x) := emit' _

@[simp] lemma test32 (r : Gpr) (x : Operand) : Similar c ls Eq (test32 r x) (test32 r x) := emit' _

@[simp] lemma test64 (r : Gpr) (x : Operand) : Similar c ls Eq (test64 r x) (test64 r x) := emit' _

@[simp] lemma load (width : Width) (d : Gpr) (a : Address) :
    Similar c ls Eq (load width d a) (load width d a) := emit' _

@[simp] lemma load64 (d : Gpr) (a : Address) : Similar c ls Eq (load64 d a) (load64 d a) := emit' _

@[simp] lemma store64 (r : Gpr) (a : Address) : Similar c ls Eq (store64 r a) (store64 r a) := emit' _

@[simp] lemma spillSlot (o : Slot) (l : Location) :
    Similar c ls Eq (spillSlot o l) (spillSlot o l) := by
  unfold Lowering.spillSlot
  refine bindEq (ledgerIndex o) fun i => bindEq (infoAt i) fun x => ?_
  split
  · exact internal _
  · refine ite (internal _) (ite (bindEq (setInfoAt _ _) fun _ => event (by simp)) ?_)
    cases l <;> with_reducible repeat' refine bindEq ?_ fun _ => ?_
    all_goals simp

/-- What follows after a register was handed out. -/
lemma vacate (ev : Option Slot) (l : Location) (a : α) :
    Similar c ls Eq (do
      if let some o := ev then Lowering.spillSlot o l
      return a) (do
      if let some o := ev then Lowering.spillSlot o l
      return a) := by
  split
  · exact bindEq (spillSlot _ _) fun _ => pureEq _
  · exact pureEq _

/-- Both hand out the same register, and go on alike. -/
lemma takeGpr {F : Bank Gpr → Except CompileError (Bank.Allocation Gpr × Bank Gpr)}
    (hF : ∀ b b' : Bank Gpr, b.Alike b' → Bank.AllocateAlike (F b) (F b'))
    (hh : ∀ (b b' : Bank Gpr) a, b.Sound → F b = .ok (a, b') → b.Hands a b')
    {f : Bank.Allocation Gpr × Bank Gpr → Lower α} {k : Bank.Allocation Gpr → Lower α}
    (hfk : ∀ a b, f (a, b) = holdGpr b a.register >>= fun _ => k a)
    (hk : ∀ a, Similar c ls Eq (k a) (k a)) :
    Similar c ls Eq (MonadState.get >>= fun s => Lowering.check (F s.gprs) >>= f)
      (MonadState.get >>= fun s => Lowering.check (F s.gprs) >>= f) := by
  intro w s₁ s₂ hs hls
  refine Both.bind (.ok ?_)
  rcases hF _ _ hs.gprs with ⟨e, hb, hc⟩ | ⟨a, b, b', hb, hc, h⟩
  · rw [hb, hc]
    exact throw _ w s₁ s₂ hs hls
  · rw [hb, hc]
    show Both c s₁ s₂ (f (a, b)) (f (a, b')) _ _
    rw [hfk, hfk]
    exact bindHoldGpr hs hls h (hh _ _ _ hs.gprs.sound hb).adds (hk a)

lemma takeFpr {F : Bank Fpr → Except CompileError (Bank.Allocation Fpr × Bank Fpr)}
    (hF : ∀ b b' : Bank Fpr, b.Alike b' → Bank.AllocateAlike (F b) (F b'))
    (hh : ∀ (b b' : Bank Fpr) a, b.Sound → F b = .ok (a, b') → b.Hands a b')
    {f : Bank.Allocation Fpr × Bank Fpr → Lower α} {k : Bank.Allocation Fpr → Lower α}
    (hfk : ∀ a b, f (a, b) = holdFpr b a.register >>= fun _ => k a)
    (hk : ∀ a, Similar c ls Eq (k a) (k a)) :
    Similar c ls Eq (MonadState.get >>= fun s => Lowering.check (F s.fprs) >>= f)
      (MonadState.get >>= fun s => Lowering.check (F s.fprs) >>= f) := by
  intro w s₁ s₂ hs hls
  refine Both.bind (.ok ?_)
  rcases hF _ _ hs.fprs with ⟨e, hb, hc⟩ | ⟨a, b, b', hb, hc, h⟩
  · rw [hb, hc]
    exact throw _ w s₁ s₂ hs hls
  · rw [hb, hc]
    show Both c s₁ s₂ (f (a, b)) (f (a, b')) _ _
    rw [hfk, hfk]
    exact bindHoldFpr hs hls h (hh _ _ _ hs.fprs.sound hb).adds (hk a)

@[simp] lemma allocGpr : Similar c ls Eq allocGpr allocGpr :=
  takeGpr (fun _ _ => Bank.Alike.allocate) (fun _ _ _ h => h.allocate) (fun _ _ => rfl)
    fun _ => vacate _ _ _

@[simp] lemma allocFpr : Similar c ls Eq allocFpr allocFpr :=
  takeFpr (fun _ _ => Bank.Alike.allocate) (fun _ _ _ h => h.allocate) (fun _ _ => rfl)
    fun _ => vacate _ _ _

@[simp] lemma allocGprPreferring (r : Gpr) :
    Similar c ls Eq (allocGprPreferring r) (allocGprPreferring r) :=
  takeGpr (fun _ _ h => h.allocatePreferring r) (fun _ _ _ h => h.allocatePreferring) (fun _ _ => rfl)
    fun _ => vacate _ _ _

@[simp] lemma allocFprPreferring (r : Fpr) :
    Similar c ls Eq (allocFprPreferring r) (allocFprPreferring r) :=
  takeFpr (fun _ _ h => h.allocatePreferring r) (fun _ _ _ h => h.allocatePreferring) (fun _ _ => rfl)
    fun _ => vacate _ _ _

@[simp] lemma flushRegisters : Similar c ls Eq flushRegisters flushRegisters := by
  refine bindGet fun w s₁ s₂ hs _ => ?_
  rw [hs.gprs.bound]
  refine bindEq (forIn fun x _ => bindEq (releaseGpr _) fun _ => bindEq (spillSlot _ _) fun _ =>
    pureEq _) fun _ => bindGet fun w s₁ s₂ hs _ => ?_
  rw [hs.fprs.bound]
  exact bindEq (forIn fun x _ => bindEq (releaseFpr _) fun _ => bindEq (spillSlot _ _) fun _ =>
    pureEq _) fun _ => pureEq _

@[simp] lemma gprResult (r : Gpr) (format : DataFormat) :
    Similar c ls Eq (gprResult r format) (gprResult r format) := by
  refine bindGet fun w s₁ s₂ hs _ => ?_
  have hc := hs.shares
  rw [hs.current]
  refine bindCurrentNode fun d _ => ite (pureEq _) ?_
  with_reducible repeat' refine bindEq ?_ fun _ => ?_
  all_goals simp [hc]

@[simp] lemma fprResult (r : Fpr) : Similar c ls Eq (fprResult r) (fprResult r) := by
  refine bindGet fun w s₁ s₂ hs _ => ?_
  have hc := hs.shares
  rw [hs.current]
  refine bindCurrentNode fun d _ => ite (pureEq _) ?_
  with_reducible repeat' refine bindEq ?_ fun _ => ?_
  all_goals simp [hc]

@[simp] lemma releaseLocation (o : Slot) (l : Location) :
    Similar c ls Eq (releaseLocation o l) (releaseLocation o l) := by
  cases l with
  | none => exact pureEq _
  | gpr r =>
    refine bindGet fun w s₁ s₂ hs _ => ?_
    rw [hs.gprs.owner]
    exact ite (releaseGpr _) (pureEq _)
  | fpr r =>
    refine bindGet fun w s₁ s₂ hs _ => ?_
    rw [hs.fprs.owner]
    exact ite (releaseFpr _) (pureEq _)

@[simp] lemma useNode {n : NodeId} (h : c.Shares n) : Similar c ls Eq (useNode n) (useNode n) := by
  unfold Lowering.useNode
  refine bindEq (node h) fun d => ?_
  split
  · refine bindEq (ledgerIndex _) fun _ => bindEq (infoAt _) fun _ =>
      ite (bindEq (assume _) fun y => ?_) (pureEq _)
    refine ite (bindEq (releaseLocation _ _) fun _ => bindEq (setInfoAt _ _) fun _ => ?_)
      (setInfoAt _ _)
    exact ite (pureEq _) (event (by simp))
  · exact pureEq _

@[simp] lemma useChildren {n : NodeId} (h : c.Member n) :
    Similar c ls Eq (useChildren n) (useChildren n) :=
  bindNode h fun d hd => bindEq (forIn_mem fun e he _ =>
    bindEq (useNode (c.operand h hd (by simpa using he))) fun _ => pureEq _) fun _ => pureEq _

@[simp] lemma canReuse {e : Edge} (h : c.Shares e.node) :
    Similar c ls Eq (canReuse e) (canReuse e) := by
  unfold Lowering.canReuse
  refine bindEq (node h) fun d => ?_
  split
  · refine bindGet fun w s₁ s₂ hs _ => ?_
    rw [hs.ledger]
    split <;> simp
  · exact pureEq _

/-! ### Exits -/

/-- Exits of the block are counted from where it began. -/
abbrev ExitPair (c : Twins) : Nat → Nat → Prop := Shifted c.t₁.exits.size c.t₂.exits.size

/-- What comes next in the two event streams comes after the first event of the block. -/
lemma stream (hs : Alike c w s₁ s₂) : Shifted (c.t₁.events.size + 1) (c.t₂.events.size + 1)
    s₁.events.size s₂.events.size := by
  obtain ⟨k, h₁, h₂⟩ := hs.puts.events.size
  have hlt := (Array.getElem?_eq_some_iff.mp hs.begun₁).1
  exact ⟨k - 1, by omega, by omega⟩

/-- The exits that are made correspond. -/
lemma newExit (kind : ExitKind) : Similar c ls (ExitPair c) (newExit kind) (newExit kind) := by
  refine bindNewLabel fun l m => bindCurrentNode fun d _ => fun w s₁ s₂ hs hls => ?_
  have hpair : (l, m) ∈ w.code := hls List.mem_cons_self
  refine .ok ⟨hs.puts.exits.size, w, .refl w, hs.of_alike ?_ ⟨rfl, rfl⟩ ⟨rfl, rfl⟩⟩
  refine { hs.toAlike with puts := { hs.puts with exits := hs.puts.exits.push ?_ }, seen₁ := ?_ }
  · rw [hs.exitStream₁, hs.exitStream₂, hs.current]
    exact ⟨rfl, .code hpair, stream hs.toAlike⟩
  · intro i x hi hx
    simp only [Array.getElem?_push] at hx
    split at hx
    · cases hx
      rw [hs.exitStream₁]
      exact Nat.le_refl _
    · exact hs.seen₁ hi hx

lemma modifyExit {x y : Nat} (hxy : ExitPair c x y) {f : Exit → Exit} (hstub : ∀ e, (f e).stub = e.stub)
    (hstream : ∀ e, (f e).streamIndex = e.streamIndex)
    (hf : ∀ e l k, f { e with stub := l, streamIndex := k } = { f e with stub := l, streamIndex := k }) :
    Similar c ls Eq (modifyExit x f) (modifyExit y f) := by
  refine modify fun w s₁ s₂ hs => hs.of_alike ?_ ⟨rfl, rfl⟩ ⟨rfl, rfl⟩
  refine { hs.toAlike with
    puts := { hs.puts with exits := hs.puts.exits.modify ?_ hxy }
    seen₁ := ?_ }
  · intro e e' h
    refine ⟨?_, by rw [hstub, hstub]; exact h.stub, by rw [hstream, hstream]; exact h.stream⟩
    rw [hstub, hstream]
    conv_lhs => rw [h.same, hf]
  · intro i z hi hz
    simp only [Array.getElem?_modify] at hz
    split at hz
    · obtain ⟨z', hz', rfl⟩ := Option.map_eq_some_iff.mp hz
      rw [hstream]
      exact hs.seen₁ hi hz'
    · exact hs.seen₁ hi hz

/-- Both leave through the same exit. -/
lemma toExit {i : Inst} (hi : ∀ l, Assembler.RelocTarget.fits (.label l) i = true) {x y : Nat}
    (hxy : ExitPair c x y) : Similar c ls Eq
      (MonadState.get >>= fun s : State => Lowering.assume (Breach.get s.exits x) >>= fun e =>
        Functor.discard (Lowering.emitReloc i (.label e.stub)))
      (MonadState.get >>= fun s : State => Lowering.assume (Breach.get s.exits y) >>= fun e =>
        Functor.discard (Lowering.emitReloc i (.label e.stub))) := by
  intro w s₁ s₂ hs _
  refine Both.bind (.ok (Both.bind ?_))
  rcases hs.puts.exits.getElem? hxy with ⟨hx, hy⟩ | ⟨e, f, hx, hy, hef⟩
  · rw [Breach.get, Breach.get, hx, hy]
    exact .failed _ _ _
  · rw [Breach.get, Breach.get, hx, hy]
    refine .ok (Both.map ((both_emitReloc (hi _) (hi _) hs hef.stub).mono ?_ fun _ _ => id))
    rintro _ _ t₁ t₂ ⟨-, h⟩
    exact ⟨rfl, h⟩

@[simp] lemma jccExit (k : Cond) {x y : Nat} (hxy : ExitPair c x y) :
    Similar c ls Eq (jccExit k x) (jccExit k y) :=
  toExit (fun _ => rfl) hxy

lemma bindNewExit {kind : ExitKind} {f g : Nat → Lower α} {R : α → α → Prop}
    (hf : ∀ x y, ExitPair c x y → Similar c ls R (f x) (g y)) :
    Similar c ls R (Lowering.newExit kind >>= f) (Lowering.newExit kind >>= g) :=
  (newExit kind).bind hf

lemma bindGuard {kind : ExitKind} {k : Cond} {f g : Nat → Lower α} {R : α → α → Prop}
    (hf : ∀ x y, ExitPair c x y → Similar c ls R (f x) (g y)) :
    Similar c ls R (guard kind k >>= f) (guard kind k >>= g) := by
  refine bind (R := ExitPair c) (bindNewExit fun x y h => bindEq (jccExit k h) fun _ => pure h) hf

@[simp] lemma guard' (kind : ExitKind) (k : Cond) : Similar c ls Eq (guard' kind k) (guard' kind k) :=
  discard (bindNewExit fun _ _ h => bindEq (jccExit k h) fun _ => pure h)

@[simp] lemma guardUndo (kind : ExitKind) (k : Cond) (u : Undo) :
    Similar c ls Eq (guardUndo kind k u) (guardUndo kind k u) :=
  bindNewExit fun _ _ h => bindEq
    (modifyExit h (fun _ => rfl) (fun _ => rfl) fun _ _ _ => rfl) fun _ => jccExit k h

@[simp] lemma terminate {R : α → α → Prop} (kind : ExitKind) :
    Similar c ls R (terminate kind) (terminate kind) := by
  have hterm : (Lowering.terminate kind : Lower α) = Lowering.newExit kind >>= fun x =>
      (MonadState.get >>= fun s : State => Lowering.assume (Breach.get s.exits x) >>= fun e =>
        Functor.discard (Lowering.emitReloc (.jmp 0) (.label e.stub))) >>= fun _ =>
          MonadExcept.throw .terminated := by
    simp only [bind_assoc]
    rfl
  rw [hterm]
  exact bindNewExit fun _ _ h => bindEq (toExit (i := .jmp 0) (fun _ => rfl) h) fun _ => throw _

@[simp] lemma guardWatchpoint (kind : ExitKind) :
    Similar c ls Eq (guardWatchpoint kind) (guardWatchpoint kind) := by
  refine bindNewExit fun x y h => bindEq
    (modifyExit h (fun _ => rfl) (fun _ => rfl) fun _ _ _ => rfl) fun _ => ?_
  intro w s₁ s₂ hs _
  refine .ok ⟨rfl, w, .refl w, hs.of_alike ?_ ⟨rfl, rfl⟩ ⟨rfl, rfl⟩⟩
  have hcode := hs.toAlike.addCode (s₁.asm.adds_emit (.watchpoint (UInt32.ofNat x)))
    (s₂.asm.adds_emit (.watchpoint (UInt32.ofNat y))) (s₁.asm.labels_emit _) (s₂.asm.labels_emit _)
    (.watchpoint h)
  exact { hcode with
    puts := { hcode.puts with
      watchpoints := hcode.puts.watchpoints.push ⟨hs.puts.offset, h⟩ } }

@[simp] lemma makeForward {x y : Nat} (hxy : ExitPair c x y) (r : Recovery) :
    Similar c ls Eq (makeForward x r) (makeForward y r) := by
  refine bindGraph (bindGet fun w s₁ s₂ hs _ => bindCurrentNode fun d _ => ?_)
  rw [hs.block₁, hs.block₂, hs.position]
  simp only [c.block_eq, c.findForwardStore_eq, c.forwardResume_eq]
  rcases d.forwardTarget with _ | t
  case' none => refine bindEq (assume _) fun store => ?_
  case' some => refine bindEq (assume _) fun _ => bindEq (pureEq _) fun store => ?_
  all_goals
    rcases store with _ | store
    · exact pureEq _
    · refine bindEq (assume _) fun resume => ?_
      rcases resume with _ | ⟨origin, operand⟩
      · exact pureEq _
      · exact modifyExit hxy (fun _ => rfl) (fun _ => rfl) fun _ _ _ => rfl

/-! ### Calls and jumps -/

@[simp] lemma setupArguments (args : List Argument) :
    Similar c ls Eq (setupArguments args) (setupArguments args) := by
  refine bindEq (check _) fun m => bindEq (forIn fun x _ => ?_) fun _ =>
    bindEq (forIn fun x _ => ?_) fun _ => bindEq (forIn fun x _ => ?_) fun _ => pureEq _
  · exact bindEq (emit' _) fun _ => pureEq _
  · exact bindEq (emit' _) fun _ => pureEq _
  · exact bindEq (discard_movImm _ _) fun _ => pureEq _

@[simp] lemma emitCall (f : Helper) : Similar c ls Eq (emitCall f) (emitCall f) :=
  discard (emitReloc_call _)

@[simp] lemma exceptionCheck : Similar c ls Eq exceptionCheck exceptionCheck := by
  refine bindRead ?_
  rw [c.context]
  refine bindEq (discard_movImm _ _) fun _ => bindEq (load64 _ _) fun _ =>
    bindEq (test64 _ _) fun _ => bindRead (jcc _ Twins.known_exception)

@[simp] lemma callHelper (f : Helper) (args : List Argument) :
    Similar c ls Eq (callHelper f args) (callHelper f args) :=
  bindEq flushRegisters fun _ => bindEq (setupArguments _) fun _ => bindEq (emitCall _) fun _ =>
    ite exceptionCheck (pureEq _)

@[simp] lemma callResultGpr : Similar c ls Eq callResultGpr callResultGpr :=
  bindEq (allocGprPreferring _) fun _ => bindEq (mov _ _) fun _ => pureEq _

@[simp] lemma callResultFpr : Similar c ls Eq callResultFpr callResultFpr :=
  bindEq (allocFprPreferring _) fun _ => bindEq (dmov _ _) fun _ => pureEq _

@[simp] lemma addSlowPath {l m l' m' : Label} (h : (l, l') ∈ ls) (h' : (m, m') ∈ ls)
    (exclude : List Gpr) (work : SlowWork) :
    Similar c ls Eq (addSlowPath l m exclude work) (addSlowPath l' m' exclude work) := by
  intro w s₁ s₂ hs hls
  refine .ok ⟨rfl, w, .refl w, hs.of_alike ?_ ⟨rfl, rfl⟩ ⟨rfl, rfl⟩⟩
  refine { hs.toAlike with puts := { hs.puts with slowPaths := hs.puts.slowPaths.push ?_ } }
  refine ⟨?_, .code (hls h), .code (hls h'), stream hs.toAlike⟩
  rw [hs.gprs.bound, hs.fprs.bound, hs.current, hs.ledger]

@[simp] lemma jumpToBlock {b : BlockId} (h : c.Target b) :
    Similar c ls Eq (jumpToBlock b) (jumpToBlock b) := by
  refine bindGet fun w s₁ s₂ hs _ => ?_
  rw [hs.block₁, hs.block₂]
  exact ite (pureEq _) (bindBlockLabel h fun _ _ hl => jmp (.inr hl))

@[simp] lemma branch (k : Cond) {t f : BlockId} (ht : c.Target t) (hf : c.Target f) :
    Similar c ls Eq (branch k t f) (branch k t f) := by
  refine bindGet fun w s₁ s₂ hs _ => ?_
  rw [hs.block₁, hs.block₂]
  exact ite (bindBlockLabel hf fun _ _ hl => jcc _ (.inr hl))
    (bindBlockLabel ht fun _ _ hl => bindEq (jcc _ (.inr hl)) fun _ => jumpToBlock hf)

end Similar
end Lowering
end Speculation
