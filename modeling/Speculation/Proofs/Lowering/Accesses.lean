import Speculation.Proofs.Lowering.Arith

/-!
The lowering of locals, calls, switches, comparisons, branches and heap accesses keeps ledger, banks
and log in agreement.
-/

namespace Speculation
namespace Lowering

variable {α β : Type} {env : Env} {g : Graph} {s s' s'' : State} {cur n : NodeId}
  {before pending kids : List NodeId} {T : State → Prop} {l : Location} {r : Gpr} {f : Fpr}
  {a b e : Edge} {format : DataFormat} {x : Lower Unit}

/-! ### Locals, calls and switches -/

/-- An event that tells of no value. -/
lemma leads_operandEvent {ev : Event} (h : Coherent env.graph cur before [] s)
    (hr : ev ≠ .reset) (hn : ∀ R m, (Replay.step R ev).node? m = R.node? m) :
    Leads env s (event ev)
      (fun _ s' => Coherent env.graph cur before [] s' ∧ s'.locks = s.locks) T
      (Fault env.graph) := by
  refine ⟨h.change ⟨rfl, rfl, rfl, rfl, rfl, rfl, rfl⟩ rfl hr h.gprs h.fprs h.guarded h.agrees ?_, rfl⟩
  intro m d hd hc
  rw [hn]
  exact h.now.mirrors m d hd hc

@[simp] lemma Calm.storeBoxed {op : GprOperand} {raw : DataFormat} {tag : Operand} {a : Address} :
    Calm (storeBoxed op raw tag a) :=
  ite (bind (mov _ _) fun _ => bind (alu64 _ _ _) fun _ => store64 _ _) (store64 _ _)

section Locals

variable (h : Coherent env.graph cur before [] s) (hu : Unborn env.graph cur before)
include h

include hu in
lemma lowers_getLocal {v : VarId} : Lowers env cur before s (lowerGetLocal v) := by
  refine (Calm.variableOf _).then h (Same.refl s) fun x s₁ h₁ _ => ?_
  dsimp only
  split
  · refine (leads_allocFpr h₁).then fun f s₂ ⟨h₂, hs₂⟩ => ?_
    exact (Calm.emit' _).then h₂ (Same.refl s₂) fun _ s₃ h₃ hs₃ =>
      lowers_fprResult h₃ hu hs₂.taken hs₃.onward
  · refine (leads_allocGpr h₁).then fun r s₂ ⟨h₂, hs₂⟩ => ?_
    exact (Calm.load64 _ _).then h₂ (Same.refl s₂) fun _ s₃ h₃ hs₃ =>
      lowers_gprResult h₃ hu hs₂.taken hs₃.onward

lemma lowers_setLocal {v : VarId} : Lowers env cur before s (lowerSetLocal v) := by
  have hstored : ∀ {α : Type} {k : Lower α} {o : Slot} {format : DataFormat} (s₁ : State), Calm k →
      Coherent env.graph cur before [] s₁ →
      Lowers env cur before s₁ (k >>= fun _ => event (.setLocal o format)) :=
    fun s₁ hk h₁ => hk.then h₁ (Same.refl s₁) fun _ s₂ h₂ _ =>
      (leads_operandEvent h₂ (by simp) fun _ _ => rfl).weaken fun _ _ h₃ => h₃.1.lowered
  refine (Calm.variableOf _).then h (Same.refl s) fun x s₁ h₁ _ => ?_
  refine (leads_child h₁).then ?_
  rintro c _ ⟨rfl, hc⟩
  dsimp only
  split
  · exact (leads_fillValue h₁).then fun _ s₂ ⟨h₂, _⟩ => hstored s₂ (Calm.store64 _ _) h₂
  · exact (leads_fillInt h₁).then fun _ s₂ ⟨h₂, _⟩ => hstored s₂ Calm.storeBoxed h₂
  · exact (leads_fillDouble h₁).then fun _ s₂ ⟨h₂, _⟩ => hstored s₂ (Calm.emit' _) h₂
  · exact (leads_fillBoolean h₁).then fun _ s₂ ⟨h₂, _⟩ => hstored s₂ Calm.storeBoxed h₂
  · exact (leads_fillCell h₁).then fun _ s₂ ⟨h₂, _⟩ => hstored s₂ (Calm.store64 _ _) h₂

lemma leads_storeOutgoing {layout : FrameLayout} {xs : List (Edge × Nat)} :
    Leads env s (storeOutgoing layout xs) (fun _ s' => Coherent env.graph cur before [] s')
      (Coherent env.graph cur before []) (Fault env.graph) := by
  induction xs generalizing s with
  | nil => exact h
  | cons p xs ih =>
    obtain ⟨e, i⟩ := p
    refine (leads_fillValue h).then fun j s₁ ⟨h₁, _⟩ => ?_
    refine (Calm.store64 _ _).then h₁ (Same.refl s₁) fun _ s₂ h₂ _ => ?_
    exact (leads_unlockGpr h₂).then fun _ s₃ ⟨h₃, _⟩ => ih h₃

include hu in
lemma lowers_call : Lowers env cur before s lowerCall := by
  refine Calm.currentNode.then h (Same.refl s) fun d s₁ h₁ _ => ?_
  refine Calm.read.then h₁ (Same.refl s₁) fun env' s₂ h₂ _ => ?_
  refine (leads_storeOutgoing h₂).then fun _ s₃ h₃ => ?_
  refine (leads_flushRegisters h₃).then fun _ s₄ h₄ => ?_
  have hs := Same.refl s₄
  iterate 6 with_reducible refine CalmIf.then (by simp) ‹_› ‹_› fun _ _ _ _ => ?_
  refine CalmIf.then (Calm.modify (fun _ => ⟨rfl, rfl, rfl, rfl, rfl, rfl, rfl, rfl, rfl, rfl⟩)
    fun _ => ⟨rfl, rfl, rfl⟩) ‹_› ‹_› fun _ s₅ h₅ hs₅ => ?_
  exact Calm.exceptionCheck.then h₅ hs₅ fun _ s₆ h₆ _ => lowers_callResult h₆ hu

lemma lowers_switch {data : SwitchData} : Lowers env cur before s (lowerSwitch data) := by
  refine CalmIf.then (Calm.modify (fun _ => ⟨rfl, rfl, rfl, rfl, rfl, rfl, rfl, rfl, rfl, rfl⟩)
    fun _ => ⟨rfl, rfl, rfl⟩) h (Same.refl s) fun _ s₁ h₁ _ => ?_
  refine (leads_child h₁).then ?_
  rintro e s₁ ⟨rfl, he⟩
  have hgeneric : ∀ helper : Helper, Lowers env cur before s₁ (do
      let j ← fillValue e
      callHelper helper [.imm (UInt64.ofNat data.table), .gpr j.reg]
      emit' (.jmpReg .result)) := fun helper =>
    (leads_fillValue h₁).then fun j s₂ ⟨h₂, _⟩ => (leads_callHelper h₂).then fun _ s₃ h₃ =>
      lowers_calm (Calm.emit' _) h₃
  dsimp only
  split
  · exact hgeneric _
  · refine leads_ite.mpr ⟨fun _ => ?_, fun _ => hgeneric _⟩
    refine Calm.read.then h₁ (Same.refl s₁) fun env' s₂ h₂ _ => ?_
    split
    · exact ⟨nofun, h₂.sighted⟩
    · refine leads_ite.mpr ⟨fun _ => ⟨nofun, h₂.sighted⟩, fun _ => ?_⟩
      refine leads_ite.mpr ⟨fun _ => ⟨nofun, h₂.sighted⟩, fun _ => ?_⟩
      refine (leads_fillInt h₂).then fun v s₃ ⟨h₃, _⟩ => lowers_calm ?_ h₃
      repeat' with_reducible refine Calm.bind ?_ fun _ => ?_
      all_goals simp

lemma lowers_return : Lowers env cur before s lowerReturn := by
  refine Calm.currentNode.then h (Same.refl s) fun d s₁ h₁ _ => ?_
  split
  · refine (leads_fillValue h₁).then fun j s₂ ⟨h₂, _⟩ => ?_
    exact lowers_calm (Calm.bind (Calm.mov _ _) fun _ => Calm.emit' _) h₂
  · exact lowers_calm (Calm.bind (Calm.discard (Calm.movImm _ _)) fun _ => Calm.emit' _) h₁

lemma lowers_throw : Lowers env cur before s lowerThrow := by
  refine (leads_child h).then ?_
  rintro a _ ⟨rfl, ha⟩
  refine (leads_fillValue h).then fun j s₁ ⟨h₁, _⟩ => ?_
  refine (leads_callHelper h₁).then fun _ s₂ h₂ => ?_
  exact lowers_calm (Calm.bind Calm.read fun _ => Calm.jmp _) h₂

end Locals

/-! ### Comparisons and branches -/

namespace Calm

lemma fusableBranch : Calm fusableBranch := by
  unfold Lowering.fusableBranch
  refine bind graph fun g => bind get fun s => bind currentNode fun d => ite (pure _) ?_
  refine bind (assume _) fun blk => ?_
  split
  · exact pure _
  · refine bind (node _) fun d' => ?_
    split
    · exact bind (assume _) fun _ => ite (pure _) (pure _)
    · exact pure _

lemma masqueradeGuard {cells : List Gpr} : Calm (masqueradeGuard cells) := by
  unfold Lowering.masqueradeGuard
  refine bind read fun _ => ite (guardWatchpoint (by decide)) ?_
  refine bind (forIn fun c _ => ?_) fun _ => pure _
  exact bind (load64 _ _) fun _ => bind (load _ _ _) fun _ => bind (test32 _ _) fun _ =>
    bind (guard' (by decide) _) fun _ => pure _

lemma guardOther {v : Gpr} : Calm (guardOther v) :=
  bind (mov _ _) fun _ => bind (alu64 _ _ _) fun _ => bind (cmp64 _ _) fun _ =>
    guard' (by decide) _

lemma compareZero {f : Fpr} : Calm (compareZero f) :=
  bind (discard (movImm _ _)) fun _ => bind (emit' _) fun _ => emit' _

end Calm

def CompareTarget.Kept (s : State) : CompareTarget → Prop
  | .branch _ _ => True
  | .value r => s.Taken (.gpr r)

lemma CompareTarget.Kept.onward {t : CompareTarget} (h : t.Kept s) (ho : Onward s s') :
    t.Kept s' := by
  cases t with
  | branch => trivial
  | value r => exact ho.taken h

section Compare

variable (h : Coherent env.graph cur before [] s) (hu : Unborn env.graph cur before)
include h hu

lemma lowers_finishCompare {c : Cond} {t : CompareTarget} (ht : t.Kept s) :
    Lowers env cur before s (finishCompare c t) := by
  cases t with
  | branch => exact lowers_calm (Calm.branch _ _ _) h
  | value r =>
    refine (Calm.emit' _).then h (Same.refl s) fun _ s₁ h₁ hs₁ => ?_
    exact (Calm.alu64 _ _ _).then h₁ hs₁ fun _ s₂ h₂ hs₂ => lowers_gprResult h₂ hu ht hs₂.onward

lemma lowers_objectOrOtherEq {t : CompareTarget} (ht : t.Kept s) :
    Lowers env cur before s (objectOrOtherEq a b t) := by
  refine (leads_fillObject h).then fun o s₁ ⟨h₁, hs₁⟩ => ?_
  refine (leads_fillValue h₁).then fun v s₂ ⟨h₂, hs₂⟩ => ?_
  replace ht := ht.onward (hs₁.onward.trans hs₂.onward)
  have hs := Same.refl s₂
  have hm : Calm (masqueradeGuard [o.reg, v.reg]) := Calm.masqueradeGuard
  have hg : Calm (guardOther v.reg) := Calm.guardOther
  iterate 5 with_reducible refine CalmIf.then (by simp) ‹_› ‹_› fun _ _ _ _ => ?_
  refine hm.then ‹_› ‹_› fun _ s₃ h₃ hs₃ => ?_
  refine (Calm.cmp64 _ _).then h₃ hs₃ fun _ s₄ h₄ hs₄ => ?_
  cases t with
  | branch =>
    refine lowers_calm ?_ h₄
    iterate 5 with_reducible refine Calm.bind (by simp) fun _ => ?_
    exact Calm.bind hg fun _ => Calm.jumpToBlock _
  | value r =>
    iterate 3 with_reducible refine CalmIf.then (by simp) ‹_› ‹_› fun _ _ _ _ => ?_
    refine hg.then ‹_› ‹_› fun _ s₅ h₅ hs₅ => ?_
    iterate 3 with_reducible refine CalmIf.then (by simp) ‹_› ‹_› fun _ _ _ _ => ?_
    exact lowers_gprResult ‹_› hu ht (Same.onward ‹_›)

lemma lowers_genericCompare {op : Comparison} {fused : Option (BlockId × BlockId)} :
    Lowers env cur before s (genericCompare op a b fused) := by
  refine (leads_fillValue h).then fun ja s₁ ⟨h₁, _⟩ => ?_
  refine (leads_fillValue h₁).then fun jb s₂ ⟨h₂, _⟩ => ?_
  refine (leads_callHelper h₂).then fun _ s₃ h₃ => ?_
  refine (leads_unlockGpr h₃).then fun _ s₄ ⟨h₄, _⟩ => ?_
  refine (leads_unlockGpr h₄).then fun _ s₅ ⟨h₅, _⟩ => ?_
  split
  · exact lowers_calm (Calm.bind (Calm.test32 _ _) fun _ => Calm.branch _ _ _) h₅
  · refine (leads_callResultGpr h₅).then fun r s₆ ⟨h₆, ht⟩ => ?_
    exact (Calm.alu64 _ _ _).then h₆ (Same.refl s₆) fun _ s₇ h₇ hs₇ =>
      lowers_gprResult h₇ hu ht hs₇.onward

lemma lowers_compareInto {op : Comparison} {t : CompareTarget} (ht : t.Kept s) :
    Lowers env cur before s (compareInto op a b t) := by
  refine leads_ite.mpr ⟨fun _ => ?_, fun _ => leads_ite.mpr ⟨fun _ => ?_, fun _ =>
    leads_ite.mpr ⟨fun _ => ?_, fun _ => leads_ite.mpr ⟨fun _ => ?_, fun _ => ?_⟩⟩⟩⟩
  · refine (leads_fillInt h).then fun op1 s₁ ⟨h₁, hs₁⟩ => ?_
    refine (leads_intRhs h₁).then fun rhs s₂ ⟨h₂, hs₂⟩ => ?_
    refine (Calm.cmp32 _ _).then h₂ (Same.refl s₂) fun _ s₃ h₃ hs₃ => ?_
    exact lowers_finishCompare h₃ hu (ht.onward (hs₁.onward.trans (hs₂.trans hs₃.onward)))
  · refine (leads_fillDouble h).then fun fa s₁ ⟨h₁, hs₁⟩ => ?_
    refine (leads_fillDouble h₁).then fun fb s₂ ⟨h₂, hs₂⟩ => ?_
    refine (Calm.emit' _).then h₂ (Same.refl s₂) fun _ s₃ h₃ hs₃ => ?_
    exact lowers_finishCompare h₃ hu (ht.onward (hs₁.onward.trans (hs₂.onward.trans hs₃.onward)))
  · refine (leads_fillObject h).then fun oa s₁ ⟨h₁, hs₁⟩ => ?_
    refine (leads_fillObject h₁).then fun ob s₂ ⟨h₂, hs₂⟩ => ?_
    refine Calm.masqueradeGuard.then h₂ (Same.refl s₂) fun _ s₃ h₃ hs₃ => ?_
    refine (Calm.cmp64 _ _).then h₃ hs₃ fun _ s₄ h₄ hs₄ => ?_
    exact lowers_finishCompare h₄ hu (ht.onward (hs₁.onward.trans (hs₂.onward.trans hs₄.onward)))
  · exact lowers_objectOrOtherEq h hu ht
  · exact lowers_objectOrOtherEq h hu ht

lemma lowers_compare {op : Comparison} : Lowers env cur before s (lowerCompare op) := by
  refine lowers_binary h fun a b ha hb => ?_
  refine Calm.fusableBranch.then h (Same.refl s) fun fused s₁ h₁ _ => ?_
  refine leads_ite.mpr ⟨fun _ => ?_, fun _ => ?_⟩
  case' refine_1 =>
    refine CalmIf.then (Calm.modify (fun _ => ⟨rfl, rfl, rfl, rfl, rfl, rfl, rfl, rfl, rfl, rfl⟩)
      fun _ => ⟨rfl, rfl, rfl⟩) h₁ (Same.refl s₁) fun _ s₂ h₂ _ => ?_
  case' refine_2 => have h₂ := h₁
  all_goals
    refine leads_ite.mpr ⟨fun _ => lowers_genericCompare h₂ hu, fun _ => ?_⟩
    split
    · exact lowers_compareInto h₂ hu trivial
    · exact (leads_allocGpr h₂).then fun r s₃ hr => lowers_compareInto hr.1 hu hr.2.taken

lemma lowers_not : Lowers env cur before s lowerNot := by
  refine (leads_child h).then ?_
  rintro a s ⟨rfl, ha⟩
  -- whatever is compared, the register of the outcome was chosen before
  have hint : Lowers env cur before s (do
      let r ← allocGpr
      let op ← fillInt a
      test32 op.reg (.reg op.reg)
      emit' (.setCond .e r)
      alu64 .or r falseImm
      gprResult r .jsBoolean) := by
    refine (leads_allocGpr h).then fun r s₁ ⟨h₁, hs₁⟩ => ?_
    refine (leads_fillInt h₁).then fun op s₂ ⟨h₂, hs₂⟩ => ?_
    have hs := Same.refl s₂
    repeat' with_reducible refine CalmIf.then (by simp) ‹_› ‹_› fun _ _ _ _ => ?_
    exact lowers_gprResult ‹_› hu hs₁.taken (hs₂.onward.trans (Same.onward ‹_›))
  split
  · refine (leads_allocGpr h).then fun r s₁ ⟨h₁, hs₁⟩ => ?_
    refine (leads_fillBoolean h₁).then fun op s₂ ⟨h₂, hs₂⟩ => ?_
    have hs := Same.refl s₂
    repeat' first
      | with_reducible refine CalmIf.then (by simp) ‹_› ‹_› fun _ _ _ _ => ?_
      | refine leads_ite.mpr ⟨fun _ => ?_, fun _ => ?_⟩
    all_goals exact lowers_gprResult ‹_› hu hs₁.taken (hs₂.onward.trans (Same.onward ‹_›))
  · exact hint
  · exact hint
  · refine (leads_allocGpr h).then fun r s₁ ⟨h₁, hs₁⟩ => ?_
    refine (leads_fillDouble h₁).then fun f s₂ ⟨h₂, hs₂⟩ => ?_
    refine Calm.compareZero.then h₂ (Same.refl s₂) fun _ s₃ h₃ hs₃ => ?_
    repeat' with_reducible refine CalmIf.then (by simp) ‹_› ‹_› fun _ _ _ _ => ?_
    exact lowers_gprResult ‹_› hu hs₁.taken (hs₂.onward.trans (Same.onward ‹_›))
  · refine (leads_fillValue h).then fun j s₁ ⟨h₁, _⟩ => ?_
    refine (leads_callHelper h₁).then fun _ s₂ h₂ => ?_
    refine (leads_unlockGpr h₂).then fun _ s₃ ⟨h₃, _⟩ => ?_
    refine (leads_callResultGpr h₃).then fun r s₄ ⟨h₄, ht⟩ => ?_
    have hs := Same.refl s₄
    repeat' with_reducible refine CalmIf.then (by simp) ‹_› ‹_› fun _ _ _ _ => ?_
    exact lowers_gprResult ‹_› hu ht (Same.onward ‹_›)

omit hu in
lemma lowers_branch {taken notTaken : BlockId} :
    Lowers env cur before s (lowerBranch taken notTaken) := by
  refine (leads_child h).then ?_
  rintro a s ⟨rfl, ha⟩
  have hint : Lowers env cur before s (do
      let op ← fillInt a
      test32 op.reg (.reg op.reg)
      branch .ne taken notTaken) :=
    (leads_fillInt h).then fun op s₁ ⟨h₁, _⟩ =>
      lowers_calm (Calm.bind (Calm.test32 _ _) fun _ => Calm.branch _ _ _) h₁
  split
  · exact (leads_fillBoolean h).then fun op s₁ ⟨h₁, _⟩ =>
      lowers_calm (Calm.bind (Calm.test32 _ _) fun _ => Calm.branch _ _ _) h₁
  · exact hint
  · exact hint
  · refine (leads_fillDouble h).then fun f s₁ ⟨h₁, _⟩ => lowers_calm ?_ h₁
    refine Calm.bind Calm.compareZero fun _ => Calm.bind (Calm.blockLabel _) fun _ => ?_
    exact Calm.bind (Calm.jcc _ _) fun _ => Calm.bind (Calm.jcc _ _) fun _ => Calm.jumpToBlock _
  · refine (leads_fillValue h).then fun j s₁ ⟨h₁, _⟩ => ?_
    refine (leads_callHelper h₁).then fun _ s₂ h₂ => ?_
    refine (leads_unlockGpr h₂).then fun _ s₃ ⟨h₃, _⟩ => ?_
    exact lowers_calm (Calm.bind (Calm.test32 _ _) fun _ => Calm.branch _ _ _) h₃

end Compare

/-! ### Heap accesses -/

namespace Calm

lemma compareShape {c : Gpr} {shape : UInt8} : Calm (compareShape c shape) :=
  bind (load64 _ _) fun _ => bind (load _ _ _) fun _ => bind (alu32 _ _ _) fun _ => cmp32 _ _

lemma testFlags {c : Gpr} {flags : UInt8} : Calm (testFlags c flags) :=
  bind (load64 _ _) fun _ => bind (load _ _ _) fun _ => test32 _ _

lemma guardStructures {t : Gpr} {ok : Label} {set : List UInt64} :
    Calm (guardStructures t ok set) := by
  fun_induction Lowering.guardStructures t ok set with
  | case1 => exact pure _
  | case2 s =>
    exact bind (discard (movImm _ _)) fun _ => bind (cmp64 _ _) fun _ => guard' (by decide) _
  | case3 s rest hne ih =>
    exact bind (discard (movImm _ _)) fun _ => bind (cmp64 _ _) fun _ => bind (jcc _ _) fun _ => ih

lemma guardBounds {mode : ArrayMode} {b st i : Gpr} : Calm (guardBounds mode b st i) := by
  unfold Lowering.guardBounds
  exact ite (bind (load _ _ _) fun _ => bind (cmp32 _ _) fun _ => guard' (by decide) _)
    (bind (load _ _ _) fun _ => bind (cmp32 _ _) fun _ => guard' (by decide) _)

lemma cacheCheck {b t : Gpr} {slow : Label} : Calm (cacheCheck b t slow) :=
  bind (load64 _ _) fun _ => bind (movImm _ _) fun _ => bind (cmp64 _ _) fun _ =>
    bind (jcc _ _) fun _ => pure _

lemma addCache {kind : CacheKind} {ident imm access : Nat} {base expected value : Gpr}
    (hc : ∀ origin, CacheSite.Apart
      { kind, ident, structureImm := imm, access, origin, base, expected, value }) :
    Calm (addCache kind ident imm access base expected value) := by
  refine bind currentNode fun n env s h _ => ⟨⟨rfl, rfl, rfl, rfl, rfl, rfl, rfl, rfl, rfl, rfl⟩, h.size,
    h.exits, h.paths, h.guards, fun hd => ?_⟩
  rcases Array.mem_push.mp hd with hd | rfl
  · exact h.caches hd
  · exact hc _

end Calm

section Heap

variable (h : Coherent env.graph cur before [] s) (hu : Unborn env.graph cur before)
include h

lemma lowers_checkStructure {set : List UInt64} :
    Lowers env cur before s (lowerCheckStructure set) := by
  refine (leads_child h).then ?_
  rintro base s ⟨rfl, -⟩
  refine leads_bind.mpr (leads_get.mpr ?_)
  refine leads_ite.mpr ⟨fun _ => h.lowered, fun _ => ?_⟩
  have hcheck : Lowers env cur before s (do
      let c ← fillCell base
      let t ← allocGpr
      let ok ← newLabel
      load64 .scratch (structureOf c.reg)
      guardStructures t ok set
      attach ok) := by
    refine (leads_fillCell h).then fun c s₁ ⟨h₁, _⟩ => ?_
    refine (leads_allocGpr h₁).then fun t s₂ ⟨h₂, _⟩ => lowers_calm ?_ h₂
    exact Calm.bind Calm.newLabel fun _ => Calm.bind (Calm.load64 _ _) fun _ =>
      Calm.bind Calm.guardStructures fun _ => Calm.attach _
  refine leads_ite.mpr ⟨fun _ => ?_, fun _ => hcheck⟩
  exact (leads_terminate (Q := fun _ _ => False) h (by decide)).then fun _ _ => False.elim

lemma lowers_checkArray {mode : ArrayMode} :
    Lowers env cur before s (lowerCheckArray mode) := by
  refine (leads_child h).then ?_
  rintro base s ⟨rfl, -⟩
  refine leads_bind.mpr (leads_get.mpr (leads_bind.mpr (leads_assume.mpr
    ⟨fun _ _ => ?_, fun b _ => ⟨noDisagreement_breach b, h.sighted⟩⟩)))
  refine leads_ite.mpr ⟨fun _ => h.lowered, fun _ => ?_⟩
  refine leads_mayBe_then h fun _ => ?_
  refine leads_unless_terminate h (by decide) fun _ => ?_
  refine (leads_fillCell h).then fun c s₁ ⟨h₁, _⟩ => lowers_calm ?_ h₁
  split
  · exact Calm.bind Calm.compareShape fun _ => Calm.guard' (by decide) _
  · exact Calm.bind (Calm.provenIs _ _) fun _ =>
      Calm.ite (Calm.pure _) (Calm.guardCellType (by decide))
  · exact Calm.pure _

lemma lowers_arrayify {mode : ArrayMode} : Lowers env cur before s (lowerArrayify mode) := by
  unfold lowerArrayify
  dsimp only
  split
  · exact ⟨nofun, h.sighted⟩
  · rename_i shape helper htarget
    have hw : ∀ q ∈ Gpr.allocatable, (SlowWork.convert helper q shape).Formed [] := by
      intro q hq
      split at htarget <;> cases htarget
      · exact .ensureContiguous hq _
      · exact .ensureDouble hq _
    refine (leads_child h).then ?_
    rintro base s ⟨rfl, -⟩
    refine (leads_fillCell h).then fun c s₁ ⟨h₁, hc⟩ => ?_
    refine Calm.newLabel.then h₁ (Same.refl s₁) fun slow s₂ h₂ hs₂ => ?_
    refine Calm.newLabel.then h₂ hs₂ fun done s₃ h₃ hs₃ => ?_
    refine Calm.compareShape.then h₃ hs₃ fun _ s₄ h₄ hs₄ => ?_
    refine (Calm.jcc _ _).then h₄ hs₄ fun _ s₅ h₅ hs₅ => ?_
    refine (Calm.attach _).then h₅ hs₅ fun _ s₆ h₆ _ => ?_
    exact (leads_addSlowPath h₆ (by simp) (hw _ hc.mem)).weaken fun _ _ ⟨h₇, _⟩ => h₇.lowered

lemma leads_stringAccess :
    Leads env s stringAccess (fun _ s' => Coherent env.graph cur before [] s')
      (Coherent env.graph cur before []) (Fault env.graph) := by
  refine (leads_child h).then ?_
  rintro a s ⟨rfl, -⟩
  refine (leads_fillString h).then fun c s₁ ⟨h₁, _⟩ => ?_
  refine (leads_child h₁).then ?_
  rintro b s₁ ⟨rfl, -⟩
  refine (leads_fillStrictInt h₁).then fun i s₂ ⟨h₂, _⟩ => ?_
  refine (leads_child h₂).then ?_
  rintro e s₂ ⟨rfl, -⟩
  refine (leads_fillStorage h₂).then fun st s₃ ⟨h₃, _⟩ => ?_
  have hs := Same.refl s₃
  iterate 3 with_reducible refine CalmIf.then (by simp) ‹_› ‹_› fun _ _ _ _ => ?_
  exact (leads_unlockGpr ‹_›).then fun _ s₄ ⟨h₄, _⟩ => h₄

lemma lowers_putByVal {mode : ArrayMode} : Lowers env cur before s (lowerPutByVal mode) := by
  refine leads_ite.mpr ⟨fun _ => ?_, fun _ => ?_⟩
  · exact (leads_terminate (Q := fun _ _ => False) h (by decide)).then fun _ _ => False.elim
  refine (leads_child h).then ?_
  rintro a s ⟨rfl, -⟩
  refine (leads_fillCell h).then fun c s₁ ⟨h₁, _⟩ => ?_
  refine (leads_child h₁).then ?_
  rintro b s₁ ⟨rfl, -⟩
  refine (leads_fillStrictInt h₁).then fun i s₂ ⟨h₂, _⟩ => ?_
  refine (leads_child h₂).then ?_
  rintro e s₂ ⟨rfl, -⟩
  refine (leads_fillStorage h₂).then fun st s₃ ⟨h₃, _⟩ => ?_
  refine (leads_child h₃).then ?_
  rintro v s₃ ⟨rfl, -⟩
  cases mode with
  | contiguous =>
    refine (leads_fillValue h₃).then fun j s₄ ⟨h₄, _⟩ => lowers_calm ?_ h₄
    exact Calm.bind Calm.guardBounds fun _ => Calm.store64 _ _
  | double =>
    refine (leads_fillDouble h₃).then fun f s₄ ⟨h₄, _⟩ => lowers_calm ?_ h₄
    exact Calm.ite
      (Calm.bind (Calm.emit' _) fun _ => Calm.bind (Calm.guard' (by decide) _) fun _ =>
        Calm.bind Calm.guardBounds fun _ => Calm.emit' _)
      (Calm.bind Calm.guardBounds fun _ => Calm.emit' _)
  | float64Array =>
    refine (leads_fillDouble h₃).then fun f s₄ ⟨h₄, _⟩ => lowers_calm ?_ h₄
    exact Calm.ite
      (Calm.bind (Calm.emit' _) fun _ => Calm.bind (Calm.guard' (by decide) _) fun _ =>
        Calm.bind Calm.guardBounds fun _ => Calm.emit' _)
      (Calm.bind Calm.guardBounds fun _ => Calm.emit' _)
  | int32Array =>
    refine (leads_fillInt h₃).then fun x s₄ ⟨h₄, _⟩ => lowers_calm ?_ h₄
    exact Calm.bind Calm.guardBounds fun _ => Calm.emit' _
  | string => exact ⟨nofun, h₃.sighted⟩

lemma lowers_putById {ident : Nat} : Lowers env cur before s (lowerPutById ident) := by
  refine lowers_binary h fun base value _ _ => ?_
  dsimp only
  refine leads_ite.mpr ⟨fun _ => ?_, fun _ => ?_⟩
  · refine (leads_fillCell h).then fun b s₁ ⟨h₁, hb⟩ => ?_
    refine (leads_fillValue h₁).then fun v s₂ ⟨h₂, hv⟩ => ?_
    refine (leads_allocGpr h₂).then fun t s₃ ⟨h₃, ht⟩ => ?_
    have hcache : ∀ origin imm access, CacheSite.Apart
        { kind := .putById, ident, structureImm := imm, access, origin, base := b.reg,
          expected := t, value := v.reg } := fun _ _ _ =>
      { base := hb.mem
        expected := ht.mem
        value := hv.mem
        ne := (hb.of_onward hv.onward).ne_of_handed ht
        stored := fun _ => hv.ne_of_handed ht }
    refine Calm.newLabel.then h₃ (Same.refl s₃) fun slow s₄ h₄ hs₄ => ?_
    refine Calm.newLabel.then h₄ hs₄ fun done s₅ h₅ hs₅ => ?_
    refine Calm.cacheCheck.then h₅ hs₅ fun imm s₆ h₆ hs₆ => ?_
    refine (Calm.emit _).then h₆ hs₆ fun access s₇ h₇ hs₇ => ?_
    refine (Calm.attach _).then h₇ hs₇ fun _ s₈ h₈ hs₈ => ?_
    refine (Calm.addCache fun _ => hcache _ _ _).then h₈ hs₈ fun _ s₉ h₉ _ => ?_
    exact (leads_addSlowPath h₉ (by simp) (.putById _ _ _)).weaken fun _ _ ⟨h', _⟩ => h'.lowered
  · refine (leads_fillValue h).then fun jb s₁ ⟨h₁, _⟩ => ?_
    refine (leads_fillValue h₁).then fun jv s₂ ⟨h₂, _⟩ => ?_
    exact (leads_callHelper h₂).weaken fun _ _ h₃ => h₃.lowered

lemma lowers_checkHasInstance : Lowers env cur before s lowerCheckHasInstance := by
  refine (leads_child h).then ?_
  rintro a s ⟨rfl, -⟩
  refine (leads_fillCell h).then fun c s₁ ⟨h₁, _⟩ => ?_
  exact lowers_calm (Calm.bind Calm.testFlags fun _ => Calm.guard' (by decide) _) h₁

include hu

lemma lowers_getStorage : Lowers env cur before s lowerGetStorage := by
  refine (leads_child h).then ?_
  rintro a s ⟨rfl, -⟩
  refine (leads_fillCell h).then fun c s₁ ⟨h₁, _⟩ => ?_
  refine (leads_allocGpr h₁).then fun r s₂ ⟨h₂, hs₂⟩ => ?_
  exact (Calm.load64 _ _).then h₂ (Same.refl s₂) fun _ s₃ h₃ hs₃ =>
    lowers_gprResult h₃ hu hs₂.taken hs₃.onward

lemma lowers_getArrayLength {mode : ArrayMode} :
    Lowers env cur before s (lowerGetArrayLength mode) := by
  refine (leads_allocGpr h).then fun r s₁ ⟨h₁, hs₁⟩ => ?_
  refine leads_ite.mpr ⟨fun _ => ?_, fun _ => ?_⟩
  · refine (leads_child h₁).then ?_
    rintro a s₁ ⟨rfl, -⟩
    refine (leads_fillStorage h₁).then fun st s₂ ⟨h₂, hs₂⟩ => ?_
    exact (Calm.load _ _ _).then h₂ (Same.refl s₂) fun _ s₃ h₃ hs₃ =>
      lowers_gprResult h₃ hu hs₁.taken (hs₂.onward.trans hs₃.onward)
  · refine (leads_child h₁).then ?_
    rintro a s₁ ⟨rfl, -⟩
    refine (leads_fillCell h₁).then fun c s₂ ⟨h₂, hs₂⟩ => ?_
    exact (Calm.load _ _ _).then h₂ (Same.refl s₂) fun _ s₃ h₃ hs₃ =>
      lowers_gprResult h₃ hu hs₁.taken (hs₂.onward.trans hs₃.onward)

lemma lowers_charCodeAt : Lowers env cur before s lowerCharCodeAt := by
  refine (leads_stringAccess h).then ?_
  rintro ⟨i, st⟩ s₁ h₁
  refine (leads_allocGpr h₁).then fun r s₂ ⟨h₂, hs₂⟩ => ?_
  exact (Calm.load _ _ _).then h₂ (Same.refl s₂) fun _ s₃ h₃ hs₃ =>
    lowers_gprResult h₃ hu hs₂.taken hs₃.onward

lemma lowers_charAt : Lowers env cur before s lowerCharAt := by
  refine (leads_stringAccess h).then ?_
  rintro ⟨i, st⟩ s₁ h₁
  refine (leads_allocGpr h₁).then fun r s₂ ⟨h₂, hs₂⟩ => ?_
  have hs := Same.refl s₂
  iterate 10 with_reducible refine CalmIf.then (by simp) ‹_› ‹_› fun _ _ _ _ => ?_
  exact lowers_slow ‹_› hu ((Same.taken ‹_›).mpr hs₂.taken) (.singleCharacterString _ _)

lemma lowers_getByVal {mode : ArrayMode} : Lowers env cur before s (lowerGetByVal mode) := by
  refine leads_ite.mpr ⟨fun _ => lowers_charAt h hu, fun _ => ?_⟩
  refine (leads_child h).then ?_
  rintro a s ⟨rfl, -⟩
  refine (leads_fillCell h).then fun c s₁ ⟨h₁, _⟩ => ?_
  refine (leads_child h₁).then ?_
  rintro b s₁ ⟨rfl, -⟩
  refine (leads_fillStrictInt h₁).then fun i s₂ ⟨h₂, _⟩ => ?_
  refine (leads_child h₂).then ?_
  rintro e s₂ ⟨rfl, -⟩
  refine (leads_fillStorage h₂).then fun st s₃ ⟨h₃, _⟩ => ?_
  refine Calm.guardBounds.then h₃ (Same.refl s₃) fun _ s₄ h₄ _ => ?_
  split
  · refine (leads_allocGpr h₄).then fun r s₅ ⟨h₅, hs₅⟩ => ?_
    have hs := Same.refl s₅
    iterate 3 with_reducible refine CalmIf.then (by simp) ‹_› ‹_› fun _ _ _ _ => ?_
    exact lowers_gprResult ‹_› hu hs₅.taken (Same.onward ‹_›)
  · refine (leads_allocFpr h₄).then fun f s₅ ⟨h₅, hs₅⟩ => ?_
    have hs := Same.refl s₅
    iterate 3 with_reducible refine CalmIf.then (by simp) ‹_› ‹_› fun _ _ _ _ => ?_
    exact lowers_fprResult ‹_› hu hs₅.taken (Same.onward ‹_›)
  · refine (leads_allocGpr h₄).then fun r s₅ ⟨h₅, hs₅⟩ => ?_
    exact (Calm.load _ _ _).then h₅ (Same.refl s₅) fun _ s₆ h₆ hs₆ =>
      lowers_gprResult h₆ hu hs₅.taken hs₆.onward
  · refine (leads_allocFpr h₄).then fun f s₅ ⟨h₅, hs₅⟩ => ?_
    exact (Calm.emit' _).then h₅ (Same.refl s₅) fun _ s₆ h₆ hs₆ =>
      lowers_fprResult h₆ hu hs₅.taken hs₆.onward
  · exact ⟨nofun, h₄.sighted⟩

lemma lowers_getById {ident : Nat} : Lowers env cur before s (lowerGetById ident) := by
  refine (leads_child h).then ?_
  rintro base s ⟨rfl, -⟩
  dsimp only
  refine leads_ite.mpr ⟨fun _ => ?_, fun _ => ?_⟩
  · refine (leads_fillCell h).then fun b s₁ ⟨h₁, hb⟩ => ?_
    refine (leads_allocGpr h₁).then fun r s₂ ⟨h₂, hs₂⟩ => ?_
    have hcache : ∀ origin imm access, CacheSite.Apart
        { kind := .getById, ident, structureImm := imm, access, origin, base := b.reg,
          expected := r, value := r } := fun _ _ _ =>
      { base := hb.mem, expected := hs₂.mem, value := hs₂.mem, ne := hb.ne_of_handed hs₂
        stored := nofun }
    refine Calm.newLabel.then h₂ (Same.refl s₂) fun slow s₃ h₃ hs₃ => ?_
    refine Calm.newLabel.then h₃ hs₃ fun done s₄ h₄ hs₄ => ?_
    refine Calm.cacheCheck.then h₄ hs₄ fun imm s₅ h₅ hs₅ => ?_
    refine (Calm.emit _).then h₅ hs₅ fun access s₆ h₆ hs₆ => ?_
    refine (Calm.attach _).then h₆ hs₆ fun _ s₇ h₇ hs₇ => ?_
    refine (Calm.addCache fun _ => hcache _ _ _).then h₇ hs₇ fun _ s₈ h₈ hs₈ => ?_
    exact lowers_slow h₈ hu (hs₈.taken.mpr hs₂.taken) (.getById _ _ _)
  · refine (leads_fillValue h).then fun j s₁ ⟨h₁, _⟩ => ?_
    exact (leads_callHelper h₁).then fun _ s₂ h₂ => lowers_valueResult h₂ hu

lemma lowers_walkPrototypes {cell proto : Gpr} {isTrue isFalse done : Label}
    (ht : s.Taken (.gpr r)) :
    Lowers env cur before s (walkPrototypes r cell proto isTrue isFalse done) := by
  have hs := Same.refl s
  unfold walkPrototypes
  repeat' with_reducible refine CalmIf.then (by simp) ‹_› ‹_› fun _ _ _ _ => ?_
  exact lowers_gprResult ‹_› hu ht (Same.onward ‹_›)

lemma lowers_instanceOf : Lowers env cur before s lowerInstanceOf := by
  refine lowers_binary h fun v p _ _ => ?_
  refine (leads_fillCell h).then fun proto s₁ ⟨h₁, _⟩ => ?_
  refine (leads_allocGpr h₁).then fun r s₂ ⟨h₂, hs₂⟩ => ?_
  have hs := Same.refl s₂
  iterate 4 with_reducible refine CalmIf.then (by simp) ‹_› ‹_› fun _ _ _ _ => ?_
  refine leads_ite.mpr ⟨fun _ => ?_, fun _ => ?_⟩
  · refine (leads_fillCell ‹_›).then fun c s₃ ⟨h₃, hs₃⟩ => ?_
    exact lowers_walkPrototypes h₃ hu (hs₃.onward.taken ((Same.taken ‹_›).mpr hs₂.taken))
  · refine (leads_fillValue ‹_›).then fun j s₃ ⟨h₃, hs₃⟩ => ?_
    refine (Calm.test64 _ _).then h₃ (Same.refl s₃) fun _ s₄ h₄ hs₄ => ?_
    refine (Calm.jcc _ _).then h₄ hs₄ fun _ s₅ h₅ hs₅ => ?_
    exact lowers_walkPrototypes h₅ hu
      (hs₅.taken.mpr (hs₃.onward.taken ((Same.taken ‹_›).mpr hs₂.taken)))

end Heap

/-! ### Every operation -/

lemma lowers_node {op : Op} (h : Coherent env.graph cur before [] s)
    (hu : Unborn env.graph cur before) : Lowers env cur before s (lowerNode op) := by
  cases op with
  | constant | doubleConstant | movHint | flush | phantom | phi => exact h.lowered
  | getLocal v => exact lowers_getLocal h hu
  | setLocal v => exact lowers_setLocal h
  | arithAdd => exact lowers_add h hu
  | valueAdd => exact lowers_add h hu
  | arithSub => exact lowers_sub h hu
  | arithMul => exact lowers_mul h hu
  | arithNegate => exact lowers_negate h hu
  | arithDiv => exact lowers_div h hu
  | arithMod => exact lowers_mod h hu
  | arithAbs => exact lowers_abs h hu
  | arithMin => exact lowers_minMax h hu
  | arithMax => exact lowers_minMax h hu
  | arithSqrt => exact lowers_sqrt h hu
  | bit op => exact lowers_bit h hu
  | valueToInt32 => exact lowers_valueToInt32 h hu
  | uint32ToNumber => exact lowers_uint32ToNumber h hu
  | int32ToDouble => exact lowers_int32ToDouble h hu
  | doubleAsInt32 => exact lowers_doubleAsInt32 h hu
  | compare op => exact lowers_compare h hu
  | logicalNot => exact lowers_not h hu
  | checkStructure set => exact lowers_checkStructure h
  | checkArray mode => exact lowers_checkArray h
  | arrayify mode => exact lowers_arrayify h
  | getStorage mode => exact lowers_getStorage h hu
  | getByVal mode => exact lowers_getByVal h hu
  | putByVal mode => exact lowers_putByVal h
  | getArrayLength mode => exact lowers_getArrayLength h hu
  | stringCharCodeAt => exact lowers_charCodeAt h hu
  | stringCharAt => exact lowers_charAt h hu
  | getById ident => exact lowers_getById h hu
  | putById ident => exact lowers_putById h
  | checkHasInstance => exact lowers_checkHasInstance h
  | instanceOf => exact lowers_instanceOf h hu
  | call => exact lowers_call h hu
  | jump b => exact lowers_calm (Calm.jumpToBlock b) h
  | branch t f => exact lowers_branch h
  | switch data => exact lowers_switch h
  | ret => exact lowers_return h
  | throw => exact lowers_throw h
  | forceExit => exact leads_terminate h (by decide)

end Lowering
end Speculation
