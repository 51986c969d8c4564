import Speculation.Proofs.Lowering.Results

/-!
The lowering of arithmetic and of conversions keeps ledger, banks and log in agreement.

The proofs follow the code: fills and allocations are gone through one by one, calm stretches at
once. What has to be kept in mind along the way is only which register the result goes to.
-/

namespace Speculation
namespace Lowering

variable {α β : Type} {env : Env} {g : Graph} {s s' s'' : State} {cur n : NodeId}
  {before pending kids : List NodeId} {T : State → Prop} {l : Location} {r : Gpr} {f : Fpr}
  {a b e : Edge} {format : DataFormat} {x : Lower Unit}

abbrev Lowers (env : Env) (cur : NodeId) (before : List NodeId) (s : State) (x : Lower Unit) :
    Prop :=
  Leads env s x (fun _ s' => Lowered env.graph cur before (childrenOf env.graph cur) s')
    (Coherent env.graph cur before []) (Fault env.graph)

lemma lowers_calm (hx : Calm x) (h : Coherent env.graph cur before [] s) :
    Lowers env cur before s x :=
  (hx.keeps h).weaken fun _ _ ⟨h', _⟩ => h'.lowered

lemma lowers_binary {k : Edge → Edge → Lower Unit} (h : Coherent env.graph cur before [] s)
    (hk : ∀ a b : Edge, a.node ∈ childrenOf env.graph cur → b.node ∈ childrenOf env.graph cur →
      Lowers env cur before s (k a b)) :
    Lowers env cur before s (child 0 >>= fun a => child 1 >>= fun b => k a b) := by
  refine (leads_child h).then ?_
  rintro a _ ⟨rfl, ha⟩
  refine (leads_child h).then ?_
  rintro b _ ⟨rfl, hb⟩
  exact hk a b ha hb

section Results

variable (h : Coherent env.graph cur before [] s') (hu : Unborn env.graph cur before)
include h hu

lemma lowers_gprResult (ht : s.Taken (.gpr r)) (ho : Onward s s') :
    Lowers env cur before s' (gprResult r format) :=
  leads_gprResult h hu (h.usable (ho.taken ht))

lemma lowers_fprResult (ht : s.Taken (.fpr f)) (ho : Onward s s') :
    Lowers env cur before s' (fprResult f) :=
  leads_fprResult h hu (h.usable (ho.taken ht))

end Results

section Arith

variable (h : Coherent env.graph cur before [] s) (hu : Unborn env.graph cur before)
include h hu

/-! ### Arithmetic -/

lemma lowers_doubleBinary {op : DoubleOp} (ha : a.node ∈ childrenOf env.graph cur) :
    Lowers env cur before s (doubleBinary op a b) := by
  refine (leads_fillDouble h).then fun fa s₁ ⟨h₁, hfa⟩ => ?_
  refine (leads_fillDouble h₁).then fun fb s₂ ⟨h₂, hfb⟩ => ?_
  refine (leads_canReuse h₂ ha (hfa.of_onward hfb.onward)).then ?_
  rintro reuse _ ⟨rfl, hreuse⟩
  have hfinish : ∀ r s₃, Coherent env.graph cur before [] s₃ →
      Usable s₃ (childrenOf env.graph cur) (.fpr r) →
      Lowers env cur before s₃ (emit' (.dalu op r fb) >>= fun _ => fprResult r) :=
    fun r s₃ h₃ hr => (Calm.emit' _).then h₃ (Same.refl s₃) fun _ s₄ h₄ hs₄ =>
      leads_fprResult h₄ hu (hr.of_same hs₄)
  simp only [pure_bind]
  refine leads_ite.mpr ⟨fun hc => ?_, fun _ => ?_⟩
  · rw [Bool.and_eq_true] at hc
    refine (leads_lockFpr h₂).then fun _ s₃ ⟨h₃, hs₃⟩ => ?_
    refine hfinish fa s₃ h₃ ⟨Nat.lt_of_le_of_lt (Nat.zero_le _) hs₃.more, fun hz hl => ?_⟩
    rw [hs₃.ledger] at hz
    exact (hreuse hc.1).dying hz hl
  · refine (leads_allocFpr h₂).then fun r s₃ ⟨h₃, hs₃⟩ => ?_
    refine (Calm.dmov _ _).then h₃ (Same.refl s₃) fun _ s₄ h₄ hs₄ => ?_
    exact hfinish r s₄ h₄ (h₄.usable (hs₄.taken.mpr hs₃.taken))

lemma lowers_doubleUnary {op : DoubleUnary} : Lowers env cur before s (doubleUnary op a) := by
  refine (leads_fillDouble h).then fun f s₁ ⟨h₁, _⟩ => ?_
  refine (leads_allocFpr h₁).then fun r s₂ ⟨h₂, hs₂⟩ => ?_
  refine (Calm.emit' _).then h₂ (Same.refl s₂) fun _ s₃ h₃ hs₃ => ?_
  exact lowers_fprResult h₃ hu hs₂.taken hs₃.onward

lemma lowers_callResult : Lowers env cur before s (do gprResult (← callResultGpr) format) :=
  (leads_callResultGpr h).then fun _ s₁ ⟨h₁, ht⟩ =>
    lowers_gprResult h₁ hu ht (Onward.refl s₁)

lemma lowers_valueResult {operands : List Gpr} : Lowers env cur before s (valueResult operands) := by
  refine Leads.then (leads_forIn (fun _ s' => Coherent env.graph cur before [] s') h ?_)
    fun _ s₁ h₁ => lowers_callResult h₁ hu
  intro r rest s₁ h₁
  exact (leads_unlockGpr h₁).then fun _ s₂ ⟨h₂, _⟩ => ⟨rfl, h₂⟩

lemma lowers_genericBinary {op : Option GenericArith} :
    Lowers env cur before s (genericBinary op a b) := by
  refine (leads_fillValue h).then fun ja s₁ ⟨h₁, _⟩ => ?_
  refine (leads_fillValue h₁).then fun jb s₂ ⟨h₂, _⟩ => ?_
  cases op
  all_goals exact (leads_callHelper h₂).then fun _ s₃ h₃ => lowers_valueResult h₃ hu

lemma lowers_addInt {d : Node} (ha : a.node ∈ childrenOf env.graph cur)
    (hb : b.node ∈ childrenOf env.graph cur) : Lowers env cur before s (addInt d a b) := by
  have hcalm : Calm (onlyLeftConstant a b) := by
    unfold onlyLeftConstant
    refine Calm.bind Calm.graph fun g => Calm.bind (Calm.assume _) fun c => ?_
    split
    · exact Calm.bind (Calm.assume _) fun _ => Calm.pure _
    · exact Calm.pure _
  refine hcalm.then h (Same.refl s) fun swap s₁ h₀ _ => ?_
  cases swap
  all_goals
    refine (leads_fillInt h₀).then fun op1 s₁ h₁ => ?_
    refine (leads_intRhs h₁.1).then fun src s₂ h₂ => ?_
    refine (leads_intResultFrom h₂.1 (by assumption) (h₁.2.of_onward h₂.2)).then ?_
    rintro ⟨r, reused⟩ s₃ ⟨h₃, hr⟩
    refine (Calm.alu32 _ _ _).then h₃ (Same.refl s₃) fun _ s₄ h₄ hs₄ => ?_
    refine leads_ite.mpr ⟨fun _ => leads_gprResult h₄ hu (hr.of_same hs₄), fun _ => ?_⟩
    refine leads_ite.mpr ⟨fun _ => ?_, fun _ => ?_⟩
    · exact (Calm.guardUndo (by decide) _ _).then h₄ hs₄ fun _ s₅ h₅ hs₅ =>
        leads_gprResult h₅ hu (hr.of_same hs₅)
    · exact (Calm.guard' (by decide) _).then h₄ hs₄ fun _ s₅ h₅ hs₅ =>
        leads_gprResult h₅ hu (hr.of_same hs₅)

lemma lowers_arith {op : DoubleOp} {op' : Option GenericArith} {k : Node → Edge → Edge → Lower Unit}
    (hk : ∀ s d a b, Coherent env.graph cur before [] s → a.node ∈ childrenOf env.graph cur →
      b.node ∈ childrenOf env.graph cur → Lowers env cur before s (k d a b)) :
    Lowers env cur before s (do
      let n ← currentNode
      let a ← child 0
      let b ← child 1
      match arithMode a b with
      | .int32 => k n a b
      | .number => doubleBinary op a b
      | .generic => genericBinary op' a b) := by
  refine Calm.currentNode.then h (Same.refl s) fun d s₁ h₁ _ => ?_
  refine lowers_binary h₁ fun a b ha hb => ?_
  split
  · exact hk s₁ d a b h₁ ha hb
  · exact lowers_doubleBinary h₁ hu ha
  · exact lowers_genericBinary h₁ hu

lemma lowers_add : Lowers env cur before s lowerAdd :=
  lowers_arith h hu fun _ _ _ _ h ha hb => lowers_addInt h hu ha hb

lemma lowers_subInt {d : Node} (ha : a.node ∈ childrenOf env.graph cur) :
    Lowers env cur before s (subInt d a b) := by
  refine (leads_fillInt h).then fun op1 s₁ ⟨h₁, hop⟩ => ?_
  refine (leads_intRhs h₁).then fun src s₂ ⟨h₂, hs₂⟩ => ?_
  have hfinish : ∀ r s₃, Coherent env.graph cur before [] s₃ →
      Usable s₃ (childrenOf env.graph cur) (.gpr r) → Lowers env cur before s₃ (do
        alu32 .sub r src
        unless d.flags.canTruncate do guard' .overflow .o
        gprResult r .int32) := by
    intro r s₃ h₃ hr
    refine (Calm.alu32 _ _ _).then h₃ (Same.refl s₃) fun _ s₄ h₄ hs₄ => ?_
    refine leads_ite.mpr ⟨fun _ => leads_gprResult h₄ hu (hr.of_same hs₄), fun _ => ?_⟩
    exact (Calm.guard' (by decide) _).then h₄ hs₄ fun _ s₅ h₅ hs₅ =>
      leads_gprResult h₅ hu (hr.of_same hs₅)
  refine leads_ite.mpr ⟨fun _ => ?_, fun _ => ?_⟩
  · exact (leads_intResultFrom h₂ ha (hop.of_onward hs₂)).then fun x s₃ ⟨h₃, hr⟩ =>
      hfinish x.1 s₃ h₃ hr
  · refine (leads_allocGpr h₂).then fun r s₃ ⟨h₃, hs₃⟩ => ?_
    refine (Calm.mov _ _).then h₃ (Same.refl s₃) fun _ s₄ h₄ hs₄ => ?_
    exact hfinish r s₄ h₄ (h₄.usable (hs₄.taken.mpr hs₃.taken))

lemma lowers_sub : Lowers env cur before s lowerSub :=
  lowers_arith h hu fun _ _ _ _ h ha _ => lowers_subInt h hu ha

lemma lowers_mul : Lowers env cur before s lowerMul := by
  refine lowers_arith h hu fun s d a b h ha hb => ?_
  refine (leads_fillInt h).then fun op1 s₁ ⟨h₁, _⟩ => ?_
  refine (leads_intRhs h₁).then fun src s₂ ⟨h₂, _⟩ => ?_
  refine (leads_allocGpr h₂).then fun r s₃ ⟨h₃, hs₃⟩ => ?_
  have hs := Same.refl s₃
  repeat' first
    | with_reducible refine CalmIf.then (by simp) ‹_› ‹_› fun _ _ _ _ => ?_
    | refine leads_ite.mpr ⟨fun _ => ?_, fun _ => ?_⟩
  all_goals exact lowers_gprResult ‹_› hu hs₃.taken (Same.onward ‹_›)

lemma lowers_negate : Lowers env cur before s lowerNegate := by
  have hint : ∀ s d a, Coherent env.graph cur before [] s → Lowers env cur before s (do
      let op1 ← fillInt a
      let r ← allocGpr
      mov r op1.reg
      emit' (.neg32 r)
      unless Node.flags d |>.canTruncate do guard' .overflow .o
      if guardsNegZero d then
        test32 r (.reg r)
        guard' .negativeZero .e
      gprResult r .int32) := by
    intro s d a h
    refine (leads_fillInt h).then fun op1 s₁ ⟨h₁, _⟩ => ?_
    refine (leads_allocGpr h₁).then fun r s₂ ⟨h₂, hs₂⟩ => ?_
    have hs := Same.refl s₂
    repeat' first
      | with_reducible refine CalmIf.then (by simp) ‹_› ‹_› fun _ _ _ _ => ?_
      | refine leads_ite.mpr ⟨fun _ => ?_, fun _ => ?_⟩
    all_goals exact lowers_gprResult ‹_› hu hs₂.taken (Same.onward ‹_›)
  refine Calm.currentNode.then h (Same.refl s) fun d s₁ h₁ _ => ?_
  refine (leads_child h₁).then ?_
  rintro a _ ⟨rfl, ha⟩
  split
  · exact hint _ d a h₁
  · exact hint _ d a h₁
  · exact lowers_doubleUnary h₁ hu
  · refine (leads_fillValue h₁).then fun j s₂ ⟨h₂, _⟩ => ?_
    exact (leads_callHelper h₂).then fun _ s₃ h₃ => lowers_valueResult h₃ hu

end Arith

/-! Code for division -/

namespace Calm

lemma divisionGuards {x y : Gpr} : Calm (divisionGuards x y) := by
  unfold Lowering.divisionGuards
  repeat' with_reducible refine bind ?_ fun _ => ?_
  all_goals simp

lemma divTruncating {r x y : Gpr} : Calm (divTruncating r x y) := by
  unfold Lowering.divTruncating
  repeat' with_reducible refine bind ?_ fun _ => ?_
  all_goals simp

lemma divExact {negZero : Bool} {r x y : Gpr} : Calm (divExact negZero r x y) := by
  unfold Lowering.divExact
  refine bind divisionGuards fun _ => ?_
  refine ite ?_ ?_
  all_goals
    repeat' with_reducible refine bind ?_ fun _ => ?_
    all_goals simp

lemma modTruncating {r x y : Gpr} : Calm (modTruncating r x y) := by
  unfold Lowering.modTruncating
  repeat' with_reducible refine bind ?_ fun _ => ?_
  all_goals simp

lemma modExact {negZero : Bool} {r x y : Gpr} : Calm (modExact negZero r x y) := by
  unfold Lowering.modExact
  refine bind divisionGuards fun _ => bind (mov _ _) fun _ => bind (emit' _) fun _ => ?_
  refine ite ?_ (pure _)
  repeat' with_reducible refine bind ?_ fun _ => ?_
  all_goals simp

end Calm

section Arith

variable (h : Coherent env.graph cur before [] s) (hu : Unborn env.graph cur before)
include h hu

/-- An integer quotient or remainder. -/
lemma lowers_quotient {k : Gpr → Gpr → Gpr → Lower Unit} {k' : Gpr → Gpr → Gpr → Lower Unit}
    {c : Prop} [Decidable c] (hk : ∀ r x y, Calm (k r x y)) (hk' : ∀ r x y, Calm (k' r x y)) :
    Lowers env cur before s (do
      let x ← fillInt a
      let y ← fillInt b
      let r ← allocGpr
      if c then k r x.reg y.reg else k' r x.reg y.reg
      gprResult r .int32) := by
  refine (leads_fillInt h).then fun x s₁ ⟨h₁, _⟩ => ?_
  refine (leads_fillInt h₁).then fun y s₂ ⟨h₂, _⟩ => ?_
  refine (leads_allocGpr h₂).then fun r s₃ ⟨h₃, hs₃⟩ => ?_
  refine leads_ite.mpr ⟨fun _ => ?_, fun _ => ?_⟩
  · exact (hk _ _ _).then h₃ (Same.refl s₃) fun _ s₄ h₄ hs₄ =>
      lowers_gprResult h₄ hu hs₃.taken hs₄.onward
  · exact (hk' _ _ _).then h₃ (Same.refl s₃) fun _ s₄ h₄ hs₄ =>
      lowers_gprResult h₄ hu hs₃.taken hs₄.onward

lemma lowers_div : Lowers env cur before s lowerDiv :=
  lowers_arith h hu fun _ _ _ _ h _ _ =>
    lowers_quotient h hu (fun _ _ _ => Calm.divTruncating) fun _ _ _ => Calm.divExact

lemma lowers_mod : Lowers env cur before s lowerMod := by
  refine Calm.currentNode.then h (Same.refl s) fun d s₁ h₁ _ => ?_
  refine lowers_binary h₁ fun a b ha hb => ?_
  split
  · exact lowers_quotient h₁ hu (fun _ _ _ => Calm.modTruncating) fun _ _ _ => Calm.modExact
  · refine (leads_fillDouble h₁).then fun fa s₂ ⟨h₂, _⟩ => ?_
    refine (leads_fillDouble h₂).then fun fb s₃ ⟨h₃, _⟩ => ?_
    refine (leads_callHelper h₃).then fun _ s₄ h₄ => ?_
    refine (leads_unlockFpr h₄).then fun _ s₅ ⟨h₅, _⟩ => ?_
    refine (leads_unlockFpr h₅).then fun _ s₆ ⟨h₆, _⟩ => ?_
    refine (leads_callResultFpr h₆).then fun f s₇ ⟨h₇, ht⟩ => ?_
    exact lowers_fprResult h₇ hu ht (Onward.refl s₇)
  · exact lowers_genericBinary h₁ hu

lemma lowers_abs : Lowers env cur before s lowerAbs := by
  refine Calm.currentNode.then h (Same.refl s) fun d s₁ h₁ _ => ?_
  refine (leads_child h₁).then ?_
  rintro a _ ⟨rfl, ha⟩
  refine leads_ite.mpr ⟨fun _ => ?_, fun _ => lowers_doubleUnary h₁ hu⟩
  refine (leads_fillInt h₁).then fun op1 s₂ ⟨h₂, _⟩ => ?_
  refine (leads_allocGpr h₂).then fun r s₃ ⟨h₃, hs₃⟩ => ?_
  have hs := Same.refl s₃
  repeat' first
    | with_reducible refine CalmIf.then (by simp) ‹_› ‹_› fun _ _ _ _ => ?_
    | refine leads_ite.mpr ⟨fun _ => ?_, fun _ => ?_⟩
  all_goals exact lowers_gprResult ‹_› hu hs₃.taken (Same.onward ‹_›)

lemma lowers_minMax {isMin : Bool} : Lowers env cur before s (lowerMinMax isMin) := by
  refine lowers_binary h fun a b ha hb => ?_
  refine leads_ite.mpr ⟨fun _ => ?_, fun _ => lowers_doubleBinary h hu ha⟩
  refine (leads_fillInt h).then fun op1 s₁ ⟨h₁, _⟩ => ?_
  refine (leads_fillInt h₁).then fun op2 s₂ ⟨h₂, _⟩ => ?_
  refine (leads_allocGpr h₂).then fun r s₃ ⟨h₃, hs₃⟩ => ?_
  have hs := Same.refl s₃
  repeat' with_reducible refine CalmIf.then (by simp) ‹_› ‹_› fun _ _ _ _ => ?_
  exact lowers_gprResult ‹_› hu hs₃.taken (Same.onward ‹_›)

lemma lowers_sqrt : Lowers env cur before s lowerSqrt := by
  refine (leads_child h).then ?_
  rintro a _ ⟨rfl, ha⟩
  exact lowers_doubleUnary h hu

lemma lowers_bit {op : BitOp} : Lowers env cur before s (lowerBit op) := by
  refine lowers_binary h fun a b ha hb => ?_
  refine (leads_fillInt h).then ?_
  rintro op1 s₁ ⟨h₁, hop⟩
  refine leads_bind.mpr (leads_graph.mpr (leads_bind.mpr (leads_assume.mpr
    ⟨fun c _ => ?_, fun b _ => ⟨noDisagreement_breach b, h₁.sighted⟩⟩)))
  split
  case' h_1 =>
    have h₂ : Coherent env.graph cur before [] s₁ ∧ Onward s₁ s₁ := ⟨h₁, .refl s₁⟩
  case' h_2 => refine (leads_intRhs h₁).then fun src s₂ h₂ => ?_
  all_goals
    refine (leads_intResultFrom h₂.1 ha (hop.of_onward h₂.2)).then ?_
    rintro ⟨r, reused⟩ s₃ ⟨h₃, hr⟩
    exact (Calm.alu32 _ _ _).then h₃ (Same.refl s₃) fun _ s₄ h₄ hs₄ =>
      leads_gprResult h₄ hu (hr.of_same hs₄)

/-! ### Conversions -/

lemma lowers_slow {entry done : Label} {work : SlowWork}
    (ht : s.Taken (.gpr r)) (hw : work.Formed [r]) :
    Lowers env cur before s (addSlowPath entry done [r] work >>= fun _ => gprResult r format) :=
  (leads_addSlowPath h (List.forall_mem_singleton.mpr ht) hw).then fun _ s₁ ⟨h₁, ho, hl⟩ =>
    lowers_gprResult h₁ hu ht ⟨fun _ => by rw [hl], fun _ => by rw [ho]⟩

/-- An integer is copied with a clear high half. -/
lemma lowers_zext {op : GprOperand} : Lowers env cur before s (do
    let r ← allocGpr
    emit' (.zext32 r op.reg)
    gprResult r .int32) := by
  refine (leads_allocGpr h).then fun r s₁ ⟨h₁, hs₁⟩ => ?_
  exact (Calm.emit' _).then h₁ (Same.refl s₁) fun _ s₂ h₂ hs₂ =>
    lowers_gprResult h₂ hu hs₁.taken hs₂.onward

lemma lowers_valueToInt32 : Lowers env cur before s lowerValueToInt32 := by
  refine (leads_child h).then ?_
  rintro a _ ⟨rfl, ha⟩
  split
  · exact (leads_fillInt h).then fun op s₁ ⟨h₁, _⟩ => lowers_zext h₁ hu
  · exact (leads_fillInt h).then fun op s₁ ⟨h₁, _⟩ => lowers_zext h₁ hu
  · refine (leads_fillDouble h).then fun f s₁ ⟨h₁, _⟩ => ?_
    refine (leads_allocGpr h₁).then fun r s₂ ⟨h₂, hs₂⟩ => ?_
    have hs := Same.refl s₂
    iterate 6 with_reducible refine CalmIf.then (by simp) ‹_› ‹_› fun _ _ _ _ => ?_
    exact lowers_slow ‹_› hu ((Same.taken ‹_›).mpr hs₂.taken) (.toInt32 f r)
  · refine (leads_fillValue h).then fun j s₁ ⟨h₁, _⟩ => ?_
    refine (leads_allocGpr h₁).then fun r s₂ ⟨h₂, hs₂⟩ => ?_
    have hs := Same.refl s₂
    iterate 6 with_reducible refine CalmIf.then (by simp) ‹_› ‹_› fun _ _ _ _ => ?_
    exact lowers_slow ‹_› hu ((Same.taken ‹_›).mpr hs₂.taken) (.toInt32Generic j.reg r)

lemma lowers_uint32ToNumber : Lowers env cur before s lowerUInt32ToNumber := by
  refine Calm.currentNode.then h (Same.refl s) fun d s₁ h₁ _ => ?_
  refine (leads_child h₁).then ?_
  rintro a _ ⟨rfl, ha⟩
  refine (leads_fillInt h₁).then fun op s₂ ⟨h₂, _⟩ => ?_
  refine leads_ite.mpr ⟨fun _ => lowers_zext h₂ hu, fun _ => ?_⟩
  refine leads_ite.mpr ⟨fun _ => ?_, fun _ => ?_⟩
  · refine (leads_allocGpr h₂).then fun r s₃ ⟨h₃, hs₃⟩ => ?_
    have hs := Same.refl s₃
    repeat' with_reducible refine CalmIf.then (by simp) ‹_› ‹_› fun _ _ _ _ => ?_
    exact lowers_gprResult ‹_› hu hs₃.taken (Same.onward ‹_›)
  · refine (leads_allocFpr h₂).then fun f s₃ ⟨h₃, hs₃⟩ => ?_
    have hs := Same.refl s₃
    repeat' with_reducible refine CalmIf.then (by simp) ‹_› ‹_› fun _ _ _ _ => ?_
    exact lowers_fprResult ‹_› hu hs₃.taken (Same.onward ‹_›)

lemma lowers_int32ToDouble : Lowers env cur before s lowerInt32ToDouble := by
  refine (leads_child h).then ?_
  rintro a _ ⟨rfl, ha⟩
  refine (leads_fillDouble h).then fun f s₁ ⟨h₁, _⟩ => ?_
  refine (leads_allocFpr h₁).then fun r s₂ ⟨h₂, hs₂⟩ => ?_
  exact (Calm.dmov _ _).then h₂ (Same.refl s₂) fun _ s₃ h₃ hs₃ =>
    lowers_fprResult h₃ hu hs₂.taken hs₃.onward

lemma lowers_doubleAsInt32 : Lowers env cur before s lowerDoubleAsInt32 := by
  refine Calm.currentNode.then h (Same.refl s) fun d s₁ h₁ _ => ?_
  refine (leads_child h₁).then ?_
  rintro a _ ⟨rfl, ha⟩
  refine (leads_fillDouble h₁).then fun f s₂ ⟨h₂, _⟩ => ?_
  refine (leads_allocGpr h₂).then fun r s₃ ⟨h₃, hs₃⟩ => ?_
  have hs := Same.refl s₃
  repeat' first
    | with_reducible refine CalmIf.then (by simp) ‹_› ‹_› fun _ _ _ _ => ?_
    | refine leads_ite.mpr ⟨fun _ => ?_, fun _ => ?_⟩
  all_goals exact lowers_gprResult ‹_› hu hs₃.taken (Same.onward ‹_›)

end Arith

end Lowering
end Speculation
