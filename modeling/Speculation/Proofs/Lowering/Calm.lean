import Speculation.Proofs.Lowering.Coherence

/-!
Steps that change no value and no register.

Emitting instructions, attaching labels, making exits and looking things up are calm, and so is
whatever is put together from calm steps.
-/

namespace Speculation
namespace Lowering

variable {α β : Type} {env : Env} {g : Graph} {s s' s'' : State} {cur : NodeId}
  {before pending : List NodeId}

namespace Same

lemma refl (s : State) : Same s s := ⟨rfl, rfl, rfl, rfl, rfl, rfl, rfl, rfl, rfl, rfl⟩

lemma trans (h : Same s s') (h' : Same s' s'') : Same s s'' :=
  ⟨h'.ledger.trans h.ledger, h'.gprs.trans h.gprs, h'.fprs.trans h.fprs, h'.guards.trans h.guards,
    h'.events.trans h.events, h'.facts.trans h.facts, h'.slowPaths.trans h.slowPaths, h'.current.trans h.current,
    h'.stream.trans h.stream, h'.exitLedger.trans h.exitLedger⟩

lemma owner (h : Same s s') : s'.owner = s.owner := by
  funext l
  cases l <;> simp [State.owner, h.gprs, h.fprs]

lemma locks (h : Same s s') : s'.locks = s.locks := by
  funext l
  cases l <;> simp [State.locks, h.gprs, h.fprs]

lemma taken (h : Same s s') {l : Location} : s'.Taken l ↔ s.Taken l := by
  rw [State.Taken, State.Taken, h.owner, h.locks]

lemma onward (h : Same s s') : Onward s s' where
  locks l := by rw [h.locks]
  owner _ := by rw [h.owner]

lemma sees (h : Same s s') (hs : Sees g s) : Sees g s' := by
  unfold Sees
  rw [h.events, h.stream, h.exitLedger, h.ledger, h.current]
  exact hs

end Same

namespace Onward

lemma refl (s : State) : Onward s s := ⟨fun _ => Nat.le_refl _, fun _ => rfl⟩

lemma trans (h : Onward s s') (h' : Onward s' s'') : Onward s s'' where
  locks l := Nat.le_trans (h.locks l) (h'.locks l)
  owner hl := by rw [h'.owner (Nat.lt_of_lt_of_le hl (h.locks _)), h.owner hl]

lemma taken (h : Onward s s') {l : Location} (hl : s.Taken l) : s'.Taken l :=
  ⟨Nat.lt_of_lt_of_le hl.1 (h.locks l), by rw [h.owner hl.1, hl.2]⟩

end Onward

namespace Coherent

lemma sees (h : Coherent g cur before pending s) : Sees g s := by
  unfold Sees
  rw [h.stream, h.ledger]
  exact h.now

lemma same (h : Coherent g cur before pending s) (hs : Same s s') (hs' : Sighted g s') :
    Coherent g cur before pending s' where
  formed := h.formed
  current := hs.current.trans h.current
  gprs := hs.gprs ▸ h.gprs
  fprs := hs.fprs ▸ h.fprs
  agrees := by
    rw [hs.ledger, hs.owner]
    exact h.agrees
  guarded := h.guarded.congr (congrFun hs.locks) hs.guards
  sighted := hs'
  now := by
    rw [hs.events, hs.ledger, hs.current]
    exact h.now
  stream := hs.stream.trans h.stream
  ledger := hs.exitLedger.trans h.ledger

end Coherent

lemma Sighted.push {x : Exit} {ledger : Array ValueInfo} (h : Sighted g s)
    (hx : Seen g s.events x.streamIndex ledger x.node (atEntry x)) :
    Sighted g { s with exits := s.exits.push x, views := s.views.push ledger } where
  size := by simp [h.size]
  exits {i y l} hy hl := by
    simp only [Array.getElem?_push, h.size] at hy hl
    split at hl
    · rename_i hi
      rw [if_pos hi] at hy
      cases hy
      cases hl
      exact hx
    · rename_i hi
      rw [if_neg hi] at hy
      exact h.exits hy hl
  paths := h.paths
  guards := h.guards
  caches := h.caches

lemma CalmIf.keeps {x : Lower α} (hx : Calm x) (h : Coherent env.graph cur before pending s) :
    Leads env s x (fun _ s' => Coherent env.graph cur before pending s' ∧ Same s s')
      (Coherent env.graph cur before [])
      (fun f s' => NoDisagreement f ∧ Sighted env.graph s') :=
  (hx env s h.sighted fun _ => h.sees).mono (fun _ _ ⟨hs, hs'⟩ => ⟨h.same hs hs', hs⟩)
    (fun _ => False.elim) fun _ _ => id

namespace Calm

variable {q : Prop}

@[simp] lemma pure (a : α) : CalmIf q (pure a : Lower α) := fun _ s h _ => ⟨Same.refl s, h⟩

@[simp] lemma bind {x : Lower β} {f : β → Lower α} (hx : CalmIf q x) (hf : ∀ b, CalmIf q (f b)) :
    CalmIf q (x >>= f) := by
  intro env s h hs
  rw [leads_bind]
  refine (hx env s h hs).weaken ?_
  rintro b s' ⟨hsame, h'⟩
  exact (hf b env s' h' fun hq => hsame.sees (hs hq)).weaken fun _ _ ⟨hsame', h''⟩ => ⟨hsame.trans hsame', h''⟩

@[simp] lemma map {x : Lower β} {f : β → α} (hx : CalmIf q x) : CalmIf q (f <$> x) := by
  intro env s h hs
  rw [leads_map]
  exact hx env s h hs

@[simp] lemma discard {x : Lower β} (hx : CalmIf q x) : CalmIf q (discard x) := map hx

@[simp] lemma ite {c : Prop} [Decidable c] {x y : Lower α} (hx : CalmIf q x) (hy : CalmIf q y) :
    CalmIf q (if c then x else y) := by
  split
  · exact hx
  · exact hy

lemma forIn {γ : Type} {xs : List β} {b : γ} {f : β → γ → Lower (ForInStep γ)}
    (hf : ∀ x b, CalmIf q (f x b)) : CalmIf q (forIn xs b f) := by
  induction xs generalizing b with
  | nil => exact pure b
  | cons x xs ih =>
    rw [List.forIn_cons]
    refine bind (hf x b) fun r => ?_
    cases r with
    | done b => exact pure b
    | yield b => exact ih

@[simp] lemma get : CalmIf q (get : Lower State) := fun _ s h _ => ⟨Same.refl s, h⟩

@[simp] lemma read : CalmIf q (read : Lower Env) := fun _ s h _ => ⟨Same.refl s, h⟩

@[simp] lemma assume (x : Except Breach α) : CalmIf q (assume x) := by
  intro env s h _
  rw [leads_assume]
  exact ⟨fun _ _ => ⟨Same.refl s, h⟩, fun _ _ => ⟨nofun, h⟩⟩

/-- A change of the state that the log and the values do not see. -/
lemma modifyGet {f : State → α × State} (hf : ∀ s, Same s (f s).2)
    (he : ∀ s, (f s).2.exits = s.exits ∧ (f s).2.views = s.views ∧ (f s).2.caches = s.caches) :
    CalmIf q (modifyGet f : Lower α) := by
  intro env s h _
  rw [leads_modifyGet]
  obtain ⟨hexits, hviews, hcaches⟩ := he s
  refine ⟨hf s, ?_, ?_, ?_, fun hp => h.guards ((hf s).slowPaths ▸ hp),
    fun hc => h.caches (hcaches ▸ hc)⟩
  · rw [hexits, hviews]
    exact h.size
  · rw [hexits, hviews, (hf s).events]
    exact h.exits
  · rw [(hf s).slowPaths, (hf s).events]
    exact h.paths

lemma modify {f : State → State} (hf : ∀ s, Same s (f s))
    (he : ∀ s, (f s).exits = s.exits ∧ (f s).views = s.views ∧ (f s).caches = s.caches) :
    CalmIf q (modify f : Lower PUnit) :=
  modifyGet hf he

/-! ### Looking things up -/

@[simp] lemma check {x : Except CompileError α}
    (hx : ∀ e, x = .error e → NoDisagreement (.compile e)) : CalmIf q (check x) := by
  intro env s h _
  rw [leads_check]
  exact ⟨fun _ _ => ⟨Same.refl s, h⟩, fun e he => ⟨hx e he, h⟩⟩

@[simp] lemma fail {e : CompileError} (he : NoDisagreement (.compile e)) :
    CalmIf q (fail e : Lower α) :=
  fun _ _ h _ => ⟨he, h⟩

@[simp] lemma internal {f : InternalFault} (hf : NoDisagreement (.compile (.internal f))) :
    CalmIf q (internal f : Lower α) :=
  fun _ _ h _ => ⟨hf, h⟩

@[simp] lemma graph : CalmIf q graph := by simp [Lowering.graph]

@[simp] lemma node (n : NodeId) : CalmIf q (node n) := by simp [Lowering.node]

@[simp] lemma currentNode : CalmIf q currentNode := by simp [Lowering.currentNode]

@[simp] lemma child (i : Nat) : CalmIf q (child i) := by simp [Lowering.child]

@[simp] lemma variableOf (v : VarId) : CalmIf q (variableOf v) := by simp [Lowering.variableOf]

@[simp] lemma blockLabel (b : BlockId) : CalmIf q (blockLabel b) := by simp [Lowering.blockLabel]

@[simp] lemma proven (e : Edge) : CalmIf q (proven e) := by simp [Lowering.proven]

@[simp] lemma provenIs (e : Edge) (t : TypeSet) : CalmIf q (provenIs e t) := by
  simp [Lowering.provenIs]

@[simp] lemma mayBe (e : Edge) (t : TypeSet) : CalmIf q (mayBe e t) := by simp [Lowering.mayBe]

@[simp] lemma isLockedGpr (r : Gpr) : CalmIf q (isLockedGpr r) := by simp [Lowering.isLockedGpr]

@[simp] lemma slotOf (n : NodeId) : CalmIf q (slotOf n) := by
  unfold Lowering.slotOf
  refine bind (node n) fun d => ?_
  split
  · exact pure _
  · exact internal nofun

@[simp] lemma ledgerIndex (o : Slot) : CalmIf q (ledgerIndex o) := by
  unfold Lowering.ledgerIndex
  split
  · exact bind get fun _ => ite (pure _) (internal nofun)
  · exact internal nofun

@[simp] lemma infoAt (i : Nat) : CalmIf q (infoAt i) := by simp [Lowering.infoAt]

@[simp] lemma info (n : NodeId) : CalmIf q (info n) := by simp [Lowering.info]

lemma canReuse (e : Edge) : CalmIf q (canReuse e) := by
  unfold Lowering.canReuse
  refine bind (node _) fun d => ?_
  split
  · refine bind get fun s => ?_
    split <;> exact pure _
  · exact pure _

/-! ### Code -/

@[simp] lemma emit (i : Inst) : CalmIf q (emit i) :=
  modifyGet (fun _ => ⟨rfl, rfl, rfl, rfl, rfl, rfl, rfl, rfl, rfl, rfl⟩) fun _ => ⟨rfl, rfl, rfl⟩

@[simp] lemma emit' (i : Inst) : CalmIf q (emit' i) := discard (emit i)

/-- A new assembler, made from the old one. -/
lemma assemble {f : State → Except Breach Assembler} {r : State → α} :
    CalmIf q (do
      let s ← MonadState.get
      let asm ← Lowering.assume (f s)
      MonadStateOf.set { s with asm }
      Pure.pure (r s) : Lower α) := by
  intro env s h _
  simp only [leads_bind, leads_get, leads_assume]
  exact ⟨fun asm _ => ⟨⟨rfl, rfl, rfl, rfl, rfl, rfl, rfl, rfl, rfl, rfl⟩, h.size, h.exits, h.paths,
      h.guards, h.caches⟩,
    fun _ _ => ⟨noDisagreement_breach _, h⟩⟩

@[simp] lemma emitReloc (i : Inst) (t : RelocTarget) : CalmIf q (emitReloc i t) := assemble

@[simp] lemma attach (l : Label) : CalmIf q (attach l) := assemble (r := fun _ => ())

@[simp] lemma newLabel : CalmIf q newLabel :=
  modifyGet (fun _ => ⟨rfl, rfl, rfl, rfl, rfl, rfl, rfl, rfl, rfl, rfl⟩) fun _ => ⟨rfl, rfl, rfl⟩

@[simp] lemma here : CalmIf q here :=
  modifyGet (fun _ => ⟨rfl, rfl, rfl, rfl, rfl, rfl, rfl, rfl, rfl, rfl⟩) fun _ => ⟨rfl, rfl, rfl⟩

@[simp] lemma comment (text : String) : CalmIf q (comment text) :=
  modify (fun _ => ⟨rfl, rfl, rfl, rfl, rfl, rfl, rfl, rfl, rfl, rfl⟩) fun _ => ⟨rfl, rfl, rfl⟩

@[simp] lemma jcc (c : Cond) (l : Label) : CalmIf q (jcc c l) := discard (emitReloc _ _)

@[simp] lemma jmp (l : Label) : CalmIf q (jmp l) := discard (emitReloc _ _)

@[simp] lemma mov (d r : Gpr) : CalmIf q (mov d r) := ite (pure _) (emit' _)

@[simp] lemma dmov (d r : Fpr) : CalmIf q (dmov d r) := ite (pure _) (emit' _)

@[simp] lemma movImm (d : Gpr) (x : UInt64) : CalmIf q (movImm d x) := emit _

@[simp] lemma alu32 (op : AluOp) (d : Gpr) (x : Operand) : CalmIf q (alu32 op d x) := emit' _

@[simp] lemma alu64 (op : AluOp) (d : Gpr) (x : Operand) : CalmIf q (alu64 op d x) := emit' _

@[simp] lemma cmp32 (r : Gpr) (x : Operand) : CalmIf q (cmp32 r x) := emit' _

@[simp] lemma cmp64 (r : Gpr) (x : Operand) : CalmIf q (cmp64 r x) := emit' _

@[simp] lemma test32 (r : Gpr) (x : Operand) : CalmIf q (test32 r x) := emit' _

@[simp] lemma test64 (r : Gpr) (x : Operand) : CalmIf q (test64 r x) := emit' _

@[simp] lemma load (w : Width) (d : Gpr) (a : Address) : CalmIf q (load w d a) := emit' _

@[simp] lemma load64 (d : Gpr) (a : Address) : CalmIf q (load64 d a) := emit' _

@[simp] lemma store64 (r : Gpr) (a : Address) : CalmIf q (store64 r a) := emit' _

@[simp] lemma loadDoubleConstant (d : Fpr) (x : Double) : CalmIf q (loadDoubleConstant d x) := by
  unfold Lowering.loadDoubleConstant
  refine bind (modify ?_ fun _ => ⟨rfl, rfl, rfl⟩) fun _ => bind get fun _ => bind get fun _ => ?_
  · exact fun _ => ⟨rfl, rfl, rfl, rfl, rfl, rfl, rfl, rfl, rfl, rfl⟩
  split
  · exact discard (emitReloc _ _)
  · refine bind newLabel fun _ => bind (modify ?_ fun _ => ⟨rfl, rfl, rfl⟩) fun _ =>
      discard (emitReloc _ _)
    exact fun _ => ⟨rfl, rfl, rfl, rfl, rfl, rfl, rfl, rfl, rfl, rfl⟩

/-! ### Exits -/

@[simp] lemma newExit {kind : ExitKind} (hk : kind ≠ .argumentTypeCheck) : Calm (newExit kind) := by
  unfold Lowering.newExit
  refine bind newLabel fun stub => bind currentNode fun n => ?_
  intro env s h hs
  rw [leads_modifyGet]
  refine ⟨⟨rfl, rfl, rfl, rfl, rfl, rfl, rfl, rfl, rfl, rfl⟩, h.push ?_⟩
  have ha : (kind == .argumentTypeCheck) = false := by simp [hk]
  rw [atEntry, ha]
  exact hs trivial

/-- What an exit goes by stays the same. -/
lemma modifyExit {i : Nat} {f : Exit → Exit}
    (hf : ∀ x, (f x).kind = x.kind ∧ (f x).streamIndex = x.streamIndex ∧ (f x).node = x.node) :
    Calm (modifyExit i f) := by
  intro env s h _
  refine ⟨⟨rfl, rfl, rfl, rfl, rfl, rfl, rfl, rfl, rfl, rfl⟩, ?_, ?_, h.paths, h.guards, h.caches⟩
  · simp [h.size]
  · intro j x ledger hx hl
    rw [Array.getElem?_modify] at hx
    split at hx
    · obtain ⟨y, hy, rfl⟩ := Option.map_eq_some_iff.mp hx
      obtain ⟨hk, hi, hn⟩ := hf y
      rw [atEntry, hk, hi, hn]
      exact h.exits hy hl
    · exact h.exits hx hl

@[simp] lemma jccExit (c : Cond) (x : Nat) : CalmIf q (jccExit c x) := by simp [Lowering.jccExit]

@[simp] lemma guard {kind : ExitKind} (hk : kind ≠ .argumentTypeCheck) (c : Cond) :
    Calm (guard kind c) := by
  simp [Lowering.guard, hk]

@[simp] lemma guard' {kind : ExitKind} (hk : kind ≠ .argumentTypeCheck) (c : Cond) :
    Calm (guard' kind c) :=
  discard (guard hk c)

@[simp] lemma guardUndo {kind : ExitKind} (hk : kind ≠ .argumentTypeCheck) (c : Cond) (u : Undo) :
    Calm (guardUndo kind c u) :=
  bind (newExit hk) fun _ => bind (modifyExit fun _ => ⟨rfl, rfl, rfl⟩) fun _ => jccExit _ _

@[simp] lemma guardWatchpoint {kind : ExitKind} (hk : kind ≠ .argumentTypeCheck) :
    Calm (guardWatchpoint kind) :=
  bind (newExit hk) fun _ => bind (modifyExit fun _ => ⟨rfl, rfl, rfl⟩) fun _ =>
    bind (emit _) fun _ =>
      modify (fun _ => ⟨rfl, rfl, rfl, rfl, rfl, rfl, rfl, rfl, rfl, rfl⟩) fun _ => ⟨rfl, rfl, rfl⟩

@[simp] lemma makeForward (x : Nat) (r : Recovery) : Calm (makeForward x r) := by
  unfold Lowering.makeForward
  refine bind graph fun g => bind get fun s => bind currentNode fun n => ?_
  dsimp only
  split
  case' h_1 => refine bind (assume _) fun _ => bind (pure _) fun store => ?_
  case' h_2 => refine bind (assume _) fun store => ?_
  all_goals
    split
    · refine bind (assume _) fun resume => ?_
      split
      · exact modifyExit fun _ => ⟨rfl, rfl, rfl⟩
      · exact pure _
    · exact pure _

/-! ### Calls and jumps -/

lemma assignArguments_error {args : List Argument} {gs : List Gpr} {fs : List Fpr}
    {e : CompileError} (h : assignArguments args gs fs = .error e) :
    NoDisagreement (.compile e) := by
  fun_induction assignArguments args gs fs with
  | case1 => cases h
  | case2 => cases h; nofun
  | case3 => cases h; nofun
  | case4 => cases h; nofun
  | case5 r args d gs fs ih | case6 x args d gs fs ih | case7 r args gs d fs ih =>
    rcases hm : assignArguments args gs fs with e' | m
    · rw [hm] at h
      cases h
      exact ih hm
    · rw [hm] at h
      cases h

@[simp] lemma setupArguments (args : List Argument) : CalmIf q (setupArguments args) := by
  unfold Lowering.setupArguments
  refine bind (check fun _ he => assignArguments_error he) fun m => bind (forIn fun x _ => ?_)
    fun _ => bind (forIn fun x _ => ?_) fun _ => bind (forIn fun x _ => ?_) fun _ => pure _
  · exact bind (emit' _) fun _ => pure _
  · exact bind (emit' _) fun _ => pure _
  · exact bind (discard (movImm _ _)) fun _ => pure _

@[simp] lemma emitCall (f : Helper) : CalmIf q (emitCall f) := discard (emitReloc _ _)

@[simp] lemma exceptionCheck : CalmIf q exceptionCheck := by
  unfold Lowering.exceptionCheck
  repeat' with_reducible refine bind ?_ fun _ => ?_
  all_goals simp

@[simp] lemma jumpToBlock (b : BlockId) : CalmIf q (jumpToBlock b) :=
  bind get fun _ => ite (pure _) (bind (blockLabel b) fun _ => jmp _)

@[simp] lemma branch (c : Cond) (t f : BlockId) : CalmIf q (branch c t f) :=
  bind get fun _ => ite (bind (blockLabel f) fun _ => jcc _ _)
    (bind (blockLabel t) fun _ => bind (jcc _ _) fun _ => jumpToBlock f)

end Calm

end Lowering
end Speculation
