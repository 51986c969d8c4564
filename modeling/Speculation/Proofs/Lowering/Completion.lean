import Speculation.Lowering.Program
import Speculation.Proofs.Lowering.Extent

/-!
The code of a whole graph.

At the end of a lowering the label of every block is attached, and so are the entries and the stubs
of all exits. Each of these labels is followed by an instruction, since the last thing that is put
behind any of them is code. The entries of the constant pool come after the last instruction, and
their labels are attached there.
-/

namespace Speculation

def stubPieces (i : Nat) : List Piece :=
  [.inst (.setExit (UInt32.ofNat i)) none, .inst (.jmpAbs 0) (some (.external (.thunk .osrExit)))]

namespace Lowering

variable {α β : Type} {env : Env} {s s' s'' : State} {ls : List Label} {ps qs : List Piece}

/-! ### The parts of the code -/

/-- Without an adjusted frame the caller has to deal with the exception. -/
lemma lays_arityFixup : Lays env (do
    emitCall .arityFixup
    test64 .result (.reg .result)
    jcc .e (← read).rollbackLabel) ()
    (.inst (.call 0) (some (.external (.helper .arityFixup))) ::
      afterCall env (.helper .arityFixup)) :=
  (Lays.emitCall _).bind ((Lays.emit' _).bind (.read (Lays.jcc _ _)))

lemma lays_stackOverflow : Lays env (do
    emitCall .stackOverflow
    jmp (← read).rollbackLabel) ()
    (.inst (.call 0) (some (.external (.helper .stackOverflow))) ::
      afterCall env (.helper .stackOverflow)) :=
  (Lays.emitCall _).bind (.read (Lays.jmp _))

/-- The helper finds out where to go on. -/
lemma lays_lookup (f : Helper) : Lays env (do
    emitCall f
    emit' (.jmpReg .result)) ()
    [.inst (.call 0) (some (.external (.helper f))), .inst (.jmpReg .result) none] :=
  (Lays.emitCall f).bind (Lays.emit' _)

namespace Extending

@[simp] lemma pinRegisters : Extending env ls pinRegisters :=
  bind (discard (movImm _ _)) fun _ => discard (movImm _ _)

@[simp] lemma checkStack {l : Label} (hl : l ∈ ls) : Extending env ls (checkStack l) := by
  unfold Lowering.checkStack
  with_reducible repeat' refine bind ?_ fun _ => ?_
  all_goals simp [hl]

@[simp] lemma handleOverflow (l : Label) : Extending env ls (handleOverflow l) :=
  bind (attach _) fun _ => bind (comment _) fun _ => bind (mov _ _) fun _ =>
    of_call (e := .helper .stackOverflow) lays_stackOverflow

lemma handleException (l : Label) {f : Helper}
    (hf : afterCall env (.helper f) = [.inst (.jmpReg .result) none]) :
    Extending env ls (handleException l f) :=
  bind (attach _) fun _ => bind (mov _ _) fun _ => of_call (hf ▸ lays_lookup f)

end Extending

/-! ### Where labels are attached -/

/-- The step takes nothing back, and its result satisfies `Q`. -/
def Gives (env : Env) (ls : List Label) (s : State) (x : Lower α) (Q : α → State → Prop) : Prop :=
  Aimed env s → (∀ l ∈ ls, s.IsCode l) →
    Leads env s x (fun a s' => Proceeds env s s' ∧ Q a s') (Proceeds env s) fun _ => Proceeds env s

namespace Gives

variable {x : Lower α} {f : α → Lower β} {P : α → State → Prop} {Q : β → State → Prop}

lemma of_extending (hx : Extending env ls x) : Gives env ls s x fun _ _ => True :=
  fun hs hls => (hx s hs hls).weaken fun _ _ h => ⟨h, trivial⟩

/-- What holds after the first step may be used for the second one, and of its result. -/
lemma bind (hx : Gives env ls s x P)
    (hf : ∀ a s', Proceeds env s s' → P a s' → Gives env ls s' (f a) fun b s'' =>
      Proceeds env s' s'' → Q b s'') : Gives env ls s (x >>= f) Q :=
  fun hs hls => leads_bind.mpr <| (hx hs hls).weaken fun a s' ⟨h, hP⟩ =>
    (hf a s' h hP (h.aimed hs) fun l hl => h.isCode (hls l hl)).mono
      (fun _ _ ⟨h', hQ⟩ => ⟨h.trans h', hQ h'⟩) (fun _ => h.trans) fun _ _ => h.trans

/-- A step whose result does not matter. -/
lemma after (hx : Extending env ls x) (hf : ∀ a s', Proceeds env s s' → Gives env ls s' (f a) Q) :
    Gives env ls s (x >>= f) Q :=
  (of_extending hx).bind fun a s' h _ hs hls => (hf a s' h hs hls).weaken
    fun _ _ ⟨h', hQ⟩ => ⟨h', fun _ => hQ⟩

lemma conseq {P' : α → State → Prop} (hx : Gives env ls s x P)
    (h : ∀ a s', Proceeds env s s' → P a s' → P' a s') : Gives env ls s x P' :=
  fun hs hls => (hx hs hls).weaken fun a s' ⟨hs, hP⟩ => ⟨hs, h a s' hs hP⟩

lemma pure {a : α} (h : P a s) : Gives env ls s (pure a) P := fun _ _ => ⟨.refl s, h⟩

lemma use {l : Label} (hl : s.IsCode l) (hx : Gives env (l :: ls) s x P) : Gives env ls s x P :=
  fun hs hls => hx hs (List.forall_mem_cons.mpr ⟨hl, hls⟩)

lemma and {P' : α → State → Prop} (hx : Gives env ls s x P)
    (h : Leads env s x P' (fun _ => True) fun _ _ => True) :
    Gives env ls s x fun a s' => P a s' ∧ P' a s' :=
  fun hs hls => (Leads.and (hx hs hls) h).mono (fun _ _ h => ⟨h.1.1, h.1.2, h.2⟩) (fun _ h => h.1)
    fun _ _ h => h.1

lemma read {f : Env → Lower β} (h : Gives env ls s (f env) Q) :
    Gives env ls s (MonadReader.read >>= f) Q := h

lemma get {f : State → Lower β} (h : Gives env ls s (f s) Q) :
    Gives env ls s (MonadState.get >>= f) Q := h

lemma of_lays {a : α} (hx : Extending env ls x) (h : Lays env x a qs) :
    Gives env ls s x fun b s' => b = a ∧ Lain s s' qs :=
  ((of_extending hx).and ((h s).mono (fun _ _ => id) (fun _ _ => trivial)
    fun _ _ _ => trivial)).conseq fun _ _ _ h => h.2

end Gives

lemma gives_here : Gives env ls s here fun l s' => s'.IsCode l ∧ s'.Attached l :=
  fun hs _ => (Extending.leads_here hs).mono (fun _ _ => id) (fun _ => False.elim) fun _ _ => False.elim

lemma gives_newLabel : Gives env ls s newLabel fun l s' => s'.IsCode l :=
  fun hs _ => (Extending.leads_newLabel hs).mono (fun _ _ => id) (fun _ => False.elim)
    fun _ _ => False.elim

lemma gives_attach {l : Label} : Gives env ls s (attach l) fun _ s' =>
    s'.asm.labels[l]? = some (some s'.asm.offset) ∧ s'.exits = s.exits := by
  refine fun _ _ => leads_attach.mono (fun _ _ ⟨h, hfree⟩ => ?_) (fun _ => False.elim)
    fun _ _ h => h ▸ .refl _
  rw [h]
  have hlt := (Array.getElem?_eq_some_iff.mp hfree).1
  exact ⟨proceeds_attached hfree, Array.getElem?_setIfInBounds_self_of_lt hlt, rfl⟩

lemma gives_blockLabel {b : BlockId} : Gives env ls s (blockLabel b) fun l s' =>
    env.blockLabels[b]? = some l ∧ s'.IsCode l := by
  refine fun hs _ => leads_bind.mpr (leads_read.mpr (leads_assume.mpr ⟨fun l hl => ?_,
    fun _ _ => .refl _⟩))
  rw [Breach.get] at hl
  split at hl
  · rename_i h
    cases hl
    exact ⟨.refl s, h, hs.rooted.block h⟩
  · cases hl

def State.Inside (s : State) : Prop :=
  ∀ (l : Label) (o : Nat), s.asm.labels[l]? = some (some o) → o < s.asm.offset

lemma Lain.inside (h : Lain s s' qs) (hs : Aimed env s)
    (hq : 0 < (qs.flatMap Piece.bytes).length) : s'.Inside := by
  intro l o ho
  rw [h.labels] at ho
  obtain ⟨all, hm, -, -, hlabels, -⟩ := hs.coded
  obtain ⟨pre, post, rfl, rfl⟩ := hlabels l o ho
  rw [h.adds.offset, hm.offset]
  simp only [List.nil_append, List.flatMap_append, List.length_append]
  omega

/-- The code goes on after a stretch of instructions. -/
lemma gives_inside {x : Lower α} {a : α} (hx : Extending env ls x) (h : Lays env x a qs)
    (hq : 0 < (qs.flatMap Piece.bytes).length) : Gives env ls s x fun _ s' => s'.Inside :=
  fun hs hls => Leads.weaken (Gives.of_lays hx h hs hls)
    fun _ _ ⟨hp, _, hl⟩ => ⟨hp, hl.inside hs hq⟩

lemma gives_lowerBlock {b : BlockId} : Gives env ls s (lowerBlock b) fun _ s' =>
    ∀ l, env.blockLabels[b]? = some l → s'.Attached l := by
  unfold lowerBlock
  refine .after .graph fun g s₁ _ => .after (.assume _) fun blk s₂ _ =>
    .after (.modify fun _ => rfl) fun _ s₃ _ => ?_
  refine gives_blockLabel.bind fun l s₄ _ hl => gives_attach.bind fun _ s₅ _ hatt => ?_
  refine Gives.conseq (P := fun _ _ => True) (Gives.of_extending (.ite ?_ ?_))
    fun _ s₆ h₆ _ _ _ l' hl' => ?_
  · exact .bind (.comment _) fun _ => .bind (.resetBlock _) fun _ => .bind (.modify fun _ => rfl)
      fun _ => .bind (.forIn fun _ _ => .bind (.lowerAt _ _) fun _ => .pure _) fun _ => .pure _
  · exact .bind .read fun _ => .ite (.emit' rfl) (.pure _)
  rw [hl.1] at hl'
  cases hl'
  exact h₆.attached ⟨_, hatt.1⟩

lemma gives_lowerBlocks {bs : List BlockId} : Gives env ls s (lowerBlocks bs) fun _ s' =>
    ∀ b ∈ bs, ∀ l, env.blockLabels[b]? = some l → s'.Attached l := by
  induction bs generalizing s with
  | nil => exact .pure (by simp)
  | cons b bs ih =>
    refine gives_lowerBlock.bind fun _ s₁ _ hb => ih.conseq fun _ s₂ _ hbs h₂ b' hb' l hl => ?_
    rcases List.mem_cons.mp hb' with rfl | hb'
    · exact h₂.attached (hb l hl)
    · exact hbs b' hb' l hl

lemma gives_checkArity {n : Nat} {entry : Label} (he : entry ∈ ls) :
    Gives env ls s (checkArity n entry) fun l s' => s'.Attached l := by
  refine gives_here.bind fun arity s₁ _ ⟨_, ha⟩ => ?_
  refine Gives.conseq (P := fun l _ => l = arity) ?_ fun l _ _ hl h => hl ▸ h.attached ha
  refine .after (.comment _) fun _ _ _ => .after (.load64 _ _) fun _ _ _ =>
    .after (.cmp64 _ _) fun _ _ _ => .after (.jcc _ he) fun _ _ _ => .after (.mov _ _) fun _ s₂ _ =>
    ?_
  have hrest : Gives env ls s₂ (_ >>= fun _ => mov .frame .result >>= fun _ => jmp entry >>= fun _ =>
      pure arity) fun l _ => l = arity :=
    .after (.of_call (e := .helper .arityFixup) lays_arityFixup) fun _ _ _ =>
      .after (.mov _ _) fun _ _ _ => .after (.jmp he) fun _ _ _ => .pure rfl
  simpa only [bind_assoc] using hrest

/-- Entries are attached, and the code goes on after them. -/
lemma gives_enterBlocks {bs : List (Block × BlockId)} :
    Gives env ls s (enterBlocks bs) fun es s' =>
      (∀ e ∈ es, s'.Attached e.2) ∧ (s.Inside → s'.Inside) := by
  induction bs generalizing s ls with
  | nil => exact .pure ⟨by simp, id⟩
  | cons b bs ih =>
    unfold enterBlocks
    split
    · refine gives_here.bind fun l s₁ _ hl => .after (.comment _) fun _ s₂ h₂ =>
        .after .pinRegisters fun _ s₃ h₃ => gives_blockLabel.bind fun k s₄ h₄ hk => .use hk.2 ?_
      have hjmp : Gives env (k :: ls) s₄ (jmp k) fun _ s' => s'.Inside :=
        gives_inside (.jmp List.mem_cons_self) (Lays.jmp k) (by simp [Piece.bytes, Inst.encode])
      refine hjmp.bind fun _ s₅ h₅ hin => ih.bind fun es s₆ h₆ hes => .pure ?_
      rintro - - - -
      refine ⟨fun e he => ?_, fun _ => hes.2 hin⟩
      rcases List.mem_cons.mp he with rfl | he
      · exact h₆.attached (h₅.attached (h₄.attached (h₃.attached (h₂.attached hl.2))))
      · exact hes.1 e he
    · exact ih

lemma Extends.offset_le (h : Extends env s s') : s.asm.offset ≤ s'.asm.offset := by
  obtain ⟨qs, ha, -⟩ := h.pieces
  rw [ha.offset]
  exact Nat.le_add_right _ _

def State.Beyond (s : State) (k : Nat) (l : Label) : Prop :=
  ∃ o, s.asm.labels[l]? = some (some o) ∧ k ≤ o

lemma State.Beyond.mono {k j : Nat} {l : Label} (h : s.Beyond k l) (hj : j ≤ k) : s.Beyond j l :=
  let ⟨o, ho, hk⟩ := h
  ⟨o, ho, Nat.le_trans hj hk⟩

lemma State.Beyond.extends {k : Nat} {l : Label} (h : s.Beyond k l) (he : Extends env s s') :
    s'.Beyond k l :=
  let ⟨o, ho, hk⟩ := h
  ⟨o, he.labels ho, hk⟩

def State.Stub (s : State) (l : Label) (i : Nat) : Prop :=
  ∃ o, s.asm.labels[l]? = some (some o) ∧ s.asm.Stands o (stubPieces i)

lemma Extends.stub (h : Extends env s s') {l : Label} {i : Nat} (hl : s.Stub l i) : s'.Stub l i :=
  let ⟨o, ho, hs⟩ := hl
  ⟨o, h.labels ho, h.stands hs⟩

lemma gives_emitStubs {xs : List (Exit × Nat)} : Gives env ls s (emitStubs xs) fun _ s' =>
    (∀ x ∈ xs, s'.Stub x.1.stub x.2 ∧ s'.Beyond s.asm.offset x.1.stub) ∧ s'.exits = s.exits ∧
      (s.Inside → s'.Inside) := by
  induction xs generalizing s with
  | nil => exact .pure ⟨by simp, rfl, id⟩
  | cons x xs ih =>
    refine gives_attach.bind fun _ s₁ h₁ ⟨hatt, hx₁⟩ hs₁ hls => ?_
    refine Gives.bind (.of_lays (.emit' rfl) (Lays.emit' (.setExit (UInt32.ofNat x.2))))
      (fun _ s₂ h₂ ⟨_, hl₂⟩ => Gives.bind (.of_lays (.discard (.emitReloc rfl fun _ _ => trivial))
        (Lays.emitReloc (t := .external (.thunk .osrExit)) rfl)) fun _ s₃ h₃ ⟨_, hl₃⟩ =>
          ih.conseq ?_) hs₁ hls
    rintro _ s₄ h₄ ⟨hxs, hx₄, hin⟩ - - -
    have hin₃ : s₃.Inside := hl₃.inside (h₂.aimed hs₁) (by simp [Piece.bytes, Inst.encode])
    have hx₃ : s₃.exits = s.exits := by rw [hl₃.rest, hl₂.rest, ← hx₁]
    have hle := (h₁.trans (h₂.trans h₃)).offset_le
    refine ⟨List.forall_mem_cons.mpr ⟨⟨?_, ?_⟩, fun x hx => (hxs x hx).imp_right fun h =>
      h.mono hle⟩, hx₄.trans hx₃, fun _ => hin hin₃⟩
    · obtain ⟨all, hm, -⟩ := hs₁.coded
      have hfits : ∀ p ∈ stubPieces x.2, p.Fits := by
        rintro _ (_ | ⟨_, _ | ⟨_, ⟨⟩⟩⟩)
        · trivial
        · rfl
      have hstub : s₃.Stub x.1.stub x.2 :=
        ⟨_, h₃.labels (h₂.labels hatt), hm.stands (hl₂.adds.trans hl₃.adds) hfits⟩
      exact h₄.stub hstub
    · exact ⟨_, (h₂.trans (h₃.trans h₄)).labels hatt, h₁.offset_le⟩

/-! ### The constant pool -/

structure Pools (env : Env) (es : List (UInt64 × Label)) (s s' : State) : Prop
    extends Extends env s s' where
  rest : s' = { s with asm := s'.asm }
  relocs : s'.asm.relocs = s.asm.relocs
  entry {e : UInt64 × Label} (h : e ∈ es) : ∃ o, s'.asm.labels[e.2]? = some (some o) ∧
    s.asm.offset ≤ o ∧ s'.asm.Stands o [.data (Encoding.uint64 e.1)]
  only {l : Label} {o : Nat} (h : s'.asm.labels[l]? = some (some o)) :
    s.asm.labels[l]? = some (some o) ∨ l ∈ es.map Prod.snd

lemma Extends.made (h : Extends env s s') (hm : s.asm.Made ps) : ∃ qs, s'.asm.Made (ps ++ qs) :=
  let ⟨qs, ha, hf, _⟩ := h.pieces
  ⟨qs, hm.adds ha hf⟩

lemma Pools.trans {es es' : List (UInt64 × Label)} (h : Pools env es s s')
    (h' : Pools env es' s' s'') : Pools env (es ++ es') s s'' where
  toExtends := h.toExtends.trans h'.toExtends
  rest := by rw [h'.rest, h.rest]
  relocs := h'.relocs.trans h.relocs
  entry he := by
    rcases List.mem_append.mp he with he | he
    · obtain ⟨o, ho, hle, hs⟩ := h.entry he
      exact ⟨o, h'.labels ho, hle, h'.toExtends.stands hs⟩
    · obtain ⟨o, ho, hle, hs⟩ := h'.entry he
      exact ⟨o, ho, Nat.le_trans h.toExtends.offset_le hle, hs⟩
  only ho := by
    rw [List.map_append, List.mem_append]
    rcases h'.only ho with ho | hl
    · exact (h.only ho).imp_right .inl
    · exact .inr (.inr hl)

lemma extends_data (bs : List UInt8) : Extends env s { s with asm := s.asm.emitData bs } :=
  .of_adds (s.asm.adds_data bs) (by simp [Piece.Fits]) rfl rfl rfl rfl (fun _ => id) fun _ => id

lemma pools_entry {e : UInt64 × Label} (hm : s.asm.Made ps)
    (hfree : s.asm.labels[e.2]? = some none) :
    Pools env [e] s { s.attached e.2 with
      asm := (s.attached e.2).asm.emitData (Encoding.uint64 e.1) } where
  toExtends := (proceeds_attached hfree).toExtends.trans (extends_data _)
  rest := rfl
  relocs := rfl
  entry he := by
    rw [List.mem_singleton.mp he]
    have hlt := (Array.getElem?_eq_some_iff.mp hfree).1
    have hm' : (s.attached e.2).asm.Made ps := ⟨hm.code, hm.relocs, hm.fits⟩
    exact ⟨_, Array.getElem?_setIfInBounds_self_of_lt hlt, Nat.le_refl _,
      hm'.stands (Assembler.adds_data _ _) (by simp [Piece.Fits])⟩
  only ho := (attached_cases ho).imp_right fun h => by simp [h.1]

lemma leads_emitPool {es : List (UInt64 × Label)} (hm : s.asm.Made ps) :
    Leads env s (emitPool es) (fun _ s' => Pools env es s s') (fun _ => True) fun _ _ => True := by
  induction es generalizing s ps with
  | nil => exact ⟨.refl s, rfl, rfl, by simp, .inl⟩
  | cons e es ih =>
    refine leads_bind.mpr (leads_attach.mono ?_ (fun _ _ => trivial) fun _ _ _ => trivial)
    rintro _ _ ⟨rfl, hfree⟩
    have he : Pools env [e] s _ := pools_entry hm hfree
    obtain ⟨qs, hm'⟩ := he.toExtends.made hm
    exact leads_bind.mpr (leads_modify.mpr ((ih hm').weaken fun _ _ h => he.trans h))

def closePool : Lower Unit := do
  modify fun s => { s with asm := s.asm.align 8 }
  let s ← get
  emitPool (s.pool.toList.zip s.poolLabels.toList)

lemma leads_closePool (hm : s.asm.Made ps) : Leads env s closePool
    (fun _ s' => Pools env (s.pool.toList.zip s.poolLabels.toList) s s') (fun _ => True)
    fun _ _ => True := by
  refine leads_bind.mpr (leads_modify.mpr (leads_bind.mpr (leads_get.mpr ?_)))
  have ha : Pools env [] s { s with asm := s.asm.align 8 } :=
    ⟨extends_data _, rfl, rfl, by simp, .inl⟩
  obtain ⟨qs, hm'⟩ := ha.toExtends.made hm
  exact (leads_emitPool hm').weaken fun _ _ h => ha.trans h

/-! ### The whole code -/

/-- All that the code is entered by, or jumps to by itself, is attached, and stubs have their
code. -/
structure Complete (env : Env) (layout : Layout) (s : State) : Prop where
  blocks {b : BlockId} {l : Label} (hb : b < env.graph.blocks.size)
    (hl : env.blockLabels[b]? = some l) : s.Attached l
  stub {i : Nat} {x : Exit} (h : s.exits[i]? = some x) : s.Stub x.stub i
  entry : s.Attached layout.entry
  arity {l : Label} (h : layout.arityEntry = some l) : s.Attached l
  osr {e : BlockId × Label} (h : e ∈ layout.osrEntries) : s.Attached e.2

lemma Complete.stubs {layout : Layout} (h : Complete env layout s) {x : Exit} (hx : x ∈ s.exits) :
    s.Attached x.stub :=
  let ⟨_, hi⟩ := Array.mem_iff_getElem?.mp hx
  let ⟨o, ho, _⟩ := h.stub hi
  ⟨o, ho⟩

lemma Complete.extends {layout : Layout} (h : Complete env layout s) (he : Extends env s s')
    (hx : s'.exits = s.exits) : Complete env layout s' :=
  ⟨fun hb hl => he.attached (h.blocks hb hl), fun hi => he.stub (h.stub (hx ▸ hi)),
    he.attached h.entry, fun hl => he.attached (h.arity hl), fun ho => he.attached (h.osr ho)⟩

lemma gives_lowerEntry : Gives env ls s lowerEntry fun labels s' =>
    s'.IsCode labels.1 ∧ s'.Attached labels.1 := by
  refine gives_here.bind fun entry s₁ _ ⟨hcode, hatt⟩ => ?_
  refine Gives.conseq (P := fun labels _ => labels.1 = entry) ?_ fun l _ h hl _ =>
    hl ▸ ⟨h.isCode hcode, h.attached hatt⟩
  refine .after .pinRegisters fun _ _ _ => gives_newLabel.bind fun overflow _ _ ho => .use ho ?_
  exact .after (.checkStack List.mem_cons_self) fun _ _ _ => .after .beginEntry fun _ _ _ =>
    .after .checkArguments fun _ _ _ => .pure fun _ => rfl

def arityEntry (g : Graph) (numParameters : Nat) (entry : Label) : Lower (Option Label) :=
  match g.kind with
  | .function => some <$> checkArity numParameters entry
  | .program => pure none

def closeInsts (g : Graph) (entry overflow : Label) (arityEntry : Option Label) :
    Lower Layout := do
  handleOverflow overflow
  handleException (← read).exceptionLabel .lookupExceptionHandler
  handleException (← read).rollbackLabel .lookupExceptionHandlerFromCaller
  let osrEntries ← enterBlocks g.blocks.toList.zipIdx
  emitStubs (← get).exits.toList.zipIdx
  return { entry, arityEntry, osrEntries, instsLength := (← get).asm.offset }

def closeCode (g : Graph) (entry overflow : Label) (arityEntry : Option Label) : Lower Layout := do
  let layout ← closeInsts g entry overflow arityEntry
  closePool
  return layout

lemma lowerRest_eq (n : Nat) (entry overflow : Label) :
    lowerRest n entry overflow = (do
      let g ← graph
      emitSlowPaths
      closeCode g entry overflow (← arityEntry g n entry)) := by
  unfold lowerRest arityEntry closeCode closeInsts closePool
  simp only [bind_assoc, pure_bind]
  refine bind_congr fun g => bind_congr fun _ => ?_
  generalize g.kind = kind
  cases kind <;> rfl

def restInsts (n : Nat) (entry overflow : Label) : Lower Layout := do
  let g ← graph
  emitSlowPaths
  closeInsts g entry overflow (← arityEntry g n entry)

lemma lowerRest_eq_insts (n : Nat) (entry overflow : Label) :
    lowerRest n entry overflow = (do
      let layout ← restInsts n entry overflow
      closePool
      return layout) := by
  simp only [lowerRest_eq, restInsts, closeCode, bind_assoc]

def lowerInsts (n : Nat) : Lower Layout := do
  let (entry, overflow) ← lowerEntry
  lowerBlocks (List.range (← graph).blocks.size)
  let g ← graph
  emitSlowPaths
  closeInsts g entry overflow (← arityEntry g n entry)

lemma lowerGraph_eq (n : Nat) :
    lowerGraph n = (do
      let layout ← lowerInsts n
      closePool
      return layout) := by
  unfold lowerGraph lowerInsts
  simp only [lowerRest_eq, closeCode, bind_assoc]

lemma gives_arityEntry {g : Graph} {n : Nat} {entry : Label} (he : entry ∈ ls) :
    Gives env ls s (arityEntry g n entry) fun a s' => ∀ l, a = some l → s'.Attached l := by
  unfold arityEntry
  split
  · refine fun hs hls => leads_map.mpr ((gives_checkArity he).conseq (fun l s' _ hl => ?_) hs hls)
    rintro _ ⟨⟩
    exact hl
  · exact .pure (by simp)

lemma gives_handleException {l : Label} {f : Helper}
    (hf : afterCall env (.helper f) = [.inst (.jmpReg .result) none]) :
    Gives env ls s (handleException l f) fun _ s' => s'.Inside ∧ s'.Beyond s.asm.offset l := by
  refine gives_attach.bind fun _ s₁ h₁ ⟨hatt, _⟩ => Gives.conseq (P := fun _ s' => s'.Inside) ?_
    fun _ _ h hin _ => ⟨hin, _, h.labels hatt, h₁.offset_le⟩
  exact gives_inside (.bind (.mov _ _) fun _ => .of_call (hf ▸ lays_lookup f))
    ((Lays.mov (by decide)).bind (lays_lookup f))
    (by simp [Piece.bytes, Inst.encode])

lemma gives_handleOverflow {l : Label} :
    Gives env ls s (handleOverflow l) fun _ s' => s.asm.offset < s'.asm.offset := by
  refine gives_attach.bind fun _ s₁ h₁ _ => ?_
  refine Gives.conseq (.of_lays (.bind (.comment _) fun _ => .bind (.mov _ _) fun _ =>
    .of_call (e := .helper .stackOverflow) lays_stackOverflow)
    ((Lays.comment _).bind ((Lays.mov (by decide)).bind lays_stackOverflow)))
    fun _ s₂ _ ⟨_, hl⟩ _ => ?_
  refine Nat.lt_of_le_of_lt h₁.offset_le ?_
  rw [hl.adds.offset]
  exact Nat.lt_add_of_pos_right (by simp [Piece.bytes, Inst.encode])

lemma gives_closeInsts {g : Graph} {entry overflow : Label} {arity : Option Label} :
    Gives env ls s (closeInsts g entry overflow arity) fun layout s' =>
      layout.entry = entry ∧ layout.arityEntry = arity ∧ layout.instsLength = s'.asm.offset ∧
      s'.Inside ∧ (∀ i x, s'.exits[i]? = some x → s'.Stub x.stub i) ∧
      (∀ e ∈ layout.osrEntries, s'.Attached e.2) ∧
      s'.Beyond (s.asm.offset + 1) env.exceptionLabel ∧
      ∀ x ∈ s'.exits, s'.Beyond (s.asm.offset + 1) x.stub := by
  refine gives_handleOverflow.bind fun _ s₂ _ h₂ => .read ((gives_handleException rfl).bind
    fun _ s₃ h₃ ⟨_, hbeyond⟩ => .read ((gives_handleException rfl).bind fun _ s₅ h₅ ⟨hin₅, _⟩ =>
      gives_enterBlocks.bind fun osr s₆ h₆ ⟨hosr, hin₆⟩ => .get ?_))
  refine gives_emitStubs.bind fun _ s₇ _ ⟨hstubs, hx₇, hin₇⟩ => .get (.pure ?_)
  rintro - h₇ - h -
  -- no exit is made once the stubs are emitted
  have hexits : ∀ i x, s₇.exits[i]? = some x → s₇.Stub x.stub i ∧ s₇.Beyond s₆.asm.offset x.stub := by
    intro i x hi
    rw [hx₇] at hi
    exact hstubs (x, i) (List.mk_mem_zipIdx_iff_getElem?.mpr (by rw [Array.getElem?_toList, hi]))
  refine ⟨rfl, rfl, rfl, hin₇ (hin₆ hin₅), fun i x hi => (hexits i x hi).1,
    fun e he => h₇.attached (hosr e he), ?_, fun x hx => ?_⟩
  · exact (hbeyond.mono h₂).extends h.toExtends
  · obtain ⟨i, hi⟩ := Array.mem_iff_getElem?.mp hx
    exact (hexits i x hi).2.mono (Nat.lt_of_lt_of_le h₂ (h₃.trans (h₅.trans h₆)).offset_le)

/-- The code of a graph is all there before the pool: at its end everything it leads to is
attached. -/
theorem gives_lowerInsts {n : Nat} : Gives env ls s (lowerInsts n) fun layout s' =>
    Complete env layout s' ∧ s'.Inside ∧ layout.instsLength = s'.asm.offset := by
  refine gives_lowerEntry.bind ?_
  rintro ⟨entry, overflow⟩ s₁ - ⟨hcode, hatt⟩
  refine .read (gives_lowerBlocks.bind fun _ s₃ h₃ hblocks => .read (.after .emitSlowPaths
    fun _ s₅ h₅ => .use (h₅.isCode (h₃.isCode hcode)) ((gives_arityEntry List.mem_cons_self).bind
      fun arity s₆ h₆ harity => gives_closeInsts.conseq ?_)))
  rintro layout s₇ - ⟨hentry, hlayout, hlength, hin, hstubs, hosr, -⟩ h₇ h₅ h₃
  refine ⟨⟨fun hb hl => ?_, fun hi => hstubs _ _ hi, ?_, fun hl => ?_, fun he => hosr _ he⟩, hin,
    hlength⟩
  · exact h₅.attached (hblocks _ (List.mem_range.mpr hb) _ hl)
  · rw [hentry]
    exact h₃.attached hatt
  · rw [hlayout] at hl
    exact h₇.attached (harity _ hl)

/-- From `s` on the code of a graph was assembled, up to `s₁`, and then the pool. -/
structure Assembled (env : Env) (layout : Layout) (s s₁ s' : State) : Prop where
  insts : Proceeds env s s₁
  complete : Complete env layout s₁
  inside : s₁.Inside
  length : layout.instsLength = s₁.asm.offset
  pools : Pools env (s₁.pool.toList.zip s₁.poolLabels.toList) s₁ s'

theorem assembled_lowerGraph {n : Nat} (hs : Aimed env s) : Leads env s (lowerGraph n)
    (fun layout s' => ∃ s₁, Assembled env layout s s₁ s') (fun _ => True) fun _ _ => True := by
  rw [lowerGraph_eq]
  refine leads_bind.mpr ((gives_lowerInsts hs (List.forall_mem_nil _)).mono ?_ (fun _ _ => trivial)
    fun _ _ _ => trivial)
  rintro layout s₁ ⟨hinsts, hcomplete, hin, hlength⟩
  obtain ⟨ps, hm, -⟩ := (hinsts.aimed hs).coded
  exact leads_bind.mpr ((leads_closePool hm).weaken fun _ _ hpools =>
    ⟨s₁, hinsts, hcomplete, hin, hlength, hpools⟩)

/-- The pool comes after all other code, and takes nothing of it back. -/
lemma Gives.lowerRest {n : Nat} {entry overflow : Label} {Q : Layout → State → Prop}
    (h : Gives env [entry] s (restInsts n entry overflow) Q) (hs : Aimed env s)
    (hentry : s.IsCode entry) :
    Leads env s (lowerRest n entry overflow) (fun layout s' => ∃ s₁, Q layout s₁ ∧
      Extends env s s' ∧ Extends env s₁ s' ∧ s' = { s₁ with asm := s'.asm }) (fun _ => True)
      fun _ _ => True := by
  rw [lowerRest_eq_insts, leads_bind]
  refine (h hs (List.forall_mem_singleton.mpr hentry)).mono ?_ (fun _ _ => trivial)
    fun _ _ _ => trivial
  rintro layout s₁ ⟨hproceeds, hQ⟩
  obtain ⟨ps, hm, -⟩ := (hproceeds.aimed hs).coded
  refine leads_bind.mpr ((leads_closePool hm).weaken fun _ s₂ hpools => ?_)
  exact ⟨s₁, hQ, hproceeds.toExtends.trans hpools.toExtends, hpools.toExtends, hpools.rest⟩

end Lowering
end Speculation
