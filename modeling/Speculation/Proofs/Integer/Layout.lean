import Speculation.Proofs.Integer.Runs
import Speculation.Proofs.Lowering.Completion

/-!
The code around the nodes.

Code starts with the entry, and after the nodes come the arity check, the handlers and the stubs.
`Lays` is about stretches of instructions, which are always the same; `Closes` also about labels,
each of which is attached once, so that in the end none is left.
-/

namespace Speculation

lemma Scene.Has.within {sc : Scene} {o k : Nat} {ps qs : List Piece} (h : sc.Has o qs)
    (hw : Piece.Within o qs k ps) : sc.Has k ps := by
  obtain ⟨pre, post, rfl, rfl⟩ := hw
  exact h.right.left

namespace Lowering

variable {α : Type} {env : Env} {s s' s'' : State} {ps qs : List Piece} {l : Label}
  {ls ks : List Label} {x y : Lower Unit}

def tagPieces : List Piece :=
  [.inst (.movImm .numberTag Value.numberTag) none, .inst (.movImm .tagMask Value.cellMask) none]

def stackPieces (context : UInt64) (outgoing : Int32) (overflow : Label) : List Piece :=
  [.inst (.mov .result .frame) none, .inst (.alu .s64 .add .result (.imm outgoing)) none,
    .inst (.movImm .scratch context) none,
    .inst (.load .w64 false .scratch (.ofBase .scratch (Int32.ofNat Context.stackLimit))) none,
    .inst (.cmp .s64 .result (.reg .scratch)) none,
    .inst (.jcc .b 0) (some (.label overflow))]

def countPieces (numParameters : Nat) (entry : Label) : List Piece :=
  [.inst (.load .w64 false .scratch (.ofBase .frame (Int32.ofNat (8 * Frame.argumentCount)))) none,
    .inst (.cmp .s64 .scratch (.imm (Int32.ofNat (min numParameters 2147483647)))) none,
    .inst (.jcc .ae 0) (some (.label entry))]

def fixupPieces (entry rollback : Label) : List Piece :=
  [.inst (.mov .result .frame) none, .inst (.call 0) (some (.external (.helper .arityFixup))),
    .inst (.test .s64 .result (.reg .result)) none, .inst (.jcc .e 0) (some (.label rollback)),
    .inst (.mov .frame .result) none, .inst (.jmp 0) (some (.label entry))]

def overflowPieces (rollback : Label) : List Piece :=
  [.inst (.mov .result .frame) none, .inst (.call 0) (some (.external (.helper .stackOverflow))),
    .inst (.jmp 0) (some (.label rollback))]

def handlerPieces (lookup : Helper) : List Piece :=
  [.inst (.mov .result .frame) none, .inst (.call 0) (some (.external (.helper lookup))),
    .inst (.jmpReg .result) none]

lemma lays_pinRegisters : Lays env pinRegisters () tagPieces := (Lays.movImm _ _).bind (.movImm _ _)

lemma lays_checkStack (l : Label) :
    Lays env (checkStack l) () (stackPieces env.context env.frame.outgoingOffset l) :=
  (Lays.comment _).bind <| (Lays.mov (by decide)).bind <| .read <| (Lays.emit' _).bind <| .read <|
    (Lays.movImm _ _).bind <| (Lays.emit' _).bind <| (Lays.emit' _).bind <| .jcc _ _

/-! ### Labels -/

def State.Free (s : State) (l : Label) : Prop := s.asm.labels[l]? = some none

/-- What of the state is not code, and outlives the nodes. -/
def State.logged (s : State) := (s.exits, s.views, s.events, s.idle)

/-- Code was added and the labels `ls` were attached, and nothing else has changed. -/
structure Closes (s s' : State) (qs : List Piece) (ls : List Label) : Prop where
  adds : s.asm.Adds s'.asm qs
  aims {p : Piece} (h : p ∈ qs) : p.Aims s'.asm.labels.size
  kept {l : Label} {o : Nat} (h : s.asm.labels[l]? = some (some o)) :
    s'.asm.labels[l]? = some (some o)
  free {l : Label} : s'.Free l ↔ s.Free l ∧ l ∉ ls
  size : s.asm.labels.size ≤ s'.asm.labels.size
  logged : s'.logged = s.logged

lemma State.Free.lt (h : s.Free l) : l < s.asm.labels.size := (Array.getElem?_eq_some_iff.mp h).1

namespace Closes

lemma refl (s : State) : Closes s s [] [] :=
  ⟨.of_eq rfl rfl, by simp, id, by simp, Nat.le_refl _, rfl⟩

lemma trans (h : Closes s s' ps ls) (h' : Closes s' s'' qs ks) :
    Closes s s'' (ps ++ qs) (ls ++ ks) where
  adds := h.adds.trans h'.adds
  aims hp := by
    rcases List.mem_append.mp hp with hp | hp
    · exact (h.aims hp).mono h'.size
    · exact h'.aims hp
  kept hl := h'.kept (h.kept hl)
  free {l} := by
    rw [h'.free, h.free, List.mem_append, not_or, and_assoc]
  size := Nat.le_trans h.size h'.size
  logged := h'.logged.trans h.logged

lemma of_lain (h : Lain s s' qs) (ha : ∀ p ∈ qs, p.Aims s.asm.labels.size) : Closes s s' qs [] where
  adds := h.adds
  aims hp := h.labels ▸ ha _ hp
  kept hl := h.labels ▸ hl
  free := by simp [State.Free, h.labels]
  size := by rw [h.labels]
  logged := by
    rw [h.rest]
    rfl

/-- Bytes that are no instructions are added. -/
lemma data (s : State) (bs : List UInt8) :
    Closes s { s with asm := { s.asm with code := Bytes.append s.asm.code bs } } [.data bs] [] where
  adds := ⟨by simp [Bytes.data_append, Piece.bytes], by simp [Piece.relocsFrom, Piece.relocs]⟩
  aims hp := by
    rw [List.mem_singleton.mp hp]
    trivial
  kept := id
  free := by simp [State.Free]
  size := Nat.le_refl _
  logged := rfl

/-- Whatever the code refers to is attached in the end. -/
lemma attached (h : Closes s s' qs ls) (hfree : ∀ l, s.Free l → l ∈ ls) (hl : l < s'.asm.labels.size) :
    s'.Attached l := by
  rcases ho : s'.asm.labels[l]? with _ | _ | o
  · exact absurd hl (Nat.not_lt.mpr (Array.getElem?_eq_none_iff.mp ho))
  · obtain ⟨hs, hnot⟩ := h.free.mp ho
    exact absurd (hfree l hs) hnot
  · exact ⟨o, ho⟩

end Closes

/-- From `s` the step closes the labels `ls`, with `Q` of its result and the pieces it adds. -/
def Closing (env : Env) (s : State) (x : Lower α) (ls : List Label)
    (Q : α → State → List Piece → Prop) : Prop :=
  Leads env s x (fun a s' => ∃ qs, Closes s s' qs ls ∧ Q a s' qs) (fun _ => False) fun _ _ => False

namespace Closing

variable {β : Type} {z : Lower α} {f : α → Lower β} {Q : α → State → List Piece → Prop}
  {R : β → State → List Piece → Prop}

lemma bind (hx : Closing env s z ls Q)
    (hf : ∀ a s' qs, Closes s s' qs ls → Q a s' qs →
      Closing env s' (f a) ks fun b s'' rs => Closes s' s'' rs ks → R b s'' (qs ++ rs)) :
    Closing env s (z >>= f) (ls ++ ks) R := by
  refine leads_bind.mpr (Leads.weaken hx ?_)
  rintro a s₁ ⟨qs, h₁, hQ⟩
  refine Leads.weaken (hf a s₁ qs h₁ hQ) ?_
  rintro b s₂ ⟨rs, h₂, hR⟩
  exact ⟨qs ++ rs, h₁.trans h₂, hR h₂⟩

lemma read {f : Env → Lower β} (h : Closing env s (f env) ks R) :
    Closing env s (read >>= f) ks R := h

lemma get {f : State → Lower β} (h : Closing env s (f s) ks R) : Closing env s (get >>= f) ks R := h

/-- The last step closes no label. -/
lemma andDone (hx : Closing env s z ls Q)
    (hf : ∀ a s' qs, Closes s s' qs ls → Q a s' qs →
      Closing env s' (f a) [] fun b s'' rs => Closes s' s'' rs [] → R b s'' (qs ++ rs)) :
    Closing env s (z >>= f) ls R := by
  have h := hx.bind hf
  rwa [List.append_nil] at h

/-- The first step closes no label. -/
lemma andThen (hx : Closing env s z [] Q)
    (hf : ∀ a s' qs, Closes s s' qs [] → Q a s' qs →
      Closing env s' (f a) ks fun b s'' rs => Closes s' s'' rs ks → R b s'' (qs ++ rs)) :
    Closing env s (z >>= f) ks R :=
  hx.bind hf

lemma conseq {Q' : α → State → List Piece → Prop} (hx : Closing env s z ls Q)
    (h : ∀ a s' qs, Closes s s' qs ls → Q a s' qs → Q' a s' qs) : Closing env s z ls Q' :=
  Leads.weaken hx fun a s' ⟨qs, hq, hQ⟩ => ⟨qs, hq, h a s' qs hq hQ⟩

lemma pure {a : α} (h : Q a s []) : Closing env s (pure a) [] Q := ⟨[], .refl s, h⟩

lemma of_lays {a : α} (hx : Lays env z a qs) (ha : ∀ p ∈ qs, p.Aims s.asm.labels.size) :
    Closing env s z [] fun b s' qs' => b = a ∧ qs' = qs ∧ s'.asm.labels = s.asm.labels :=
  Leads.weaken (hx s) fun _ _ ⟨hb, h⟩ => ⟨qs, .of_lain h ha, hb, rfl, h.labels⟩

lemma attach (hl : s.Free l) : Closing env s (attach l) [l] fun _ s' qs =>
    qs = [] ∧ s'.asm.labels[l]? = some (some s.asm.offset) := by
  have hget : Breach.get s.asm.labels l = .ok none := by
    unfold State.Free at hl
    simp [Breach.get, hl]
  have hatt : s.asm.attach l = .ok { s.asm.comment ("l" ++ toString l) with
      labels := s.asm.labels.set! l (some s.asm.offset) } := by
    rw [Assembler.attach, hget]
    rfl
  rw [Lowering.attach, Closing, leads_bind, leads_get, hatt, leads_bind, leads_assume_ok]
  have hlt := hl.lt
  refine ⟨[], ⟨.of_eq rfl rfl, by simp, fun {k o} hk => ?_, fun {k} => ?_, by simp, rfl⟩, rfl, by
    simp [hlt]⟩
  · have hne : l ≠ k := by
      rintro rfl
      unfold State.Free at hl
      rw [hl] at hk
      cases hk
    simpa [Array.getElem?_setIfInBounds, hne] using hk
  · by_cases hkl : l = k
    · subst hkl
      simp [State.Free, hlt]
    · simp [State.Free, hkl, Ne.symm hkl]

/-- A new label is attached at once. -/
lemma here : Closing env s here [] fun l s' qs =>
    qs = [] ∧ s'.asm.labels[l]? = some (some s.asm.offset) := by
  refine ⟨[], ⟨.of_eq rfl rfl, by simp, fun {k o} hk => ?_, fun {k} => ?_, ?_, rfl⟩, rfl, ?_⟩
  · have hlt := (Array.getElem?_eq_some_iff.mp hk).1
    show (s.asm.labels.push _)[k]? = _
    rw [Array.getElem?_push_lt hlt, ← Array.getElem?_eq_getElem hlt, hk]
  · show (s.asm.labels.push _)[k]? = some none ↔ _
    rw [Array.getElem?_push]
    split
    · rename_i h
      simp [State.Free, h]
    · simp [State.Free]
  · show _ ≤ (s.asm.labels.push _).size
    simp
  · show (s.asm.labels.push (some s.asm.offset))[s.asm.labels.size]? = _
    simp

end Closing

/-! ### What comes after the nodes -/

structure Env.Labelled (env : Env) (s : State) : Prop where
  blocks {b : BlockId} (h : b < env.graph.blocks.size) :
    ∃ l, env.blockLabels[b]? = some l ∧ l < s.asm.labels.size
  rollback : env.rollbackLabel < s.asm.labels.size

lemma Env.Labelled.closes (h : env.Labelled s) (hs : Closes s s' qs ls) : env.Labelled s' where
  blocks hb := by
    obtain ⟨l, hl, hlt⟩ := h.blocks hb
    exact ⟨l, hl, Nat.lt_of_lt_of_le hlt hs.size⟩
  rollback := Nat.lt_of_lt_of_le h.rollback hs.size

lemma closing_checkArity {n : Nat} {entry : Label} (he : entry < s.asm.labels.size)
    (hr : env.rollbackLabel < s.asm.labels.size) :
    Closing env s (checkArity n entry) [] fun l s' qs =>
      s'.asm.labels[l]? = some (some s.asm.offset) ∧
        qs = countPieces n entry ++ fixupPieces entry env.rollbackLabel := by
  refine Closing.here.andThen fun l s₁ qs₁ h₁ ⟨hqs, hl⟩ => ?_
  subst hqs
  have haims : ∀ p ∈ countPieces n entry ++ fixupPieces entry env.rollbackLabel,
      p.Aims s₁.asm.labels.size := by
    have he' := Nat.lt_of_lt_of_le he h₁.size
    have hr' := Nat.lt_of_lt_of_le hr h₁.size
    intro p hp
    simp only [countPieces, fixupPieces, List.cons_append, List.nil_append, List.mem_cons,
      List.not_mem_nil, or_false] at hp
    rcases hp with rfl | rfl | rfl | rfl | rfl | rfl | rfl | rfl | rfl <;>
      simp [Piece.Aims, Assembler.RelocTarget.fits, Inst.rel32Field?, Inst.abs64Field?, he', hr']
  have hbody : Lays env (do
      comment "arity check"
      load64 .scratch (.ofBase .frame (Int32.ofNat (8 * Frame.argumentCount)))
      cmp64 .scratch (.imm (Int32.ofNat (min n 2147483647)))
      jcc .ae entry
      mov .result .frame
      emitCall .arityFixup
      test64 .result (.reg .result)
      jcc .e (← read).rollbackLabel
      mov .frame .result
      jmp entry
      return l) l (countPieces n entry ++ fixupPieces entry env.rollbackLabel) :=
    (Lays.comment _).bind <| (Lays.emit' _).bind <| (Lays.emit' _).bind <| (Lays.jcc _ _).bind <|
      (Lays.mov (by decide)).bind <| (Lays.emitCall _).bind <| (Lays.emit' _).bind <| .read <|
      (Lays.jcc _ _).bind <| (Lays.mov (by decide)).bind <| (Lays.jmp _).bind <| .pure _
  refine (Closing.of_lays hbody haims).conseq ?_
  rintro _ s₂ _ h₂ ⟨rfl, rfl, hlabels⟩ -
  exact ⟨by rw [hlabels, hl], rfl⟩

lemma Closing.handler {f : Lower Unit} (hl : s.Free l) (hf : Lays env f () qs)
    (ha : ∀ p ∈ qs, p.Aims s.asm.labels.size) :
    Closing env s (Lowering.attach l >>= fun _ => f) [l] fun _ s' qs' =>
      s'.asm.labels[l]? = some (some s.asm.offset) ∧ qs' = qs := by
  refine (Closing.attach hl).andDone fun _ s₁ qs₁ h₁ ⟨hqs₁, hat⟩ => ?_
  subst hqs₁
  refine (Closing.of_lays hf fun p hp => (ha p hp).mono h₁.size).conseq ?_
  rintro _ s₂ _ - ⟨-, rfl, hlabels⟩ -
  exact ⟨by rw [hlabels, hat], rfl⟩

lemma closing_handleOverflow (hl : s.Free l) (hr : env.rollbackLabel < s.asm.labels.size) :
    Closing env s (handleOverflow l) [l] fun _ s' qs =>
      s'.asm.labels[l]? = some (some s.asm.offset) ∧ qs = overflowPieces env.rollbackLabel := by
  refine Closing.handler hl ((Lays.comment _).bind <| (Lays.mov (by decide)).bind <|
    (Lays.emitCall _).bind <| .read <| .jmp _) ?_
  simp [overflowPieces, Piece.Aims, Assembler.RelocTarget.fits, Inst.rel32Field?, Inst.abs64Field?, hr]

lemma closing_handleException {f : Helper} (hl : s.Free l) :
    Closing env s (handleException l f) [l] fun _ s' qs =>
      s'.asm.labels[l]? = some (some s.asm.offset) ∧ qs = handlerPieces f := by
  refine Closing.handler hl ((Lays.mov (by decide)).bind <| (Lays.emitCall _).bind <| .emit' _) ?_
  simp [handlerPieces, Piece.Aims, Assembler.RelocTarget.fits, Inst.abs64Field?]

lemma closing_enterBlocks {bs : List (Block × BlockId)} (hs : env.Labelled s)
    (hb : ∀ b ∈ bs, b.2 < env.graph.blocks.size) :
    Closing env s (enterBlocks bs) [] fun _ _ _ => True := by
  induction bs generalizing s with
  | nil => exact .pure trivial
  | cons b bs ih =>
    have hrest : ∀ {s'}, env.Labelled s' → Closing env s' (enterBlocks bs) [] fun _ _ _ => True :=
      fun h => ih h fun b' hb' => hb b' (List.mem_cons_of_mem _ hb')
    unfold enterBlocks
    refine leads_ite.mpr ⟨fun _ => ?_, fun _ => hrest hs⟩
    refine Closing.here.andThen fun l s₁ qs₁ h₁ _ => ?_
    have hs₁ := hs.closes h₁
    obtain ⟨l', hl', hlt⟩ := hs₁.blocks (hb b List.mem_cons_self)
    have hlabel : Lays env (blockLabel b.2) l' [] := by
      refine fun s => leads_bind.mpr (leads_read.mpr (leads_assume.mpr ⟨fun a ha => ?_, fun e he => ?_⟩))
      · rw [Breach.get, hl'] at ha
        cases ha
        exact ⟨rfl, .of_eq rfl rfl, rfl, rfl⟩
      · rw [Breach.get, hl'] at he
        cases he
    refine (Closing.of_lays (Lays.comment _) (by simp)).andThen fun _ s₂ _ h₂ _ => ?_
    refine (Closing.of_lays lays_pinRegisters (by simp [tagPieces, Piece.Aims])).andThen
      fun _ s₃ _ h₃ _ => ?_
    refine (Closing.of_lays hlabel (by simp)).andThen ?_
    rintro _ s₄ _ h₄ ⟨rfl, -⟩
    have hs₄ := ((hs₁.closes h₂).closes h₃).closes h₄
    refine (Closing.of_lays (Lays.jmp _) ?_).andThen fun _ s₅ _ h₅ _ => ?_
    · have hlt' := Nat.lt_of_lt_of_le hlt (Nat.le_trans h₂.size (Nat.le_trans h₃.size h₄.size))
      simp [Piece.Aims, Assembler.RelocTarget.fits, Inst.rel32Field?, hlt']
    · exact (hrest (hs₄.closes h₅)).andThen fun _ s₆ _ _ _ => .pure (by intros; trivial)

/-- Every exit gets a stub, at its own label. -/
lemma closing_emitStubs {xs : List (Exit × Nat)} (hfree : ∀ x ∈ xs, s.Free x.1.stub)
    (hnodup : (xs.map fun x => x.1.stub).Nodup) :
    Closing env s (emitStubs xs) (xs.map fun x => x.1.stub) fun _ s' qs =>
      (∀ x ∈ xs, ∃ k, s'.asm.labels[x.1.stub]? = some (some k) ∧
        Piece.Within s.asm.offset qs k (stubPieces x.2)) ∧
      xs.length ≤ (qs.flatMap Piece.bytes).length := by
  induction xs generalizing s with
  | nil => exact .pure ⟨by simp, by simp⟩
  | cons x xs ih =>
    obtain ⟨hx, hfree⟩ := List.forall_mem_cons.mp hfree
    rw [List.map_cons, List.nodup_cons] at hnodup
    unfold emitStubs
    refine (Closing.attach hx).bind fun _ s₁ qs₁ h₁ ⟨hqs₁, hl₁⟩ => ?_
    subst hqs₁
    refine (Closing.of_lays (Lays.emit' _) (by simp [Piece.Aims])).andThen
      fun _ s₂ qs₂ h₂ ⟨_, hqs₂, hl₂⟩ => ?_
    refine (Closing.of_lays (Lays.emitReloc rfl) ?_).andThen fun _ s₃ qs₃ h₃ ⟨_, hqs₃, hl₃⟩ => ?_
    · simp [Piece.Aims, Assembler.RelocTarget.fits, Inst.abs64Field?]
    subst hqs₂ hqs₃
    have hfree₃ : ∀ y ∈ xs, s₃.Free y.1.stub := by
      intro y hy
      refine h₃.free.mpr ⟨h₂.free.mpr ⟨h₁.free.mpr ⟨hfree y hy, ?_⟩, by simp⟩, by simp⟩
      rw [List.mem_singleton]
      intro he
      exact hnodup.1 (he ▸ List.mem_map_of_mem hy)
    refine (ih hfree₃ hnodup.2).conseq ?_
    rintro _ s₄ qs₄ h₄ ⟨hstubs, hlen⟩ - - -
    -- the stub of the first exit is what was just added
    have hadds := (h₂.adds.trans h₃.adds).offset
    have h₁offset : s₁.asm.offset = s.asm.offset := by
      rw [h₁.adds.offset]
      simp
    refine ⟨List.forall_mem_cons.mpr ⟨⟨s.asm.offset, h₄.kept (h₃.kept (h₂.kept hl₁)), ?_⟩, ?_⟩, ?_⟩
    · exact (Piece.Within.refl _ (stubPieces x.2)).left qs₄
    · intro y hy
      obtain ⟨k, hk, hw⟩ := hstubs y hy
      rw [hadds, h₁offset] at hw
      exact ⟨k, hk, hw.right⟩
    · simp only [List.nil_append, List.length_cons, List.flatMap_append, List.length_append,
        List.flatMap_cons, Piece.bytes]
      have hpos : 0 < (Inst.setExit (UInt32.ofNat x.2)).encode.length := by simp [Inst.encode]
      omega

def LaidAt (o : Nat) (qs : List Piece) (s : State) (l : Label) (ps : List Piece) : Prop :=
  ∃ k, s.asm.labels[l]? = some (some k) ∧ Piece.Within o qs k ps

/-- What runs from the nodes on rely on: where the handlers and the stubs are, and the entry that
checks the arity. -/
structure Ended (env : Env) (s : State) (n : Nat) (start overflow : Label) (layout : Layout)
    (s' : State) (qs : List Piece) : Prop where
  entry : layout.entry = start
  overflow : LaidAt s.asm.offset qs s' overflow (overflowPieces env.rollbackLabel)
  rollback : LaidAt s.asm.offset qs s' env.rollbackLabel
    (handlerPieces .lookupExceptionHandlerFromCaller)
  program (h : layout.arityEntry = none) : env.graph.kind = .program
  arity {l : Label} (h : layout.arityEntry = some l) : LaidAt s.asm.offset qs s' l
    (countPieces n start ++ fixupPieces start env.rollbackLabel)
  stub {i : Nat} {x : Exit} (h : s.exits[i]? = some x) :
    LaidAt s.asm.offset qs s' x.stub (stubPieces i)
  size : s.exits.size ≤ (qs.flatMap Piece.bytes).length

lemma logged_eq (h : s'.logged = s.logged) : s'.exits = s.exits ∧ s'.idle = s.idle :=
  ⟨congrArg Prod.fst h, congrArg (fun x => x.2.2.2) h⟩

/-- What comes after the arity check. -/
lemma closing_closeCode {entry overflow : Label} {arity : Option Label} (hs : env.Labelled s)
    (hfree : ∀ l ∈ [overflow, env.exceptionLabel, env.rollbackLabel] ++
      s.exits.toList.map Exit.stub, s.Free l)
    (hnodup : ([overflow, env.exceptionLabel, env.rollbackLabel] ++
      s.exits.toList.map Exit.stub).Nodup) (hpool : s.pool = #[]) :
    Closing env s (closeCode env.graph entry overflow arity)
      ([overflow, env.exceptionLabel, env.rollbackLabel] ++ s.exits.toList.map Exit.stub)
      fun layout s' qs => layout.entry = entry ∧ layout.arityEntry = arity ∧
        LaidAt s.asm.offset qs s' overflow (overflowPieces env.rollbackLabel) ∧
        LaidAt s.asm.offset qs s' env.rollbackLabel
          (handlerPieces .lookupExceptionHandlerFromCaller) ∧
        (∀ i x, s.exits[i]? = some x → LaidAt s.asm.offset qs s' x.stub (stubPieces i)) ∧
        s.exits.size ≤ (qs.flatMap Piece.bytes).length := by
  have hstubs : s.exits.toList.zipIdx.map (fun x => x.1.stub) = s.exits.toList.map Exit.stub := by
    rw [show (fun x : Exit × Nat => x.1.stub) = Exit.stub ∘ Prod.fst from rfl, ← List.map_map,
      List.zipIdx_map_fst]
  simp only [List.cons_append, List.nil_append, List.forall_mem_cons] at hfree
  obtain ⟨ho, he, hr, hx⟩ := hfree
  simp only [List.cons_append, List.nil_append, List.nodup_cons, List.mem_cons, not_or] at hnodup
  obtain ⟨⟨hoe, hor, hox⟩, ⟨her, hex⟩, hrx, hxx⟩ := hnodup
  unfold closeCode closeInsts closePool
  simp only [bind_assoc, pure_bind]
  refine (closing_handleOverflow ho hs.rollback).bind fun _ s₁ qs₁ h₁ ⟨hl₁, hqs₁⟩ => .read ?_
  refine (closing_handleException (h₁.free.mpr ⟨he, by simpa using Ne.symm hoe⟩)).bind
    fun _ s₂ qs₂ h₂ _ => .read ?_
  refine (closing_handleException (h₂.free.mpr ⟨h₁.free.mpr ⟨hr, by simpa using Ne.symm hor⟩,
    by simpa using Ne.symm her⟩)).bind fun _ s₃ qs₃ h₃ ⟨hl₃, hqs₃⟩ => ?_
  have hs₃ := ((hs.closes h₁).closes h₂).closes h₃
  refine (closing_enterBlocks hs₃ ?_).andThen fun osr s₄ qs₄ h₄ _ => .get ?_
  · intro b hb
    obtain ⟨-, hlt, -⟩ := List.mem_zipIdx hb
    simpa using hlt
  have hlogged := h₄.logged.trans (h₃.logged.trans (h₂.logged.trans h₁.logged))
  obtain ⟨hexits, hidle⟩ := logged_eq hlogged
  have hfree : ∀ x ∈ s.exits.toList.zipIdx, s₄.Free x.1.stub := by
    intro x hmem
    have hstub : x.1.stub ∈ s.exits.toList.map Exit.stub := hstubs ▸ List.mem_map_of_mem hmem
    refine h₄.free.mpr ⟨h₃.free.mpr ⟨h₂.free.mpr ⟨h₁.free.mpr ⟨hx _ hstub, ?_⟩, ?_⟩, ?_⟩, by simp⟩ <;>
      rw [List.mem_singleton] <;> intro hl <;> rw [hl] at hstub
    · exact hox hstub
    · exact hex hstub
    · exact hrx hstub
  rw [hexits, ← hstubs]
  refine (closing_emitStubs hfree (hstubs ▸ hxx)).andDone fun _ s₅ qs₅ h₅ ⟨hx₅, hlen⟩ => .get ?_
  refine (show Closing env s₅ (modify fun s => { s with asm := s.asm.align 8 }) [] fun _ _ _ => True from
    ⟨_, .data s₅ _, trivial⟩).andThen fun _ s₆ qs₆ h₆ _ => .get ?_
  have hpool₆ : s₆.pool = #[] := by
    have hidle₆ := (logged_eq (h₆.logged.trans h₅.logged)).2.trans hidle
    rw [← hpool]
    exact congrArg (fun x => x.2.2.2.1) hidle₆
  rw [hpool₆]
  refine .pure ?_
  intro _ h₅' _ h₃' _ h₁'
  refine ⟨rfl, rfl, ⟨_, h₁'.kept hl₁, ?_⟩, ⟨_, h₃'.kept hl₃, ?_⟩, fun i x hi => ?_, ?_⟩
  · rw [hqs₁]
    exact (Piece.Within.refl _ _).left _
  · rw [h₂.adds.offset, h₁.adds.offset, hqs₃]
    exact ((Piece.Within.refl _ _).left _).right.right
  · obtain ⟨k, hk, hw⟩ := hx₅ (x, i)
      (List.mk_mem_zipIdx_iff_getElem?.mpr (by rw [Array.getElem?_toList, hi]))
    rw [h₄.adds.offset, h₃.adds.offset, h₂.adds.offset, h₁.adds.offset] at hw
    exact ⟨k, h₅'.kept hk, (hw.left _).right.right.right.right⟩
  · rw [List.length_zipIdx, Array.length_toList] at hlen
    simp only [List.flatMap_append, List.length_append]
    omega

lemma closing_emitSlowPaths (h : s.slowPaths = #[]) :
    Closing env s emitSlowPaths [] fun _ s' qs => qs = [] ∧ s'.asm = s.asm := by
  rw [emitSlowPaths, Closing, leads_bind, leads_get, leads_bind, h]
  refine ⟨[], ?_, rfl, rfl⟩
  exact ⟨.of_eq rfl rfl, by simp, id, by simp [State.Free], Nat.le_refl _, by
    simp [State.logged, State.idle]⟩

lemma closing_arityEntry {n : Nat} {entry : Label} (he : entry < s.asm.labels.size)
    (hr : env.rollbackLabel < s.asm.labels.size) :
    Closing env s (arityEntry env.graph n entry) [] fun a s' qs =>
      (a = none → env.graph.kind = .program) ∧
      ∀ l, a = some l → s'.asm.labels[l]? = some (some s.asm.offset) ∧
        qs = countPieces n entry ++ fixupPieces entry env.rollbackLabel := by
  unfold arityEntry
  split
  · refine leads_map.mpr ((closing_checkArity he hr).conseq ?_)
    rintro l s' qs - ⟨hl, rfl⟩
    refine ⟨nofun, ?_⟩
    rintro _ ⟨⟩
    exact ⟨hl, rfl⟩
  · rename_i hk
    exact .pure ⟨fun _ => hk, nofun⟩

/-- All that comes after the nodes can be laid down, and it closes every label. -/
lemma closing_lowerRest {n : Nat} {entry overflow : Label} (hs : env.Labelled s)
    (he : entry < s.asm.labels.size)
    (hfree : ∀ l ∈ [overflow, env.exceptionLabel, env.rollbackLabel] ++
      s.exits.toList.map Exit.stub, s.Free l)
    (hnodup : ([overflow, env.exceptionLabel, env.rollbackLabel] ++
      s.exits.toList.map Exit.stub).Nodup) (hpool : s.pool = #[]) (hslow : s.slowPaths = #[]) :
    Closing env s (lowerRest n entry overflow)
      ([overflow, env.exceptionLabel, env.rollbackLabel] ++ s.exits.toList.map Exit.stub)
      (Ended env s n entry overflow) := by
  rw [lowerRest_eq]
  refine (show Closing env s graph [] fun g s' qs => g = env.graph ∧ s = s' ∧
    qs = [] from ⟨[], .refl s, rfl, rfl, rfl⟩).andThen ?_
  rintro _ _ _ - ⟨rfl, rfl, rfl⟩
  refine (closing_emitSlowPaths hslow).andThen fun _ s₁ qs₁ h₁ ⟨hqs₁, hasm₁⟩ => ?_
  subst hqs₁
  have hs₁ := hs.closes h₁
  refine (closing_arityEntry (hasm₁ ▸ he) hs₁.rollback).andThen fun a s₂ qs₂ h₂ ⟨hnone, ha⟩ => ?_
  have hlogged := h₂.logged.trans h₁.logged
  obtain ⟨hexits, hidle⟩ := logged_eq hlogged
  have hpool₂ : s₂.pool = #[] := by
    rw [← hpool]
    exact congrArg (fun x => x.2.2.2.1) hidle
  rw [← hexits] at hfree hnodup ⊢
  refine (closing_closeCode (hs₁.closes h₂) (fun l hl => ?_) hnodup hpool₂).conseq ?_
  · exact h₂.free.mpr ⟨h₁.free.mpr ⟨hfree l hl, by simp⟩, by simp⟩
  rintro layout s₃ qs₃ h₃ ⟨hentry, harity, hover, hroll, hstubs, hsize⟩ - - -
  have hoffset : s₁.asm.offset = s.asm.offset := by rw [hasm₁]
  have hlaid : ∀ {l ps}, LaidAt s₂.asm.offset qs₃ s₃ l ps →
      LaidAt s.asm.offset ([] ++ (qs₂ ++ qs₃)) s₃ l ps := by
    rintro l ps ⟨k, hk, hw⟩
    rw [h₂.adds.offset, hoffset] at hw
    exact ⟨k, hk, hw.right⟩
  refine ⟨hentry, hlaid hover, hlaid hroll, fun h => hnone (harity ▸ h), fun {l} hl => ?_,
    fun {i x} hi => hlaid (hstubs i x (hexits ▸ hi)), ?_⟩
  · obtain ⟨hat, rfl⟩ := ha l (harity ▸ hl)
    rw [hoffset] at hat
    exact ⟨_, h₃.kept hat, (Piece.Within.refl _ (countPieces n entry ++
      fixupPieces entry env.rollbackLabel)).left qs₃⟩
  · simp only [List.nil_append, List.flatMap_append, List.length_append]
    rw [← hexits]
    omega

end Lowering
end Speculation
