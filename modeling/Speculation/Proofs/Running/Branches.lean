import Speculation.Proofs.Lowering.Stays
import Speculation.Proofs.Running.Conversion
import Speculation.Proofs.Running.Guards
import Speculation.Proofs.Running.Successors
import Speculation.Proofs.Switch.Compiled

/-!
Branches while code is running.

A branch jumps to the label of one of two blocks, or it goes on: nothing is emitted for a jump to the
block that comes next. There the label of that block is attached, as soon as the block that ends with the
branch is done. A comparison that is lowered together with the branch after it ends its block, too.

A branch on a boolean looks at its lowest bit, or at the word that a helper gives for it.
-/

namespace Speculation

open Lowering

namespace Lowering

variable {env : Env} {s s' : State} {ls : List Label} {b : BlockId} {l : Label} {c : Cond}

/-- The block that is being lowered stays the same. -/
lemma leads_jcc_block : Leads env s (jcc c l) (fun _ s' => s'.block = s.block) (fun _ => False)
    fun _ _ => True := by
  obtain ⟨asm, hasm, -⟩ := Assembler.adds_emitReloc (a := s.asm) (t := .label l) (i := .jcc c 0) rfl
  simp only [jcc, leads_discard, emitReloc, leads_bind, leads_get, hasm, leads_assume_ok]
  rfl

lemma leads_lowerAt_skipped {j : Nat} {n : NodeId} (hs : s.skipNext = true) :
    Leads env s (lowerAt j n) (fun _ s' => s'.asm = s.asm) (fun _ => True) fun _ _ => True := by
  rw [lowerAt, leads_bind, leads_get, hs, if_pos rfl, leads_bind, leads_modify, advance, leads_bind,
    leads_get, leads_bind, leads_graph, leads_bind, leads_assume]
  exact ⟨fun _ _ => rfl, fun _ _ => trivial⟩

/-- A block starts where the code ends that there is before. -/
lemma gives_lowerBlock_start : Gives env ls s (lowerBlock b) fun _ s' =>
    ∀ l, env.blockLabels[b]? = some l → s'.asm.labels[l]? = some (some s.asm.offset) := by
  have hgraph : Gives env ls s graph fun _ s₁ => s₁.asm = s.asm := fun _ _ => ⟨.refl s, rfl⟩
  have hassume : ∀ (x : Except Breach Block) s, Gives env ls s (assume x) fun _ s₁ => s₁.asm = s.asm :=
    fun x s _ _ => leads_assume.mpr ⟨fun _ _ => ⟨.refl s, rfl⟩, fun _ _ => .refl s⟩
  have hmodify : ∀ s, Gives env ls s (modify fun s => { s with block := b }) fun _ s₁ => s₁.asm = s.asm :=
    fun _ _ _ => ⟨Unseen.proceeds rfl, rfl⟩
  have hlabel : ∀ s, Gives env ls s (blockLabel b) fun l s₁ =>
      env.blockLabels[b]? = some l ∧ s₁.asm = s.asm := fun s _ _ =>
    leads_bind.mpr (leads_read.mpr (leads_assume.mpr
      ⟨fun _ hl => ⟨.refl s, Breach.get_eq_ok.mp hl, rfl⟩, fun _ _ => .refl s⟩))
  have hattach : ∀ l s, Gives env ls s (attach l) fun _ s₁ =>
      s₁.asm.labels[l]? = some (some s.asm.offset) := fun l s hs hl =>
    (Leads.and (gives_attach hs hl) leads_attach).mono
      (fun _ s₁ ⟨⟨hp, hat, _⟩, h₁, _⟩ => ⟨hp, h₁ ▸ hat⟩) (fun _ h => h.1) fun _ _ h => h.1
  unfold lowerBlock
  refine hgraph.bind fun g s₁ _ h₁ => (hassume _ s₁).bind fun blk s₂ _ h₂ =>
    (hmodify s₂).bind fun _ s₃ _ h₃ => (hlabel s₃).bind fun l s₄ _ ⟨hl, h₄⟩ =>
      (hattach l s₄).bind fun _ s₅ _ h₅ => ?_
  refine Gives.conseq (P := fun _ _ => True) (Gives.of_extending (.ite ?_ ?_))
    fun _ s₆ h₆ _ _ _ _ _ _ l' hl' => ?_
  · exact .bind (.comment _) fun _ => .bind (.resetBlock _) fun _ => .bind (.modify fun _ => rfl)
      fun _ => .bind (.forIn fun _ _ => .bind (.lowerAt _ _) fun _ => .pure _) fun _ => .pure _
  · exact .bind .read fun _ => .ite (.emit' rfl) (.pure _)
  obtain rfl := Option.some.inj (hl.symm.trans hl')
  rw [← h₁, ← h₂, ← h₃, ← h₄]
  exact h₆.labels h₅

end Lowering

/-! ### Booleans -/

lemma Represents.boolean {format : DataFormat} {w : UInt64} {x : Bool} (h : Represents format w (.ofBool x))
    (hne : format ≠ .storage) :
    (format = .boolean ∨ format = .jsBoolean ∨ format = .js) ∧ w &&& 1 = Execution.boolWord x := by
  have hbits : ∀ x, (Value.ofBool x).bits &&& 1 = Execution.boolWord x := by decide
  cases format with
  | boolean =>
    obtain ⟨b, hb, rfl⟩ := h
    have hraw : ∀ b x, Value.ofBool x = .ofBool b → (if b then 1 else 0 : UInt64) &&& 1 = Execution.boolWord x := by
      decide
    exact ⟨.inl rfl, hraw b x hb⟩
  | jsBoolean => exact ⟨.inr (.inl rfl), h.1 ▸ hbits x⟩
  | js => exact ⟨.inr (.inr rfl), h ▸ hbits x⟩
  | none => exact h.elim
  | storage => exact absurd rfl hne
  | int32 =>
    obtain ⟨i, hi, -⟩ := h
    have hint := Value.isInt32_ofInt32 i
    rw [← hi] at hint
    cases x <;> cases hint
  | jsInt32 =>
    obtain ⟨-, i, hi⟩ := h
    have hint := Value.isInt32_ofInt32 i
    rw [← hi] at hint
    cases x <;> cases hint
  | double => cases x <;> cases h
  | jsDouble => cases x <;> cases h.2
  | cell => cases x <;> cases h.2
  | jsCell => cases x <;> cases h.2

lemma World.runs_toBoolean_ofBool (w : World) (x : Bool) :
    runs (Semantics.toBoolean (.ofBool x)) w = (.ok x, w) := by
  cases x <;> rfl

namespace Cond

variable {x : Bool} {d : Option Ordering}

/-- Only the lowest bit is looked at. -/
lemma holds_ne_test_one {w : UInt64} (h : w &&& 1 = Execution.boolWord x) :
    ne.holds (Size.s32.run .and w (Int32.toInt64 1).toUInt64).2 d = x := by
  have hlow : w.toUInt32 &&& 1 = (Execution.boolWord x).toUInt32 := by rw [← h, UInt64.toUInt32_and]; rfl
  show (!((w.toUInt32 &&& 1).toBitVec == 0#32)) = x
  rw [hlow]
  cases x <;> rfl

/-- The word is not zero if it is true. -/
lemma holds_ne_boolWord :
    ne.holds (Size.s32.run .and (Execution.boolWord x) (Execution.boolWord x)).2 d = x := by
  cases x <;> rfl

end Cond

namespace Course

variable {α : Type} {k : Course} {ls : List Label} {s s' : State} {r r' : Registers} {mem mem' : Memory}
  {t : Moment} {b taken notTaken : BlockId} {c : Cond} {n : NodeId} {e : Edge} {q : Gpr} {x : Bool}
  {format : DataFormat} {T : State → Moment → Prop}

/-- A machine there is on its way to a block: to its label, or straight on, if the block comes next after
the one that is being lowered. -/
def Heads (k : Course) (s : State) (b : BlockId) (σ : Spot) : Prop :=
  (∃ l, k.env.blockLabels[b]? = some l ∧ σ = .label l) ∨ b = s.block + 1 ∧ σ = .next

namespace Wp

/-- The label of a block is looked up. There is nothing to show if there is no such block. -/
lemma bindBlockLabel {f : Label → Lower α} {Q : α → State → Moment → Prop}
    (hf : ∀ l, k.env.blockLabels[b]? = some l → k.Wp (l :: ls) s (f l) t Q T) :
    k.Wp ls s (Lowering.blockLabel b >>= f) t Q T := by
  cases hl : k.env.blockLabels[b]? with
  | some l => exact .blockLabel hl (hf l hl)
  | none =>
    intro _ _ _
    have hget : Breach.get k.env.blockLabels b = .error .outOfRange := by simp [Breach.get, hl]
    rw [leads_bind, Lowering.blockLabel, leads_bind, leads_read, hget]
    trivial

variable (hk : k.Sound)
include hk

lemma jumpToBlock {Q : Unit → State → Moment → Prop}
    (hQ : ∀ s' σ, k.Heads s' b σ → Q () s' ⟨σ, r, mem⟩) :
    k.Wp ls s (jumpToBlock b) ⟨.next, r, mem⟩ Q T := by
  refine .look (P := (· = s)) (F := fun _ _ => False) (fun _ => ⟨rfl, rfl⟩) ?_
  rintro _ rfl
  refine .ite (fun hb => .pure (hQ _ _ (.inr ⟨hb, rfl⟩))) fun _ => .bindBlockLabel fun l hl => ?_
  exact .jmp hk List.mem_cons_self fun s₁ _ => hQ _ _ (.inl ⟨l, hl, rfl⟩)

/-- A branch goes to the one block or to the other. -/
lemma branch {Q : Unit → State → Moment → Prop}
    (hQ : ∀ s' σ, k.Heads s' (if c.holds r.flags r.order then taken else notTaken) σ →
      Q () s' ⟨σ, r, mem⟩) : k.Wp ls s (branch c taken notTaken) ⟨.next, r, mem⟩ Q T := by
  refine .look (P := (· = s)) (F := fun _ _ => False) (fun _ => ⟨rfl, rfl⟩) ?_
  rintro _ rfl
  refine .ite (fun hb => .bindBlockLabel fun l hl => ?_) fun _ => .bindBlockLabel fun l hl => ?_
  · -- the condition is inverted, and the machine goes on if it held
    refine Wp.weaken (Wp.and (Q := fun _ _ t => t = ⟨if c.holds r.flags r.order then .next else .label l, r, mem⟩)
      (.jcc hk List.mem_cons_self (fun hc s₁ _ => ?_) fun hc s₁ _ => ?_) fun _ => leads_jcc_block)
      fun _ s₁ t₁ ⟨ht, hblock⟩ => ?_
    · rw [Cond.holds_invert, Bool.not_eq_true'] at hc
      rw [hc]
      rfl
    · rw [Cond.holds_invert, Bool.not_eq_false'] at hc
      rw [hc]
      rfl
    · subst ht
      refine hQ _ _ ?_
      split
      · exact .inr ⟨hblock ▸ hb, rfl⟩
      · exact .inl ⟨l, hl, rfl⟩
  · refine .bind (.jcc hk List.mem_cons_self (fun hc s₁ _ => ?_) fun hc s₁ _ => ?_)
    · refine .skip (Calm.jumpToBlock _) (.jumpToBlock _) nofun fun _ s₂ _ => hQ _ _ ?_
      rw [if_pos hc]
      exact .inl ⟨l, hl, rfl⟩
    · refine .jumpToBlock hk fun s₂ σ hσ => hQ _ _ ?_
      rwa [if_neg (by simp [hc])]

end Wp

/-- A machine is on its way to the one block or to the other, or it has left. Since it had the registers `r`
and the memory `mem`, memory has changed at most in the slots of values. -/
def Parts (k : Course) (taken notTaken : BlockId) (out : Except ExitKind Bool) (r : Registers) (mem : Memory)
    (s : State) (t : Moment) : Prop :=
  Confined k.env.graph r mem t.memory ∧
  match out with
  | .ok x => k.Heads s (if x then taken else notTaken) t.spot
  | .error kind => t.spot = .exit kind

/-- A boolean has a use as an operand. What a compile knows of it does not exclude it. -/
structure Truth (k : Course) (s : State) (e : Edge) (x : Bool) : Prop where
  value : k.val e.node = .ofBool x
  constant {v : Value} (h : k.env.graph.valueConstant e.node = .ok (some v)) : k.val e.node = v
  admits : (s.facts.known e.node).intersects .boolean = true
  plain : Plain s.ledger e.node

namespace Wp

/-- A boolean in a register is found to be one. -/
lemma booleanFromGpr {shared : Bool} {Q : GprOperand → State → Moment → Prop} (hk : k.Sound)
    (hv : k.val e.node = .ofBool x) (ho : Owned k.env.graph s e.node (.gpr q))
    (hrep : Represents format (r.gpr q) (k.val e.node)) (hne : format ≠ .storage)
    (hQ : ∀ op s' r', r'.gpr op.reg &&& 1 = Execution.boolWord x → Q op s' ⟨.next, r', mem⟩) :
    k.Wp ls s (booleanFromGpr e q format shared) ⟨.next, r, mem⟩ Q T := by
  rw [hv] at hrep
  obtain ⟨hformat, hbit⟩ := hrep.boolean hne
  have ho' : ∀ {s'}, k.Follows s s' → Owned k.env.graph s' e.node (.gpr q) := fun h =>
    ho.of_owner (by rw [h.toSame.owner])
  have hscratch : q ≠ .scratch := by
    obtain ⟨_, _, -, -, howner⟩ := ho
    exact (Location.ne_of_mem (Bank.mem_allocatable_of_owner howner)).2.2.2
  rcases hformat with rfl | rfl | rfl
  · exact .pure (hQ _ s r hbit)
  · exact .pure (hQ _ s r hbit)
  -- the check is passed
  have hpasses : ∀ {r' : Registers} {q' : Gpr} {d : Option Ordering}, r'.gpr q' = r.gpr q ^^^ 6 →
      Cond.ne.holds (Size.s64.run .and (r'.gpr q') (r'.operand (.imm (-2)))).2 d = false := fun hq => by
    rw [Cond.holds_ne_and_high (hq.trans (by rw [show r.gpr q = (Value.ofBool x).bits from hrep])),
      Value.isBoolean_ofBool]
    rfl
  refine .look (fun _ => looks_provenIs) fun b _ => .ite (fun _ => ?_) fun _ => .ite (fun _ => ?_) fun _ => ?_
  · exact .settle ho nofun fun s₁ => hQ _ s₁ r hbit
  · refine .bind (.mov hk fun s₁ h₁ => .bind (.emit' hk rfl Inst.steps_alu fun s₂ h₂ => ?_))
    refine .bind (.emit' hk rfl Inst.steps_test fun s₃ h₃ => .bind (.guard' hk (by decide)
      (fun hc s₄ h₄ => ?_) fun hc s₄ h₄ => ?_))
    · have hno := hc.symm.trans (hpasses ?_)
      · cases hno
      · rw [Registers.gpr_xor_false, Registers.gpr_setGpr, if_pos rfl]
    · refine .settle (ho' (((h₁.trans h₂).trans h₃).trans h₄)) nofun fun s₅ => hQ _ s₅ _ ?_
      simpa [hscratch] using hbit
  · refine .bind (.emit' hk rfl Inst.steps_alu fun s₁ h₁ => .bind (.emit' hk rfl Inst.steps_test
      fun s₂ h₂ => .bind (.guardUndo hk (by decide) (fun hc s₃ h₃ => ?_) fun hc s₃ h₃ => ?_)))
    · have hno := hc.symm.trans (hpasses (Registers.gpr_xor_false _ _ _))
      cases hno
    · refine .settle (ho' ((h₁.trans h₂).trans h₃)) nofun fun s₄ => hQ _ s₄ _ ?_
      have hxor : ∀ x, ((Value.ofBool x).bits ^^^ 6) &&& 1 = Execution.boolWord x := by decide
      show (({ r with flags := _ } : Registers).setGpr q _).gpr q &&& 1 = _
      rw [Registers.gpr_xor_false, show r.gpr q = (Value.ofBool x).bits from hrep]
      exact hxor x

lemma fillBoolean {Q : GprOperand → State → Moment → Prop} (hk : k.Sound)
    (hst : Stands k.val s.ledger r mem) (he : k.Truth s e x)
    (hQ : ∀ op s' r' mem', Confined k.env.graph r mem mem' → r'.gpr op.reg &&& 1 = Execution.boolWord x →
      Q op s' ⟨.next, r', mem'⟩) :
    k.Wp ls s (fillBoolean e) ⟨.next, r, mem⟩ Q T := by
  have hdouble : ∀ {w}, ¬Represents .double w (k.val e.node) := fun h => by
    rw [he.value] at h
    simpa using (h.boolean nofun).1
  refine .look (fun _ => looks_mayBe) fun b hb => .ite (fun _ => ?_) fun hmay => absurd (hb.trans he.admits) hmay
  refine .look leads_locate_found fun res hres => ?_
  cases res with
  | constant v =>
    obtain rfl : v = .ofBool x := (he.constant hres).symm.trans he.value
    have hsome : (Value.ofBool x).boolean? = some x := by cases x <;> rfl
    dsimp only
    rw [hsome]
    refine .bind (.allocGpr hk hst fun q s₁ mem₁ _ hp₁ _ => .bind (.discard (.movImm hk fun _ s₂ _ =>
      .pure (hQ _ s₂ _ mem₁ hp₁.memory ?_))))
    have hbits : ∀ x, (Value.ofBool x).bits &&& 1 = Execution.boolWord x := by decide
    rw [Registers.gpr_setGpr, if_pos rfl]
    exact hbits x
  | gpr q format =>
    obtain ⟨d, i, y, hentry, hl, hf⟩ := hres
    refine .intro fun hs _ => .look (P := fun _ => True) (F := fun _ _ => False) (fun _ => ⟨rfl, trivial⟩)
      fun shared _ => .bind (.lockGpr fun s₁ hl₁ _ => ?_)
    have hrep := hst.register hentry.entry hentry.named (by simp [hl])
    rw [hl, hf] at hrep
    exact .booleanFromGpr hk he.value ((hs.owned_of_entry hentry hl nofun).of_owner (hl₁.owner _)) hrep
      (hf ▸ (he.plain hentry.entry hentry.named).1) fun op s₂ r₂ hbit => hQ op s₂ r₂ mem (.refl _ r mem) hbit
  | fpr f =>
    obtain ⟨d, i, y, hentry, hl⟩ := hres
    have hrep := hst.register hentry.entry hentry.named (by simp [hl])
    rw [hst.double hentry.entry hl] at hrep
    exact absurd hrep hdouble
  | spilled format =>
    obtain ⟨d, i, y, hentry, hl, hf, hne⟩ := hres
    split
    any_goals cases ‹Residence.spilled format = _›
    · obtain ⟨w, -, hrep⟩ := hst.slot hentry.entry hentry.named (hf ▸ nofun)
      exact absurd (hf ▸ hrep) hdouble
    · refine .bind (.fillSpilledGpr hk hst hentry hl hf hne fun q s₁ r₁ mem₁ hb₁ ho₁ hrep₁ _ => ?_)
      exact .booleanFromGpr hk he.value ho₁ hrep₁ (hf ▸ (he.plain hentry.entry hentry.named).2)
        fun op s₂ r₂ hbit => hQ op s₂ r₂ mem₁ hb₁.preserves.memory hbit

end Wp

/-- **Branches on booleans.** -/
lemma Ends.lowerBranch {d : Node} {taken notTaken : BlockId} (hk : k.Sound)
    (hd : k.env.graph.nodes[k.cur]? = some d) (hn : d.children = #[e])
    (hkind : e.kind = .boolean ∨ e.kind = .untyped) (hst : Stands k.val s.ledger r mem)
    (he : k.Truth s e x) : k.Ends ls s (lowerBranch taken notTaken) ⟨.next, r, mem⟩
      (k.Parts taken notTaken (.ok x) r mem) T := by
  refine .child fun d₁ e₁ hd₁ he₁ => ?_
  obtain rfl := Option.some.inj (hd.symm.trans hd₁)
  obtain rfl : e = e₁ := by simpa [hn] using he₁
  rcases hkind with hkind | hkind <;> rw [hkind]
  · refine .of_wp (.bind (.fillBoolean hk hst he fun op s₁ r₁ mem₁ hconf hbit => ?_))
    refine .bind (.emit' hk rfl Inst.steps_test fun s₂ _ => .branch hk fun s₃ σ hσ => ⟨hconf, ?_⟩)
    have hdecides : ∀ order, Cond.ne.holds (Size.s32.run .and (r₁.gpr op.reg)
      (Int32.toInt64 1).toUInt64).2 order = x := fun order => Cond.holds_ne_test_one hbit
    rw [← hdecides r₁.order]
    exact hσ
  · refine .of_wp (.bind (.fillValue hk hst (fun _ => he.constant) fun op s₁ r₁ mem₁ hb₁ hbits₁ => ?_))
    rw [he.value] at hbits₁
    refine .bind (.callReading (x := Execution.boolWord x) hk rfl rfl nofun hb₁.stands rfl
      (fun r₂ mem₂ o hpasses _ => ?_) fun s₂ r₂ mem₂ _ hsince hresult => ?_)
    · obtain ⟨hfirst, -⟩ : r₂.gpr .first = r₁.gpr op.reg ∧ True := hpasses.passes
      simp only [Execution.serve]
      rw [hfirst, hbits₁]
      exact World.runs_bind_of_ok (World.runs_toBoolean_ofBool _ x)
    · refine .bind (.unlockGpr fun s₃ _ _ _ => .bind (.emit' hk rfl Inst.steps_test fun s₄ _ =>
        .branch hk fun s₅ σ hσ => ⟨(hb₁.preserves.toSpares.since.trans hsince).memory, ?_⟩))
      have hdecides : ∀ order, Cond.ne.holds (Size.s32.run .and (r₂.gpr .result) (r₂.gpr .result)).2 order =
          x := fun order => by rw [hresult, Cond.holds_ne_boolWord]
      rw [← hdecides r₂.order]
      exact hσ

end Course

/-- The machine has come to the code of the one block or of the other, or it has left through an exit of
the node `n`. -/
def Machine.Forks (m : Machine) (p : Plan) (a : Artifact) (n : NodeId) (taken notTaken : BlockId)
    (out : Except ExitKind Bool) : Prop :=
  match out with
  | .ok x => p.Starts (if x then taken else notTaken) m.place
  | .error kind => ∃ x ∈ a.exits, x.exit.kind = kind ∧ x.exit.node = n ∧ m.place = x.stub

namespace Plan

variable {p : Plan} {g : Draft} {base : UInt64} {a : Artifact} {frame : FrameLayout} {layout : Layout}
  {b taken notTaken : BlockId} {j : Nat} {n : NodeId} {d : Node} {s s₁ final : State} {blk : Block} {c : Site}
  {val : NodeId → Value} {r : Registers} {mem : Memory} {out : Except ExitKind Bool}

def EndsWith (blk : Block) (j : Nat) (s : State) : Prop :=
  blk.nodes.size = j + 1 ∨ blk.nodes.size = j + 2 ∧ s.skipNext = true

lemma TakesUp.leads_lowerNodes (ht : p.TakesUp frame b j n d s) (hop : d.op.isConstant = false)
    (hhint : ∀ v, d.op ≠ .movHint v) (hb : p.graph.blocks[b]? = some blk) (hlast : EndsWith blk j s₁)
    (hx : outcome (lowerNode d.op) (p.env frame) (s.visiting j n d.op) = (.ok (), s₁)) :
    Leads (p.env frame) s (lowerNodes (blk.nodes.toList.zipIdx.drop j))
      (fun _ s' => s'.asm.offset = s₁.asm.offset) (fun _ => True) fun _ _ => True := by
  obtain ⟨blk', hb', -, hn⟩ := ht.block
  obtain rfl := Option.some.inj (hb.symm.trans hb')
  have hnode : Leads (p.env frame) s (lowerAt j n) (fun _ => Succeeds p.graph n s₁) (fun _ => True)
      fun _ _ => True := leads_lowerAt_succeeds ht.taken ht.node ht.generated hop hhint hx
  have hlen : blk.nodes.toList.zipIdx.length = blk.nodes.size := by simp
  rw [Block.drop_zipIdx hn, lowerNodes_cons]
  refine hnode.then fun _ s₂ h₂ => ?_
  rcases hlast with hsize | ⟨hsize, hskip⟩
  · rw [List.drop_of_length_le (by omega)]
    exact h₂.offset
  · obtain ⟨m, hm⟩ : ∃ m, blk.nodes[j + 1]? = some m :=
      ⟨_, Array.getElem?_eq_getElem (by omega)⟩
    rw [Block.drop_zipIdx hm, List.drop_of_length_le (by omega), lowerNodes_cons]
    refine (leads_lowerAt_skipped (h₂.skip.trans hskip)).then fun _ s₃ h₃ => ?_
    show s₃.asm.offset = s₁.asm.offset
    rw [h₃]
    exact h₂.offset

/-- The block that comes next starts where the code of the last node of a block ends. -/
lemma TakesUp.next_starts (hf : p.lower = .ok (frame, layout, final)) (ht : p.TakesUp frame b j n d s)
    (hop : d.op.isConstant = false) (hhint : ∀ v, d.op ≠ .movHint v) (hb : p.graph.blocks[b]? = some blk)
    (hlast : EndsWith blk j s₁)
    (hx : outcome (lowerNode d.op) (p.env frame) (s.visiting j n d.op) = (.ok (), s₁))
    (hnext : b + 1 < p.graph.blocks.size) : p.Starts (b + 1) s₁.asm.offset := by
  obtain ⟨-, hout⟩ := outcome_of_lower hf
  have hr : blk.reachable = true := by
    obtain ⟨blk', hb', hr, -⟩ := ht.block
    exact Option.some.inj (hb.symm.trans hb') ▸ hr
  obtain ⟨labels, hs⟩ := ht.lowered
  obtain ⟨hproceeds, hentry⟩ :=
    Leads.result (gives_lowerUpTo (aimed_start p frame) (List.forall_mem_nil _)) hs
  rw [outcome_lowerGraph hb hr (k := j), outcome_bind, hs] at hout
  have hblock : (p.env frame).graph.block b = .ok blk := by simp [env, Graph.block, Breach.get, hb]
  obtain ⟨t, ht'⟩ : ∃ t, p.graph.blocks.size - (b + 1) = t + 1 :=
    ⟨_, (Nat.succ_pred_eq_of_pos (Nat.sub_pos_of_lt hnext)).symm⟩
  let P : State → Prop := fun s' => Aimed (p.env frame) s' ∧ s'.IsCode labels.1
  have hP : Lasting (p.env frame) P := ⟨fun h => h.1, fun h hp => ⟨hp.aimed h.1, hp.isCode h.2⟩⟩
  have hnodes := (hP.leads ⟨hproceeds.aimed (aimed_start p frame), hentry⟩
    (.lowerNodes (blk.nodes.toList.zipIdx.drop j))).and (ht.leads_lowerNodes hop hhint hb hlast hx)
  have hfrom : Leads (p.env frame) s (lowerFrom p.block.numParameters b j labels)
      (fun _ s' => s'.asm.labels[b + 1]? = some (some s₁.asm.offset)) (fun _ => True)
      fun _ _ => True := by
    rw [lowerFrom, leads_bind, leads_graph, hblock]
    refine Leads.then (P := fun x s' => x = blk ∧ s' = s) ⟨rfl, rfl⟩ ?_
    rintro x _ ⟨rfl, rfl⟩
    refine leads_bind.mpr (hnodes.mono (fun _ s₂ h₂ => ?_) (fun _ _ => trivial) fun _ _ _ => trivial)
    obtain ⟨⟨ha₂, hl₂⟩, ho₂⟩ := h₂
    rw [leads_bind, leads_graph, show (p.env frame).graph.blocks.size - (b + 1) = t + 1 from ht',
      List.range'_succ, lowerBlocks, bind_assoc]
    refine leads_bind.mpr ((gives_lowerBlock_start ha₂ (List.forall_mem_nil _)).mono
      (fun _ s₃ h₃ => ?_) (fun _ _ => trivial) fun _ _ _ => trivial)
    obtain ⟨hp₃, h₃⟩ := h₃
    refine leads_bind.mpr ((gives_lowerBlocks (hp₃.aimed ha₂) (List.forall_mem_nil _)).mono
      (fun _ s₄ h₄ => ?_) (fun _ _ => trivial) fun _ _ _ => trivial)
    have hp₄ := h₄.1
    refine (leads_lowerRest_extends (hp₄.aimed (hp₃.aimed ha₂)) (hp₄.isCode (hp₃.isCode hl₂))).weaken
      fun _ s₅ h₅ => ?_
    exact h₅.labels (hp₄.labels (ho₂ ▸ h₃ _ (blockLabels_getElem? hnext)))
  exact ⟨hnext, frame, layout, final, hf, hfrom.result hout⟩

/-- The lowering is in the block of the node. -/
lemma TakesUp.block_eq (ht : p.TakesUp frame b j n d s) : s.block = b := by
  obtain ⟨blk, hb, -⟩ := ht.block
  obtain ⟨labels, hs⟩ := ht.lowered
  obtain ⟨t, u, w, halike⟩ := exists_alike ht.framed hb hs
  exact halike.block₁

/-- What is shown of the lowering of the last node of a block is true of its code: the machine comes to the
code of the block that it is on its way to. -/
lemma TakesUp.forks (hd : g.Built) (hg : g.finish = .ok p.graph) (h : (p.compile base).outcome = .ok a)
    (hc : c.Loaded) (ha : c.artifact = a) (ht : p.TakesUp frame b j n d s) (hop : d.op.isConstant = false)
    (hhint : ∀ v, d.op ≠ .movHint v) (hb : p.graph.blocks[b]? = some blk)
    (htaken : taken < p.graph.blocks.size) (hnot : notTaken < p.graph.blocks.size)
    (hlast : Leads (p.env frame) (s.visiting j n d.op) (lowerNode d.op)
      (fun _ s' => s'.block = s.block ∧ EndsWith blk j s') (fun _ => True) fun _ _ => True)
    (hx : ∀ layout final before, p.lower = .ok (frame, layout, final) →
      let k : Course := ⟨p.env frame, c, final, val, n, before⟩
      k.Sound → Unborn p.graph n before → k.Ends [] (s.visiting j n d.op) (lowerNode d.op)
        ⟨.next, r, mem⟩ (k.Parts taken notTaken out r mem) fun _ => k.Quits (out.map .ofBool) r mem) :
    ∃ steps m, c.Goes steps ⟨r, mem, s.asm.offset⟩ m ∧ Confined p.graph r mem m.memory ∧
      m.Forks p c.artifact n taken notTaken out := by
  obtain ⟨frame', layout, final, code, hf, -⟩ := build_ok h
  obtain rfl := Except.ok.inj ((outcome_of_lower hf).1.symm.trans ht.framed)
  let k : Course := ⟨p.env frame', c, final, val, n, []⟩
  have hparts : ∀ before, let k' : Course := ⟨p.env frame', c, final, val, n, before⟩
      k'.Sound → Unborn p.graph n before → k'.Ends [] (s.visiting j n d.op) (lowerNode d.op)
        ⟨.next, r, mem⟩ (k.Parts taken notTaken out r mem) fun _ => k.Quits (out.map .ofBool) r mem :=
    fun before hk hu => hx layout final before hf hk hu
  obtain ⟨s₁, t', steps, o, hres, hgo, hat⟩ := ht.goes hd hg h hf hc ha hop hhint hparts
  refine ⟨steps, ⟨t'.registers, t'.memory, o⟩, hgo, ?_⟩
  have hleaves : ∀ kind, t'.spot = .exit kind →
      ∃ x ∈ c.artifact.exits, x.exit.kind = kind ∧ x.exit.node = n ∧ o = x.stub := by
    intro kind hspot
    rw [hspot] at hat
    exact ha ▸ exists_exitSite_of_at h hf hat
  obtain ⟨hlowered, hconf, hpart⟩ | ⟨hconf, kind, hout, hspot⟩ := hres
  · refine ⟨hconf, ?_⟩
    cases out with
    | error kind => exact hleaves kind hpart
    | ok x =>
      have hin : (if x then taken else notTaken) < p.graph.blocks.size := by
        split
        · exact htaken
        · exact hnot
      rcases hpart with ⟨l, hl, hspot⟩ | ⟨hnext, hspot⟩
      · rw [hspot] at hat
        exact starts_of_label hf hl hat
      · -- the machine goes on, and there is nothing before the next block
        obtain ⟨hblock, hends⟩ := hlast.result hlowered
        rw [hspot] at hat
        obtain rfl : o = s₁.asm.offset := hat
        rw [hblock, ht.block_eq] at hnext
        show p.Starts (if x then taken else notTaken) _
        rw [hnext] at hin ⊢
        exact ht.next_starts hf hop hhint hb hends hlowered hin
  · refine ⟨hconf, ?_⟩
    cases out with
    | ok x => cases hout
    | error kind' =>
      cases hout
      exact hleaves kind hspot

end Plan

end Speculation
