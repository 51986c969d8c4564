import Speculation.Proofs.Independence.Blocks

/-!
The states that blocks begin in.

Whichever blocks were lowered before, a block begins with nothing locked, no slow path under way, facts
about what was touched only, and a label of its own that is still free.
-/

namespace Speculation
namespace Lowering

variable {α β γ : Type} {e : Env} {s s' s'' t : State} {b : BlockId} {blk : Block}

lemma leads_trivial {x : Lower α} :
    Leads e s x (fun _ _ => True) (fun _ => True) fun _ _ => True := by
  unfold Leads
  split <;> trivial

/-! ### Steps that keep something -/

/-- A step that gives a result takes the state along the relation. -/
def Along (r : State → State → Prop) (e : Env) (x : Lower α) : Prop :=
  ∀ s, Leads e s x (fun _ => r s) (fun _ => True) fun _ _ => True

namespace Along

variable {r : State → State → Prop}

@[simp] lemma discard {x : Lower β} (hx : Along r e x) : Along r e (discard x) :=
  fun s => leads_discard.mpr (hx s)

lemma ite {p : Prop} [Decidable p] {x y : Lower α} (hx : Along r e x) (hy : Along r e y) :
    Along r e (if p then x else y) := by
  split
  · exact hx
  · exact hy

@[simp] lemma internal (f : InternalFault) : Along r e (internal f : Lower α) := fun _ => trivial

lemma modify {f : State → State} (h : ∀ s, r s (f s)) : Along r e (modify f : Lower PUnit) := h

variable [IsPreorder State r]

@[simp] lemma pure (a : α) : Along r e (pure a : Lower α) := fun s => refl s

lemma bind {x : Lower β} {f : β → Lower α} (hx : Along r e x) (hf : ∀ b, Along r e (f b)) :
    Along r e (x >>= f) := fun s => leads_bind.mpr <|
  (hx s).weaken fun b s' h => (hf b s').weaken fun _ _ h' => IsTrans.trans _ _ _ h h'

/-- A step that is taken in one case only, and what follows in both. -/
lemma iteBind {p : Prop} [Decidable p] (u : β) {x : Lower β} {f : β → Lower α} (hx : Along r e x)
    (hf : ∀ u, Along r e (f u)) : Along r e (if p then x >>= f else f u) :=
  ite (hx.bind hf) (hf u)

/-- A step that is left out in one case, and what follows in both. -/
lemma iteBind' {p : Prop} [Decidable p] (u : β) {x : Lower β} {f : β → Lower α} (hx : Along r e x)
    (hf : ∀ u, Along r e (f u)) : Along r e (if p then f u else x >>= f) :=
  ite (hf u) (hx.bind hf)

lemma forIn {xs : List β} {c : γ} {f : β → γ → Lower (ForInStep γ)}
    (hf : ∀ x c, Along r e (f x c)) : Along r e (forIn xs c f) := by
  induction xs generalizing c with
  | nil => exact pure c
  | cons x xs ih =>
    rw [List.forIn_cons]
    refine bind (hf x c) fun r => ?_
    cases r with
    | done c => exact pure c
    | yield c => exact ih

@[simp] lemma get : Along r e (get : Lower State) := fun s => refl s

@[simp] lemma read : Along r e (read : Lower Env) := fun s => refl s

@[simp] lemma assume (x : Except Breach α) : Along r e (assume x) :=
  fun s => leads_assume.mpr ⟨fun _ _ => refl s, fun _ _ => trivial⟩

@[simp] lemma graph : Along r e graph := bind read fun _ => pure _

@[simp] lemma node (n : NodeId) : Along r e (node n) := bind read fun _ => assume _

@[simp] lemma currentNode : Along r e currentNode := bind get fun _ => node _

@[simp] lemma variableOf (v : VarId) : Along r e (variableOf v) := bind read fun _ => assume _

@[simp] lemma ledgerIndex (o : Slot) : Along r e (ledgerIndex o) := by
  unfold Lowering.ledgerIndex
  split
  · exact bind get fun _ => ite (pure _) (internal _)
  · exact internal _

@[simp] lemma infoAt (i : Nat) : Along r e (infoAt i) := bind get fun _ => pure _

@[simp] lemma inconsistent (f : StateFault) : Along r e (inconsistent f : Lower α) :=
  bind get fun _ => internal _

lemma checkBound (bound : List (Location × Slot)) : Along r e (checkBound bound) :=
  bind (forIn fun _ _ => bind (ledgerIndex _) fun _ =>
    bind (infoAt _) fun _ => ite (pure _)
      (bind (inconsistent _) fun _ => pure _)) fun _ => pure _

lemma checkInfo (i : Nat) (x : ValueInfo) : Along r e (checkInfo i x) := by
  refine bind get fun s => ?_
  split
  · exact iteBind' () (inconsistent _) fun _ => ite (pure _) (inconsistent _)
  · exact iteBind' () (inconsistent _) fun _ => ite (pure _) (inconsistent _)
  · exact pure _

@[simp] lemma checkState : Along r e checkState := by
  refine bind get fun s => ?_
  refine iteBind () (inconsistent _) fun _ => bind (checkBound _) fun _ =>
    bind (checkBound _) fun _ => bind (forIn fun _ _ => ?_) fun _ => pure _
  exact bind (checkInfo _ _) fun _ => pure _

end Along

/-! ### Guards -/

/-- Guards are taken by the lowering of a node only, which drops them at its end. -/
def SameGuards (s s' : State) : Prop := s'.guards = s.guards

instance : IsPreorder State SameGuards where
  refl _ := rfl
  trans _ _ _ h h' := h'.trans h

namespace SameGuards

@[simp] lemma event (ev : Event) : Along SameGuards e (event ev) := Along.modify fun _ => rfl

@[simp] lemma setInfoAt (i : Nat) (x : ValueInfo) : Along SameGuards e (setInfoAt i x) :=
  Along.modify fun _ => rfl

@[simp] lemma comment (text : String) : Along SameGuards e (comment text) := Along.modify fun _ => rfl

@[simp] lemma attach (l : Label) : Along SameGuards e (attach l) := fun _ =>
  leads_attach.mono (fun _ _ h => h.1 ▸ rfl) (fun _ _ => trivial) fun _ _ _ => trivial

@[simp] lemma slotOf (n : NodeId) : Along SameGuards e (slotOf n) := by
  unfold Lowering.slotOf
  refine Along.bind (Along.node _) fun d => ?_
  split
  · exact Along.pure _
  · exact Along.internal _

@[simp] lemma setInfo (n : NodeId) (x : ValueInfo) : Along SameGuards e (setInfo n x) :=
  Along.bind (slotOf n) fun _ => Along.bind (Along.ledgerIndex _) fun _ => setInfoAt _ _

@[simp] lemma modifyGprs (f : Bank Gpr → Bank Gpr) : Along SameGuards e (modifyGprs f) :=
  Along.modify fun _ => rfl

@[simp] lemma modifyFprs (f : Bank Fpr → Bank Fpr) : Along SameGuards e (modifyFprs f) :=
  Along.modify fun _ => rfl

@[simp] lemma releaseLocation (o : Slot) (l : Location) :
    Along SameGuards e (releaseLocation o l) := by
  cases l with
  | none => exact Along.pure _
  | gpr q => exact Along.bind Along.get fun _ => Along.ite (modifyGprs _) (Along.pure _)
  | fpr q => exact Along.bind Along.get fun _ => Along.ite (modifyFprs _) (Along.pure _)

@[simp] lemma useNode (n : NodeId) : Along SameGuards e (useNode n) := by
  refine Along.bind (Along.node n) fun d => ?_
  split
  · refine Along.bind (Along.ledgerIndex _) fun _ => Along.bind (Along.infoAt _) fun _ =>
      Along.ite (Along.bind (Along.assume _) fun y => ?_) (Along.pure _)
    refine Along.ite (Along.bind (releaseLocation _ _) fun _ => Along.bind (setInfoAt _ _) fun _ => ?_)
      (setInfoAt _ _)
    exact Along.ite (Along.pure _) (event _)
  · exact Along.pure _

@[simp] lemma useChildren (n : NodeId) : Along SameGuards e (useChildren n) :=
  Along.bind (Along.node n) fun _ => Along.bind (Along.forIn fun _ _ =>
    Along.bind (useNode _) fun _ => Along.pure _) fun _ => Along.pure _

@[simp] lemma advance (n : NodeId) : Along SameGuards e (advance n) :=
  Along.bind Along.get fun _ => Along.bind Along.graph fun _ => Along.bind (Along.assume _) fun _ =>
    Along.modify fun _ => rfl

end SameGuards

def Unguarded (s : State) : Prop := s.guards = []

lemma Along.unguarded {x : Lower α} (hx : Along SameGuards e x) (hs : Unguarded s) :
    Leads e s x (fun _ => Unguarded) (fun _ => True) fun _ _ => True :=
  (hx s).weaken fun _ _ h => h.trans hs

lemma unguarded_dropGuards :
    Leads e s dropGuards (fun _ => Unguarded) (fun _ => True) fun _ _ => True :=
  State.guards_dropAll

lemma leads_lowerCurrent_unguarded (n : Node) :
    Leads e s (lowerCurrent n) (fun _ => Unguarded) (fun _ => True) fun _ _ => True := by
  refine leads_tryCatch.mpr (Leads.mono (leads_bind.mpr (leads_trivial.weaken fun _ _ _ =>
    unguarded_dropGuards)) (fun _ _ => id) (fun _ _ => ?_) fun _ _ _ => trivial)
  exact leads_bind.mpr (leads_trivial.weaken fun _ _ _ => leads_bind.mpr
    (leads_trivial.weaken fun _ _ _ => unguarded_dropGuards))

/-- What holds after the rest of a step holds whether or not something is done before it. -/
lemma leads_iteBind {p : Prop} [Decidable p] (u : β) {x : Lower β} {f : β → Lower α}
    {Q : α → State → Prop}
    (hf : ∀ u s, Leads e s (f u) Q (fun _ => True) fun _ _ => True) :
    Leads e s (if p then x >>= f else f u) Q (fun _ => True) fun _ _ => True :=
  leads_ite.mpr ⟨fun _ => leads_bind.mpr (leads_trivial.weaken fun u s' _ => hf u s'), fun _ => hf u s⟩

lemma leads_lowerAt_unguarded {i : Nat} {n : NodeId} (hs : Unguarded s) :
    Leads e s (lowerAt i n) (fun _ => Unguarded) (fun _ => True) fun _ _ => True := by
  refine leads_bind.mpr ?_
  refine leads_ite.mpr ⟨fun _ => ?_, fun _ => ?_⟩
  · exact (Along.bind (r := SameGuards) (Along.modify fun _ => rfl) fun _ => SameGuards.advance n).unguarded hs
  have htake : Along SameGuards e
      (modify fun s : State => { s with position := i, current := n }) :=
    Along.modify fun _ => rfl
  refine leads_bind.mpr ((htake.unguarded hs).weaken
    fun _ s₁ h₁ => leads_bind.mpr (((Along.node n).unguarded h₁).weaken fun d s₂ h₂ => ?_))
  split
  · exact (Along.ite (SameGuards.setInfo _ _) (Along.pure _)).unguarded h₂
  · exact (Along.ite (SameGuards.setInfo _ _) (Along.pure _)).unguarded h₂
  · exact (Along.bind (Along.assume _) fun _ => Along.bind (Along.variableOf _) fun _ =>
      SameGuards.event _).unguarded h₂
  · refine leads_ite.mpr ⟨fun _ => ?_, fun _ => h₂⟩
    have hafter : Along SameGuards e
        (Lowering.advance n >>= fun _ => do if (← read).assertState then Lowering.checkState) :=
      Along.bind (SameGuards.advance n) fun _ => Along.bind Along.read fun _ =>
        Along.ite Along.checkState (Along.pure _)
    refine leads_bind.mpr (leads_get.mpr (leads_iteBind () fun _ s₃ => ?_))
    refine leads_bind.mpr ((leads_lowerCurrent_unguarded d).weaken fun _ s₄ h₄ => ?_)
    dsimp only
    split
    · exact hafter.unguarded h₄
    · exact (Along.bind (SameGuards.useChildren n) fun _ => hafter).unguarded h₄

/-! ### Block after block -/

lemma SameGuards.openBlock (b : BlockId) : Along SameGuards e (openBlock b) := by
  refine Along.bind Along.graph fun _ => Along.bind (Along.assume _) fun blk =>
    Along.bind (Along.modify fun _ => rfl) fun _ =>
    Along.bind (Along.bind Along.read fun _ => Along.assume _) fun _ =>
    Along.bind (attach _) fun _ => Along.bind (comment _) fun _ => Along.bind ?_ fun _ =>
    Along.modify fun _ => rfl
  refine Along.bind Along.graph fun g => Along.bind (Along.modify fun _ => rfl) fun _ =>
    Along.bind (event _) fun _ => Along.bind (Along.forIn fun v _ => ?_) fun _ =>
    Along.bind (Along.forIn fun v _ => ?_) fun _ => Along.pure _
  · exact Along.bind (Along.variableOf v) fun _ => Along.bind (event _) fun _ => Along.pure _
  · exact Along.bind (Along.variableOf v) fun _ => Along.ite (Along.bind (event _) fun _ => Along.pure _)
      (Along.pure _)

lemma leads_lowerNodes_unguarded {xs : List (NodeId × Nat)} (hs : Unguarded s) :
    Leads e s (lowerNodes xs) (fun _ => Unguarded) (fun _ => True) fun _ _ => True := by
  refine leads_bind.mpr ((leads_forIn (fun _ => Unguarded) hs ?_).weaken fun _ _ h => h)
  intro x rest s hs
  exact leads_bind.mpr ((leads_lowerAt_unguarded hs).weaken fun _ _ h => ⟨rfl, h⟩)

/-- A lowering is its own twin. -/
def Twins.self (e : Env) (he : e.Ordered) (t : State) (b : BlockId) : Twins where
  e₁ := e
  e₂ := e
  t₁ := t
  t₂ := t
  block := b
  Member _ := True
  ordered₁ := he
  ordered₂ := he
  frame := rfl
  dense := rfl
  context := rfl
  noMasquerades := rfl
  assertState := rfl
  breakUnreachable := rfl
  vars := rfl
  arguments := rfl
  numVars := rfl
  blocks := rfl
  members _ _ := trivial
  node _ := rfl
  operand _ _ _ := rfl

/-- Its own twin does not stray, so what two runs of a step have in common holds of each. -/
lemma Both.leads_self {he : e.Ordered} {x y : Lower α} {Q : α → α → State → State → Prop}
    {T : State → State → Prop} {s₁ s₂ : State} (h : Both (.self e he t b) s₁ s₂ x y Q T) :
    Leads e s₁ x (fun a t₁ => ∃ a' t₂, Q a a' t₁ t₂) (fun _ => True) fun _ _ => True := by
  have hstrays : ¬(Twins.self e he t b).Strays := fun ⟨_, _, hn⟩ => hn Iff.rfl
  have h : Ends _ Q T (outcome x e s₁) (outcome y e s₂) := h
  unfold Leads
  generalize outcome x e s₁ = o, outcome y e s₂ = o' at h
  cases h with
  | ok h => exact ⟨_, _, h⟩
  | terminated => trivial
  | failed => trivial
  | astray₁ h => exact (hstrays h).elim
  | astray₂ h => exact (hstrays h).elim

lemma Alike.vacant {c : Twins} {w : Names} {s₁ s₂ : State} (h : Alike c w s₁ s₂) (hu : Unguarded s₁) :
    Vacant c.e₁ s₁ where
  labels := h.labels.sound₁
  slots := h.slots
  gprs := h.gprs.sound
  fprs := h.fprs.sound
  unlocked := h.guarded₁.unlocked hu
  unguarded := hu
  clean := h.clean₁
  exitStream := h.exitStream₁
  exitLedger := h.exitLedger₁

/-- Between the two states at most the labels of these blocks have been attached, and others made. -/
def KeepsLabels (bs : List BlockId) (s s' : State) : Prop :=
  s.asm.labels.size ≤ s'.asm.labels.size ∧
    ∀ l < s.asm.labels.size, l ∉ bs → s'.asm.labels[l]? = s.asm.labels[l]?

lemma keepsLabels_entered (hl : s.asm.labels[b]? = some none) : KeepsLabels [b] s (s.entered b) :=
  ⟨by simp [State.entered, State.attached], fun _ _ hne =>
    (LabelTable.getElem?_place (a := s.labelTable) hl _).trans
      (if_neg fun h => hne (List.mem_singleton.mpr h.symm))⟩

lemma Vacant.entered (hs : Vacant e s) (he : e.Ordered) (hb : e.graph.blocks[b]? = some blk)
    (hl : s.asm.labels[b]? = some none) : Vacant e (s.entered b) :=
  { hs with labels := hs.labels.place_block he (he.labelled hb) hl }

lemma Vacant.emit (hs : Vacant e s) (i : Inst) : Vacant e { s with asm := s.asm.emit i } :=
  { hs with
    labels := by
      rw [State.labelTable, Assembler.labels_emit]
      exact hs.labels }

lemma KeepsLabels.emit {bs : List BlockId} (h : KeepsLabels bs s s') (i : Inst) :
    KeepsLabels bs s { s' with asm := s'.asm.emit i } := by
  rw [KeepsLabels, Assembler.labels_emit]
  exact h

/-- A block leaves the state ready for the next one, with the labels of other blocks as they were. -/
lemma Vacant.lowerBlock (hs : Vacant e s) (he : e.Ordered) (b : BlockId) :
    Leads e s (lowerBlock b) (fun _ s' => Vacant e s' ∧ KeepsLabels [b] s s')
      (fun _ => True) fun _ _ => True := by
  rcases hb : e.graph.blocks[b]? with _ | blk
  · rw [Lowering.lowerBlock, leads_bind, leads_graph, Graph.block, Breach.get, hb]
    trivial
  by_cases hl : s.asm.labels[b]? = some none
  · rcases hr : blk.reachable with _ | _
    · unfold Leads
      rw [outcome_lowerBlock_unreachable hb he hl hr]
      have hv := hs.entered he hb hl
      have hk := keepsLabels_entered hl
      exact leads_ite.mpr ⟨fun _ => ⟨hv.emit _, hk.emit _⟩, fun _ => ⟨hv, hk⟩⟩
    · have hboth := (both_lowerBlock (c := .self e he s b) hb hs hs hl hl hr).leads_self
      have hunguarded : Leads e s (Lowering.lowerBlock b) (fun _ => Unguarded) (fun _ => True)
          fun _ _ => True := by
        unfold Leads
        rw [outcome_lowerBlock hb hr]
        exact leads_bind.mpr (((SameGuards.openBlock b).unguarded hs.unguarded).weaken
          fun _ _ h => leads_lowerNodes_unguarded h)
      refine (hboth.and hunguarded).mono ?_ (fun _ _ => trivial) fun _ _ _ => trivial
      rintro _ s' ⟨⟨-, t₂, w, -, h⟩, hu⟩
      exact ⟨h.vacant hu, h.labels.more₁, fun l hl hne =>
        h.labels.kept₁ hl fun h => hne (List.mem_singleton.mpr h)⟩
  · -- the label of the block has been attached before
    have hlabel : outcome (blockLabel b) e { s with block := b } = (.ok b, { s with block := b }) := by
      show outcome (assume (Breach.get e.blockLabels b)) e _ = _
      rw [Breach.get, he.labelled hb]
      rfl
    rw [Lowering.lowerBlock, Leads, outcome_block hb]
    refine leads_bind.mpr (leads_modify.mpr (leads_bind.mpr ?_))
    rw [Leads, hlabel]
    exact leads_bind.mpr (leads_attach.mono (fun _ _ h => (hl h.2).elim) (fun _ _ => trivial)
      fun _ _ _ => trivial)

lemma Vacant.lowerBlocks {bs : List BlockId} (hs : Vacant e s) (he : e.Ordered) :
    Leads e s (lowerBlocks bs) (fun _ s' => Vacant e s' ∧ KeepsLabels bs s s') (fun _ => True)
      fun _ _ => True := by
  induction bs generalizing s with
  | nil => exact ⟨hs, Nat.le_refl _, fun _ _ _ => rfl⟩
  | cons b bs ih =>
    refine leads_bind.mpr ((hs.lowerBlock he b).weaken fun _ s' ⟨h, hle, hk⟩ => ?_)
    refine (ih h).weaken fun _ s'' ⟨h', hle', hk'⟩ => ⟨h', Nat.le_trans hle hle', fun l hl hne => ?_⟩
    rw [hk' l (Nat.lt_of_lt_of_le hl hle) fun h => hne (List.mem_cons_of_mem b h),
      hk l hl fun h => hne (List.mem_singleton.mp h ▸ List.mem_cons_self)]

/-! ### Before the first block -/

/-- Code, events and exits were added, and labels; what the blocks go by is as it was. -/
structure Adds (s s' : State) : Prop where
  same : (s'.ledger, s'.gprs, s'.fprs, s'.guards, s'.facts, s'.exitStream, s'.exitLedger, s'.pool,
      s'.poolLabels) =
    (s.ledger, s.gprs, s.fprs, s.guards, s.facts, s.exitStream, s.exitLedger, s.pool, s.poolLabels)
  labels {l : Label} {o : Option Nat} (h : s.asm.labels[l]? = some o) : s'.asm.labels[l]? = some o

instance : IsPreorder State Adds where
  refl _ := ⟨rfl, id⟩
  trans _ _ _ h h' := ⟨h'.same.trans h.same, h'.labels ∘ h.labels⟩

lemma Vacant.adds (hs : Vacant e s) (h : Adds s s') : Vacant e s' := by
  obtain ⟨hledger, hgprs, hfprs, hguards, hfacts, hstream, hexit, hpool, hlabels⟩ :
    s'.ledger = s.ledger ∧ s'.gprs = s.gprs ∧ s'.fprs = s.fprs ∧ s'.guards = s.guards ∧
    s'.facts = s.facts ∧ s'.exitStream = s.exitStream ∧
    s'.exitLedger = s.exitLedger ∧ s'.pool = s.pool ∧ s'.poolLabels = s.poolLabels := by
      simpa only [Prod.mk.injEq] using h.same
  refine ⟨?_, hledger ▸ hs.slots, hgprs ▸ hs.gprs, hfprs ▸ hs.fprs, fun l => ?_,
    hguards.trans hs.unguarded, hfacts ▸ hs.clean, hstream.trans hs.exitStream, hexit.trans hs.exitLedger⟩
  · rw [State.labelTable, hpool, hlabels]
    have hmade := h.labels (Array.getElem?_eq_getElem hs.labels.made)
    exact { hs.labels with
      free := fun hl => h.labels (hs.labels.free hl)
      made := (Array.getElem?_eq_some_iff.mp hmade).1 }
  · rw [← hs.unlocked l]
    cases l <;> simp [State.locks, hgprs, hfprs]

namespace Adds

@[simp] lemma emit' (i : Inst) : Along Adds e (emit' i) := fun s =>
  ⟨rfl, fun h => (congrArg (·[_]?) (s.asm.labels_emit i)).trans h⟩

@[simp] lemma discard_movImm (r : Gpr) (x : UInt64) : Along Adds e (discard (movImm r x)) :=
  emit' (.movImm r x)

@[simp] lemma event (ev : Event) : Along Adds e (event ev) := fun _ => ⟨rfl, id⟩

@[simp] lemma comment (text : String) : Along Adds e (comment text) := fun _ => ⟨rfl, id⟩

@[simp] lemma newLabel : Along Adds e newLabel := fun _ => ⟨rfl, getElem?_push_of_some⟩

@[simp] lemma here : Along Adds e here := fun _ => ⟨rfl, getElem?_push_of_some⟩

@[simp] lemma jcc (k : Cond) (l : Label) : Along Adds e (jcc k l) := by
  intro s
  obtain ⟨a, ha, -, hl⟩ := Assembler.adds_emitReloc (a := s.asm) (i := .jcc k 0) (t := .label l) rfl
  simp only [Lowering.jcc, emitReloc, leads_discard, leads_bind, leads_get, ha, leads_assume_ok]
  exact ⟨rfl, fun h => (congrArg (·[_]?) hl).trans h⟩

@[simp] lemma guard' (kind : ExitKind) (k : Cond) : Along Adds e (guard' kind k) := by
  refine Along.discard (Along.bind (Along.bind newLabel fun _ => Along.bind Along.currentNode fun _ =>
    fun s => ⟨rfl, id⟩) fun _ => Along.bind (Along.bind Along.get fun _ => Along.bind (Along.assume _)
      fun _ => jcc _ _) fun _ => Along.pure _)

@[simp] lemma checkArgument (x : Variable) : Along Adds e (checkArgument x) := by
  unfold Lowering.checkArgument
  dsimp only
  split
  all_goals
    with_reducible repeat' refine Along.bind ?_ fun _ => ?_
    all_goals first | exact emit' _ | simp

lemma checkArguments : Along Adds e checkArguments := by
  refine Along.bind Along.graph fun g => ?_
  split
  · exact Along.pure _
  · refine Along.bind (fun s => ⟨rfl, id⟩) fun _ => Along.bind (Along.forIn fun v _ => ?_) fun _ =>
      Along.bind (Along.forIn fun v _ => ?_) fun _ => Along.pure _
    · exact Along.bind (Along.variableOf v) fun _ => Along.bind (checkArgument _) fun _ => Along.pure _
    · exact Along.bind (Along.variableOf v) fun _ => Along.ite (Along.pure _)
        (Along.bind (event _) fun _ => Along.pure _)

lemma lowerEntry : Along Adds e lowerEntry := by
  refine Along.bind here fun _ => Along.bind (Along.bind (discard_movImm _ _) fun _ =>
    discard_movImm _ _) fun _ => Along.bind newLabel fun _ => Along.bind ?_ fun _ =>
    Along.bind ?_ fun _ => Along.bind checkArguments fun _ => Along.pure _
  · refine Along.bind (comment _) fun _ => Along.bind (Along.ite (Along.pure _) (emit' _)) fun _ =>
      Along.bind Along.read fun _ => Along.bind (emit' _) fun _ => Along.bind Along.read fun _ =>
      Along.bind (discard_movImm _ _) fun _ => Along.bind (emit' _) fun _ =>
      Along.bind (emit' _) fun _ => jcc _ _
  · exact Along.bind (event _) fun _ => Along.bind Along.graph fun _ => Along.bind (Along.forIn
      fun v _ => Along.bind (Along.variableOf v) fun _ => Along.bind (event _) fun _ => Along.pure _)
      fun _ => Along.pure _

end Adds

end Lowering
end Speculation
