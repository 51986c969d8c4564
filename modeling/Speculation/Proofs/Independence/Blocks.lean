import Speculation.Proofs.Independence.Facts
import Speculation.Proofs.Independence.Nodes
import Speculation.Proofs.Lowering.Whole

/-!
Two lowerings of a block, node after node.
-/

namespace Speculation
namespace Lowering

variable {α β : Type} {c : Twins} {w : Names} {ls : List (Label × Label)} {s₁ s₂ : State} {id : NodeId}

/-! ### After a node -/

lemma Alike.matches (hs : Alike c w s₁ s₂) :
    Facts.Match c.Shares c.e₁.graph c.e₂.graph s₁.facts s₂.facts :=
  ⟨hs.clean₁, hs.clean₂, hs.facts⟩

lemma Alike.setFacts (hs : Alike c w s₁ s₂) {f g : Facts}
    (h : Facts.Match c.Shares c.e₁.graph c.e₂.graph f g) :
    Alike c w { s₁ with facts := f } { s₂ with facts := g } :=
  { hs with
    puts := { hs.puts with }
    facts := h.alike
    clean₁ := h.clean₁
    clean₂ := h.clean₂ }

/-- What follows from the execution of a node follows in both. -/
lemma both_advance {Q : PUnit → PUnit → State → State → Prop} {T : State → State → Prop}
    (hs : Alike c w s₁ s₂) (hid : c.Member id)
    (hQ : ∀ f g, Alike c w { s₁ with facts := f } { s₂ with facts := g } →
      Q ⟨⟩ ⟨⟩ { s₁ with facts := f } { s₂ with facts := g }) :
    Both c s₁ s₂ (advance id) (advance id) Q T := by
  refine Both.bind (.ok (Both.bind (.ok (Both.bind ?_))))
  have hoperands (d : Node) (hd : c.e₁.graph.node id = .ok d) (e : Edge) (he : e ∈ d.children) :
      c.Shares e.node :=
    c.operand hid (Graph.node_eq_ok.mp hd) he
  rcases hs.matches.execute (Twins.Shares.node (c.node hid)) hoperands with
    ⟨b, h₁, h₂⟩ | ⟨f, g, h₁, h₂, h⟩
  · rw [h₁, h₂]
    exact .failed _ _ _
  · rw [h₁, h₂]
    exact .ok (.ok (hQ f g (hs.setFacts h)))

namespace Similar

lemma advance (hid : c.Member id) : Similar c ls Eq (advance id) (advance id) :=
  fun w _ _ hs _ => both_advance hs.toAlike hid fun _ _ h =>
    ⟨rfl, w, .refl w, hs.of_alike h ⟨rfl, rfl⟩ ⟨rfl, rfl⟩⟩

/-- Steps that are taken up again only after terminating. -/
lemma tryCatch {R : α → β → Prop} {x : Lower α} {y : Lower β} {f : Stop → Lower α}
    {g : Stop → Lower β} (h : Similar c ls R x y) (h' : Similar c ls R (f .terminated) (g .terminated))
    (hf : ∀ e, f (.failed e) = MonadExcept.throw (.failed e))
    (hg : ∀ e, g (.failed e) = MonadExcept.throw (.failed e)) :
    Similar c ls R (tryCatch x f) (tryCatch y g) := by
  refine fun w s₁ s₂ hs hls => Both.tryCatch ((h w s₁ s₂ hs hls).mono (fun _ _ _ _ h => h) ?_) hf hg
  rintro t₁ t₂ ⟨w', hw, ht⟩
  refine (h' w' t₁ t₂ ht (List.Subset.trans hls hw.1)).mono ?_ ?_
  · rintro a b u₁ u₂ ⟨hab, w'', hw', hu⟩
    exact ⟨hab, w'', hw.trans hw', hu⟩
  · rintro u₁ u₂ ⟨w'', hw', hu⟩
    exact ⟨w'', hw.trans hw', hu⟩

@[simp] lemma bindPlaceholder : Similar c ls Eq bindPlaceholder bindPlaceholder := by
  refine bindCurrentNode fun d _ => ite (bindGet fun w s₁ s₂ hs _ => ?_) (pureEq _)
  have hc := hs.shares
  rw [hs.current]
  refine bindEq (info hc) fun x => ite (pureEq _) ?_
  exact bindEq allocGpr fun r => bindEq (discard_movImm _ _) fun _ => gprResult _ _

@[simp] lemma lowerCurrent {n : Node} (h : ∀ b ∈ n.op.targets, c.Target b) :
    Similar c ls Eq (lowerCurrent n) (lowerCurrent n) :=
  tryCatch (bindEq (lowerNode h) fun _ => dropGuards)
    (bindEq dropGuards fun _ => bindEq bindPlaceholder fun _ => dropGuards) (fun _ => rfl) fun _ => rfl

@[simp] lemma inconsistent (f : StateFault) {R : α → α → Prop} :
    Similar c ls R (inconsistent f) (inconsistent f) :=
  bindGet fun w s₁ s₂ hs _ => by
    rw [hs.current]
    exact internal _

@[simp] lemma checkBound (bound : List (Location × Slot)) :
    Similar c ls Eq (checkBound bound) (checkBound bound) :=
  bindEq (forIn fun _ _ => bindEq (ledgerIndex _) fun _ => bindEq (infoAt _) fun _ =>
    ite (pureEq _) (bindEq (inconsistent _) fun _ => pureEq _)) fun _ => pureEq _

/-- A step that is taken in one case only, and what follows in both. -/
lemma iteBind {p : Prop} [Decidable p] (u : β) {x y : Lower β} {f g : β → Lower α}
    {R : α → α → Prop} (h : Similar c ls Eq x y) (hf : ∀ u, Similar c ls R (f u) (g u)) :
    Similar c ls R (if p then x >>= f else f u) (if p then y >>= g else g u) :=
  ite (h.bindEq hf) (hf u)

/-- A step that is left out in one case, and what follows in both. -/
lemma iteBind' {p : Prop} [Decidable p] (u : β) {x y : Lower β} {f g : β → Lower α}
    {R : α → α → Prop} (h : Similar c ls Eq x y) (hf : ∀ u, Similar c ls R (f u) (g u)) :
    Similar c ls R (if p then f u else x >>= f) (if p then g u else y >>= g) :=
  ite (hf u) (h.bindEq hf)

@[simp] lemma checkInfo (i : Nat) (x : ValueInfo) :
    Similar c ls Eq (checkInfo i x) (checkInfo i x) := by
  refine bindGet fun w s₁ s₂ hs _ => ?_
  rw [show s₂.gprs.owner = s₁.gprs.owner from funext fun _ => hs.gprs.owner,
    show s₂.fprs.owner = s₁.fprs.owner from funext fun _ => hs.fprs.owner]
  split
  · exact iteBind' () (inconsistent _) fun _ => ite (pureEq _) (inconsistent _)
  · exact iteBind' () (inconsistent _) fun _ => ite (pureEq _) (inconsistent _)
  · exact pureEq _

@[simp] lemma checkState : Similar c ls Eq checkState checkState := by
  refine bindGet fun w s₁ s₂ hs _ => ?_
  rw [hs.gprs.anyLocked, hs.fprs.anyLocked, hs.gprs.bound, hs.fprs.bound, hs.ledger]
  refine iteBind () (inconsistent _) fun _ => bindEq (checkBound _) fun _ =>
    bindEq (checkBound _) fun _ => bindEq (forIn fun _ _ => ?_) fun _ => pureEq _
  exact bindEq (checkInfo _ _) fun _ => pureEq _

end Similar

/-! ### A node -/

/-- A comment is made only if someone reads it, and nothing depends on it. -/
lemma outcome_maybeComment {e : Env} {s : State} {text : String} {f : Unit → Lower α} :
    outcome (if s.asm.isLogging then comment text >>= f else f ()) e s =
      outcome (comment text >>= f) e s := by
  split
  · rfl
  · rename_i h
    have hlog : s.asm.log = none := by simpa [Assembler.isLogging] using h
    have hsame : s.asm.comment text = s.asm := by
      rw [Assembler.comment, Assembler.logLine, hlog, Option.map_none, ← hlog]
    have hcomment : outcome (comment text) e s = (.ok (), { s with asm := s.asm.comment text }) := rfl
    rw [outcome_bind, hcomment, hsame]

namespace Similar

lemma maybeComment (text : String) {R : α → α → Prop} {f g : Unit → Lower α}
    (hf : ∀ u, Similar c ls R (f u) (g u)) :
    Similar c ls R
      (MonadState.get >>= fun s : State => if s.asm.isLogging then Lowering.comment text >>= f else f ())
      (MonadState.get >>= fun s : State => if s.asm.isLogging then Lowering.comment text >>= g else g ()) := by
  intro w s₁ s₂ hs hls
  refine Both.bind (.ok ?_)
  unfold Both
  rw [outcome_maybeComment, outcome_maybeComment]
  exact (bindEq (comment text text) hf) w s₁ s₂ hs hls

end Similar

/-- Both states are alike again, with names for what was added. -/
abbrev Onwards (c : Twins) (w : Names) (s₁ s₂ : State) : Prop := ∃ w', w.Grows w' ∧ Alike c w' s₁ s₂

lemma Onwards.trans {w' : Names} (hw : w.Grows w') : Onwards c w' s₁ s₂ → Onwards c w s₁ s₂ :=
  fun ⟨w'', hw', h⟩ => ⟨w'', hw.trans hw', h⟩

/-- Two lowerings go from node to node alike. -/
lemma both_lowerAt {i : Nat} (hs : Alike c w s₁ s₂) (hid : c.Member id) :
    Both c s₁ s₂ (lowerAt i id) (lowerAt i id) (fun _ _ => Onwards c w) (Onwards c w) := by
  unfold lowerAt
  refine Both.bind (.ok ?_)
  rw [hs.skipNext]
  split
  · have hskip : Alike c w { s₁ with skipNext := false } { s₂ with skipNext := false } :=
      { hs with puts := { hs.puts with }, skipNext := rfl }
    exact Both.bind (.ok (both_advance hskip hid fun _ _ h => ⟨w, .refl w, h⟩))
  refine Both.bind (.ok ?_)
  have hat : AlikeAt c w { s₁ with position := i, current := id }
      { s₂ with position := i, current := id } :=
    ⟨{ hs with puts := { hs.puts with } }, rfl, rfl, hid⟩
  have hrest : ∀ x y : Lower PUnit, Similar c [] Eq x y →
      Both c { s₁ with position := i, current := id } { s₂ with position := i, current := id } x y
        (fun _ _ => Onwards c w) (Onwards c w) := fun x y hxy =>
    (hxy w _ _ hat (List.nil_subset _)).mono (fun _ _ _ _ ⟨_, w', hw, ht⟩ => ⟨w', hw, ht.toAlike⟩)
      fun _ _ ⟨w', hw, ht⟩ => ⟨w', hw, ht.toAlike⟩
  refine hrest _ _ (Similar.bindNode hid fun d hd => ?_)
  have hshares : c.Shares id := c.node hid
  split
  · exact Similar.ite (Similar.setInfo hshares _) (Similar.pureEq _)
  · exact Similar.ite (Similar.setInfo hshares _) (Similar.pureEq _)
  · rcases he : d.child 0 with b | e
    · exact Similar.throw _
    · simp only [assume, pure_bind]
      refine Similar.bindEq (Similar.variableOf _) fun v => Similar.event ?_
      intro n o hn
      cases hn
      exact c.operand hid hd (mem_of_child he)
  · refine Similar.ite (Similar.maybeComment _ fun _ => ?_) (Similar.pureEq _)
    refine Similar.bindEq (Similar.lowerCurrent fun b hb => ⟨id, d, hid, hd, hb⟩) fun _ => ?_
    have hafter : Similar c [] Eq
        (advance id >>= fun _ => do if (← read).assertState then checkState)
        (advance id >>= fun _ => do if (← read).assertState then checkState) := by
      refine Similar.bindEq (Similar.advance hid) fun _ => Similar.bindRead ?_
      rw [c.assertState]
      exact Similar.ite Similar.checkState (Similar.pureEq _)
    dsimp only
    split
    · exact hafter
    · exact Similar.bindEq (Similar.useChildren hid) fun _ => hafter

/-- Two runs of one loop, by what holds before and after each step. -/
lemma Both.forIn {γ : Type} {xs : List γ} {f g : γ → PUnit → Lower (ForInStep PUnit)}
    {I T : State → State → Prop} (hI : I s₁ s₂)
    (hf : ∀ x ∈ xs, ∀ t₁ t₂, I t₁ t₂ → Both c t₁ t₂ (f x ⟨⟩) (g x ⟨⟩)
      (fun a b u₁ u₂ => a = .yield ⟨⟩ ∧ b = .yield ⟨⟩ ∧ I u₁ u₂) T) :
    Both c s₁ s₂ (forIn xs PUnit.unit f) (forIn xs PUnit.unit g) (fun _ _ => I) T := by
  induction xs generalizing s₁ s₂ with
  | nil => exact .pure hI
  | cons x xs ih =>
    rw [List.forIn_cons, List.forIn_cons]
    refine Both.bind ((hf x List.mem_cons_self s₁ s₂ hI).mono ?_ fun _ _ => id)
    rintro _ _ t₁ t₂ ⟨rfl, rfl, ht⟩
    exact ih ht fun y hy => hf y (List.mem_cons_of_mem x hy)

lemma Both.bindVariableOf {v : VarId} {f g : Variable → Lower α} {Q : α → α → State → State → Prop}
    {T : State → State → Prop} (h : ∀ x, Both c s₁ s₂ (f x) (g x) Q T) :
    Both c s₁ s₂ (variableOf v >>= f) (variableOf v >>= g) Q T := by
  refine Both.bind (Both.bind (.ok ?_))
  rw [c.vars]
  rcases Breach.get c.e₁.graph.vars v with b | x
  · exact .failed _ _ _
  · exact .ok (h x)

/-- Two lowerings of nodes of their block. -/
lemma both_lowerNodes {xs : List (NodeId × Nat)} (hs : Alike c w s₁ s₂)
    (hxs : ∀ x ∈ xs, c.Member x.1) :
    Both c s₁ s₂ (lowerNodes xs) (lowerNodes xs) (fun _ _ => Onwards c w) (Onwards c w) := by
  refine Both.bind ((Both.forIn (I := Onwards c w) ⟨w, .refl w, hs⟩ fun x hx t₁ t₂ ht => ?_).mono
    (fun _ _ _ _ h => .pure h) fun _ _ => id)
  obtain ⟨w', hw, ht⟩ := ht
  refine Both.bind ((both_lowerAt ht (hxs x hx)).mono ?_ fun _ _ => .trans hw)
  exact fun _ _ _ _ h => .pure ⟨rfl, rfl, h.trans hw⟩

/-! ### The head of a block -/

/-- Between blocks nothing is locked, no slow path is being emitted, and the tables are in order. -/
structure Vacant (e : Env) (t : State) : Prop where
  labels : t.labelTable.Sound e
  slots : t.ledger.size = e.frame.numLocals
  gprs : t.gprs.Sound
  fprs : t.fprs.Sound
  unlocked (l : Location) : t.locks l = 0
  unguarded : t.guards = []
  clean : t.facts.Clean e.graph
  exitStream : t.exitStream = none
  exitLedger : t.exitLedger = none

def State.entered (t : State) (b : BlockId) : State := { t with block := b }.attached b

def State.blank (t : State) (g : Graph) : State :=
  { t with
    ledger := t.ledger.map fun _ => .dead
    gprs := t.gprs.releaseAll
    fprs := t.fprs.releaseAll
    facts := t.facts.beginBlock g
    events := t.events.push .reset }

/-- A block begins with its label. -/
lemma outcome_enter {e : Env} {t : State} {b : BlockId} {blk : Block} {f : Block → Lower α}
    (hb : e.graph.blocks[b]? = some blk) (he : e.Ordered) (ht : t.asm.labels[b]? = some none) :
    outcome (graph >>= fun g => assume (g.block b) >>= fun blk =>
      modify (fun s => { s with block := b }) >>= fun _ => blockLabel b >>= fun l =>
        attach l >>= fun _ => f blk) e t = outcome (f blk) e (t.entered b) := by
  rw [outcome_block hb]
  show outcome (assume (Breach.get e.blockLabels b) >>= fun l => attach l >>= fun _ => f blk) e
    { t with block := b } = _
  rw [Breach.get, he.labelled hb]
  show outcome (attach b >>= fun _ => f blk) e { t with block := b } = _
  rw [outcome_bind, outcome_attach (s := { t with block := b }) ht]
  rfl

lemma LabelTable.Sound.place_block {e : Env} {t : LabelTable} {b : BlockId} {o : Nat}
    (ht : t.Sound e) (he : e.Ordered) (hb : e.blockLabels[b]? = some b) (hl : t.labels[b]? = some none) :
    (t.place b o).Sound e := by
  refine ht.place hl fun hm => ?_
  exact Nat.lt_irrefl _ ((ht.late hm).trans' ((he.block hb).2.trans he.exception))

section Head

variable {blk : Block} (hb : c.e₁.graph.blocks[c.block]? = some blk) (h₁ : Vacant c.e₁ c.t₁)
  (h₂ : Vacant c.e₂ c.t₂) (hl₁ : c.t₁.asm.labels[c.block]? = some none)
  (hl₂ : c.t₂.asm.labels[c.block]? = some none)
include hb h₁ h₂ hl₁ hl₂

/-- The label of the block is the same in both, and nothing else has changed. -/
lemma labelsAlike_entered :
    LabelsAlike c {} (c.t₁.entered c.block).labelTable (c.t₂.entered c.block).labelTable where
  sound₁ := h₁.labels.place_block c.ordered₁ (c.ordered₁.labelled hb) hl₁
  sound₂ := h₂.labels.place_block c.ordered₂ (c.ordered₂.labelled (c.blocks.trans hb)) hl₂
  fresh := nofun
  placed := nofun
  inj := nofun
  pooled := nofun
  kept₁ _ hl := (LabelTable.getElem?_place (a := c.t₁.labelTable) hl₁ _).trans (if_neg (Ne.symm hl))
  kept₂ _ hl := (LabelTable.getElem?_place (a := c.t₂.labelTable) hl₂ _).trans (if_neg (Ne.symm hl))
  more₁ := by simp [State.entered, State.attached, State.labelTable]
  more₂ := by simp [State.entered, State.attached, State.labelTable]

/-- Whatever was lowered before, blocks begin alike. -/
lemma alike_blank {text text' : String} :
    let begun (t : State) (text : String) (g : Graph) : State :=
      { (({ t.entered c.block with asm := (t.entered c.block).asm.comment text } : State).blank g) with
        skipNext := false }
    Alike c {} (begun c.t₁ text c.e₁.graph) (begun c.t₂ text' c.e₂.graph) where
  puts :=
    { code := ⟨[], [], .of_eq rfl rfl, .of_eq rfl rfl, .nil⟩
      events := (Appended.refl _ _).push rfl
      exits := .refl _ _
      slowPaths := .refl _ _
      caches := .refl _ _
      calls := .refl _ _
      watchpoints := .refl _ _
      switches := .refl _ _ }
  labels := labelsAlike_entered hb h₁ h₂ hl₁ hl₂
  begun₁ := by simp [State.blank, State.entered, State.attached]
  seen₁ hi hx := by
    have := (Array.getElem?_eq_some_iff.mp hx).1
    exact (Nat.not_lt_of_le hi this).elim
  hints := by
    intro n o k hk h
    simp only [State.blank, State.entered, State.attached, Array.getElem?_push] at h
    split at h
    · cases h
    · have := (Array.getElem?_eq_some_iff.mp h).1
      omega
  ledger := by
    have hsize := h₂.slots.trans (c.frame ▸ h₁.slots.symm)
    simp only [State.blank, State.entered, State.attached]
    apply Array.ext
    · simpa using hsize
    · simp
  slots := by simpa [State.blank, State.entered, State.attached] using h₁.slots
  gprs := Bank.alike_releaseAll h₁.gprs h₂.gprs
    (h₁.gprs.anyLocked_eq_false.mpr fun r => h₁.unlocked (.gpr r))
    (h₂.gprs.anyLocked_eq_false.mpr fun r => h₂.unlocked (.gpr r))
  fprs := Bank.alike_releaseAll h₁.fprs h₂.fprs
    (h₁.fprs.anyLocked_eq_false.mpr fun r => h₁.unlocked (.fpr r))
    (h₂.fprs.anyLocked_eq_false.mpr fun r => h₂.unlocked (.fpr r))
  guards := h₂.unguarded.trans h₁.unguarded.symm
  guarded₁ l := by
    have hlocks := h₁.unlocked l
    cases l <;> simp [State.blank, State.entered, State.attached, State.locks, h₁.unguarded] <;>
      exact hlocks
  facts hn := by
    simp only [State.blank, State.entered, State.attached, h₁.clean.beginBlock, h₂.clean.beginBlock]
    exact .ofGraph hn
  clean₁ := by
    simp only [State.blank, State.entered, State.attached, h₁.clean.beginBlock]
    exact Facts.Clean.ofGraph _
  clean₂ := by
    simp only [State.blank, State.entered, State.attached, h₂.clean.beginBlock]
    exact Facts.Clean.ofGraph _
  block₁ := rfl
  block₂ := rfl
  skipNext := rfl
  exitStream₁ := h₁.exitStream
  exitStream₂ := h₂.exitStream
  exitLedger₁ := h₁.exitLedger
  exitLedger₂ := h₂.exitLedger

/-- The head of a block that is reachable. -/
lemma both_openBlock {T : State → State → Prop} :
    Both c c.t₁ c.t₂ (openBlock c.block) (openBlock c.block) (fun _ _ => Alike c {}) T := by
  have hb' : c.e₂.graph.blocks[c.block]? = some blk := c.blocks.trans hb
  unfold Both openBlock
  rw [outcome_enter hb c.ordered₁ hl₁, outcome_enter hb' c.ordered₂ hl₂]
  refine Both.bind (.ok ?_)
  -- after the reset only events are added, and at last the next node is not to be skipped
  let I (s₁ s₂ : State) : Prop := Alike c {} { s₁ with skipNext := false } { s₂ with skipNext := false }
  have hevent : ∀ {s₁ s₂ : State} {o : Slot} {format : DataFormat}, I s₁ s₂ →
      Both c s₁ s₂ (event (.setLocal o format)) (event (.setLocal o format)) (fun _ _ => I) T :=
    fun h => .ok (Alike.event h nofun)
  refine Both.bind (Both.mono (Q := fun _ _ => I) ?_ (fun _ _ _ _ h => .ok h) fun _ _ => id)
  unfold resetBlock
  refine Both.bind (.ok (Both.bind (.ok (Both.bind (.ok ?_)))))
  rw [c.arguments]
  refine Both.bind ((Both.forIn (I := I) ?_ ?_).mono ?_ fun _ _ => id)
  · exact alike_blank hb h₁ h₂ hl₁ hl₂
  · intro v _ t₁ t₂ ht
    refine Both.bindVariableOf fun x => Both.bind ((hevent ht).mono ?_ fun _ _ => id)
    exact fun _ _ _ _ h => .pure ⟨rfl, rfl, h⟩
  · intro _ _ t₁ t₂ ht
    refine Both.bind ((Both.forIn (I := I) ht ?_).mono (fun _ _ _ _ h => .pure h) fun _ _ => id)
    intro v _ t₁ t₂ ht
    refine Both.bindVariableOf fun x => ?_
    split
    · exact Both.bind ((hevent ht).mono (fun _ _ _ _ h => .pure ⟨rfl, rfl, h⟩) fun _ _ => id)
    · exact .pure ⟨rfl, rfl, ht⟩

lemma both_lowerBlock
    (hr : blk.reachable = true) :
    Both c c.t₁ c.t₂ (lowerBlock c.block) (lowerBlock c.block) (fun _ _ => Onwards c {})
      (Onwards c {}) := by
  unfold Both
  rw [outcome_lowerBlock hb hr, outcome_lowerBlock (c.blocks.trans hb) hr]
  refine Both.bind ((both_openBlock hb h₁ h₂ hl₁ hl₂).mono ?_ fun _ _ => id)
  refine fun _ _ t₁ t₂ ht => both_lowerNodes ht fun x hx => c.members hb ?_
  exact Array.mem_toList_iff.mp (List.fst_mem_of_mem_zipIdx hx)

end Head

/-- The code of a block that is not reachable is at most a breakpoint. -/
lemma outcome_lowerBlock_unreachable {e : Env} {t : State} {b : BlockId} {blk : Block}
    (hb : e.graph.blocks[b]? = some blk) (he : e.Ordered) (ht : t.asm.labels[b]? = some none)
    (hr : blk.reachable = false) :
    outcome (lowerBlock b) e t =
      outcome (if e.breakUnreachable then emit' .breakpoint else pure ()) e (t.entered b) := by
  rw [lowerBlock, outcome_enter hb he ht]
  simp only [hr, Bool.false_eq_true, if_false]
  rfl

end Lowering
end Speculation
