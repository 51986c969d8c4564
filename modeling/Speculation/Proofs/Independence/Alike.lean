import Speculation.Proofs.Independence.Banks
import Speculation.Proofs.Independence.Output
import Speculation.Proofs.Lowering.Agreement

/-!
Two lowerings of one block, side by side.

Both lower the same nodes, but in graphs that may differ elsewhere, and from states that may have been
left behind by different blocks. `Alike` is what the two states have in common all through the block.
The names that were given to labels differ; which go together is recorded as they are made, and so the
relation is indexed by this record, which only grows.
-/

namespace Speculation

def Op.targets : Op → List BlockId
  | .jump b => [b]
  | .branch t f => [t, f]
  | .switch data => [data.fallthrough]
  | _ => []

namespace Facts

/-- What is known of a node that nothing was learnt about is what was proven beforehand. -/
structure Clean (g : Graph) (f : Facts) : Prop where
  proven {n : NodeId} (h : f.isTouched n = false) : f.proven[n]? = g.nodes[n]?.map Node.proven
  provenSize : f.proven.size = g.nodes.size
  arrayModes {n : NodeId} (h : f.isTouched n = false) (hn : n < g.nodes.size) :
    f.arrayModes[n]? = some none
  arrayModesSize : f.arrayModes.size = g.nodes.size
  structuresSize : f.structures.size = g.nodes.size
  touchedSize : f.touched.size = g.nodes.size

structure AlikeAt (f₁ f₂ : Facts) (n : NodeId) : Prop where
  proven : f₂.proven[n]? = f₁.proven[n]?
  arrayModes : f₂.arrayModes[n]? = f₁.arrayModes[n]?
  structures : f₂.structures[n]? = f₁.structures[n]?
  touched : f₂.touched[n]? = f₁.touched[n]?

end Facts

namespace Lowering

/-- The labels of the blocks come first, then the exception handlers', and then all others. -/
structure Env.Ordered (e : Env) : Prop where
  labelled {b : BlockId} {blk : Block} (h : e.graph.blocks[b]? = some blk) : e.blockLabels[b]? = some b
  block {b : BlockId} {l : Label} (h : e.blockLabels[b]? = some l) : l = b ∧ b < e.exceptionLabel
  exception : e.exceptionLabel < e.rollbackLabel

/-- Two lowerings of a block: their environments, and the states that the block begins in. -/
structure Twins where
  e₁ : Env
  e₂ : Env
  t₁ : State
  t₂ : State
  block : BlockId
  /-- The nodes of the block. -/
  Member : NodeId → Prop
  ordered₁ : e₁.Ordered
  ordered₂ : e₂.Ordered
  frame : e₂.frame = e₁.frame
  dense : e₂.dense = e₁.dense
  context : e₂.context = e₁.context
  noMasquerades : e₂.noMasquerades = e₁.noMasquerades
  assertState : e₂.assertState = e₁.assertState
  breakUnreachable : e₂.breakUnreachable = e₁.breakUnreachable
  vars : e₂.graph.vars = e₁.graph.vars
  arguments : e₂.graph.arguments = e₁.graph.arguments
  numVars : e₂.graph.numVars = e₁.graph.numVars
  blocks : e₂.graph.blocks[block]? = e₁.graph.blocks[block]?
  members {b : Block} {n : NodeId} (hb : e₁.graph.blocks[block]? = some b) (h : n ∈ b.nodes) : Member n
  node {n : NodeId} (h : Member n) : e₂.graph.nodes[n]? = e₁.graph.nodes[n]?
  operand {n : NodeId} {d : Node} {e : Edge} (h : Member n) (hd : e₁.graph.nodes[n]? = some d)
    (he : e ∈ d.children) : e₂.graph.nodes[e.node]? = e₁.graph.nodes[e.node]?

namespace Twins

def Shares (c : Twins) (n : NodeId) : Prop := c.e₂.graph.nodes[n]? = c.e₁.graph.nodes[n]?

def Target (c : Twins) (b : BlockId) : Prop :=
  ∃ n d, c.Member n ∧ c.e₁.graph.nodes[n]? = some d ∧ b ∈ d.op.targets

/-- The block may go on to one that is there in one of the graphs only. -/
def Strays (c : Twins) : Prop :=
  ∃ b, c.Target b ∧ ¬(c.e₁.blockLabels[b]?.isSome ↔ c.e₂.blockLabels[b]?.isSome)

/-- The labels had the same meaning before the block began. -/
inductive Given (c : Twins) : Label → Label → Prop
  | block {b : BlockId} {l m : Label} (hl : c.e₁.blockLabels[b]? = some l)
    (hm : c.e₂.blockLabels[b]? = some m) : Given c l m
  | exception : Given c c.e₁.exceptionLabel c.e₂.exceptionLabel

end Twins

/-- The labels that were made in two lowerings and go together: those for places in the code, and
those of constants. -/
structure Names where
  code : List (Label × Label) := []
  pool : List (Label × Label) := []

namespace Names

def Grows (w w' : Names) : Prop := w.code ⊆ w'.code ∧ w.pool ⊆ w'.pool

lemma Grows.refl (w : Names) : w.Grows w := ⟨List.Subset.refl _, List.Subset.refl _⟩

lemma Grows.trans {w w' w'' : Names} (h : w.Grows w') (h' : w'.Grows w'') : w.Grows w'' :=
  ⟨List.Subset.trans h.1 h'.1, List.Subset.trans h.2 h'.2⟩

end Names

/-- The two labels go together. -/
inductive Twins.Renames (c : Twins) (w : Names) (l m : Label) : Prop
  | code (h : (l, m) ∈ w.code)
  | pool (h : (l, m) ∈ w.pool)
  | given (h : c.Given l m)

/-- What a state knows of labels: where they are attached, and the constants that have one. -/
structure LabelTable where
  labels : Array (Option Nat)
  pool : Array UInt64
  poolLabels : Array Label

def State.labelTable (s : State) : LabelTable := ⟨s.asm.labels, s.pool, s.poolLabels⟩

namespace LabelTable

def Pools (t : LabelTable) (l : Label) (bits : UInt64) : Prop :=
  ∃ i : Nat, t.pool[i]? = some bits ∧ t.poolLabels[i]? = some l

/-- Each constant has one label, which is for nothing else. -/
structure Sound (e : Env) (t : LabelTable) : Prop where
  size : t.pool.size = t.poolLabels.size
  nodup : t.pool.toList.Nodup
  nodupLabels : t.poolLabels.toList.Nodup
  late {l : Label} (h : l ∈ t.poolLabels) : e.rollbackLabel < l
  free {l : Label} (h : l ∈ t.poolLabels) : t.labels[l]? = some none
  made : e.rollbackLabel < t.labels.size

end LabelTable

/-- What becomes of the labels in two lowerings of a block. -/
structure LabelsAlike (c : Twins) (w : Names) (a b : LabelTable) : Prop where
  sound₁ : a.Sound c.e₁
  sound₂ : b.Sound c.e₂
  fresh {l m : Label} (h : (l, m) ∈ w.code) :
    c.t₁.asm.labels.size ≤ l ∧ c.t₂.asm.labels.size ≤ m ∧ l ∉ a.poolLabels ∧ m ∉ b.poolLabels
  /-- Both labels are still free, or they are attached at corresponding places. -/
  placed {l m : Label} (h : (l, m) ∈ w.code) : ∃ k : Option Nat,
    a.labels[l]? = some (k.map (c.t₁.asm.offset + ·)) ∧
      b.labels[m]? = some (k.map (c.t₂.asm.offset + ·))
  inj {l m l' m' : Label} (h : (l, m) ∈ w.code) (h' : (l', m') ∈ w.code) : l = l' ↔ m = m'
  pooled {l m : Label} (h : (l, m) ∈ w.pool) : ∃ bits, a.Pools l bits ∧ b.Pools m bits
  kept₁ {l : Label} (h : l < c.t₁.asm.labels.size) (hl : l ≠ c.block) :
    a.labels[l]? = c.t₁.asm.labels[l]?
  kept₂ {l : Label} (h : l < c.t₂.asm.labels.size) (hl : l ≠ c.block) :
    b.labels[l]? = c.t₂.asm.labels[l]?
  more₁ : c.t₁.asm.labels.size ≤ a.labels.size
  more₂ : c.t₂.asm.labels.size ≤ b.labels.size

/-- What two lowerings of a block have in common at corresponding points. -/
structure Alike (c : Twins) (w : Names) (s₁ s₂ : State) : Prop where
  puts : Puts (c.Renames w) c.t₁ s₁ c.t₂ s₂
  labels : LabelsAlike c w s₁.labelTable s₂.labelTable
  /-- The first event of the block is a reset. -/
  begun₁ : s₁.events[c.t₁.events.size]? = some .reset
  hints {n : NodeId} {o : Slot} {k : Nat} (hk : c.t₁.events.size ≤ k)
    (h : s₁.events[k]? = some (.movHint n o)) : c.Shares n
  /-- Exits of the block go by events that have happened. -/
  seen₁ {i : Nat} {x : Exit} (hi : c.t₁.exits.size ≤ i) (hx : s₁.exits[i]? = some x) :
    x.streamIndex ≤ s₁.events.size
  ledger : s₂.ledger = s₁.ledger
  slots : s₁.ledger.size = c.e₁.frame.numLocals
  gprs : s₁.gprs.Alike s₂.gprs
  fprs : s₁.fprs.Alike s₂.fprs
  guards : s₂.guards = s₁.guards
  guarded₁ : s₁.Guarded
  facts {n : NodeId} (h : c.Shares n) : s₁.facts.AlikeAt s₂.facts n
  clean₁ : s₁.facts.Clean c.e₁.graph
  clean₂ : s₂.facts.Clean c.e₂.graph
  block₁ : s₁.block = c.block
  block₂ : s₂.block = c.block
  skipNext : s₂.skipNext = s₁.skipNext
  exitStream₁ : s₁.exitStream = none
  exitStream₂ : s₂.exitStream = none
  exitLedger₁ : s₁.exitLedger = none
  exitLedger₂ : s₂.exitLedger = none

/-- While a node is lowered it is the current one of both lowerings. -/
structure AlikeAt (c : Twins) (w : Names) (s₁ s₂ : State) : Prop extends Alike c w s₁ s₂ where
  current : s₂.current = s₁.current
  position : s₂.position = s₁.position
  member : c.Member s₁.current

/-! ### Two runs -/

/-- How two steps end together: both with results, both by terminating the node, or both in the same
failure. Only where the block goes on to one that is not there may one of them fail alone. -/
inductive Ends {α β : Type} (strays : Prop) (Q : α → β → State → State → Prop)
    (T : State → State → Prop) : Except Stop α × State → Except Stop β × State → Prop
  | ok {a : α} {b : β} {s₁ s₂ : State} (h : Q a b s₁ s₂) : Ends strays Q T (.ok a, s₁) (.ok b, s₂)
  | terminated {s₁ s₂ : State} (h : T s₁ s₂) :
    Ends strays Q T (.error .terminated, s₁) (.error .terminated, s₂)
  | failed (f : Failure) (s₁ s₂ : State) :
    Ends strays Q T (.error (.failed f), s₁) (.error (.failed f), s₂)
  | astray₁ (h : strays) (s : State) (o : Except Stop β × State) :
    Ends strays Q T (.error (.failed (.breach .outOfRange)), s) o
  | astray₂ (h : strays) (o : Except Stop α × State) (s : State) :
    Ends strays Q T o (.error (.failed (.breach .outOfRange)), s)

variable {α β γ δ : Type} {c : Twins} {ls : List (Label × Label)} {s₁ s₂ : State}

/-- How `x` from `s₁` and `y` from `s₂` end together. -/
def Both (c : Twins) (s₁ s₂ : State) (x : Lower α) (y : Lower β) (Q : α → β → State → State → Prop)
    (T : State → State → Prop) : Prop :=
  Ends c.Strays Q T (outcome x c.e₁ s₁) (outcome y c.e₂ s₂)

variable {Q Q' : α → β → State → State → Prop} {T T' : State → State → Prop}

lemma Ends.mono {strays : Prop} {o : Except Stop α × State} {o' : Except Stop β × State}
    (h : Ends strays Q T o o') (hQ : ∀ a b s₁ s₂, Q a b s₁ s₂ → Q' a b s₁ s₂)
    (hT : ∀ s₁ s₂, T s₁ s₂ → T' s₁ s₂) : Ends strays Q' T' o o' := by
  cases h with
  | ok h => exact .ok (hQ _ _ _ _ h)
  | terminated h => exact .terminated (hT _ _ h)
  | failed f => exact .failed f _ _
  | astray₁ h => exact .astray₁ h _ _
  | astray₂ h => exact .astray₂ h _ _

/-- Both have results. -/
lemma Ends.of_isOk {strays : Prop} {o : Except Stop α × State} {o' : Except Stop β × State}
    (h : Ends strays Q T o o') (ho : o.1.isOk = true) (ho' : o'.1.isOk = true) :
    ∃ a s₁ b s₂, o = (.ok a, s₁) ∧ o' = (.ok b, s₂) ∧ Q a b s₁ s₂ := by
  cases h with
  | ok h => exact ⟨_, _, _, _, rfl, rfl, h⟩
  | terminated => cases ho
  | failed => cases ho
  | astray₁ => cases ho
  | astray₂ => cases ho'

lemma Ends.imp {strays strays' : Prop} {o : Except Stop α × State} {o' : Except Stop β × State}
    (h : Ends strays Q T o o') (hs : strays → strays') : Ends strays' Q T o o' := by
  cases h with
  | ok h => exact .ok h
  | terminated h => exact .terminated h
  | failed f => exact .failed f _ _
  | astray₁ h => exact .astray₁ (hs h) _ _
  | astray₂ h => exact .astray₂ (hs h) _ _

lemma Both.mono {x : Lower α} {y : Lower β} (h : Both c s₁ s₂ x y Q T)
    (hQ : ∀ a b s₁ s₂, Q a b s₁ s₂ → Q' a b s₁ s₂) (hT : ∀ s₁ s₂, T s₁ s₂ → T' s₁ s₂) :
    Both c s₁ s₂ x y Q' T' :=
  Ends.mono h hQ hT

lemma Both.bind {x : Lower γ} {y : Lower δ} {f : γ → Lower α} {g : δ → Lower β}
    (h : Both c s₁ s₂ x y (fun a b t₁ t₂ => Both c t₁ t₂ (f a) (g b) Q T) T) :
    Both c s₁ s₂ (x >>= f) (y >>= g) Q T := by
  unfold Both at h ⊢
  rw [outcome_bind, outcome_bind]
  generalize outcome x c.e₁ s₁ = o, outcome y c.e₂ s₂ = o' at h
  cases h with
  | ok h => exact h
  | terminated h => exact .terminated h
  | failed f => exact .failed f _ _
  | astray₁ h => exact .astray₁ h _ _
  | astray₂ h => exact .astray₂ h _ _

lemma Both.pure {a : α} {b : β} (h : Q a b s₁ s₂) : Both c s₁ s₂ (pure a) (pure b) Q T := .ok h

lemma Both.map {x : Lower γ} {y : Lower δ} {f : γ → α} {g : δ → β}
    (h : Both c s₁ s₂ x y (fun a b => Q (f a) (g b)) T) : Both c s₁ s₂ (f <$> x) (g <$> y) Q T := by
  rw [← bind_pure_comp, ← bind_pure_comp]
  exact Both.bind (h.mono (fun _ _ _ _ h => .pure h) fun _ _ => id)

lemma Both.throw {e : Stop} (h : e = .terminated → T s₁ s₂) :
    Both c s₁ s₂ (throw e : Lower α) (throw e : Lower β) Q T := by
  cases e with
  | terminated => exact .terminated (h rfl)
  | failed f => exact .failed f _ _

/-- Steps that are taken up again only after terminating. -/
lemma Both.tryCatch {x : Lower α} {y : Lower β} {f : Stop → Lower α} {g : Stop → Lower β}
    (h : Both c s₁ s₂ x y Q fun t₁ t₂ => Both c t₁ t₂ (f .terminated) (g .terminated) Q T)
    (hf : ∀ e, f (.failed e) = MonadExcept.throw (.failed e))
    (hg : ∀ e, g (.failed e) = MonadExcept.throw (.failed e)) :
    Both c s₁ s₂ (tryCatch x f) (tryCatch y g) Q T := by
  unfold Both at h ⊢
  rw [outcome_tryCatch, outcome_tryCatch]
  generalize outcome x c.e₁ s₁ = o, outcome y c.e₂ s₂ = o' at h
  cases h with
  | ok h => exact .ok h
  | terminated h => exact h
  | failed e =>
    dsimp only
    rw [hf, hg]
    exact .failed e _ _
  | astray₁ h =>
    dsimp only
    rw [hf]
    exact .astray₁ h _ _
  | astray₂ h =>
    dsimp only
    rw [hg]
    exact .astray₂ h _ _

/-- Steps that each are known to give a result. -/
lemma Both.of_leads {x : Lower α} {y : Lower β} {Q₁ : α → State → Prop} {Q₂ : β → State → Prop}
    (hx : Leads c.e₁ s₁ x Q₁ (fun _ => False) fun _ _ => False)
    (hy : Leads c.e₂ s₂ y Q₂ (fun _ => False) fun _ _ => False)
    (h : ∀ a b t₁ t₂, Q₁ a t₁ → Q₂ b t₂ → Q a b t₁ t₂) : Both c s₁ s₂ x y Q T := by
  unfold Leads at hx hy
  unfold Both
  generalize outcome x c.e₁ s₁ = o, outcome y c.e₂ s₂ = o' at hx hy
  rcases o with ⟨(_ | _) | a, t₁⟩
  · exact hx.elim
  · exact hx.elim
  rcases o' with ⟨(_ | _) | b, t₂⟩
  · exact hy.elim
  · exact hy.elim
  exact .ok (h a b t₁ t₂ hx hy)

/-- The node is lowered alike by both steps. They refer to no labels but those in the list, those
they make themselves, and those that both environments know. -/
def Similar (c : Twins) (ls : List (Label × Label)) (R : α → β → Prop) (x : Lower α) (y : Lower β) :
    Prop :=
  ∀ w s₁ s₂, AlikeAt c w s₁ s₂ → ls ⊆ w.code → Both c s₁ s₂ x y
    (fun a b t₁ t₂ => R a b ∧ ∃ w', w.Grows w' ∧ AlikeAt c w' t₁ t₂)
    fun t₁ t₂ => ∃ w', w.Grows w' ∧ AlikeAt c w' t₁ t₂

namespace Similar

variable {R : α → β → Prop} {S : γ → δ → Prop}

lemma weaken {R' : α → β → Prop} {x : Lower α} {y : Lower β} (h : Similar c ls R x y)
    (hR : ∀ a b, R a b → R' a b) : Similar c ls R' x y :=
  fun w s₁ s₂ hs hls => (h w s₁ s₂ hs hls).mono (fun _ _ _ _ h => ⟨hR _ _ h.1, h.2⟩) fun _ _ => id

lemma bind {x : Lower α} {y : Lower β} {f : α → Lower γ} {g : β → Lower δ} (h : Similar c ls R x y)
    (hf : ∀ a b, R a b → Similar c ls S (f a) (g b)) : Similar c ls S (x >>= f) (y >>= g) := by
  refine fun w s₁ s₂ hs hls => Both.bind ((h w s₁ s₂ hs hls).mono ?_ fun _ _ => id)
  rintro a b t₁ t₂ ⟨hab, w', hw, ht⟩
  refine (hf a b hab w' t₁ t₂ ht (List.Subset.trans hls hw.1)).mono ?_ ?_
  · rintro a b u₁ u₂ ⟨hab, w'', hw', hu⟩
    exact ⟨hab, w'', hw.trans hw', hu⟩
  · rintro u₁ u₂ ⟨w'', hw', hu⟩
    exact ⟨w'', hw.trans hw', hu⟩

/-- The results are the same. -/
lemma bindEq {x y : Lower α} {f : α → Lower γ} {g : α → Lower δ} (h : Similar c ls Eq x y)
    (hf : ∀ a, Similar c ls S (f a) (g a)) : Similar c ls S (x >>= f) (y >>= g) :=
  h.bind fun a _ hab => hab ▸ hf a

lemma pure {a : α} {b : β} (h : R a b) : Similar c ls R (pure a) (pure b) :=
  fun w _ _ hs _ => .pure ⟨h, w, .refl w, hs⟩

@[simp] lemma pureEq (a : α) : Similar c ls Eq (Pure.pure a) (Pure.pure a) := pure rfl

@[simp] lemma throw (e : Stop) : Similar c ls R (throw e) (throw e) :=
  fun w _ _ hs _ => .throw fun _ => ⟨w, .refl w, hs⟩

@[simp] lemma fail (e : CompileError) : Similar c ls R (fail e) (fail e) := throw _

@[simp] lemma internal (f : InternalFault) : Similar c ls R (internal f) (internal f) := throw _

@[simp] lemma assume (x : Except Breach α) : Similar c ls Eq (assume x) (assume x) := by
  cases x with
  | ok a => exact pure rfl
  | error b => exact throw _

@[simp] lemma check (x : Except CompileError α) : Similar c ls Eq (check x) (check x) := by
  cases x with
  | ok a => exact pure rfl
  | error b => exact throw _

lemma map {x : Lower α} {y : Lower β} {f : α → γ} {g : β → δ} (h : Similar c ls R x y)
    (hf : ∀ a b, R a b → S (f a) (g b)) : Similar c ls S (f <$> x) (g <$> y) := by
  rw [← bind_pure_comp, ← bind_pure_comp]
  exact h.bind fun a b hab => pure (hf a b hab)

@[simp] lemma discard {x : Lower α} {y : Lower β} (h : Similar c ls R x y) :
    Similar c ls Eq (discard x) (discard y) :=
  h.map fun _ _ _ => rfl

lemma ite {p : Prop} [Decidable p] {x x' : Lower α} {y y' : Lower β} (h : Similar c ls R x y)
    (h' : Similar c ls R x' y') : Similar c ls R (if p then x else x') (if p then y else y') := by
  split
  · exact h
  · exact h'

lemma forIn_mem {xs : List γ} {b : δ} {f g : γ → δ → Lower (ForInStep δ)}
    (hf : ∀ x ∈ xs, ∀ b, Similar c ls Eq (f x b) (g x b)) :
    Similar c ls Eq (forIn xs b f) (forIn xs b g) := by
  induction xs generalizing b with
  | nil => exact pure rfl
  | cons x xs ih =>
    rw [List.forIn_cons, List.forIn_cons]
    refine bindEq (hf x List.mem_cons_self b) fun r => ?_
    cases r with
    | done b => exact pure rfl
    | yield b => exact ih fun y hy => hf y (List.mem_cons_of_mem x hy)

lemma forIn {xs : List γ} {b : δ} {f g : γ → δ → Lower (ForInStep δ)}
    (hf : ∀ x b, Similar c ls Eq (f x b) (g x b)) :
    Similar c ls Eq (forIn xs b f) (forIn xs b g) :=
  forIn_mem fun x _ => hf x

lemma bindGet {f g : State → Lower α} {R : α → α → Prop}
    (hf : ∀ w s₁ s₂, AlikeAt c w s₁ s₂ → ls ⊆ w.code → Similar c ls R (f s₁) (g s₂)) :
    Similar c ls R (MonadState.get >>= f) (MonadState.get >>= g) := by
  refine fun w s₁ s₂ hs hls => Both.bind ?_
  exact .ok (hf w s₁ s₂ hs hls w s₁ s₂ hs hls)

lemma bindRead {f g : Env → Lower α} {R : α → α → Prop} (hf : Similar c ls R (f c.e₁) (g c.e₂)) :
    Similar c ls R (MonadReader.read >>= f) (MonadReader.read >>= g) :=
  fun w s₁ s₂ hs hls => Both.bind (.ok (hf w s₁ s₂ hs hls))

lemma modify {f g : State → State} (h : ∀ w s₁ s₂, AlikeAt c w s₁ s₂ → AlikeAt c w (f s₁) (g s₂)) :
    Similar c ls Eq (modify f : Lower PUnit) (modify g : Lower PUnit) :=
  fun w s₁ s₂ hs _ => .ok ⟨rfl, w, .refl w, h w s₁ s₂ hs⟩

end Similar

end Lowering
end Speculation
