import Speculation.Proofs.Compile.Ledger
import Speculation.Proofs.Graph.Uses
import Speculation.Proofs.Independence.Entry
import Speculation.Proofs.Replay

/-!
A block after different blocks.

What is put out for a block depends on the block only: on its nodes and their operands, on the
variables, and on the layout of the frame. Which blocks were lowered before, and of which graph, shows in
the names of labels and in where indexes and offsets are counted from.
-/

namespace Speculation

namespace Replay

/-- An operand is known to hold the value of a node only if a hint said so. -/
lemma hinted_of_foldl_step {es : List Event} {s : State} {o : Slot} {n : NodeId}
    (h : (es.foldl step s).operand? o = some (.hinted n)) :
    s.operand? o = some (.hinted n) ∨ .movHint n o ∈ es := by
  induction es generalizing s with
  | nil => exact .inl h
  | cons e es ih =>
    refine (ih h).elim (fun h => ?_) fun h => .inr (List.mem_cons_of_mem e h)
    cases e with
    | reset => cases h
    | movHint m p =>
      rw [step, operand?_setOperand] at h
      split at h
      · rename_i ho
        cases h
        exact .inr (ho ▸ List.mem_cons_self)
      · exact .inl h
    | setLocal p f =>
      rw [step, operand?_setOperand] at h
      split at h
      · cases h
      · exact .inl h
    | _ => exact .inl h

/-- A replay that goes on after a reset does not depend on what came before. -/
lemma foldl_step_reset (es fs : List Event) :
    (es ++ .reset :: fs).foldl step {} = fs.foldl step {} := by
  rw [List.foldl_append]
  rfl

end Replay

namespace Lowering

variable {c : Twins} {w : Names} {s₁ s₂ : State}

/-! ### Labels -/

/-- The labels are renamed one to one. Those of blocks and of the exception handlers keep their meaning,
those of constants belong to the same constants; and the others were made for the block, and are
attached at corresponding places of its code or not yet. -/
structure Renaming (e₁ e₂ : Env) (t₁ s₁ t₂ s₂ : State) (ρ : Label → Label → Prop) : Prop where
  unique {l m l' m' : Label} (h : ρ l m) (h' : ρ l' m') : l = l' ↔ m = m'
  meaning {l m : Label} (h : ρ l m) :
    (∃ b : BlockId, e₁.blockLabels[b]? = some l ∧ e₂.blockLabels[b]? = some m) ∨
    (l = e₁.exceptionLabel ∧ m = e₂.exceptionLabel) ∨
    (∃ bits, s₁.labelTable.Pools l bits ∧ s₂.labelTable.Pools m bits) ∨
    t₁.asm.labels.size ≤ l ∧ t₂.asm.labels.size ≤ m ∧ ∃ k : Option Nat,
      s₁.asm.labels[l]? = some (k.map (t₁.asm.offset + ·)) ∧
        s₂.asm.labels[m]? = some (k.map (t₂.asm.offset + ·))

/-- The kinds of labels do not overlap. -/
lemma LabelTable.Pools.mem {t : LabelTable} {l : Label} {bits : UInt64} (h : t.Pools l bits) :
    l ∈ t.poolLabels :=
  let ⟨_, _, hi⟩ := h
  Array.mem_of_getElem? hi

lemma Twins.Given.le {l m : Label} (h : c.Given l m) :
    l ≤ c.e₁.exceptionLabel ∧ m ≤ c.e₂.exceptionLabel := by
  cases h with
  | block hl hm =>
    obtain ⟨rfl, h₁⟩ := c.ordered₁.block hl
    obtain ⟨rfl, h₂⟩ := c.ordered₂.block hm
    exact ⟨Nat.le_of_lt h₁, Nat.le_of_lt h₂⟩
  | exception => exact ⟨Nat.le_refl _, Nat.le_refl _⟩

lemma Twins.Given.unique {l m l' m' : Label} (h : c.Given l m) (h' : c.Given l' m') :
    l = l' ↔ m = m' := by
  cases h with
  | block hl hm =>
    obtain ⟨rfl, h₁⟩ := c.ordered₁.block hl
    obtain ⟨rfl, h₂⟩ := c.ordered₂.block hm
    cases h' with
    | block hl' hm' =>
      obtain ⟨rfl, -⟩ := c.ordered₁.block hl'
      obtain ⟨rfl, -⟩ := c.ordered₂.block hm'
      exact Iff.rfl
    | exception => exact iff_of_false (Nat.ne_of_lt h₁) (Nat.ne_of_lt h₂)
  | exception =>
    cases h' with
    | block hl' hm' =>
      obtain ⟨rfl, h₁⟩ := c.ordered₁.block hl'
      obtain ⟨rfl, h₂⟩ := c.ordered₂.block hm'
      exact iff_of_false (Nat.ne_of_gt h₁) (Nat.ne_of_gt h₂)
    | exception => exact iff_of_true rfl rfl

/-- The labels that go together are a renaming. -/
lemma LabelsAlike.renaming (h : LabelsAlike c w s₁.labelTable s₂.labelTable)
    (h₁ : c.t₁.labelTable.Sound c.e₁) (h₂ : c.t₂.labelTable.Sound c.e₂) :
    Renaming c.e₁ c.e₂ c.t₁ s₁ c.t₂ s₂ (c.Renames w) where
  unique {l m l' m'} hlm hlm' := by
    -- labels of different kinds differ
    have hgiven : ∀ {l m : Label}, c.Given l m → l < c.t₁.asm.labels.size ∧ m < c.t₂.asm.labels.size ∧
        l ∉ s₁.poolLabels ∧ m ∉ s₂.poolLabels := by
      intro l m hg
      have hle := hg.le
      have he₁ := c.ordered₁.exception
      have he₂ := c.ordered₂.exception
      refine ⟨hle.1.trans_lt (he₁.trans h₁.made), hle.2.trans_lt (he₂.trans h₂.made), fun hm => ?_,
        fun hm => ?_⟩
      · exact Nat.lt_irrefl _ (hle.1.trans_lt (he₁.trans (h.sound₁.late hm)))
      · exact Nat.lt_irrefl _ (hle.2.trans_lt (he₂.trans (h.sound₂.late hm)))
    cases hlm with
    | code hlm =>
      obtain ⟨hl, hm, hlp, hmp⟩ := h.fresh hlm
      cases hlm' with
      | code hlm' => exact h.inj hlm hlm'
      | pool hlm' =>
        obtain ⟨bits, hl', hm'⟩ := h.pooled hlm'
        exact iff_of_false (fun heq => hlp (heq ▸ hl'.mem)) fun heq => hmp (heq ▸ hm'.mem)
      | given hlm' =>
        obtain ⟨hl', hm', -, -⟩ := hgiven hlm'
        exact iff_of_false (Nat.ne_of_gt (hl'.trans_le hl)) (Nat.ne_of_gt (hm'.trans_le hm))
    | pool hlm =>
      obtain ⟨bits, hl, hm⟩ := h.pooled hlm
      cases hlm' with
      | code hlm' =>
        obtain ⟨-, -, hlp, hmp⟩ := h.fresh hlm'
        exact iff_of_false (fun heq => hlp (heq ▸ hl.mem)) fun heq => hmp (heq ▸ hm.mem)
      | pool hlm' =>
        obtain ⟨bits', hl', hm'⟩ := h.pooled hlm'
        rw [h.sound₁.pools_unique hl hl', h.sound₂.pools_unique hm hm']
      | given hlm' =>
        obtain ⟨-, -, hlp, hmp⟩ := hgiven hlm'
        exact iff_of_false (fun heq => hlp (heq ▸ hl.mem)) fun heq => hmp (heq ▸ hm.mem)
    | given hlm =>
      obtain ⟨hl, hm, hlp, hmp⟩ := hgiven hlm
      cases hlm' with
      | code hlm' =>
        obtain ⟨hl', hm', -, -⟩ := h.fresh hlm'
        exact iff_of_false (Nat.ne_of_lt (hl.trans_le hl')) (Nat.ne_of_lt (hm.trans_le hm'))
      | pool hlm' =>
        obtain ⟨bits, hl', hm'⟩ := h.pooled hlm'
        exact iff_of_false (fun heq => hlp (heq ▸ hl'.mem)) fun heq => hmp (heq ▸ hm'.mem)
      | given hlm' => exact hlm.unique hlm'
  meaning hlm := by
    cases hlm with
    | code hlm =>
      obtain ⟨hl, hm, -, -⟩ := h.fresh hlm
      exact .inr (.inr (.inr ⟨hl, hm, h.placed hlm⟩))
    | pool hlm => exact .inr (.inr (.inl (h.pooled hlm)))
    | given hlm =>
      cases hlm with
      | block hl hm => exact .inl ⟨_, hl, hm⟩
      | exception => exact .inr (.inl ⟨rfl, rfl⟩)

/-! ### Recoveries -/

/-- The events of the block, from its reset on, are the same. -/
lemma Alike.exists_events (h : Alike c w s₁ s₂) : ∃ es,
    s₁.events.toList = c.t₁.events.toList ++ .reset :: es ∧
      s₂.events.toList = c.t₂.events.toList ++ .reset :: es := by
  obtain ⟨as, bs, ha, hb, hab⟩ := h.puts.events
  rw [List.forall₂_eq_eq_eq] at hab
  subst bs
  have hreset := h.begun₁
  rw [← Array.getElem?_toList, ha, List.getElem?_append_right (by simp)] at hreset
  cases as with
  | nil => simp at hreset
  | cons e es =>
    simp only [Array.length_toList, Nat.sub_self, List.getElem?_cons_zero, Option.some.injEq] at hreset
    exact ⟨es, hreset ▸ ha, hreset ▸ hb⟩

/-- Graphs that agree on the nodes that operands are known to hold agree on where these are found. -/
lemma recover_congr {g g' : Graph} {r : Replay.State} {o : Slot}
    (h : ∀ n, r.operand? o = some (.hinted n) → g'.valueConstant n = g.valueConstant n) :
    Replay.recover g' r o = Replay.recover g r o := by
  unfold Replay.recover
  split
  · rfl
  · rfl
  · rename_i n hn
    rw [h n hn]

/-- Where values are found at an exit, with any events to come, is a matter of the block. -/
lemma reconstruct_eq (h : Alike c w s₁ s₂) {k : Nat} (hk : c.t₁.events.size + 1 + k ≤ s₁.events.size)
    (more more' : List Event) :
    reconstruct (s₂.events.toList ++ more') (c.t₂.events.size + 1 + k) c.e₂.graph =
      reconstruct (s₁.events.toList ++ more) (c.t₁.events.size + 1 + k) c.e₁.graph := by
  obtain ⟨es, h₁, h₂⟩ := h.exists_events
  have hafter : ∀ {t s : State} {more : List Event}, s.events.toList = t.events.toList ++ .reset :: es →
      t.events.size + 1 + k ≤ s.events.size →
      Replay.after (s.events.toList ++ more) (t.events.size + 1 + k) =
        (es.take k).foldl Replay.step {} := by
    intro t s more hs hk
    rw [Replay.after_append (by simpa using hk), Replay.after, hs, List.take_append,
      List.take_of_length_le (by simp; omega), show t.events.size + 1 + k - t.events.toList.length =
        k + 1 by simp; omega, List.take_succ_cons, Replay.foldl_step_reset]
  have hsize : ∀ {t s : State}, s.events.toList = t.events.toList ++ .reset :: es →
      s.events.size = t.events.size + (es.length + 1) := by
    intro t s hs
    rw [← Array.length_toList, hs, List.length_append, List.length_cons, Array.length_toList]
  have hle : c.t₂.events.size + 1 + k ≤ s₂.events.size := by
    have hsize₁ := hsize h₁
    have hsize₂ := hsize h₂
    omega
  have hrecover : ∀ o, Replay.recover c.e₂.graph ((es.take k).foldl Replay.step {}) o =
      Replay.recover c.e₁.graph ((es.take k).foldl Replay.step {}) o := by
    refine fun o => recover_congr fun n hn => Twins.Shares.valueConstant ?_
    rcases Replay.hinted_of_foldl_step hn with hn | hn
    · cases hn
    · obtain ⟨i, hi⟩ := List.mem_iff_getElem?.mp (List.mem_of_mem_take hn)
      refine h.hints (k := c.t₁.events.size + 1 + i) (by omega) (o := o) ?_
      rw [← Array.getElem?_toList, h₁, List.getElem?_append_right (by simp; omega)]
      rw [show c.t₁.events.size + 1 + i - c.t₁.events.toList.length = i + 1 by simp; omega]
      simpa using hi
  simp only [reconstruct, Replay.foldl_fromLastReset, hafter h₁ hk, hafter h₂ hle, c.arguments,
    c.numVars, hrecover]

/-! ### What is put out -/

/-- The same was put out for a block from `t₁` to `s₁` and from `t₂` to `s₂`. -/
structure SameBlock (e₁ e₂ : Env) (t₁ s₁ t₂ s₂ : State) : Prop where
  /-- Code, events, exits and all else are the same, but for the names of labels and for where indexes
  and offsets are counted from. -/
  puts : ∃ ρ, Renaming e₁ e₂ t₁ s₁ t₂ s₂ ρ ∧ Puts ρ t₁ s₁ t₂ s₂
  /-- Corresponding exits find every argument and local in the same place, whatever else is lowered. -/
  recoveries {i j : Nat} {x y : Exit} (hij : Shifted t₁.exits.size t₂.exits.size i j)
    (hx : s₁.exits[i]? = some x) (hy : s₂.exits[j]? = some y) (more more' : List Event) :
    reconstruct (s₂.events.toList ++ more') y.streamIndex e₂.graph =
      reconstruct (s₁.events.toList ++ more) x.streamIndex e₁.graph

/-- States that are alike have put out the same. -/
lemma Alike.sameBlock (h : Alike c w s₁ s₂) (h₁ : c.t₁.labelTable.Sound c.e₁)
    (h₂ : c.t₂.labelTable.Sound c.e₂) : SameBlock c.e₁ c.e₂ c.t₁ s₁ c.t₂ s₂ where
  puts := ⟨_, h.labels.renaming h₁ h₂, h.puts⟩
  recoveries := by
    intro i j x y hij hx hy more more'
    rcases h.puts.exits.getElem? hij with ⟨hn, -⟩ | ⟨x', y', hx', hy', hxy⟩
    · rw [hx] at hn
      cases hn
    · rw [hx] at hx'
      rw [hy] at hy'
      cases hx'
      cases hy'
      obtain ⟨k, hk, hk'⟩ := hxy.stream
      rw [hk, hk']
      refine reconstruct_eq h ?_ more more'
      rw [← hk]
      obtain ⟨_, rfl, -⟩ := hij
      exact h.seen₁ (Nat.le_add_right _ _) hx

section Blocks

variable {blk : Block} (hb : c.e₁.graph.blocks[c.block]? = some blk) (h₁ : Vacant c.e₁ c.t₁)
  (h₂ : Vacant c.e₂ c.t₂) (hl₁ : c.t₁.asm.labels[c.block]? = some none)
  (hl₂ : c.t₂.asm.labels[c.block]? = some none)
include hb h₁ h₂ hl₁ hl₂

lemma sameBlock_entered {a b : Assembler} (is : List Inst)
    (ha : c.t₁.asm.Adds a (is.map fun i => .inst i none))
    (hb' : c.t₂.asm.Adds b (is.map fun i => .inst i none))
    (hal : a.labels = (c.t₁.entered c.block).asm.labels)
    (hbl : b.labels = (c.t₂.entered c.block).asm.labels) :
    SameBlock c.e₁ c.e₂ c.t₁ { c.t₁.entered c.block with asm := a } c.t₂
      { c.t₂.entered c.block with asm := b } := by
  have hlabels : LabelsAlike c {} { c.t₁.entered c.block with asm := a }.labelTable
      { c.t₂.entered c.block with asm := b }.labelTable := by
    rw [State.labelTable, State.labelTable, hal, hbl]
    exact labelsAlike_entered hb h₁ h₂ hl₁ hl₂
  refine ⟨⟨_, hlabels.renaming h₁.labels h₂.labels, ?_⟩, ?_⟩
  · refine ⟨⟨_, _, ha, hb', List.forall₂_same.mpr fun p hp => ?_⟩, .refl _ _, .refl _ _, .refl _ _,
      .refl _ _, .refl _ _, .refl _ _, .refl _ _⟩
    obtain ⟨i, -, rfl⟩ := List.mem_map.mp hp
    exact .plain i
  · rintro i j x y ⟨k, rfl, -⟩ hx
    exact (Nat.not_lt_of_le (Nat.le_add_right _ _) (Array.getElem?_eq_some_iff.mp hx).1).elim

/-- Two lowerings of a block that is in their graphs put out the same, or fail alike. -/
lemma both_sameBlock :
    Both c c.t₁ c.t₂ (lowerBlock c.block) (lowerBlock c.block)
      (fun _ _ s₁ s₂ => SameBlock c.e₁ c.e₂ c.t₁ s₁ c.t₂ s₂)
      fun s₁ s₂ => SameBlock c.e₁ c.e₂ c.t₁ s₁ c.t₂ s₂ := by
  have hsame : ∀ {s₁ s₂ : State}, Onwards c {} s₁ s₂ → SameBlock c.e₁ c.e₂ c.t₁ s₁ c.t₂ s₂ :=
    fun ⟨_, _, h⟩ => h.sameBlock h₁.labels h₂.labels
  rcases hr : blk.reachable with _ | _
  · unfold Both
    rw [outcome_lowerBlock_unreachable hb c.ordered₁ hl₁ hr,
      outcome_lowerBlock_unreachable (c.blocks.trans hb) c.ordered₂ hl₂ hr, c.breakUnreachable]
    have hentered : ∀ t : State, t.asm.Adds (t.entered c.block).asm [] := fun _ => .of_eq rfl rfl
    split
    · exact .ok (sameBlock_entered hb h₁ h₂ hl₁ hl₂ [.breakpoint]
        ((hentered _).trans (Assembler.adds_emit _ _)) ((hentered _).trans (Assembler.adds_emit _ _))
        (Assembler.labels_emit _ _) (Assembler.labels_emit _ _))
    · exact .ok (sameBlock_entered hb h₁ h₂ hl₁ hl₂ [] (hentered _) (hentered _) rfl rfl)
  · exact (both_lowerBlock hb h₁ h₂ hl₁ hl₂ hr).mono (fun _ _ _ _ => hsame) fun _ _ => hsame

end Blocks

def lowerThrough (bs : List BlockId) : Lower (Label × Label) := do
  let labels ← lowerEntry
  lowerBlocks bs
  return labels

end Lowering

open Lowering

namespace Plan

variable {d : Draft} {p q : Plan} {frame : FrameLayout} {b : BlockId} {bs cs : List BlockId}
  {t u : Lowering.State}

structure SharesBlock (p q : Plan) (b : BlockId) : Prop where
  block : q.graph.blocks[b]? = p.graph.blocks[b]?
  node {blk : Block} {n : NodeId} (hb : p.graph.blocks[b]? = some blk) (hn : n ∈ blk.nodes) :
    q.graph.nodes[n]? = p.graph.nodes[n]?
  vars : q.graph.vars = p.graph.vars
  arguments : q.graph.arguments = p.graph.arguments
  numVars : q.graph.numVars = p.graph.numVars
  dense : q.block.dense = p.block.dense
  context : q.context = p.context
  noMasquerades : q.noMasquerades = p.noMasquerades
  assertState : q.options.assertState = p.options.assertState
  breakUnreachable : q.options.breakUnreachable = p.options.breakUnreachable

/-- After its entry and the blocks of the list, in this order, the lowering of the graph is in state
`t`. -/
def Reaches (p : Plan) (frame : FrameLayout) (bs : List BlockId) (t : Lowering.State) : Prop :=
  FrameLayout.ofGraph p.graph = .ok frame ∧
    ∃ labels, outcome (lowerThrough bs) (p.env frame) p.start = (.ok labels, t)

def GoesOn (p : Plan) (b target : BlockId) : Prop :=
  ∃ blk n x, p.graph.blocks[b]? = some blk ∧ n ∈ blk.nodes ∧ p.graph.nodes[n]? = some x ∧
    target ∈ x.op.targets

lemma ordered_env (p : Plan) (frame : FrameLayout) : (p.env frame).Ordered where
  labelled {b blk} h := by
    have hlt : b < p.graph.blocks.size := (Array.getElem?_eq_some_iff.mp h).1
    simp [env, hlt]
  block h := by
    simp only [env, Array.getElem?_range] at h ⊢
    split at h
    · cases h
      exact ⟨rfl, by assumption⟩
    · cases h
  exception := Nat.lt_succ_self _

lemma vacant_start (hf : FrameLayout.ofGraph p.graph = .ok frame) : Vacant (p.env frame) p.start where
  labels :=
    { size := rfl
      nodup := .nil
      nodupLabels := .nil
      late := by simp [start, State.labelTable]
      free := by simp [start, State.labelTable]
      made := by simp [start, State.labelTable, env] }
  slots := by
    obtain ⟨n, -, hf⟩ := bind_eq_ok.mp hf
    cases hf
    simp [start, env]
  gprs := Bank.sound_new
  fprs := Bank.sound_new
  unlocked l := by
    cases l <;> simp [start, State.locks, locksOf_new]
  unguarded := rfl
  clean := Facts.Clean.ofGraph _
  exitStream := rfl
  exitLedger := rfl

lemma reaches_of_isOk (hf : (FrameLayout.ofGraph p.graph).toOption.map
      (fun f => (f.numLocals, f.frameSlots)) = some (frame.numLocals, frame.frameSlots))
    (h : (outcome (lowerThrough bs) (p.env frame) p.start).1.isOk = true) :
    p.Reaches frame bs (outcome (lowerThrough bs) (p.env frame) p.start).2 := by
  constructor
  · rcases hg : FrameLayout.ofGraph p.graph with f | ⟨locals, slots⟩ <;> rw [hg] at hf
    · cases hf
    · cases frame
      simp only [Except.toOption, Option.map_some, Option.some.injEq, Prod.mk.injEq] at hf
      rw [hf.1, hf.2]
  · rcases ho : outcome (lowerThrough bs) (p.env frame) p.start with ⟨e | labels, t⟩
    · rw [ho] at h
      cases h
    · exact ⟨labels, rfl⟩

/-- Before a block that is not among those that were lowered. -/
lemma Reaches.before {blk : Block} (ht : p.Reaches frame bs t) (hb : p.graph.blocks[b]? = some blk)
    (hbs : b ∉ bs) : Vacant (p.env frame) t ∧ t.asm.labels[b]? = some none := by
  obtain ⟨hf, labels, ht⟩ := ht
  have hstart := vacant_start hf
  have hlt : b < p.graph.blocks.size := (Array.getElem?_eq_some_iff.mp hb).1
  have hfree : p.start.asm.labels[b]? = some none := by
    simp [start, Assembler.new, Nat.lt_add_right 2 hlt]
  have hentry : Leads (p.env frame) p.start (lowerThrough bs)
      (fun _ t => Vacant (p.env frame) t ∧ t.asm.labels[b]? = some none) (fun _ => True)
      fun _ _ => True := by
    refine leads_bind.mpr ((Adds.lowerEntry p.start).weaken fun _ s hs => ?_)
    have hs' := hs.labels hfree
    refine leads_bind.mpr (((hstart.adds hs).lowerBlocks (p.ordered_env frame)).weaken ?_)
    rintro _ s' ⟨hv, -, hk⟩
    exact ⟨hv, (hk b (Array.getElem?_eq_some_iff.mp hs').1 hbs).trans hs'⟩
  exact hentry.result ht

/-- What is put out for a block does not depend on what was lowered before it. Two lowerings, of graphs
that have the block in common, may have lowered whatever other blocks; then they put out the same for
it, or fail alike. The one exception is a block that goes on to one that only one of the graphs has,
which makes the other lowering fail. -/
theorem lowerBlock_independent (hg : d.finish = .ok p.graph) (h : p.SharesBlock q b)
    (hbs : b ∉ bs) (hcs : b ∉ cs) (ht : p.Reaches frame bs t) (hu : q.Reaches frame cs u) :
    Ends (∃ target, p.GoesOn b target ∧ ¬(target < p.graph.blocks.size ↔ target < q.graph.blocks.size))
      (fun _ _ s₁ s₂ => SameBlock (p.env frame) (q.env frame) t s₁ u s₂)
      (fun s₁ s₂ => SameBlock (p.env frame) (q.env frame) t s₁ u s₂)
      (outcome (lowerBlock b) (p.env frame) t) (outcome (lowerBlock b) (q.env frame) u) := by
  rcases hb : p.graph.blocks[b]? with _ | blk
  · have hfail : ∀ {p : Plan} {t : Lowering.State}, p.graph.blocks[b]? = none →
        outcome (lowerBlock b) (p.env frame) t = (.error (.failed (.breach .outOfRange)), t) := by
      intro p t hb
      show outcome (assume (p.graph.block b) >>= fun _ => _) (p.env frame) t = _
      rw [Graph.block, Breach.get, hb]
      rfl
    rw [hfail hb, hfail (h.block.trans hb)]
    exact .failed _ _ _
  let c : Twins :=
    { e₁ := p.env frame
      e₂ := q.env frame
      t₁ := t
      t₂ := u
      block := b
      Member := fun n => n ∈ blk.nodes
      ordered₁ := p.ordered_env frame
      ordered₂ := q.ordered_env frame
      frame := rfl
      dense := h.dense
      context := h.context
      noMasquerades := h.noMasquerades
      assertState := h.assertState
      breakUnreachable := h.breakUnreachable
      vars := h.vars
      arguments := h.arguments
      numVars := h.numVars
      blocks := h.block
      members := fun hb' hn => Option.some.inj (hb.symm.trans hb') ▸ hn
      node := h.node hb
      operand := fun hn hx he => h.node hb (Draft.operand_mem_block hg hb hn hx he) }
  obtain ⟨h₁, hl₁⟩ := ht.before hb hbs
  obtain ⟨h₂, hl₂⟩ := hu.before (h.block.trans hb) hcs
  refine Ends.imp (both_sameBlock (c := c) hb h₁ h₂ hl₁ hl₂) ?_
  rintro ⟨target, ⟨n, x, hn, hx, htarget⟩, hstray⟩
  refine ⟨target, ⟨blk, n, x, hb, hn, hx, htarget⟩, fun hiff => hstray ?_⟩
  simpa [c, env] using hiff

end Plan

/-- The sum of an argument with itself, after a block that does something else with it. -/
def Draft.detour (op : Op) : Draft :=
  let d : Draft := { name := "detour", kind := .function }
  let d := ((d.addArgument .int32 .value).2.addVariable .int32 .value).2.addBlock.addBlock.select 0
  let d := (d.addNode (.getLocal 0) [] .int32).2
  let d := (d.addNode op [0, 0] .int32).2
  let d := (d.addNode (.setLocal 1) [1] .empty).2
  let d := (d.addNode (.jump 1) [] .empty).2.select 1
  let d := (d.addNode (.getLocal 0) [] .int32).2
  let d := (d.addNode .arithAdd [4, 4] .int32).2
  (d.addNode .ret [5] .empty).2

namespace Plan

lemma sharesBlock_detour :
    (ofDraft (.detour .arithAdd)).SharesBlock (ofDraft (.detour .arithMul)) 1 where
  block := by decide +kernel
  node {blk n} hb hn := by
    have h : ∀ blk ∈ (ofDraft (.detour .arithAdd)).graph.blocks[1]?, ∀ n ∈ blk.nodes,
        (ofDraft (.detour .arithMul)).graph.nodes[n]? =
          (ofDraft (.detour .arithAdd)).graph.nodes[n]? := by
      decide +kernel
    exact h blk hb n hn
  vars := by decide +kernel
  arguments := by decide +kernel
  numVars := by decide +kernel
  dense := rfl
  context := rfl
  noMasquerades := rfl
  assertState := rfl
  breakUnreachable := rfl

/-- Whether arguments were added or multiplied before, the block that returns a sum is the same. -/
theorem lowerBlock_independent_detour : ∃ t s₁ u s₂,
    (ofDraft (.detour .arithAdd)).Reaches ⟨5, 30⟩ [0] t ∧
    (ofDraft (.detour .arithMul)).Reaches ⟨5, 30⟩ [0] u ∧
    outcome (lowerBlock 1) ((ofDraft (.detour .arithAdd)).env ⟨5, 30⟩) t = (.ok (), s₁) ∧
    outcome (lowerBlock 1) ((ofDraft (.detour .arithMul)).env ⟨5, 30⟩) u = (.ok (), s₂) ∧
    SameBlock ((ofDraft (.detour .arithAdd)).env ⟨5, 30⟩) ((ofDraft (.detour .arithMul)).env ⟨5, 30⟩)
      t s₁ u s₂ := by
  have ht : (ofDraft (.detour .arithAdd)).Reaches ⟨5, 30⟩ [0] _ :=
    reaches_of_isOk (by decide +kernel) (by decide +kernel)
  have hu : (ofDraft (.detour .arithMul)).Reaches ⟨5, 30⟩ [0] _ :=
    reaches_of_isOk (by decide +kernel) (by decide +kernel)
  have h := lowerBlock_independent (finish_ofDraft (by decide +kernel)) sharesBlock_detour
    (by decide) (by decide) ht hu
  obtain ⟨_, s₁, _, s₂, h₁, h₂, hsame⟩ := h.of_isOk (by decide +kernel) (by decide +kernel)
  exact ⟨_, s₁, _, s₂, ht, hu, h₁, h₂, hsame⟩

end Plan
end Speculation
