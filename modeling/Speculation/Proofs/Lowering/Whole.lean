import Speculation.Proofs.Lowering.Blocks

/-!
The lowering of a whole graph.

Blocks are lowered one after the other, each from a reset on, and slow paths come last. `Outside` is
what holds between blocks; what comes before the blocks and after the slow paths is quiet.
-/

namespace Speculation
namespace Lowering

variable {α β : Type} {env : Env} {g : Graph} {s s' s'' : State} {cur n id : NodeId} {b : BlockId}
  {blk : Block} {before pending kids : List NodeId} {T : State → Prop} {k : Nat}

/-- Resets and stores of variables say nothing about a value. -/
lemma Replay.after_push_node? {es : Array Event} {ev : Event} {m : NodeId}
    (hn : ∀ R, (Replay.step R ev).node? m = R.node? m) :
    (Replay.after (es.push ev).toList (es.push ev).size).node? m =
      (Replay.after es.toList es.size).node? m := by
  have hlen : (es.push ev).size = es.toList.length + 1 := by simp
  rw [Array.toList_push, hlen, Replay.after_concat, hn]
  simp

/-- The state outside of blocks, after `k` of them. -/
structure Outside (g : Graph) (k : Nat) (s : State) : Prop where
  formed : g.Formed
  gprs : s.gprs.Sound
  fprs : s.fprs.Sound
  sighted : Sighted g s
  resets : s.events.toList.count .reset = 1 + (g.blocks.toList.take k).countP Block.reachable
  guarded : s.Guarded
  unlocked (l : Location) : s.locks l = 0
  stream : s.exitStream = none
  ledger : s.exitLedger = none

lemma Between.outside (h : Between g b before s) : Outside g (b + 1) s :=
  ⟨h.formed, h.gprs, h.fprs, h.sighted, h.resets, h.guarded, h.unlocked, h.stream, h.ledger⟩

lemma Outside.same (h : Outside g k s) (hs : Same s s') (hs' : Sighted g s') : Outside g k s' where
  formed := h.formed
  gprs := hs.gprs ▸ h.gprs
  fprs := hs.fprs ▸ h.fprs
  sighted := hs'
  resets := hs.events ▸ h.resets
  guarded := h.guarded.congr (congrFun hs.locks) hs.guards
  unlocked l := by
    rw [hs.locks]
    exact h.unlocked l
  stream := hs.stream.trans h.stream
  ledger := hs.exitLedger.trans h.ledger

/-- Go on after a quiet step, with what it keeps. -/
lemma leads_quiet {x : Lower β} {f : β → Lower α} {Q : α → State → Prop} {I : State → Prop}
    (hx : Quiet x) (hs : Sighted env.graph s)
    (hI : ∀ s', Same s s' → Sighted env.graph s' → I s')
    (hf : ∀ a s', I s' → Leads env s' (f a) Q T (Fault env.graph)) :
    Leads env s (x >>= f) Q T (Fault env.graph) :=
  Leads.then ((hx env s hs nofun).mono (fun _ _ => id) (fun _ => False.elim) fun _ _ => id)
    fun a s' ⟨hsame, hs'⟩ => hf a s' (hI s' hsame hs')

lemma Outside.then {x : Lower β} {f : β → Lower α} {Q : α → State → Prop} (h : Outside env.graph k s)
    (hx : Quiet x)
    (hf : ∀ a s', Outside env.graph k s' → Leads env s' (f a) Q T (Fault env.graph)) :
    Leads env s (x >>= f) Q T (Fault env.graph) :=
  leads_quiet hx h.sighted (fun _ hs hs' => h.same hs hs') hf

/-! ### The head of a block -/

lemma Between.setLocal {o : Slot} {format : DataFormat} (h : Between g b before s) :
    Between g b before { s with events := s.events.push (.setLocal o format) } where
  formed := h.formed
  reachable := h.reachable
  gprs := h.gprs
  fprs := h.fprs
  agrees := h.agrees
  sighted := h.sighted.event ⟨rfl, rfl, rfl, rfl, rfl, rfl, rfl⟩ rfl
  mirrors m d hd hc := by
    rw [← h.mirrors m d hd hc]
    exact Replay.after_push_node? fun _ => rfl
  resets := by
    rw [← h.resets, Array.toList_push, List.count_append]
    rfl
  guarded := h.guarded
  unlocked := h.unlocked
  stream := h.stream
  ledger := h.ledger

lemma take_succ_of_getElem? (hb : g.blocks[b]? = some blk) :
    g.blocks.toList.take (b + 1) = g.blocks.toList.take b ++ [blk] := by
  rw [List.take_add_one, Array.getElem?_toList, hb]
  rfl

lemma Outside.reset {facts : Facts} (h : Outside g b s) (hb : g.blocks[b]? = some blk)
    (hr : blk.reachable = true) :
    Between g b []
      { s with
        ledger := s.ledger.map fun _ => .dead
        gprs := s.gprs.releaseAll
        fprs := s.fprs.releaseAll
        facts
        events := s.events.push .reset } where
  formed := h.formed
  reachable hb' := by
    rw [hb] at hb'
    cases hb'
    exact hr
  gprs := h.gprs.releaseAll
  fprs := h.fprs.releaseAll
  agrees := by
    refine Agrees.reset (fun q => ?_) fun i x hx => ?_
    · cases q <;> simp [State.owner]
    · simp only [Array.getElem?_map, Option.map_eq_some_iff] at hx
      obtain ⟨_, -, rfl⟩ := hx
      rfl
  sighted := h.sighted.event ⟨rfl, rfl, rfl, rfl, rfl, rfl, rfl⟩ rfl
  mirrors m d hd hc := by
    have hlen : (s.events.push .reset).size = s.events.toList.length + 1 := by simp
    dsimp only
    rw [Array.toList_push, hlen, Replay.after_concat]
    rcases ho : d.slot with _ | o
    · simp [view, hd, ho, Replay.step, Replay.State.node?]
    rcases hi : o.local? with _ | i
    · simp [view, hd, ho, hi, Replay.step, Replay.State.node?]
    rcases hx : s.ledger[i]? with _ | x
    · simp [view, hd, ho, hi, hx, Replay.step, Replay.State.node?]
    · simp [view, hd, ho, hi, hx, Replay.step, Replay.State.node?, ValueInfo.dead]
  resets := by
    rw [Array.toList_push, List.count_append, h.resets, resetsUpTo, take_succ_of_getElem? hb,
      List.countP_append]
    simp [hr]
    omega
  guarded := h.guarded.congr (fun l => by cases l <;> simp [State.locks]) rfl
  unlocked l := by
    rw [← h.unlocked l]
    cases l <;> simp [State.locks]
  stream := h.stream
  ledger := h.ledger

lemma leads_variableOf {v : VarId} {Q : Variable → State → Prop} (hs : Sighted env.graph s)
    (hQ : ∀ x, env.graph.vars[v]? = some x → Q x s) :
    Leads env s (variableOf v) Q T (Fault env.graph) := by
  rw [variableOf, leads_bind, leads_read, leads_assume]
  refine ⟨fun x hx => hQ x ?_, fun _ _ => ⟨noDisagreement_breach _, hs⟩⟩
  unfold Breach.get at hx
  split at hx
  · cases hx
    assumption
  · cases hx

lemma leads_resetBlock (h : Outside env.graph b s) (hb : env.graph.blocks[b]? = some blk)
    (hr : blk.reachable = true) :
    Leads env s (resetBlock blk) (fun _ s' => Between env.graph b [] s') T (Fault env.graph) := by
  rw [resetBlock, leads_bind, leads_graph, leads_bind, leads_modify, leads_bind, leads_event]
  refine Leads.then (leads_forIn (fun _ s' => Between env.graph b [] s') (h.reset hb hr) ?_) ?_
  · intro v rest s₁ h₁
    exact (leads_variableOf h₁.sighted fun x _ => h₁).then fun x s₂ h₂ => ⟨rfl, h₂.setLocal⟩
  intro _ s₁ h₁
  refine Leads.then (leads_forIn (fun _ s' => Between env.graph b [] s') h₁ ?_) fun _ _ => id
  intro v rest s₂ h₂
  refine (leads_variableOf h₂.sighted fun x _ => h₂).then fun x s₃ h₃ => ?_
  exact leads_ite.mpr ⟨fun _ => ⟨rfl, h₃.setLocal⟩, fun _ => ⟨rfl, h₃⟩⟩

def openBlock (b : BlockId) : Lower Unit := do
  let blk ← assume ((← graph).block b)
  modify fun s => { s with block := b }
  attach (← blockLabel b)
  comment ("bb" ++ toString b)
  resetBlock blk
  modify fun s => { s with skipNext := false }

def lowerNodes (xs : List (NodeId × Nat)) : Lower Unit := do
  for (n, i) in xs do
    lowerAt i n

lemma leads_openBlock (h : Outside env.graph b s) (hb : env.graph.blocks[b]? = some blk)
    (hr : blk.reachable = true) :
    Leads env s (openBlock b) (fun _ s' => Between env.graph b [] s') T (Fault env.graph) := by
  have hblock : env.graph.block b = .ok blk := by simp [Graph.block, Breach.get, hb]
  rw [openBlock, leads_bind, leads_graph, hblock]
  refine Leads.then (P := fun x s' => x = blk ∧ s' = s) ⟨rfl, rfl⟩ ?_
  rintro _ _ ⟨rfl, rfl⟩
  refine h.then (Calm.modify (fun _ => ⟨rfl, rfl, rfl, rfl, rfl, rfl, rfl, rfl, rfl, rfl⟩)
    fun _ => ⟨rfl, rfl, rfl⟩) fun _ s₁ h₁ => ?_
  refine h₁.then (Calm.blockLabel _) fun l s₂ h₂ => ?_
  refine h₂.then (Calm.attach _) fun _ s₃ h₃ => ?_
  refine h₃.then (Calm.comment _) fun _ s₄ h₄ => ?_
  refine (leads_resetBlock h₄ hb hr).then fun _ s₅ h₅ => ?_
  exact h₅.of_same rfl rfl rfl rfl rfl rfl rfl rfl rfl rfl rfl

structure Ahead (blk : Block) (before : List NodeId) (rest : List (NodeId × Nat)) : Prop where
  nodup : (rest.map Prod.fst).Nodup
  mem {p : NodeId × Nat} (hp : p ∈ rest) : p.1 ∈ blk.nodes
  fresh {p : NodeId × Nat} (hp : p ∈ rest) : p.1 ∉ before

lemma Ahead.tail {p : NodeId × Nat} {rest : List (NodeId × Nat)} (h : Ahead blk before (p :: rest)) :
    Ahead blk (p.1 :: before) rest where
  nodup := (List.nodup_cons.mp h.nodup).2
  mem hp := h.mem (List.mem_cons_of_mem _ hp)
  fresh {q} hq hmem := by
    rcases List.mem_cons.mp hmem with heq | hmem
    · exact (List.nodup_cons.mp h.nodup).1 (heq ▸ List.mem_map_of_mem hq)
    · exact h.fresh (List.mem_cons_of_mem _ hq) hmem

lemma ahead_block (hg : g.Formed) (hb : g.blocks[b]? = some blk) :
    Ahead blk [] blk.nodes.toList.zipIdx where
  nodup := by
    simpa using hg.nodup hb
  mem hp := Array.mem_toList_iff.mp (List.fst_mem_of_mem_zipIdx hp)
  fresh _ := List.not_mem_nil

/-- Node after node. -/
lemma leads_lowerNodes {xs ys : List (NodeId × Nat)} (h : Between env.graph b before s)
    (hb : env.graph.blocks[b]? = some blk) (hx : Ahead blk before (xs ++ ys)) :
    Leads env s (lowerNodes xs) (fun _ s' => ∃ before', Between env.graph b before' s' ∧
      Ahead blk before' ys) T (Fault env.graph) := by
  refine Leads.then (leads_forIn (fun rest s' => ∃ before', Between env.graph b before' s' ∧
    Ahead blk before' (rest ++ ys)) ⟨before, h, hx⟩ ?_) fun _ _ => id
  rintro p rest s₁ ⟨before', h₁, hrest⟩
  refine (leads_lowerAt h₁ hb (hrest.mem List.mem_cons_self) (hrest.fresh List.mem_cons_self)).then
    fun _ s₂ h₂ => ⟨rfl, _, h₂, hrest.tail⟩

/-! ### Block after block -/

lemma outcome_block (hb : env.graph.blocks[b]? = some blk) {f : Block → Lower α} :
    outcome (graph >>= fun g => assume (g.block b) >>= f) env s = outcome (f blk) env s := by
  have hblock : env.graph.block b = .ok blk := by simp [Graph.block, Breach.get, hb]
  show outcome (assume (env.graph.block b) >>= f) env s = _
  rw [hblock]
  rfl

/-- A reachable block is its head and its nodes. -/
lemma outcome_lowerBlock (hb : env.graph.blocks[b]? = some blk) (hr : blk.reachable = true) :
    outcome (lowerBlock b) env s =
      outcome (openBlock b >>= fun _ => lowerNodes blk.nodes.toList.zipIdx) env s := by
  rw [lowerBlock, openBlock]
  simp only [bind_assoc]
  rw [outcome_block hb, outcome_block hb]
  simp only [hr, if_true]
  rfl

lemma Outside.skip (h : Outside g b s) (hb : g.blocks[b]? = some blk)
    (hr : blk.reachable = false) : Outside g (b + 1) s := by
  refine { h with resets := ?_ }
  rw [h.resets, take_succ_of_getElem? hb, List.countP_append]
  simp [hr]

lemma leads_lowerBlock (h : Outside env.graph b s) (hb : env.graph.blocks[b]? = some blk) :
    Leads env s (lowerBlock b) (fun _ s' => Outside env.graph (b + 1) s') T (Fault env.graph) := by
  rcases hr : blk.reachable with _ | _
  · have hblock : env.graph.block b = .ok blk := by simp [Graph.block, Breach.get, hb]
    rw [lowerBlock, leads_bind, leads_graph, hblock]
    refine Leads.then (P := fun x s' => x = blk ∧ s' = s) ⟨rfl, rfl⟩ ?_
    rintro _ _ ⟨rfl, rfl⟩
    refine h.then (Calm.modify (fun _ => ⟨rfl, rfl, rfl, rfl, rfl, rfl, rfl, rfl, rfl, rfl⟩)
      fun _ => ⟨rfl, rfl, rfl⟩) fun _ s₁ h₁ => ?_
    refine h₁.then (Calm.blockLabel _) fun l s₂ h₂ => ?_
    refine h₂.then (Calm.attach _) fun _ s₃ h₃ => ?_
    simp only [hr, Bool.false_eq_true, if_false]
    refine leads_bind.mpr (leads_ite.mpr ⟨fun _ => ?_, fun _ => h₃.skip hb hr⟩)
    have hquiet : Quiet (emit' .breakpoint) := Calm.emit' _
    exact (hquiet env s₃ h₃.sighted (by simp)).mono
      (fun _ _ hs => (h₃.same hs.1 hs.2).skip hb hr) (fun _ => False.elim) fun _ _ => id
  · unfold Leads
    rw [outcome_lowerBlock hb hr]
    have hnodes : Ahead blk [] (blk.nodes.toList.zipIdx ++ []) := by
      rw [List.append_nil]
      exact ahead_block h.formed hb
    exact (leads_openBlock h hb hr).then fun _ s₁ h₁ =>
      (leads_lowerNodes h₁ hb hnodes).weaken fun _ _ h₂ => h₂.elim fun _ h => h.1.outside

lemma leads_lowerBlocks {m : Nat} (h : Outside env.graph k s)
    (hm : k + m ≤ env.graph.blocks.size) :
    Leads env s (lowerBlocks (List.range' k m)) (fun _ s' => Outside env.graph (k + m) s') T
      (Fault env.graph) := by
  induction m generalizing k s with
  | zero => exact h
  | succ m ih =>
    rw [List.range'_succ, lowerBlocks]
    have hlt : k < env.graph.blocks.size := by omega
    refine (leads_lowerBlock h (Array.getElem?_eq_getElem hlt)).then fun _ s₁ h₁ => ?_
    refine (ih h₁ (by omega)).weaken fun _ s₂ h₂ => ?_
    have hk : k + 1 + m = k + (m + 1) := by omega
    rw [hk] at h₂
    exact h₂

/-! ### The entry -/

/-- A step of the checks of the arguments: no values yet, and no reset but that of the entry. -/
structure Entering (g : Graph) (s : State) : Prop where
  outside : Outside g 0 s
  mirrors : Mirrors g (Replay.after s.events.toList s.events.size) s.ledger

lemma Entering.same (h : Entering g s) (hs : Same s s') (hs' : Sighted g s') : Entering g s' where
  outside := h.outside.same hs hs'
  mirrors := by
    rw [hs.events, hs.ledger]
    exact h.mirrors

lemma Entering.then {x : Lower β} {f : β → Lower α} {Q : α → State → Prop} (h : Entering env.graph s)
    (hx : Quiet x) (hf : ∀ a s', Entering env.graph s' → Leads env s' (f a) Q T (Fault env.graph)) :
    Leads env s (x >>= f) Q T (Fault env.graph) :=
  leads_quiet hx h.outside.sighted (fun _ hs hs' => h.same hs hs') hf

lemma Entering.setLocal {o : Slot} {format : DataFormat} (h : Entering g s) :
    Entering g { s with events := s.events.push (.setLocal o format) } where
  outside :=
    { h.outside with
      sighted := h.outside.sighted.event ⟨rfl, rfl, rfl, rfl, rfl, rfl, rfl⟩ rfl
      resets := by
        rw [← h.outside.resets, Array.toList_push, List.count_append]
        rfl }
  mirrors m d hd hc := by
    rw [← h.mirrors m d hd hc]
    exact Replay.after_push_node? fun _ => rfl

/-- The exit of an argument check goes by the reset of the entry. -/
lemma leads_guardArgument {c : Cond} (h : Entering env.graph s) :
    Leads env s (guard' .argumentTypeCheck c) (fun _ s' => Entering env.graph s') T
      (Fault env.graph) := by
  rw [guard', leads_discard, guard, newExit]
  simp only [bind_assoc]
  refine h.then Calm.newLabel fun stub s₁ h₁ => ?_
  refine h₁.then Calm.currentNode fun d s₂ h₂ => ?_
  rw [leads_bind, leads_modifyGet]
  have hseen : Seen env.graph s₂.events s₂.events.size s₂.ledger s₂.current true := by
    refine ⟨Nat.le_refl _, h₂.mirrors, fun _ => ?_, by simp⟩
    rw [List.take_of_length_le (Nat.le_of_eq Array.length_toList), h₂.outside.resets]
    rfl
  have hseen' : Seen env.graph s₂.events (s₂.exitStream.getD s₂.events.size)
      (s₂.exitLedger.getD s₂.ledger) s₂.current true := by
    rw [h₂.outside.stream, h₂.outside.ledger]
    exact hseen
  refine Entering.then ⟨{ h₂.outside with sighted := h₂.outside.sighted.push hseen' }, h₂.mirrors⟩
    (Calm.jccExit _ _) fun _ s₃ h₃ => h₃

lemma leads_checkArgument {x : Variable} (h : Entering env.graph s) :
    Leads env s (checkArgument x) (fun _ s' => Entering env.graph s') T (Fault env.graph) := by
  unfold checkArgument
  dsimp only
  split
  · refine h.then (Calm.load64 _ _) fun _ s₁ h₁ => ?_
    exact h₁.then (Calm.cmp64 _ _) fun _ s₂ h₂ => leads_guardArgument h₂
  · refine h.then (Calm.load64 _ _) fun _ s₁ h₁ => ?_
    refine h₁.then (Calm.alu64 _ _ _) fun _ s₂ h₂ => ?_
    exact h₂.then (Calm.test64 _ _) fun _ s₃ h₃ => leads_guardArgument h₃
  · refine h.then (Calm.load64 _ _) fun _ s₁ h₁ => ?_
    exact h₁.then (Calm.test64 _ _) fun _ s₂ h₂ => leads_guardArgument h₂
  · exact h
  · exact h

lemma leads_checkArguments (h : Entering env.graph s) :
    Leads env s checkArguments (fun _ s' => Outside env.graph 0 s') T (Fault env.graph) := by
  rw [checkArguments, leads_bind, leads_graph]
  split
  · exact h.outside
  · rw [leads_bind, leads_modify]
    have h₁ : ∀ first, Entering env.graph { s with current := first } := fun first =>
      ⟨{ h.outside with sighted := ⟨h.outside.sighted.size, h.outside.sighted.exits,
        h.outside.sighted.paths, h.outside.sighted.guards,
        h.outside.sighted.caches⟩ }, h.mirrors⟩
    refine Leads.then (leads_forIn (fun _ s' => Entering env.graph s') (h₁ _) ?_) ?_
    · intro v rest s₂ h₂
      refine (leads_variableOf h₂.outside.sighted fun x _ => h₂).then fun x s₃ h₃ => ?_
      exact (leads_checkArgument h₃).then fun _ s₄ h₄ => ⟨rfl, h₄⟩
    · intro _ s₂ h₂
      refine Leads.then (leads_forIn (fun _ s' => Entering env.graph s') h₂ ?_)
        fun _ _ h₃ => h₃.outside
      intro v rest s₃ h₃
      refine (leads_variableOf h₃.outside.sighted fun x _ => h₃).then fun x s₄ h₄ => ?_
      exact leads_ite.mpr ⟨fun _ => ⟨rfl, h₄⟩, fun _ => ⟨rfl, h₄.setLocal⟩⟩

structure Blank (g : Graph) (s : State) : Prop where
  formed : g.Formed
  gprs : s.gprs = .new Gpr
  fprs : s.fprs = .new Fpr
  guards : s.guards = []
  sighted : Sighted g s
  events : s.events = #[]
  dead {i : Nat} {x : ValueInfo} (h : s.ledger[i]? = some x) : x.node = none
  stream : s.exitStream = none
  ledger : s.exitLedger = none

lemma Blank.same (h : Blank g s) (hs : Same s s') (hs' : Sighted g s') : Blank g s' where
  formed := h.formed
  gprs := hs.gprs.trans h.gprs
  fprs := hs.fprs.trans h.fprs
  guards := hs.guards.trans h.guards
  sighted := hs'
  events := hs.events.trans h.events
  dead hx := h.dead (hs.ledger ▸ hx)
  stream := hs.stream.trans h.stream
  ledger := hs.exitLedger.trans h.ledger

lemma Blank.then {x : Lower β} {f : β → Lower α} {Q : α → State → Prop} (h : Blank env.graph s)
    (hx : Quiet x) (hf : ∀ a s', Blank env.graph s' → Leads env s' (f a) Q T (Fault env.graph)) :
    Leads env s (x >>= f) Q T (Fault env.graph) :=
  leads_quiet hx h.sighted (fun _ hs hs' => h.same hs hs') hf

lemma locksOf_new {R : Type} [RegisterClass R] {q : R} : (Bank.new R).locksOf q = 0 := by
  unfold Bank.locksOf
  rcases he : (Bank.new R).entryAt q with _ | e
  · rfl
  · obtain ⟨i, -, hi⟩ := Option.bind_eq_some_iff.mp he
    simp only [Bank.new, List.getElem?_toArray, List.getElem?_map, Option.map_eq_some_iff] at hi
    obtain ⟨_, -, rfl⟩ := hi
    rfl

lemma Blank.unlocked (h : Blank g s) (l : Location) : s.locks l = 0 := by
  cases l with
  | none => rfl
  | gpr r => simp [State.locks, h.gprs, locksOf_new]
  | fpr r => simp [State.locks, h.fprs, locksOf_new]

/-- The reset of the entry. -/
lemma Blank.entering (h : Blank g s) : Entering g { s with events := s.events.push .reset } where
  outside :=
    { formed := h.formed
      gprs := by
        rw [h.gprs]
        exact Bank.sound_new
      fprs := by
        rw [h.fprs]
        exact Bank.sound_new
      sighted := h.sighted.event ⟨rfl, rfl, rfl, rfl, rfl, rfl, rfl⟩ rfl
      resets := by
        rw [h.events]
        rfl
      guarded := fun l => by
        rw [h.guards]
        exact h.unlocked l
      unlocked := h.unlocked
      stream := h.stream
      ledger := h.ledger }
  mirrors m d hd hc := by
    have hview : view g s.ledger m = none := by
      unfold view
      rcases ho : d.slot with _ | o
      · simp [hd, ho]
      rcases hi : o.local? with _ | i
      · simp [hd, ho, hi]
      rcases hx : s.ledger[i]? with _ | x
      · simp [hd, ho, hi, hx]
      · simp [hd, ho, hi, hx, h.dead hx]
    rw [hview, h.events]
    rfl

lemma leads_beginEntry (h : Blank env.graph s) :
    Leads env s beginEntry (fun _ s' => Entering env.graph s') T (Fault env.graph) := by
  rw [beginEntry, leads_bind, leads_event, leads_bind, leads_graph]
  refine Leads.then (leads_forIn (fun _ s' => Entering env.graph s') h.entering ?_) fun _ _ => id
  intro v rest s₁ h₁
  exact (leads_variableOf h₁.outside.sighted fun x _ => h₁).then fun x s₂ h₂ => ⟨rfl, h₂.setLocal⟩

/-! ### Slow paths -/

namespace Calm

variable {q : Prop} {p : SlowPath}

lemma saveRegisters : CalmIf q (saveRegisters p) := by
  refine bind read fun _ => bind (forIn fun _ _ => ?_) fun _ => bind (forIn fun _ _ => ?_) fun _ =>
    pure _
  · exact bind (store64 _ _) fun _ => pure _
  · exact bind (emit' _) fun _ => pure _

lemma restoreRegisters : CalmIf q (restoreRegisters p) := by
  refine bind read fun _ => bind (forIn fun _ _ => ?_) fun _ => bind (forIn fun _ _ => ?_) fun _ =>
    pure _
  · exact bind (load64 _ _) fun _ => pure _
  · exact bind (emit' _) fun _ => pure _

lemma slowCall {helper : Helper} {args : List Argument} {result : Option Gpr} :
    CalmIf q (slowCall p helper args result) := by
  unfold Lowering.slowCall
  refine bind saveRegisters fun _ => bind (setupArguments _) fun _ => bind (emitCall _) fun _ =>
    ite (bind exceptionCheck fun _ => ?_) ?_
  all_goals
    split
    · exact bind (mov _ _) fun _ => restoreRegisters
    · exact restoreRegisters

lemma slowWork : Calm (slowWork p) := by
  unfold Lowering.slowWork
  split
  · exact slowCall
  · refine bind testFlags fun _ => bind (guard' (by decide) _) fun _ => bind slowCall fun _ => ?_
    exact bind (alu32 _ _ _) fun _ => bind (cmp32 _ _) fun _ => guard' (by decide) _

end Calm

lemma leads_emitSlowPaths (h : Sighted env.graph s) :
    Leads env s emitSlowPaths (fun _ s' => Sighted env.graph s' ∧ s'.slowPaths = s.slowPaths) T
      (Fault env.graph) := by
  rw [emitSlowPaths, leads_bind, leads_get]
  -- every path was registered, and neither the events nor the paths have changed since
  let keeps (s' : State) : Prop := s'.events = s.events ∧ s'.slowPaths = s.slowPaths
  have hkeeps : ∀ {s₁ s₂}, keeps s₁ → Same s₁ s₂ → keeps s₂ := fun h hs =>
    ⟨hs.events.trans h.1, hs.slowPaths.trans h.2⟩
  refine Leads.then (leads_forIn (fun rest s' => Sighted env.graph s' ∧ keeps s' ∧
    ∀ p ∈ rest, p ∈ s.slowPaths) ⟨h, ⟨rfl, rfl⟩, ?_⟩ ?_) fun _ s₁ ⟨h₁, hk₁, _⟩ => ?_
  · exact fun p hp => Array.mem_toList_iff.mp hp
  · rintro p rest s₁ ⟨h₁, hk₁, hrest⟩
    refine leads_quiet (Calm.attach _) h₁ (fun s' hs hs' => And.intro hs' (hkeeps hk₁ hs))
      fun _ s₂ ⟨h₂, hk₂⟩ => ?_
    refine leads_quiet (Calm.comment _) h₂ (fun s' hs hs' => And.intro hs' (hkeeps hk₂ hs))
      fun _ s₃ ⟨h₃, hk₃⟩ => ?_
    rw [leads_bind, leads_modify]
    have h₄ : Sighted env.graph { s₃ with
        current := p.node
        exitStream := some p.streamIndex
        exitLedger := some p.ledger } := ⟨h₃.size, h₃.exits, h₃.paths, h₃.guards, h₃.caches⟩
    have hsees : Sees env.graph { s₃ with
        current := p.node
        exitStream := some p.streamIndex
        exitLedger := some p.ledger } := by
      unfold Sees
      rw [hk₃.1]
      exact h.paths (hrest p List.mem_cons_self)
    refine Leads.then ((Calm.slowWork env _ h₄ fun _ => hsees).mono (fun _ _ => id)
      (fun _ => False.elim) fun _ _ => id) fun _ s₅ ⟨hs₅, h₅⟩ => ?_
    have hk₅ : keeps s₅ := ⟨hs₅.events.trans hk₃.1, hs₅.slowPaths.trans hk₃.2⟩
    refine leads_quiet (Calm.jmp _) h₅ (fun s' hs hs' => And.intro hs' (hkeeps hk₅ hs))
      fun _ s₆ ⟨h₆, hk₆⟩ => ?_
    exact ⟨rfl, h₆, hk₆, fun p hp => hrest p (List.mem_cons_of_mem _ hp)⟩
  · exact ⟨⟨h₁.size, h₁.exits, h₁.paths, h₁.guards, h₁.caches⟩, hk₁.2⟩

/-! ### What comes after -/

namespace Calm

variable {q : Prop}

lemma pinRegisters : CalmIf q pinRegisters :=
  bind (discard (movImm _ _)) fun _ => discard (movImm _ _)

lemma checkStack {overflow : Label} : CalmIf q (checkStack overflow) := by
  unfold Lowering.checkStack
  repeat' with_reducible refine bind ?_ fun _ => ?_
  all_goals simp

lemma checkArity {m : Nat} {entry : Label} : CalmIf q (checkArity m entry) := by
  unfold Lowering.checkArity
  repeat' with_reducible refine bind ?_ fun _ => ?_
  all_goals simp

lemma handleOverflow {overflow : Label} : CalmIf q (handleOverflow overflow) := by
  unfold Lowering.handleOverflow
  repeat' with_reducible refine bind ?_ fun _ => ?_
  all_goals simp

lemma handleException {l : Label} {lookup : Helper} : CalmIf q (handleException l lookup) :=
  bind (attach _) fun _ => bind (mov _ _) fun _ => bind (emitCall _) fun _ => emit' _

lemma enterBlocks {xs : List (Block × BlockId)} : CalmIf q (enterBlocks xs) := by
  induction xs with
  | nil => exact pure _
  | cons p xs ih =>
    refine ite ?_ ih
    exact bind here fun _ => bind (comment _) fun _ => bind pinRegisters fun _ =>
      bind (blockLabel _) fun _ => bind (jmp _) fun _ => bind ih fun _ => pure _

lemma emitStubs {xs : List (Exit × Nat)} : CalmIf q (emitStubs xs) := by
  induction xs with
  | nil => exact pure _
  | cons p xs ih =>
    exact bind (attach _) fun _ => bind (emit' _) fun _ => bind (discard (emitReloc _ _)) fun _ => ih

lemma emitPool {xs : List (UInt64 × Label)} : CalmIf q (emitPool xs) := by
  induction xs with
  | nil => exact pure _
  | cons p xs ih =>
    refine bind (attach _) fun _ => bind (modify ?_ fun _ => ⟨rfl, rfl, rfl⟩) fun _ => ih
    exact fun _ => ⟨rfl, rfl, rfl, rfl, rfl, rfl, rfl, rfl, rfl, rfl⟩

end Calm

/-! ### The whole -/

lemma leads_lowerEntry (h : Blank env.graph s) :
    Leads env s lowerEntry (fun _ s' => Outside env.graph 0 s') T (Fault env.graph) := by
  refine h.then Calm.here fun entry s₁ h₁ => ?_
  refine h₁.then Calm.pinRegisters fun _ s₂ h₂ => ?_
  refine h₂.then Calm.newLabel fun overflow s₃ h₃ => ?_
  refine h₃.then Calm.checkStack fun _ s₄ h₄ => ?_
  refine (leads_beginEntry h₄).then fun _ s₅ h₅ => ?_
  exact (leads_checkArguments h₅).then fun _ s₆ h₆ => h₆

lemma CalmIf.sighted {x : Lower α} (hx : Quiet x) (h : Sighted env.graph s) :
    Leads env s x (fun _ s' => Same s s' ∧ Sighted env.graph s') T (Fault env.graph) :=
  (hx env s h nofun).mono (fun _ _ => id) (fun _ => False.elim) fun _ _ => id

lemma leads_lowerRest {m : Nat} {entry overflow : Label} (h : Sighted env.graph s) :
    Leads env s (lowerRest m entry overflow)
      (fun _ s' => Sighted env.graph s' ∧ s'.slowPaths = s.slowPaths) T (Fault env.graph) := by
  rw [lowerRest, leads_bind, leads_graph]
  refine (leads_emitSlowPaths h).then fun _ s₁ ⟨h₁, hpaths⟩ => ?_
  refine (CalmIf.sighted ?_ h₁).weaken fun _ s₂ ⟨hs, h₂⟩ => ⟨h₂, hs.slowPaths.trans hpaths⟩
  have halign : Quiet (modify fun s => { s with asm := s.asm.align 8 }) :=
    Calm.modify (fun _ => ⟨rfl, rfl, rfl, rfl, rfl, rfl, rfl, rfl, rfl, rfl⟩) fun _ => ⟨rfl, rfl, rfl⟩
  dsimp only
  split
  · refine Calm.bind (Calm.map Calm.checkArity) fun arity => ?_
    refine Calm.bind Calm.handleOverflow fun _ => Calm.bind Calm.read fun _ =>
      Calm.bind Calm.handleException fun _ => Calm.bind Calm.read fun _ =>
      Calm.bind Calm.handleException fun _ => Calm.bind Calm.enterBlocks fun _ =>
      Calm.bind Calm.get fun _ => Calm.bind Calm.emitStubs fun _ => Calm.bind Calm.get fun _ =>
      Calm.bind halign fun _ => Calm.bind Calm.get fun _ => Calm.bind Calm.emitPool fun _ =>
      Calm.pure _
  · refine Calm.bind (Calm.pure _) fun arity => ?_
    refine Calm.bind Calm.handleOverflow fun _ => Calm.bind Calm.read fun _ =>
      Calm.bind Calm.handleException fun _ => Calm.bind Calm.read fun _ =>
      Calm.bind Calm.handleException fun _ => Calm.bind Calm.enterBlocks fun _ =>
      Calm.bind Calm.get fun _ => Calm.bind Calm.emitStubs fun _ => Calm.bind Calm.get fun _ =>
      Calm.bind halign fun _ => Calm.bind Calm.get fun _ => Calm.bind Calm.emitPool fun _ =>
      Calm.pure _

/-- A whole lowering ends with all exits sighted, and not because of a disagreement. -/
lemma leads_lowerGraph {m : Nat} (h : Blank env.graph s) :
    Leads env s (lowerGraph m) (fun _ s' => Sighted env.graph s') T (Fault env.graph) := by
  refine (leads_lowerEntry h).then ?_
  rintro ⟨entry, overflow⟩ s₁ h₁
  rw [leads_bind, leads_graph, List.range_eq_range']
  refine (leads_lowerBlocks h₁ (by omega)).then fun _ s₂ h₂ => ?_
  exact (leads_lowerRest h₂.sighted).weaken fun _ _ h => h.1

/-! ### As far as a node -/

/-- Lower the entry, the blocks before `b`, the head of `b` and the first `k` nodes of `b`. -/
def lowerUpTo (b : BlockId) (k : Nat) : Lower (Label × Label) := do
  let labels ← lowerEntry
  lowerBlocks (List.range b)
  openBlock b
  lowerNodes ((← assume ((← graph).block b)).nodes.toList.zipIdx.take k)
  return labels

/-- The rest of a lowering that has come as far as the first `k` nodes of block `b`. -/
def lowerFrom (numParameters : Nat) (b : BlockId) (k : Nat) (labels : Label × Label) :
    Lower Layout := do
  lowerNodes ((← assume ((← graph).block b)).nodes.toList.zipIdx.drop k)
  lowerBlocks (List.range' (b + 1) ((← graph).blocks.size - (b + 1)))
  lowerRest numParameters labels.1 labels.2

lemma lowerNodes_append (xs ys : List (NodeId × Nat)) :
    lowerNodes (xs ++ ys) = lowerNodes xs >>= fun _ => lowerNodes ys := by
  induction xs with
  | nil => simp [lowerNodes]
  | cons x xs ih =>
    unfold lowerNodes at ih ⊢
    simp only [List.cons_append, List.forIn_cons, bind_assoc, pure_bind, ih]

lemma lowerNodes_cons (x : NodeId × Nat) (xs : List (NodeId × Nat)) :
    lowerNodes (x :: xs) = lowerAt x.2 x.1 >>= fun _ => lowerNodes xs := by
  unfold lowerNodes
  simp only [List.forIn_cons, bind_assoc, pure_bind]

lemma lowerBlocks_append (xs ys : List BlockId) :
    lowerBlocks (xs ++ ys) = lowerBlocks xs >>= fun _ => lowerBlocks ys := by
  induction xs with
  | nil => simp [lowerBlocks]
  | cons x xs ih => simp [lowerBlocks, ih]

lemma outcome_congr {x y : Lower β} {f h : β → Lower α}
    (hx : ∀ s, outcome x env s = outcome y env s)
    (hf : ∀ a s, outcome (f a) env s = outcome (h a) env s) :
    outcome (x >>= f) env s = outcome (y >>= h) env s := by
  rw [outcome_bind, outcome_bind, hx]
  rcases outcome y env s with ⟨e | a, s'⟩
  · rfl
  · exact hf a s'

/-- A lowering comes by every node of every reachable block on its way. -/
lemma outcome_lowerGraph {m : Nat} (hb : env.graph.blocks[b]? = some blk)
    (hr : blk.reachable = true) :
    outcome (lowerGraph m) env s = outcome (lowerUpTo b k >>= lowerFrom m b k) env s := by
  have hrange : List.range env.graph.blocks.size =
      List.range b ++ b :: List.range' (b + 1) (env.graph.blocks.size - (b + 1)) := by
    obtain ⟨t, ht⟩ := Nat.exists_eq_add_of_lt (Array.getElem?_eq_some_iff.mp hb).1
    have hrest : b + (t + 1) - (b + 1) = t := by
      rw [Nat.add_sub_add_left, Nat.add_sub_cancel]
    rw [List.range_eq_range', List.range_eq_range', ht, Nat.add_assoc, hrest,
      ← List.range'_append_1, List.range'_succ, Nat.zero_add]
  have hblock : ∀ s, outcome (lowerBlock b) env s =
      outcome (openBlock b >>= fun _ => lowerNodes (blk.nodes.toList.zipIdx.take k) >>= fun _ =>
        lowerNodes (blk.nodes.toList.zipIdx.drop k)) env s := by
    intro s
    rw [outcome_lowerBlock hb hr, ← lowerNodes_append, List.take_append_drop]
  unfold lowerGraph lowerUpTo lowerFrom
  simp only [bind_assoc, pure_bind]
  refine outcome_congr (fun _ => rfl) ?_
  rintro ⟨entry, overflow⟩ s
  show outcome (lowerBlocks (List.range env.graph.blocks.size) >>= _) env s = _
  rw [hrange, lowerBlocks_append, lowerBlocks]
  simp only [bind_assoc]
  refine outcome_congr (fun _ => rfl) fun _ s => ?_
  refine (outcome_congr hblock fun _ _ => rfl).trans ?_
  simp only [bind_assoc]
  refine outcome_congr (fun _ => rfl) fun _ s => ?_
  rw [outcome_block hb]
  refine outcome_congr (fun _ => rfl) fun _ s => ?_
  rw [outcome_block hb]
  rfl

/-- After every node ledger and banks are in agreement, and the nodes that are left are none of those
that were lowered. -/
lemma leads_lowerUpTo_ahead (h : Blank env.graph s) (hb : env.graph.blocks[b]? = some blk)
    (hr : blk.reachable = true) :
    Leads env s (lowerUpTo b k) (fun _ s' => ∃ before, Between env.graph b before s' ∧
      Ahead blk before (blk.nodes.toList.zipIdx.drop k)) T (Fault env.graph) := by
  refine (leads_lowerEntry h).then fun labels s₁ h₁ => ?_
  rw [List.range_eq_range']
  have hlt := (Array.getElem?_eq_some_iff.mp hb).1
  refine (leads_lowerBlocks h₁ (by rw [Nat.zero_add]; exact Nat.le_of_lt hlt)).then fun _ s₂ h₂ => ?_
  rw [Nat.zero_add] at h₂
  refine (leads_openBlock h₂ hb hr).then fun _ s₃ h₃ => ?_
  have hblock : env.graph.block b = .ok blk := by simp [Graph.block, Breach.get, hb]
  rw [leads_bind, leads_graph, hblock]
  refine Leads.then (P := fun x s' => x = blk ∧ s' = s₃) ⟨rfl, rfl⟩ ?_
  rintro x _ ⟨rfl, rfl⟩
  have hnodes := ahead_block h₃.formed hb
  rw [← List.take_append_drop k x.nodes.toList.zipIdx] at hnodes
  exact (leads_lowerNodes h₃ hb hnodes).then fun _ s₄ h₄ => h₄

/-- After every node ledger and banks are in agreement. -/
lemma leads_lowerUpTo (h : Blank env.graph s) (hb : env.graph.blocks[b]? = some blk)
    (hr : blk.reachable = true) :
    Leads env s (lowerUpTo b k) (fun _ s' => ∃ before, Between env.graph b before s') T
      (Fault env.graph) :=
  (leads_lowerUpTo_ahead h hb hr).weaken fun _ _ ⟨before, h, _⟩ => ⟨before, h⟩

end Lowering
end Speculation
