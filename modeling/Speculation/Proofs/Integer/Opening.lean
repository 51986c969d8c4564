import Speculation.Proofs.Integer.Layout
import Speculation.Proofs.Integer.Sequence

/-!
Up to the first node.

The entry sets the tag registers up and checks the stack; boxed arguments need no check. At the head
of the block no value is in a register, and the log says that every argument is in its slot. From
there on the nodes are lowered.
-/

namespace Speculation

namespace Slot

variable {j k : Nat}

lemma ofLocal_ne_ofArgument (hj : j < 2147483648) (hk : k < 2147483648) :
    ofLocal j ≠ ofArgument k := by
  intro h
  have h := congrArg Slot.index h
  rw [ofLocal, ofArgument, signed_of_lt hj, signed_of_lt hk] at h
  have hh : Frame.headerSize = 5 := rfl
  rw [hh] at h
  dsimp only at h
  omega

lemma local?_ofArgument (hk : k < 2147483648) : (ofArgument k).local? = none := by
  rw [local?, ofArgument, signed_of_lt hk, if_neg]
  dsimp only
  omega

end Slot

namespace Lowering

variable {env : Env} {s s' : State} {blk : Block} {l : Label}

def State.replay (s : State) : Replay.State := Replay.after s.events.toList s.events.size

def Logs (s s' : State) : Prop := s' = { s with events := s'.events }

lemma Logs.refl (s : State) : Logs s s := rfl

lemma Logs.eq (h : Logs s s') : ∃ e, s' = { s with events := e } := ⟨_, h⟩

lemma Logs.push {e : Event} (h : Logs s s') :
    Logs s { s' with events := s'.events.push e } := by
  unfold Logs at h ⊢
  rw [h]

/-- What a replay knows at the head of the block: arguments are in their slots, and so is what was
declared to be live; of other locals nothing is known. -/
structure Heads (g : Graph) (blk : Block) (R : Replay.State) : Prop where
  argument {k : Nat} (h : k < g.arguments.size) : R.operand? (.ofArgument k) = some (.stored .js)
  localSlot (j : Nat) (h : j < g.numVars) : R.operand? (.ofLocal j) = none ∨
    ∃ v y f, v ∈ blk.liveAtHead ∧ g.vars[v]? = some y ∧ y.operand = .ofLocal j ∧
      R.operand? (.ofLocal j) = some (.stored f)

structure Small (g : Graph) : Prop where
  arguments : g.arguments.size < 2147483648
  locals : g.numVars < 2147483648

lemma leads_variableOf' {v : VarId} {y : Variable} {Q : Variable → State → Prop} {T : State → Prop}
    {F : Failure → State → Prop} (hy : env.graph.vars[v]? = some y) :
    Leads env s (variableOf v) Q T F ↔ Q y s := by
  have h : Finds env s (variableOf v) y := finds_variableOf hy
  unfold Finds at h
  unfold Leads
  rw [h]

section

variable (hflow : Integer.Flow env.graph blk)
include hflow

lemma argument_of_split {done rest : List VarId} {v : VarId}
    (h : env.graph.arguments.toList = done ++ v :: rest) :
    ∃ y, env.graph.vars[v]? = some y ∧ y.operand = .ofArgument done.length ∧ y.format = .value := by
  refine hflow.arguments ?_
  rw [← Array.getElem?_toList, h, List.getElem?_append_right (Nat.le_refl _), Nat.sub_self]
  rfl

lemma leads_beginEntry' : Leads env s beginEntry (fun _ s' => Logs s s') (fun _ => False)
    fun _ _ => False := by
  have h : Logs s { s with events := s.events.push .reset } := rfl
  rw [beginEntry, leads_bind, leads_event, leads_bind, leads_graph, leads_bind]
  refine (leads_forIn (fun rest s' => Logs s s' ∧ ∃ done, env.graph.arguments.toList = done ++ rest)
    ⟨h, [], rfl⟩ ?_).weaken fun _ _ h => h.1
  rintro v rest s₁ ⟨h₁, done, hsplit⟩
  obtain ⟨y, hy, -⟩ := argument_of_split hflow hsplit
  rw [leads_bind, leads_variableOf' hy, leads_bind, leads_event]
  exact ⟨rfl, h₁.push, done ++ [v], by simp [hsplit]⟩

lemma leads_checkArguments' : Leads env s checkArguments
    (fun _ s' => ∃ n, s' = { s with current := n }) (fun _ => False) fun _ _ => False := by
  rw [checkArguments, leads_bind, leads_graph]
  split
  · exact ⟨s.current, rfl⟩
  · rename_i first hfirst
    rw [leads_bind, leads_modify, leads_bind]
    refine (leads_forIn (fun rest s' => s' = { s with current := first } ∧
      ∃ done, env.graph.arguments.toList = done ++ rest) ⟨rfl, [], rfl⟩ ?_).weaken ?_
    · rintro v rest s₁ ⟨h₁, done, hsplit⟩
      obtain ⟨y, hy, -, hf⟩ := argument_of_split hflow hsplit
      rw [leads_bind, leads_variableOf' hy, leads_bind, checkArgument, hf]
      exact ⟨rfl, h₁, done ++ [v], by simp [hsplit]⟩
    · rintro _ s₁ ⟨h₁, -⟩
      refine leads_bind.mpr ((leads_forIn (fun rest s' => s' = { s with current := first } ∧
        ∃ done, env.graph.arguments.toList = done ++ rest) ⟨h₁, [], rfl⟩ ?_).weaken
        fun _ _ h => ⟨first, h.1⟩)
      rintro v rest s₂ ⟨h₂, done, hsplit⟩
      obtain ⟨y, hy, -, hf⟩ := argument_of_split hflow hsplit
      rw [leads_bind, leads_variableOf' hy, leads_ite]
      exact ⟨fun _ => ⟨rfl, h₂, done ++ [v], by simp [hsplit]⟩, fun h => absurd hf h⟩

def entryPieces (env : Env) (overflow : Label) : List Piece :=
  tagPieces ++ stackPieces env.context env.frame.outgoingOffset overflow

/-- The state after the entry: there are two more labels, of which the second is yet to be attached. -/
structure Entered (env : Env) (s s' : State) : Prop where
  adds : s.asm.Adds s'.asm (entryPieces env (s.asm.labels.size + 1))
  labels : s'.asm.labels = (s.asm.labels.push (some s.asm.offset)).push none
  rest : s' = { s with asm := s'.asm, events := s'.events, current := s'.current }

lemma leads_lowerEntry' : Leads env s lowerEntry
    (fun labels s' => labels = (s.asm.labels.size, s.asm.labels.size + 1) ∧ Entered env s s')
    (fun _ => False) fun _ _ => False := by
  refine leads_bind.mpr (leads_modifyGet.mpr (leads_bind.mpr ((lays_pinRegisters _).weaken ?_)))
  rintro _ s₂ ⟨-, h₂⟩
  refine leads_bind.mpr (leads_modifyGet.mpr (leads_bind.mpr ((lays_checkStack _ _).weaken ?_)))
  rintro _ s₄ ⟨-, h₄⟩
  refine leads_bind.mpr ((leads_beginEntry' hflow).weaken fun _ s₅ h₅ => ?_)
  refine leads_bind.mpr ((leads_checkArguments' hflow).weaken ?_)
  rintro _ s₆ ⟨n, rfl⟩
  have hlabels : s₂.asm.labels = s.asm.labels.push (some s.asm.offset) := h₂.labels
  have hsize : s₂.asm.labels.size = s.asm.labels.size + 1 := by rw [hlabels, Array.size_push]
  have hadds₂ : s.asm.Adds s₂.asm tagPieces := ⟨h₂.adds.code, h₂.adds.relocs⟩
  have hadds₄ : s₂.asm.Adds s₄.asm (stackPieces env.context env.frame.outgoingOffset
      (s.asm.labels.size + 1)) := by
    rw [← hsize]
    exact ⟨h₄.adds.code, h₄.adds.relocs⟩
  have hasm₅ : s₅.asm = s₄.asm := by rw [h₅]
  refine ⟨Prod.ext rfl hsize, ?_, ?_, ?_⟩
  · show s.asm.Adds s₅.asm _
    rw [hasm₅]
    exact hadds₂.trans hadds₄
  · show s₅.asm.labels = _
    rw [hasm₅, h₄.labels, ← hlabels]
    rfl
  · obtain ⟨e, rfl⟩ := h₅.eq
    have h₄ := h₄.rest
    have h₂ := h₂.rest
    dsimp only at h₄ h₂ ⊢
    rw [h₄, h₂]

/-! ### The head of the block -/

omit hflow in
lemma Heads.push {g : Graph} {y : Variable} {v : VarId} {f : DataFormat} {R : Replay.State}
    (h : Heads g blk R) (hs : Small g) (hv : v ∈ blk.liveAtHead) (hy : g.vars[v]? = some y)
    (hl : y.operand.local?.isSome = true) :
    Heads g blk (R.setOperand y.operand (.stored f)) where
  argument {k} hk := by
    rw [Replay.operand?_setOperand, if_neg, h.argument hk]
    intro ho
    rw [← ho, Slot.local?_ofArgument (Nat.lt_trans hk hs.arguments)] at hl
    cases hl
  localSlot j hj := by
    rw [Replay.operand?_setOperand]
    split
    · rename_i ho
      exact .inr ⟨v, y, f, hv, hy, ho.symm, rfl⟩
    · exact h.localSlot j hj

lemma leads_logArguments (hs : Small env.graph) (hR : ∀ o, s.replay.operand? o = none) :
    Leads env s (forIn env.graph.arguments.toList PUnit.unit fun v _ => do
        let x ← variableOf v
        event (.setLocal x.operand (.ofFlush x.format))
        pure (ForInStep.yield PUnit.unit))
      (fun _ s' => Logs s s' ∧ Heads env.graph blk s'.replay) (fun _ => False) fun _ _ => False := by
  refine (leads_forIn (fun rest s' => Logs s s' ∧ ∃ done,
    env.graph.arguments.toList = done ++ rest ∧
    ∀ o, s'.replay.operand? o =
      if ∃ k, k < done.length ∧ o = .ofArgument k then some (.stored .js) else none)
    ⟨.refl s, [], rfl, by simpa using hR⟩ ?_).weaken ?_
  · rintro v rest s₁ ⟨h₁, done, hsplit, hR₁⟩
    obtain ⟨y, hy, ho, hf⟩ := argument_of_split hflow hsplit
    rw [leads_bind, leads_variableOf' hy, leads_bind, leads_event]
    refine ⟨rfl, h₁.push, done ++ [v], by simp [hsplit], fun o => ?_⟩
    have hpush : State.replay { s₁ with events := s₁.events.push (.setLocal y.operand
        (.ofFlush y.format)) } = s₁.replay.setOperand (.ofArgument done.length) (.stored .js) := by
      rw [ho, hf]
      exact Replay.after_push _ _
    rw [hpush, Replay.operand?_setOperand, hR₁, List.length_append, List.length_singleton]
    by_cases hlast : o = .ofArgument done.length
    · rw [if_pos hlast, if_pos ⟨_, Nat.lt_succ_self _, hlast⟩]
    · have hiff : (∃ k, k < done.length + 1 ∧ o = .ofArgument k) ↔
          ∃ k, k < done.length ∧ o = .ofArgument k := by
        refine exists_congr fun k => and_congr_left fun hk => ?_
        have : k ≠ done.length := by
          rintro rfl
          exact hlast hk
        omega
      rw [if_neg hlast, if_congr hiff rfl rfl]
  · rintro _ s₁ ⟨h₁, done, hsplit, hR₁⟩
    rw [List.append_nil] at hsplit
    have hlen : done.length = env.graph.arguments.size := by
      rw [← hsplit, Array.length_toList]
    refine ⟨h₁, fun {k} hk => ?_, fun j hj => .inl ?_⟩
    · rw [hR₁, if_pos ⟨k, hlen ▸ hk, rfl⟩]
    · rw [hR₁, if_neg]
      rintro ⟨k, hk, ho⟩
      exact Slot.ofLocal_ne_ofArgument (Nat.lt_trans hj hs.locals)
        (Nat.lt_trans (hlen ▸ hk) hs.arguments) ho

/-- What the block declared to be live is in its slots. -/
lemma leads_logLive (hs : Small env.graph) (hR : Heads env.graph blk s.replay) :
    Leads env s (forIn blk.liveAtHead.toList PUnit.unit fun v _ => do
        let x ← variableOf v
        if x.operand.local?.isSome = true then do
          event (.setLocal x.operand (.ofFlush x.format))
          pure (ForInStep.yield PUnit.unit)
        else pure (ForInStep.yield PUnit.unit))
      (fun _ s' => Logs s s' ∧ Heads env.graph blk s'.replay) (fun _ => False) fun _ _ => False := by
  refine (leads_forIn (fun rest s' => (Logs s s' ∧ Heads env.graph blk s'.replay) ∧
    ∀ v ∈ rest, v ∈ blk.liveAtHead) ⟨⟨.refl s, hR⟩, fun v hv => Array.mem_toList_iff.mp hv⟩ ?_).weaken
    fun _ _ h => h.1
  rintro v rest s₁ ⟨⟨h₁, hR₁⟩, hrest⟩
  obtain ⟨hv, hrest⟩ := List.forall_mem_cons.mp hrest
  obtain ⟨y, hy⟩ := hflow.live hv
  rw [leads_bind, leads_variableOf' hy, leads_ite]
  refine ⟨fun hl => leads_bind.mpr (leads_event.mpr ⟨rfl, ⟨h₁.push, ?_⟩, hrest⟩),
    fun _ => ⟨rfl, ⟨h₁, hR₁⟩, hrest⟩⟩
  have hpush : State.replay { s₁ with events := s₁.events.push (.setLocal y.operand
      (.ofFlush y.format)) } = s₁.replay.setOperand y.operand (.stored (.ofFlush y.format)) :=
    Replay.after_push _ _
  rw [hpush]
  exact hR₁.push hs hv hy hl

lemma leads_resetBlock' (hs : Small env.graph) : Leads env s (resetBlock blk)
    (fun _ s' => Logs
      { s with
        ledger := s.ledger.map fun _ => .dead
        gprs := s.gprs.releaseAll
        fprs := s.fprs.releaseAll
        facts := s.facts.beginBlock env.graph } s' ∧ Heads env.graph blk s'.replay)
    (fun _ => False) fun _ _ => False := by
  rw [resetBlock, leads_bind, leads_graph, leads_bind, leads_modify, leads_bind, leads_event,
    leads_bind]
  refine (leads_logArguments hflow hs fun o => ?_).weaken ?_
  · show (Replay.after (s.events.push .reset).toList (s.events.push .reset).size).operand? o = none
    rw [Replay.after_push]
    rfl
  rintro _ s₁ ⟨h₁, hR₁⟩
  rw [leads_bind]
  refine (leads_logLive hflow hs hR₁).weaken ?_
  rintro _ s₂ ⟨h₂, hR₂⟩
  refine ⟨?_, hR₂⟩
  unfold Logs at h₁ h₂ ⊢
  rw [h₂, h₁]

/-- The state at the first node of the block. -/
structure Opened (env : Env) (blk : Block) (l : Label) (s s' : State) : Prop where
  adds : s.asm.Adds s'.asm []
  labels : s'.asm.labels = s.asm.labels.set! l (some s.asm.offset)
  ledger : s'.ledger = s.ledger.map fun _ => .dead
  facts : s'.facts = s.facts.beginBlock env.graph
  skip : s'.skipNext = false
  heads : Heads env.graph blk s'.replay
  exits : s'.exits = s.exits
  views : s'.views = s.views
  pool : s'.pool = s.pool
  slowPaths : s'.slowPaths = s.slowPaths
  switches : s'.switches = s.switches
  caches : s'.caches = s.caches
  watchpoints : s'.watchpoints = s.watchpoints

lemma leads_openBlock' (hs : Small env.graph) (hl : env.blockLabels[0]? = some l) (hfree : s.Free l) :
    Leads env s (openBlock 0) (fun _ s' => Opened env blk l s s') (fun _ => False)
      fun _ _ => False := by
  have hblock : env.graph.block 0 = .ok blk := by
    simp [Graph.block, Breach.get, hflow.blocks]
  have hget : Breach.get env.blockLabels 0 = .ok l := by simp [Breach.get, hl]
  have hatt : s.asm.attach l = .ok { s.asm.comment ("l" ++ toString l) with
      labels := s.asm.labels.set! l (some s.asm.offset) } := by
    have hnone : Breach.get s.asm.labels l = .ok none := by
      unfold State.Free at hfree
      simp [Breach.get, hfree]
    rw [Assembler.attach, hnone]
    rfl
  rw [openBlock, leads_bind, leads_graph, hblock, leads_bind, leads_assume_ok]
  rw [leads_bind, leads_modify, leads_bind, blockLabel, leads_bind, leads_read, hget, leads_assume_ok]
  rw [leads_bind, attach, leads_bind, leads_get, hatt, leads_bind, leads_assume_ok]
  rw [leads_set, comment, leads_bind, leads_modify, leads_bind]
  refine (leads_resetBlock' hflow hs).weaken ?_
  rintro _ s₁ ⟨h₁, hR₁⟩
  obtain ⟨e, rfl⟩ := h₁.eq
  exact ⟨.of_eq rfl rfl, rfl, rfl, rfl, rfl, hR₁, rfl, rfl, rfl, rfl, rfl, rfl, rfl⟩

end

end Lowering
end Speculation
