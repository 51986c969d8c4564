import Speculation.Proofs.Independence.Facts
import Speculation.Proofs.Integer.Uses
import Speculation.Proofs.Lowering.Blocks

/-!
One node of integer dataflow after the other.

`Rested` is what holds of the lowering between two nodes, and then every value stands where the
ledger has it. Lowering one more node keeps this, whatever the node is, and the code of the return
ends the run with the value of the graph.
-/

namespace Speculation

namespace Lowering

variable {sc : Scene} {blk : Block} {done rest kids : List NodeId} {cur n : NodeId}
  {s s' : State} {f : Facts} {t : TypeSet} {d : Node} {e : Edge} {C : Prop} {P : Condition}

/-! ### What is known -/

lemma Known.mono {done' : List NodeId} (h : Known sc done f)
    (hp : sc.Passes done' → sc.Passes done) : Known sc done' f :=
  { h with true' := fun hn hd hr ht hp' => h.true' hn hd hr ht (hp hp') }

/-- An operand was required to be an integer, or nothing was required of it. -/
lemma Known.narrow (hsc : sc.Staged blk) (h : Known sc done f)
    (ht : t = .top ∨ t = .int32 ∧ (sc.Passes done → (sc.val n).isInt32 = true)) :
    Known sc done (f.narrow n t) := by
  have hand : t.bits &&& TypeSet.int32.bits = TypeSet.int32.bits ∧
      t.bits &&& TypeSet.top.bits = t.bits := by
    obtain rfl | ⟨rfl, -⟩ := ht <;> decide
  refine ⟨fun {m d} hm hd hr => ?_, fun {m d} hm hd hr hc => ?_, fun {m d} hm hd hr hs hp => ?_⟩
  · rw [Facts.known_narrow]
    split
    · rw [TypeSet.intersects, TypeSet.inter, UInt16.and_assoc, hand.1]
      exact h.open' hm hd hr
    · exact h.open' hm hd hr
  · rw [Facts.known_narrow]
    split
    · rw [TypeSet.inter, TypeSet.inter, UInt16.and_assoc, hand.2]
    · exact h.within hm hd hr hc
  · rw [Facts.known_narrow] at hs
    split at hs
    · rename_i hmn
      obtain rfl | ⟨rfl, hint⟩ := ht
      · rcases hc : d.op.isConstant
        · rw [h.within hm hd hr hc] at hs
          exact h.true' hm hd hr hs hp
        · exact hsc.isInt32_of_isConstant hm hd hc
      · rw [hmn]
        exact hint hp
    · exact h.true' hm hd hr hs hp

/-- What the operands of a node were required to be is known after it. -/
lemma Known.execute (hsc : sc.Staged blk) (h : Known sc done f) {es : List Edge}
    (he : ∀ e ∈ es, e.kind = .untyped ∨
      e.kind = .int32 ∧ (sc.Passes done → (sc.val e.node).isInt32 = true)) :
    Known sc done (f.narrowEdges es) := by
  induction es generalizing f with
  | nil => exact h
  | cons e es ih =>
    refine ih (h.narrow hsc ?_) fun e he' => he e (List.mem_cons_of_mem _ he')
    obtain hk | ⟨hk, hint⟩ := he e List.mem_cons_self
    · exact .inl (by rw [hk]; rfl)
    · exact .inr ⟨by rw [hk]; rfl, hint⟩

/-- The operation is one that integer dataflow generates code for. -/
def Generates : Op → Prop
  | .getLocal _ | .setLocal _ | .arithAdd | .arithSub | .bit _ | .ret => True
  | _ => False

/-- Such an operation has no effect on the heap. -/
lemma execute_eq (hsc : sc.Staged blk) (h : Known sc done f) (hn : cur ∈ sc.nodes)
    (hd : sc.graph.nodes[cur]? = some d) (hes : ∀ e ∈ d.children, e.node ∈ sc.nodes)
    (hop : Generates d.op) : f.execute sc.graph cur = .ok (f.narrowEdges d.children.toList) := by
  obtain ⟨d', hd', hnode⟩ := hsc.node hn
  rw [hd] at hd'
  cases hd'
  rw [Facts.execute_of_node hd fun e he => ?_]
  · unfold Facts.learn
    cases hk : d.op <;> rw [hk] at hop <;> first | exact False.elim hop | rfl
  · obtain ⟨y, hy, hr⟩ := hnode.operands he
    exact h.lt_size (hes e he) hy hr

/-! ### Around the code of a node -/

structure Rested (sc : Scene) (done rest : List NodeId) (s : State) : Prop where
  between : Between sc.graph 0 done.reverse s
  nodes : sc.nodes = done ++ rest
  size : s.ledger.size = sc.graph.numLocals
  tidy {i : Nat} {x : ValueInfo} (h : s.ledger[i]? = some x) : Tidy x
  stocked : Stocked sc done (usesOf sc.graph.nodes rest) s.ledger
  told : Integer.Told sc.graph sc.first done (Replay.after s.events.toList s.events.size)
  known : Known sc done s.facts
  skip : s.skipNext = false

lemma Made.does_dropGuards (h : Made sc done cur rest kids s) :
    Does sc s dropGuards (fun r mem => Remains sc (done ++ [cur]) kids s r mem ∧ C)
      (fun _ s' => Made sc done cur rest kids s' ∧ ∀ l, s'.locks l = 0)
      fun _ s' r mem => Remains sc (done ++ [cur]) kids s' r mem ∧ C := by
  have hdoes : Does sc s dropGuards (fun r mem => Remains sc (done ++ [cur]) kids s r mem ∧ C)
      (fun _ s' => Coherent sc.graph cur (cur :: done.reverse) kids s' →
        Made sc done cur rest kids s')
      fun _ s' r mem => Remains sc (done ++ [cur]) kids s' r mem ∧ C := by
    have howner : (s.guards.foldl State.drop s).owner = s.owner :=
      funext fun _ => State.owner_foldl_drop _ _
    obtain ⟨b, c, gs, hdrop⟩ := State.exists_foldl_drop s s.guards
    refine .silent (?_ : _ ∧ _ ∧ _)
    dsimp only
    rw [hdrop] at howner ⊢
    refine ⟨fun hcoh => { h with coherent := hcoh }, .of_eq rfl rfl rfl List.prefix_rfl rfl, ?_⟩
    rintro r mem ⟨⟨owner, hm, ho⟩, hC⟩
    exact ⟨⟨owner, hm, fun i x q hx hl hq => ho i x q hx hl (howner ▸ hq)⟩, hC⟩
  exact (hdoes.and (leads_dropGuards (T := fun _ => False) h.coherent)).conseq (fun _ _ => id)
    (fun _ _ hm => ⟨hm.1 hm.2.1, hm.2.2⟩) fun _ _ _ _ _ => id

lemma Made.does_finish (hsc : sc.Staged blk) (h : Made sc done cur rest [] s)
    (hl : ∀ l, s.locks l = 0) (hd : sc.graph.nodes[cur]? = some d) (hop : Generates d.op) :
    Does sc s (do advance cur
                  if (← read).assertState then checkState) P
      (fun _ s' => s' = { s with facts := s.facts.narrowEdges d.children.toList }) fun _ _ => P := by
  refine .silent ?_
  have hcur : cur ∈ sc.nodes := by
    rw [h.nodes]
    simp
  have hes : ∀ e ∈ d.children, e.node ∈ sc.nodes := fun e he => by
    rw [h.nodes]
    exact List.mem_append_left _ (hsc.operand h.nodes hd he)
  rw [leads_bind, advance, leads_bind, leads_get, leads_bind, leads_graph, leads_bind,
    execute_eq hsc h.known hcur hd hes hop, leads_assume_ok]
  have hgrows : Grows s { s with facts := s.facts.narrowEdges d.children.toList } [] :=
    .of_eq rfl rfl rfl List.prefix_rfl rfl
  have hagrees : Agrees sc.graph (cur :: done.reverse) []
      ({ s with facts := s.facts.narrowEdges d.children.toList } : State).ledger
      ({ s with facts := s.facts.narrowEdges d.children.toList } : State).owner := h.coherent.agrees
  refine leads_bind.mpr (leads_ite.mpr ⟨fun _ => ?_, fun _ => ⟨rfl, hgrows, fun _ _ => id⟩⟩)
  refine (leads_checkState hagrees h.coherent.gprs h.coherent.fprs hl).weaken ?_
  rintro _ _ rfl
  exact ⟨rfl, hgrows, fun _ _ => id⟩

/-- A node that is generated: after its code the locks are dropped, the uses of its operands counted
off, and what is known then is noted. -/
lemma does_generate (hsc : sc.Staged blk) (hd : sc.graph.nodes[cur]? = some d)
    (hop : Generates d.op)
    (hcode : Does sc s (lowerNode d.op) P
      (fun _ s' => Made sc done cur rest (childrenOf sc.graph cur) s')
      fun _ s' r mem => Remains sc (done ++ [cur]) (childrenOf sc.graph cur) s' r mem ∧ C) :
    Does sc s
      (do lowerCurrent d
          useChildren cur
          advance cur
          if (← read).assertState then checkState) P
      (fun _ s' => ∃ s₁, Made sc done cur rest [] s₁ ∧ (∀ l, s₁.locks l = 0) ∧
        s' = { s₁ with facts := s₁.facts.narrowEdges d.children.toList })
      fun _ s' r mem => sc.Stands (done ++ [cur]) s'.ledger s'.owner r mem ∧ C := by
  refine (Does.tryCatch (hcode.bind fun _ s₁ h₁ => h₁.does_dropGuards)).bind
    fun _ s₁ ⟨h₁, hl₁⟩ => ?_
  refine (h₁.does_useChildren hsc hd).frame.bind fun _ s₂ ⟨h₂, hl₂⟩ => ?_
  have hl : ∀ l, s₂.locks l = 0 := by
    rw [hl₂]
    exact hl₁
  refine (h₂.does_finish hsc hl hd hop).conseq (fun _ _ => id) (fun _ s' hs => ⟨s₂, h₂, hl, hs⟩) ?_
  rintro _ s' rfl r mem ⟨hm, hC⟩
  exact ⟨hm.stands, hC⟩

end Lowering
end Speculation
