import Speculation.Proofs.Integer.Opening

/-!
Leaving integer dataflow through an exit.

The replay of the log and the ledger agree on where every value is, so the arguments and the locals
are found where the machine has them. `Resumes` says what an interpreter goes on with: the arguments
that were passed, and for every local what was assigned to it last.
-/

namespace Speculation

namespace World

variable {α β γ : Type} {w : World}

lemma runs_map {x : Run β} {f : β → α} {b : β} {w' : World} (h : runs x w = (.ok b, w')) :
    runs (f <$> x) w = (.ok (f b), w') := by
  rw [map_eq_pure_bind, runs_bind_of_ok h, runs_pure]

/-- Steps that change nothing, one for each element of a list. -/
lemma runs_mapM_list {f : β → Run γ} {P : α → γ → Prop} {xs : List α} {ys : List β}
    (h : List.Forall₂ (fun x y => ∃ z, runs (f y) w = (.ok z, w) ∧ P x z) xs ys) :
    ∃ zs, runs (ys.mapM f) w = (.ok zs, w) ∧ List.Forall₂ P xs zs := by
  induction h with
  | nil => exact ⟨[], rfl, .nil⟩
  | cons hx _ ih =>
    obtain ⟨z, hz, hP⟩ := hx
    obtain ⟨zs, hzs, hrest⟩ := ih
    refine ⟨z :: zs, ?_, .cons hP hrest⟩
    rw [List.mapM_cons, runs_bind_of_ok hz, runs_bind_of_ok hzs, runs_pure]

/-- Steps that change nothing, one of which fails. -/
lemma runs_mapM_list_error {f : β → Run γ} {res : α → Except Fault γ} {xs : List α} {ys : List β}
    (h : List.Forall₂ (fun x y => runs (f y) w = (res x, w)) xs ys)
    (hf : ∃ x ∈ xs, ∃ e, res x = .error e) : ∃ e, runs (ys.mapM f) w = (.error e, w) := by
  induction h with
  | nil => simp at hf
  | @cons x y xs ys hx _ ih =>
    rw [List.mapM_cons]
    rcases hr : res x with e | z
    · exact ⟨e, by rw [runs_bind, hx, hr]⟩
    · have hrest : ∃ x ∈ xs, ∃ e, res x = .error e := by
        obtain ⟨x', hx', e, he⟩ := hf
        rcases List.mem_cons.mp hx' with rfl | hx'
        · rw [hr] at he
          cases he
        · exact ⟨x', hx', e, he⟩
      obtain ⟨e, he⟩ := ih hrest
      exact ⟨e, by rw [runs_bind_of_ok (hx.trans (by rw [hr])), runs_bind, he]⟩

/-- The operand is recovered, and the recovery has this result and no effect. -/
def Retrieves (w : World) (g : Graph) (R : Replay.State) (r : Registers) (o : Slot)
    (y : Except Fault Value) : Prop :=
  ∃ x, Replay.recover g R o = .ok x ∧ runs (Execution.recover r x) w = (y, w)

section Recoveries

variable {g : Graph} {R : Replay.State} {r : Registers} {n : Nat} {slot : Nat → Slot}

/-- What is recovered for numbered operands. -/
lemma runs_recoveries {P : Nat → Value → Prop}
    (h : ∀ i, i < n → ∃ v, w.Retrieves g R r (slot i) (.ok v) ∧ P i v) :
    ∃ (found : Array Recovery) (vs : Array Value),
      (Array.range n).mapM (fun i => Replay.recover g R (slot i)) = .ok found ∧
      runs (found.mapM (Execution.recover r)) w = (.ok vs, w) ∧
      vs.size = n ∧ ∀ i v, vs[i]? = some v → P i v := by
  obtain ⟨found, hfound, hP⟩ := Replay.exists_mapM_range (n := n)
    (f := fun i => Replay.recover g R (slot i))
    (P := fun i x => ∃ v, runs (Execution.recover r x) w = (.ok v, w) ∧ P i v) fun i hi => by
      obtain ⟨v, ⟨x, hx, hrun⟩, hP⟩ := h i hi
      exact ⟨x, hx, v, hrun, hP⟩
  obtain ⟨vs, hvs, hP⟩ := runs_mapM_list hP
  refine ⟨found, vs.toArray, hfound, ?_, ?_, fun i v hv => ?_⟩
  · rw [Array.mapM_eq_mapM_toList]
    exact runs_map hvs
  · simpa using hP.length_eq.symm
  · have hv : vs[i]? = some v := by simpa using hv
    obtain ⟨hlt, rfl⟩ := List.getElem?_eq_some_iff.mp hv
    have := hP.get (i := i) (by rw [hP.length_eq]; exact hlt) hlt
    simpa using this

/-- One of them is not to be had. -/
lemma runs_recoveries_error {res : Nat → Except Fault Value}
    (h : ∀ i, i < n → w.Retrieves g R r (slot i) (res i))
    (hf : ∃ i, i < n ∧ ∃ e, res i = .error e) :
    ∃ (found : Array Recovery) (e : Fault),
      (Array.range n).mapM (fun i => Replay.recover g R (slot i)) = .ok found ∧
      runs (found.mapM (Execution.recover r)) w = (.error e, w) := by
  obtain ⟨i, hi, hf⟩ := hf
  obtain ⟨found, hfound, hP⟩ := Replay.exists_mapM_range (n := n) h
  obtain ⟨e, he⟩ := runs_mapM_list_error hP ⟨i, List.mem_range.mpr hi, hf⟩
  refine ⟨found, e, hfound, ?_⟩
  rw [Array.mapM_eq_mapM_toList, map_eq_pure_bind, runs_bind, he]

end Recoveries

end World

namespace Replay

variable {g : Graph} {R : State} {o slot : Slot} {n : NodeId} {x : NodeState} {format : DataFormat}

section

variable (ho : R.operand? o = some (.hinted n)) (hc : g.valueConstant n = .ok none)
include ho hc

lemma recover_hinted : recover g R o = .ok (NodeState.recovery (R.node? n)) := by
  simp only [recover, ho, hc]
  rfl

lemma recover_gpr {q : Gpr} (hn : R.node? n = some x) (hx : x.register = some (.gpr q, format)) :
    recover g R o = .ok (.inGpr q format) := by
  obtain ⟨_, spill⟩ := x
  cases hx
  rw [recover_hinted ho hc, hn]
  rfl

lemma recover_slot (hn : R.node? n = some x) (hr : x.register = none)
    (hx : x.spill = some (slot, format)) : recover g R o = .ok (.inFrame slot format) := by
  obtain ⟨_, _⟩ := x
  cases hr
  cases hx
  rw [recover_hinted ho hc, hn]
  rfl

lemma recover_nowhere (hn : R.node? n = none ∨ R.node? n = some {}) :
    recover g R o = .ok .dead := by
  rw [recover_hinted ho hc]
  rcases hn with hn | hn <;> rw [hn] <;> rfl

end

lemma recover_constant {v : Value} (ho : R.operand? o = some (.hinted n))
    (hc : g.valueConstant n = .ok (some v)) : recover g R o = .ok (.constant v) := by
  simp only [recover, ho, hc]
  rfl

lemma recover_stored (ho : R.operand? o = some (.stored format)) :
    recover g R o = .ok (.inFrame o format) := by
  rw [recover, ho]
  rfl

lemma recover_unknown (ho : R.operand? o = none) : recover g R o = .ok .dead := by
  rw [recover, ho]
  rfl

end Replay

section

variable {g : Graph} {ledger : Array ValueInfo} {n : NodeId} {d : Node} {o : Slot} {i : Nat}
  {x : ValueInfo} (hd : g.nodes[n]? = some d) (hs : d.slot = some o) (hi : o.local? = some i)
include hd hs hi

lemma view_eq_some (hx : ledger[i]? = some x) (hn : x.node = some n) :
    view g ledger n = some (x.whereabouts o) := by
  simp [view, hd, hs, hi, hx, hn]

lemma view_eq_none (h : ∀ x, ledger[i]? = some x → x.node ≠ some n) : view g ledger n = none := by
  rcases hx : ledger[i]? with _ | x
  · simp [view, hd, hs, hi, hx]
  · simp [view, hd, hs, hi, hx, h x hx]

end

namespace Integer

/-- What is right of the value that is recovered for a local after the nodes `done`, before `rest`. -/
structure Recovers (g : Graph) (blk : Block) (val : NodeId → Value) (done rest : List NodeId)
    (j : Nat) (v : Value) : Prop where
  stored {n : NodeId} (h : lastAssigned g done (.ofLocal j) = some (n, true)) : v = val n
  /-- A value that was hinted is to be found as long as it is needed. -/
  hinted {n : NodeId} (h : lastAssigned g done (.ofLocal j) = some (n, false))
    (hn : (∃ i, g.op? n = some (.constant i)) ∨ usesOf g.nodes rest n ≠ 0) : v = val n
  /-- A local that is live at the head of the block is logged there as one whose slot holds its value,
  so only one that is not live there was never stored. -/
  unassigned (h : lastAssigned g done (.ofLocal j) = none)
    (hl : ∀ u ∈ blk.liveAtHead, ∀ x, g.vars[u]? = some x → x.operand ≠ .ofLocal j) : v = .undefined

namespace Recovers

variable {g : Graph} {blk : Block} {val : NodeId → Value} {done rest : List NodeId} {j : Nat}
  {v : Value} {n : NodeId}

lemma of_stored (ha : lastAssigned g done (.ofLocal j) = some (n, true)) (h : v = val n) :
    Recovers g blk val done rest j v := by
  refine ⟨fun hs => ?_, fun hs => ?_, fun hs => ?_⟩ <;> rw [ha] at hs <;> cases hs
  exact h

lemma of_hinted (ha : lastAssigned g done (.ofLocal j) = some (n, false))
    (h : (∃ i, g.op? n = some (.constant i)) ∨ usesOf g.nodes rest n ≠ 0 → v = val n) :
    Recovers g blk val done rest j v := by
  refine ⟨fun hs => ?_, fun hs => ?_, fun hs => ?_⟩ <;> rw [ha] at hs <;> cases hs
  exact h

lemma of_unassigned (ha : lastAssigned g done (.ofLocal j) = none)
    (h : (∀ u ∈ blk.liveAtHead, ∀ x, g.vars[u]? = some x → x.operand ≠ .ofLocal j) →
      v = .undefined) : Recovers g blk val done rest j v := by
  refine ⟨fun hs => ?_, fun hs => ?_, fun _ => h⟩ <;> rw [ha] at hs <;> cases hs

end Recovers

/-- What is right of the values with which an interpreter goes on after the nodes `done`, before
`rest`. -/
structure Resumes (g : Graph) (blk : Block) (passed : List Value) (val : NodeId → Value)
    (done rest : List NodeId) (values : Operands Value) : Prop where
  arguments_size : values.arguments.size = g.arguments.size
  /-- Missing arguments are undefined. -/
  argument {k : Nat} {v : Value} (h : values.arguments[k]? = some v) :
    v = passed[k]?.getD .undefined
  locals_size : values.locals.size = g.numVars
  recovers {j : Nat} {v : Value} (h : values.locals[j]? = some v) :
    Recovers g blk val done rest j v

end Integer

namespace Scene

open Execution World Lowering

variable {sc : Scene} {blk : Block} {done rest : List NodeId} {n : NodeId} {kind : ExitKind}
  {ledger : Array ValueInfo} {r r' : Registers} {mem : Memory} {w : World} {o : Slot}
  {format : DataFormat} {R : Replay.State}

lemma runs_recover_inFrame {x : UInt64} (hr : r.gpr .frame = sc.frame) (hm : w.memory = mem)
    (hx : sc.word mem o = some x) :
    runs (recover r (.inFrame o format)) w = (.ok (box format x), w) := by
  obtain ⟨y, hy, rfl⟩ := Option.map_eq_some_iff.mp hx
  have hread : runs (read64 (r.gpr .frame + o.offset.toInt64.toUInt64)) w =
      (.ok (UInt64.ofNat y), w) := by
    refine runs_read64 ?_
    rw [hr, hm]
    exact hy
  rw [recover, runs_bind_of_ok hread, runs_pure]

/-- A value that was hinted is found where the ledger has it. -/
lemma runs_recover_view (hr : sc.Restores ledger r mem) (hf : r.gpr .frame = sc.frame)
    (hm : w.memory = mem) (hv : R.node? n = view sc.graph ledger n)
    (hop : R.operand? o = some (.hinted n)) (hc : sc.graph.valueConstant n = .ok none) {d : Node} {i : Nat}
    (hd : sc.graph.nodes[n]? = some d) (hs : d.slot = some (.ofLocal i))
    (hi : (Slot.ofLocal i).local? = some i) :
    ∃ v, w.Retrieves sc.graph R r o (.ok v) ∧ ∀ x, ledger[i]? = some x →
      x.node = some n → x.location ≠ .none ∨ x.spillFormat ≠ .none → v = sc.val n := by
  by_cases hx : ∃ x, ledger[i]? = some x ∧ x.node = some n
  · obtain ⟨x, hl, hxn⟩ := hx
    rw [view_eq_some hd hs hi hl hxn] at hv
    rcases hloc : x.location with _ | q | q
    · have hr₀ : (x.whereabouts (.ofLocal i)).register = none := by
        simp [ValueInfo.whereabouts, hloc]
      by_cases hfmt : x.spillFormat = .none
      · -- the value is nowhere
        have hx₀ : x.whereabouts (.ofLocal i) = {} := by
          simp [ValueInfo.whereabouts, hloc, ValueInfo.isSpilled, hfmt]
        refine ⟨.undefined, ⟨_, Replay.recover_nowhere hop hc (.inr (hx₀ ▸ hv)), rfl⟩,
          fun y hy _ hor => ?_⟩
        rw [hl] at hy
        cases hy
        exact absurd hor (by simp [hloc, hfmt])
      · have hsp : (x.whereabouts (.ofLocal i)).spill = some (.ofLocal i, x.spillFormat) := by
          simp [ValueInfo.whereabouts, ValueInfo.isSpilled, hfmt]
        obtain ⟨y, hy, hbox⟩ := hr.slot hl hxn hfmt
        exact ⟨_, ⟨_, Replay.recover_slot hop hc hv hr₀ hsp, runs_recover_inFrame hf hm hy⟩,
          fun _ _ _ _ => hbox⟩
    · have hreg : (x.whereabouts (.ofLocal i)).register = some (.gpr q, x.registerFormat) := by
        simp [ValueInfo.whereabouts, hloc]
      exact ⟨_, ⟨_, Replay.recover_gpr hop hc hv hreg, rfl⟩,
        fun _ _ _ _ => hr.register hl hxn hloc⟩
    · exact absurd hloc (hr.double hl)
  · rw [view_eq_none hd hs hi fun x hx' hxn => hx ⟨x, hx', hxn⟩] at hv
    exact ⟨.undefined, ⟨_, Replay.recover_nowhere hop hc (.inl hv), rfl⟩,
      fun x hx' hxn => absurd ⟨x, hx', hxn⟩ hx⟩

/-! ### Every operand is recovered -/

section Operands

variable (hsc : sc.Staged blk) (hR : Heads sc.graph blk sc.first)
  (ht : Integer.Told sc.graph sc.first done R)
include hsc

lemma assigned_local {m : NodeId} {e : NodeId × Bool} (hm : sc.nodes = done ++ rest) (hd : m ∈ done)
    (ha : Integer.assigns sc.graph o m = some e) :
    e.1 ∈ done ∧ ∃ j, j < sc.graph.numVars ∧ o = .ofLocal j := by
  have hmem : m ∈ sc.nodes := hm ▸ List.mem_append_left _ hd
  obtain ⟨x, hx, hnode⟩ := hsc.node hmem
  obtain ⟨pre, post, rfl⟩ := List.append_of_mem hd
  have hnodes : sc.nodes = pre ++ m :: (post ++ rest) := by
    rw [hm]
    simp
  have hbefore : ∀ e ∈ x.children, e.node ∈ pre := fun e he => hsc.operand hnodes hx he
  have hshape := hnode.shape
  unfold Integer.assigns at ha
  simp only [hx, Option.bind_eq_bind, Option.bind_some] at ha
  obtain ⟨c, hc, ha⟩ := Option.bind_eq_some_iff.mp ha
  have hc := List.mem_append_left (m :: post) (hbefore c (Array.mem_of_getElem? hc))
  split at ha
  all_goals first
    | cases ha
    | rename_i v hop
      rw [hop] at hshape
      obtain ⟨-, y, j, hy, -, hj, hlt⟩ := hshape
      simp only [hy, Option.bind_some] at ha
      split at ha
      · rename_i ho
        cases ha
        exact ⟨hc, j, hlt, ho.symm.trans hj⟩
      · cases ha

lemma lastAssigned_local {n : NodeId} {b : Bool} (hm : sc.nodes = done ++ rest)
    (h : Integer.lastAssigned sc.graph done o = some (n, b)) :
    n ∈ done ∧ ∃ j, j < sc.graph.numVars ∧ o = .ofLocal j := by
  obtain ⟨m, hmem, ha⟩ := List.exists_of_findSome?_eq_some h
  exact assigned_local hsc hm (List.mem_reverse.mp hmem) ha

lemma lastAssigned_argument {k : Nat} (hm : sc.nodes = done ++ rest) (hk : k < sc.graph.arguments.size) :
    Integer.lastAssigned sc.graph done (.ofArgument k) = none := by
  have hl := hsc.roomy.locals
  have ha := hsc.roomy.arguments
  have hv := hsc.roomy.vars
  by_contra hne
  obtain ⟨⟨n, b⟩, h⟩ := Option.ne_none_iff_exists'.mp hne
  obtain ⟨-, j, hj, ho⟩ := lastAssigned_local hsc hm h
  exact Slot.ofLocal_ne_ofArgument (by omega) (by omega) ho.symm

include ht

/-- A value that was hinted is found as long as it is needed. -/
lemma runs_recover_hinted {n m : NodeId} {j : Nat} (hm : sc.nodes = done ++ n :: rest)
    (ha : Integer.lastAssigned sc.graph done (.ofLocal j) = some (m, false))
    (hc : sc.graph.valueConstant m = .ok none) (hf : sc.Framed done r mem)
    (hr : sc.Restores ledger r mem) (hs : sc.Supplied done (n :: rest) ledger)
    (hv : Mirrors sc.graph R ledger) (hw : w.memory = mem) :
    ∃ v, w.Retrieves sc.graph R r (.ofLocal j) (.ok v) ∧
      (usesOf sc.graph.nodes (n :: rest) m ≠ 0 → v = sc.val m) := by
  have hop := ht.hinted ha
  obtain ⟨hmem, -⟩ := lastAssigned_local hsc hm ha
  obtain ⟨d, hd, -⟩ := hsc.node (hm ▸ List.mem_append_left _ hmem)
  have hdc : d.op.isConstant = false := op_of_valueConstant_eq_none hd hc
  have hview := hv m d hd hdc
  rcases hslot : d.slot with _ | o'
  · -- what has no slot has no use
    refine ⟨.undefined, ⟨_, Replay.recover_nowhere hop hc
      (.inl (hview.trans (by simp [view, hd, hslot]))), rfl⟩, fun huse => ?_⟩
    obtain ⟨d', i, -, hd', hi, -⟩ := hs m hmem huse
    rw [hd] at hd'
    cases hd'
    rw [hslot] at hi
    cases hi
  · obtain ⟨i, rfl, -, hlt⟩ := hsc.flow.beyond hd hslot
    obtain ⟨v, hrun, hval⟩ :=
      runs_recover_view hr hf.frame hw hview hop hc hd hslot (hsc.local?_ofLocal hlt)
    refine ⟨v, hrun, fun huse => ?_⟩
    obtain ⟨d', k, x, hd', hk, hklt, hx, hxn, hsome⟩ := hs m hmem huse
    rw [hd] at hd'
    cases hd'
    obtain rfl : i = k := by
      have h := congrArg Slot.local? (Option.some.inj (hslot.symm.trans hk))
      rw [hsc.local?_ofLocal hlt, hsc.local?_ofLocal hklt] at h
      exact Option.some.inj h
    refine hval x hx hxn (hsome.resolve_left ?_)
    rw [hdc]
    exact Bool.false_ne_true

include hR

/-- An argument is where it was passed, if it was. -/
lemma runs_recover_argument {k : Nat} (hm : sc.nodes = done ++ rest) (hk : k < sc.graph.arguments.size)
    (hf : sc.Framed done r mem) (hw : w.memory = mem) :
    w.Retrieves sc.graph R r (.ofArgument k)
      (match sc.passed[k]? with
        | some v => .ok v
        | none => .error (.badAccess (sc.address (.ofArgument k)))) := by
  have hop : R.operand? (.ofArgument k) = some (.stored .js) :=
    (ht.unassigned (lastAssigned_argument hsc hm hk)).trans (hR.argument hk)
  have hword := hf.argument hk
  refine ⟨_, Replay.recover_stored hop, ?_⟩
  rcases hp : sc.passed[k]? with _ | v
  · rw [hp] at hword
    have hread : w.memory.read? 8 (sc.address (.ofArgument k)) = none := by
      rw [hw]
      exact Option.map_eq_none_iff.mp hword
    have hfail : runs (read64 (r.gpr .frame + (Slot.ofArgument k).offset.toInt64.toUInt64)) w =
        (.error (.badAccess (sc.address (.ofArgument k))), w) := by
      rw [hf.frame, read64, runs_bind]
      erw [runs_readWord_none hread]
    rw [recover, runs_bind, hfail]
  · rw [hp] at hword
    exact runs_recover_inFrame hf.frame hw hword

/-- A local is what was assigned to it last. -/
lemma runs_recover_local {n : NodeId} {j : Nat} (hm : sc.nodes = done ++ n :: rest)
    (hj : j < sc.graph.numVars) (hf : sc.Framed done r mem) (hr : sc.Restores ledger r mem)
    (hs : sc.Supplied done (n :: rest) ledger) (hv : Mirrors sc.graph R ledger)
    (hw : w.memory = mem) :
    ∃ v, w.Retrieves sc.graph R r (.ofLocal j) (.ok v) ∧
      Integer.Recovers sc.graph blk sc.val done (n :: rest) j v := by
  rcases ha : Integer.lastAssigned sc.graph done (.ofLocal j) with _ | ⟨m, _ | _⟩
  · have hop := ht.unassigned ha
    rcases hR.localSlot j hj with hnone | ⟨u, y, f, hu, hy, hyo, hstored⟩
    · rw [hnone] at hop
      exact ⟨.undefined, ⟨_, Replay.recover_unknown hop, rfl⟩, .of_unassigned ha fun _ => rfl⟩
    · -- it was live at the head, and whatever is in its slot counts
      rw [hstored] at hop
      obtain ⟨x, hx⟩ := word_of_mapped (hf.mapped (Nat.lt_of_lt_of_le hj hsc.roomy.vars))
      exact ⟨_, ⟨_, Replay.recover_stored hop, runs_recover_inFrame hf.frame hw hx⟩,
        .of_unassigned ha fun hnot => absurd hyo (hnot u hu y hy)⟩
  · obtain ⟨hmem, -⟩ := lastAssigned_local hsc hm ha
    have hnodes : m ∈ sc.nodes := hm ▸ List.mem_append_left _ hmem
    obtain ⟨d, hd, -⟩ := hsc.node hnodes
    obtain ⟨c, hc⟩ : ∃ c, sc.graph.valueConstant m = .ok c := ⟨_, Graph.valueConstant_of_node hd⟩
    rcases c with _ | v
    · obtain ⟨v, hrun, hval⟩ := runs_recover_hinted hsc ht hm ha hc hf hr hs hv hw
      refine ⟨v, hrun, .of_hinted ha fun h => hval (h.resolve_left ?_)⟩
      rintro ⟨i, hi⟩
      rw [Graph.op?, hd, Option.map_some, Option.some.injEq] at hi
      have hop := op_of_valueConstant_eq_none hd hc
      rw [hi] at hop
      cases hop
    · exact ⟨v, ⟨_, Replay.recover_constant (ht.hinted ha) hc, rfl⟩,
        .of_hinted ha fun _ => (hsc.val_constant hnodes hc).2.symm⟩
  · exact ⟨_, ⟨_, Replay.recover_stored (ht.stored ha),
      runs_recover_inFrame hf.frame hw (hf.stored hj ha)⟩, .of_stored ha rfl⟩

end Operands

/-! ### The stub of an exit -/

/-- The artifact has the exits that were made, with their stubs, and the log they were made with. -/
structure Charted (sc : Scene) : Prop where
  graph : sc.site.artifact.graph = sc.graph
  events : sc.site.artifact.events = sc.events
  /-- No exit has been taken so often that it could not be counted once more. -/
  exit {k : Nat} {x : Exit} (h : sc.exits[k]? = some x) : ∃ site,
    sc.site.artifact.exits[k]? = some site ∧ site.exit = x ∧ site.count.toNat + 1 < UInt32.size
  stub {k : Nat} {x : Exit} (h : sc.exits[k]? = some x) :
    sc.Has (offsetOf sc.labels x.stub) (stubPieces k)
  few : sc.exits.size < UInt32.size
  mirrors {k : Nat} {x : Exit} {ledger : Array ValueInfo} (h : sc.exits[k]? = some x)
    (hv : sc.views[k]? = some ledger) :
    Mirrors sc.graph (Replay.after sc.events.toList x.streamIndex) ledger

lemma Charted.exitRecoveries_eq (hc : sc.Charted) {x : Exit} (ho : x.override = none)
    {arguments locals : Array Recovery}
    (ha : (Array.range sc.graph.arguments.size).mapM (fun i => Replay.recover sc.graph
      (Replay.after sc.events.toList x.streamIndex) (.ofArgument i)) = .ok arguments)
    (hl : (Array.range sc.graph.numVars).mapM (fun i => Replay.recover sc.graph
      (Replay.after sc.events.toList x.streamIndex) (.ofLocal i)) = .ok locals) :
    exitRecoveries sc.site.artifact x = .ok ⟨arguments, locals⟩ := by
  simp only [exitRecoveries, reconstruct, Replay.foldl_fromLastReset, hc.events, hc.graph, ha, hl,
    ho]
  rfl

/-- The code was left at the first node whose speculation failed, with all that an interpreter needs
to go on before it. -/
structure LeftAt (sc : Scene) (blk : Block) (done rest : List NodeId) (n : NodeId) (s : ExitState) :
    Prop where
  nodes : sc.nodes = done ++ n :: rest
  passes : sc.Passes done
  fault : Integer.faultOf sc.graph sc.val n = some (n, s.kind)
  origin {d : Node} (h : sc.graph.nodes[n]? = some d) : s.origin = d.origin
  resumes : Integer.Resumes sc.graph blk sc.passed sc.val done (n :: rest) s.values

section Stub

variable {m : Machine} {k : Nat} {x : Exit} (hsc : sc.Staged blk) (hR : Heads sc.graph blk sc.first)
  (hc : sc.Charted) (h : sc.LeavesBy m k x ledger done rest)
include hsc hR hc h

lemma LeavesBy.locals (hw : w.memory = m.memory) :
    ∃ (found : Array Recovery) (locals : Array Value),
      (Array.range sc.graph.numVars).mapM (fun i => Replay.recover sc.graph
        (Replay.after sc.events.toList x.streamIndex) (.ofLocal i)) = .ok found ∧
      runs (found.mapM (recover (undone m.registers x.undo))) w = (.ok locals, w) ∧
      locals.size = sc.graph.numVars ∧ ∀ i v, locals[i]? = some v →
        Integer.Recovers sc.graph blk sc.val done (x.node :: rest) i v := by
  have hd := h.departs
  exact runs_recoveries fun i hi =>
    runs_recover_local hsc hR h.told hd.nodes hi hd.framed hd.restores hd.supplied
      (hc.mirrors h.exit h.view) hw

lemma LeavesBy.recoveries (hp : sc.graph.arguments.size ≤ sc.passed.length)
    (hw : w.memory = m.memory) : ∃ (found : Operands Recovery) (arguments locals : Array Value),
    exitRecoveries sc.site.artifact x = .ok found ∧
    runs (found.arguments.mapM (recover (undone m.registers x.undo))) w = (.ok arguments, w) ∧
    runs (found.locals.mapM (recover (undone m.registers x.undo))) w = (.ok locals, w) ∧
    Integer.Resumes sc.graph blk sc.passed sc.val done (x.node :: rest) ⟨arguments, locals⟩ := by
  have hd := h.departs
  obtain ⟨as, arguments, has, harguments, hsize, hargs⟩ := runs_recoveries (w := w)
    (r := undone m.registers x.undo) (n := sc.graph.arguments.size)
    (P := fun i v => sc.passed[i]? = some v) fun i hi => by
      have hrun := runs_recover_argument hsc hR h.told hd.nodes hi hd.framed hw
      have hlt : i < sc.passed.length := Nat.lt_of_lt_of_le hi hp
      rw [List.getElem?_eq_getElem hlt] at hrun
      exact ⟨_, hrun, List.getElem?_eq_getElem hlt⟩
  obtain ⟨ls, locals, hls, hlocals, hsize', hlocs⟩ := h.locals hsc hR hc hw
  exact ⟨_, arguments, locals, hc.exitRecoveries_eq h.override has hls, harguments, hlocals, hsize,
    fun hk => by rw [hargs _ _ hk, Option.getD_some], hsize', fun hj => hlocs _ _ hj⟩

/-- An argument that was not passed is not found. -/
lemma LeavesBy.recoveries_fail (hp : sc.passed.length < sc.graph.arguments.size)
    (hw : w.memory = m.memory) : ∃ (found : Operands Recovery) (e : Fault),
    exitRecoveries sc.site.artifact x = .ok found ∧
    runs (found.arguments.mapM (recover (undone m.registers x.undo))) w = (.error e, w) := by
  have hd := h.departs
  have hlast : sc.passed[sc.passed.length]? = none := List.getElem?_eq_none (Nat.le_refl _)
  obtain ⟨as, e, has, he⟩ := runs_recoveries_error (w := w)
    (fun i hi => runs_recover_argument hsc hR h.told hd.nodes hi hd.framed hw)
    ⟨_, hp, _, by rw [hlast]⟩
  obtain ⟨ls, -, hls, -⟩ := h.locals hsc hR hc hw
  exact ⟨_, e, hc.exitRecoveries_eq h.override has hls, he⟩

omit hR

lemma LeavesBy.goes : sc.site.Goes 1 m
      ⟨{ m.registers with exitIndex := UInt32.ofNat k }, m.memory, m.place + 5⟩ ∧
    sc.site.Next ⟨{ m.registers with exitIndex := UInt32.ofNat k }, m.memory, m.place + 5⟩
      (.jmpAbs Thunk.osrExit.address) := by
  have hhas := hc.stub h.exit
  have hset : sc.Has m.place [.inst (.setExit (UInt32.ofNat k)) none] := h.place ▸ hhas.left
  have hjmp : sc.Has (m.place + 5) [.inst (.jmpAbs 0) (some (.external (.thunk .osrExit)))] :=
    h.place ▸ hhas.tail
  exact ⟨sc.site.goes_setExit hsc.linked.loaded (hset.next rfl), hjmp.next rfl⟩

end Stub

lemma recover_exitIndex (r : Registers) (i : UInt32) (u : Option Undo) :
    recover (undone { r with exitIndex := i } u) = recover (undone r u) := by
  funext x
  rcases u with _ | u
  · cases x <;> rfl
  · cases u <;> cases x <;> rfl

lemma runs_leave {a : Artifact} {c k : Nat} {site : ExitSite} {found : Operands Recovery}
    {arguments locals : Array Value}
    (ha : w.artifacts[c]? = some a) (hk : k < UInt32.size) (hsite : a.exits[k]? = some site)
    (hcount : site.count.toNat + 1 < UInt32.size) (hfound : exitRecoveries a site.exit = .ok found)
    (harguments : runs (found.arguments.mapM (recover (undone r site.exit.undo))) w =
      (.ok arguments, w))
    (hlocals : runs (found.locals.mapM (recover (undone r site.exit.undo))) w = (.ok locals, w)) :
    ∃ recompile w', runs (leave { r with exitIndex := UInt32.ofNat k } c) w =
      (.ok ⟨UInt32.ofNat k, site.exit.kind, site.exit.origin, ⟨arguments, locals⟩, recompile⟩,
        w') := by
  have hindex : (UInt32.ofNat k).toNat = k := UInt32.toNat_ofNat_of_lt' hk
  have hcount' : site.count.toNat + 1 ≠ UInt32.size := Nat.ne_of_lt hcount
  rw [← recover_exitIndex r (UInt32.ofNat k)] at harguments hlocals
  have hnote : ∃ recompile a', a.noteExit k = .ok (recompile, a') := by
    simp only [Artifact.noteExit, Breach.get, hsite, bind, Except.bind, pure, Except.pure]
    rw [if_neg hcount']
    exact ⟨_, _, rfl⟩
  obtain ⟨recompile, a', hnote⟩ := hnote
  refine ⟨recompile, { w with artifacts := w.artifacts.modify c fun _ => a' }, ?_⟩
  rw [leave, runs_bind_of_ok (runs_artifact ha), hindex, hsite]
  simp only [hfound]
  -- undoing what a guard did keeps the index
  rcases hu : site.exit.undo with _ | u | u <;> rw [hu] at harguments hlocals
  all_goals
    refine (runs_bind_of_ok harguments).trans ((runs_bind_of_ok hlocals).trans ?_)
    simp only [undo, Registers.setGpr, hindex, hnote]
    rfl

lemma runs_leave_error {a : Artifact} {c k : Nat} {site : ExitSite} {found : Operands Recovery}
    {e : Fault}
    (ha : w.artifacts[c]? = some a) (hk : k < UInt32.size) (hsite : a.exits[k]? = some site)
    (hfound : exitRecoveries a site.exit = .ok found)
    (harguments : runs (found.arguments.mapM (recover (undone r site.exit.undo))) w =
      (.error e, w)) :
    runs (leave { r with exitIndex := UInt32.ofNat k } c) w = (.error e, w) := by
  have hindex : (UInt32.ofNat k).toNat = k := UInt32.toNat_ofNat_of_lt' hk
  rw [← recover_exitIndex r (UInt32.ofNat k)] at harguments
  rw [leave, runs_bind_of_ok (runs_artifact ha), hindex, hsite]
  simp only [hfound]
  rcases hu : site.exit.undo with _ | u | u <;> rw [hu] at harguments
  all_goals
    refine (runs_bind _ _).trans ?_
    simp only [undone] at harguments
    rw [harguments]

/-- What a run comes to: it returns the value of the graph, or was left at the first node whose
speculation failed; and it fails only if an argument was not passed. -/
def Concludes (sc : Scene) (blk : Block) : Except Fault Outcome → Prop
  | .ok (.returned v) => sc.Passes sc.nodes ∧ v = sc.result
  | .ok (.exited s) => sc.graph.arguments.size ≤ sc.passed.length ∧
    ∃ done n rest, sc.LeftAt blk done rest n s
  | .ok (.threw _) => False
  | .error _ => sc.passed.length < sc.graph.arguments.size

section Ends

variable (hsc : sc.Staged blk) (hR : Heads sc.graph blk sc.first) (hc : sc.Charted)
include hsc hR hc

/-- At a stub the run is about to leave. -/
lemma LeavesBy.concludes {m : Machine} {k : Nat} {x : Exit} (h : sc.LeavesBy m k x ledger done rest) (fuel : Nat) :
    sc.Concludes blk (sc.site.runFrom (2 + fuel) m).1 := by
  obtain ⟨hgo, hnext⟩ := h.goes hsc hc
  obtain ⟨site, hsite, hx, hcount⟩ := hc.exit h.exit
  have hk : k < UInt32.size :=
    Nat.lt_trans (Array.getElem?_eq_some_iff.mp h.exit).1 hc.few
  have hw : (sc.site.around m).memory = m.memory := rfl
  have hart : (sc.site.around m).artifacts[sc.site.code]? = some sc.site.artifact :=
    hsc.linked.loaded.artifact
  by_cases hp : sc.graph.arguments.size ≤ sc.passed.length
  · obtain ⟨found, arguments, locals, hfound, harguments, hlocals, hresumes⟩ :=
      h.recoveries hsc hR hc hp hw
    obtain ⟨recompile, w', hleave⟩ :=
      runs_leave hart hk hsite hcount (hx ▸ hfound) (hx ▸ harguments) (hx ▸ hlocals)
    have hfin := hgo.finishes (sc.site.finishes_leave hsc.linked.loaded hnext hleave)
    rw [hfin fuel]
    exact ⟨hp, done, x.node, rest, h.departs.nodes, h.departs.passes,
      hx ▸ h.departs.fault, fun hd => hx ▸ h.origin hd, hresumes⟩
  · obtain ⟨found, e, hfound, he⟩ := h.recoveries_fail hsc hR hc (Nat.not_le.mp hp) hw
    have hleave := runs_leave_error hart hk hsite (hx ▸ hfound) (hx ▸ he)
    obtain ⟨f, hf⟩ := sc.site.fails_leave hsc.linked.loaded hnext hleave (1 + fuel)
    have hrun := hgo (1 + fuel)
    rw [← Nat.add_assoc] at hrun
    rw [hrun, hf]
    exact Nat.not_le.mp hp

lemma Ends.concludes {m : Machine} (h : sc.Ends m) (fuel : Nat) :
    sc.Concludes blk (sc.site.runFrom (2 + fuel) m).1 := by
  obtain ⟨k, x, ledger, done, rest, h⟩ | h | h := h
  · exact h.concludes hsc hR hc fuel
  · have hfin := sc.site.finishes_ret hsc.linked.loaded h.next (1 + fuel)
    rw [← Nat.add_assoc] at hfin
    rw [hfin, h.result]
    exact ⟨h.passes, rfl⟩
  · obtain ⟨f, hf⟩ := h.fails (2 + fuel)
    rw [hf]
    exact h.missing

end Ends

end Scene
end Speculation
