import Speculation.Proofs.Heap.Prototypes
import Speculation.Proofs.Running.Boxed
import Speculation.Proofs.Running.Cells
import Speculation.Proofs.Running.Visits

/-!
Tests for a prototype while code is running.

The code goes from the structure of a cell to its prototype and to the structure of that, for as long
as there is one. In a heap where every chain of prototypes ends, the code comes to the end, too: what is
left of the chain gets shorter each time. It has found the prototype if and only if it is on the chain.
-/

namespace Speculation

open Lowering

namespace Heap

variable {h : Heap} {g : Graph} {r r' : Registers} {mem mem' : Memory} {s : UInt64} {x : Cell}
  {d : Structure} {v : Value} {ps : List Value} {q : Gpr}

/-- The heap is in memory, and no slot of a value is in it. -/
structure Aside (h : Heap) (g : Graph) (r : Registers) (mem : Memory) : Prop where
  item {a : UInt64} {i : Item} (ha : h a = some i) : i.At mem a
  room {a : UInt64} {i : Item} (ha : h a = some i) : a.toNat + i.extent < UInt64.size
  beyond {a b : UInt64} {i : Item} (ha : h a = some i) (hle : a.toNat ≤ b.toNat)
    (hlt : b.toNat < a.toNat + i.extent) : r.Beyond g b

namespace Aside

/-- Nothing that happens to the slots of values changes the heap. -/
lemma confined (ha : h.Aside g r mem) (hc : Confined g r mem mem')
    (hf : r'.gpr .frame = r.gpr .frame) : h.Aside g r' mem' where
  item hi := (ha.item hi).congr (ha.room hi) fun _ hle hlt => hc (ha.beyond hi hle hlt)
  room := ha.room
  beyond {a b i} hi hle hlt n d j hd hj := by
    rw [Registers.slot_eq hf]
    exact ha.beyond hi hle hlt hd hj

lemma read_kind (ha : h.Aside g r mem) (hx : h.cell? (r'.gpr q) = some x) :
    mem.read? 8 (r'.address (structureOf q)) = some x.kind.toNat := by
  have hread := ha.item (cell?_eq_some.mp hx) .kind trivial
  exact hread

lemma read_prototype (ha : h.Aside g r mem) (hd : h.structure? (r'.gpr q) = some d) :
    mem.read? 8 (r'.address (.ofBase q (Int32.ofNat Layout.structurePrototype))) =
      some d.prototype.bits.toNat := by
  obtain ⟨-, -, -, hread⟩ := ha.item (structure?_eq_some.mp hd)
  exact hread

end Aside

lemma Line.step (hl : h.Line v ps) (hx : h.cell? v.bits = some x) :
    ∃ d, h.structure? x.kind = some d ∧ (d.prototype = .null ∧ ps = [] ∨
      d.prototype.isCell = true ∧ ∃ qs, ps = d.prototype :: qs ∧ h.Line d.prototype qs) := by
  cases hl with
  | last hv hs hp =>
    obtain rfl := Option.some.inj (hx.symm.trans hv)
    exact ⟨_, hs, .inl ⟨hp, rfl⟩⟩
  | next hv hs hp hl =>
    obtain rfl := Option.some.inj (hx.symm.trans hv)
    exact ⟨_, hs, .inr ⟨hp, _, rfl, hl⟩⟩

end Heap

lemma Memory.Houses.aside {m mem : Memory} {limit : Nat} {h : Heap} {g : Graph} {r : Registers}
    (hm : m.Houses limit h) (hmem : ∀ b : UInt64, heapBase ≤ b.toNat → b.toNat < m.next →
      r.Beyond g b ∧ mem.byte? b = m.byte? b) : h.Aside g r mem where
  item hi := (hm.item hi).congr (hm.area hi).room fun b hle hlt =>
    (hmem b ((hm.low hi).trans hle) (hlt.trans_le (hm.high hi))).2
  room hi := (hm.area hi).room
  beyond hi hle hlt := (hmem _ ((hm.low hi).trans hle) (hlt.trans_le (hm.high hi))).1

namespace Lowering

def verdict (q : Gpr) (isTrue isFalse done : Label) : Lower Unit := do
  attach isTrue
  discard (movImm q Value.trueBits)
  jmp done
  attach isFalse
  discard (movImm q Value.falseBits)
  attach done
  gprResult q .jsBoolean

def searchStep (q proto : Gpr) (loop isTrue isFalse done : Label) : Lower Unit := do
  load64 q (.ofBase q (Int32.ofNat Layout.structurePrototype))
  cmp64 q (.reg proto)
  jcc .e isTrue
  test64 q (.reg .tagMask)
  jcc .ne isFalse
  load64 q (structureOf q)
  jmp loop
  verdict q isTrue isFalse done

/-- The labels of a test: for either outcome, and for where both come together. -/
structure Branches (ls : List Label) (isTrue isFalse done : Label) : Prop where
  true_mem : isTrue ∈ ls
  false_mem : isFalse ∈ ls
  done_mem : done ∈ ls
  true_ne : isTrue ≠ isFalse
  done_ne : done ≠ isFalse

lemma Branches.cons {ls : List Label} {isTrue isFalse done : Label} (h : Branches ls isTrue isFalse done)
    (l : Label) : Branches (l :: ls) isTrue isFalse done :=
  ⟨List.mem_cons_of_mem l h.true_mem, List.mem_cons_of_mem l h.false_mem,
    List.mem_cons_of_mem l h.done_mem, h.true_ne, h.done_ne⟩

end Lowering

/-- The structure of a cell is in a register, and of the chain that is searched for `p` there are `n`
prototypes to go. -/
structure Course.Searches (k : Course) (h : Heap) (s : State) (q proto : Gpr) (p : Value)
    (ps : List Value) (n : Nat) (r : Registers) (mem : Memory) : Prop where
  proto : r.gpr proto = p.bits
  stands : Stands k.val s.ledger r mem
  rest : ∃ u qs x, h.Line u qs ∧ h.cell? u.bits = some x ∧ r.gpr q = x.kind ∧ qs.length = n ∧
    (p ∈ ps ↔ p ∈ qs)

namespace Course.Ends

variable {k : Course} {ls : List Label} {s : State} {r r₀ r₁ : Registers} {mem mem₀ : Memory} {σ : Spot}
  {q cell proto : Gpr} {isTrue isFalse done l : Label} {Q T : State → Moment → Prop} {h : Heap}
  {v p : Value} {ps : List Value} {b : Bool} {res : Except ExitKind Value}

section Verdict

variable (hk : k.Sound) (hu : Unborn k.env.graph k.cur k.before) (hl : Branches ls isTrue isFalse done)
include hk hu hl

/-- The register gets the truth value of the label that the machine has come to. -/
lemma verdict (hst : Stands k.val s.ledger r mem) (ht : s.Taken (.gpr q))
    (hc : Confined k.env.graph r₀ mem₀ mem) (b : Bool) :
    k.Ends ls s (Lowering.verdict q isTrue isFalse done)
      ⟨.label (if b then isTrue else isFalse), r, mem⟩
      (k.Yields .jsBoolean (.ok (.ofBool b)) r₀ mem₀) T := by
  -- with the truth value in its register the result is there
  have hend : ∀ s', k.Follows s s' → k.Ends ls s' (Lowering.gprResult q .jsBoolean)
      ⟨.next, r.setGpr q (Value.ofBool b).bits, mem⟩
      (k.Yields .jsBoolean (.ok (.ofBool b)) r₀ mem₀) T := by
    refine fun s' h' => .intro fun hs _ => ?_
    have hst' : Stands k.val s'.ledger (r.setGpr q (Value.ofBool b).bits) mem :=
      Stands.setGpr (h'.ledger ▸ hst) hs (h'.toSame.taken.mpr ht) _
    have hrep : Represents .jsBoolean ((r.setGpr q (Value.ofBool b).bits).gpr q) (.ofBool b) := by
      rw [Registers.gpr_setGpr, if_pos rfl]
      exact ⟨rfl, Value.isBoolean_ofBool b⟩
    exact .gprResult hu hst' hrep fun d s'' hd hb => ⟨hc, rfl, hb.stands, d, q, hd, hb.records, hrep⟩
  unfold Lowering.verdict
  cases b with
  | true =>
    rw [if_pos rfl]
    refine .bind (.attach fun s₁ h₁ => ?_)
    rw [if_pos rfl]
    refine .bind (.discard (.movImm hk fun _ s₂ h₂ => .bind (.jmp hk hl.done_mem fun s₃ h₃ => ?_)))
    refine .bind (.attach fun s₄ h₄ => ?_)
    rw [if_neg (by simpa using hl.done_ne)]
    refine .bind (.discard (.skip (Calm.movImm _ _) (.movImm _ _) nofun fun _ s₅ h₅ => ?_))
    refine .bind (.attach fun s₆ h₆ => ?_)
    rw [if_pos rfl]
    exact hend s₆ (((((h₁.trans h₂).trans h₃).trans h₄).trans h₅).trans h₆)
  | false =>
    rw [if_neg Bool.false_ne_true]
    refine .bind (.attach fun s₁ h₁ => ?_)
    rw [if_neg (by simpa using hl.true_ne.symm)]
    refine .bind (.discard (.skip (Calm.movImm _ _) (.movImm _ _) nofun fun _ s₂ h₂ => ?_))
    refine .bind (.skip (Calm.jmp _) (.jmp hl.done_mem) nofun fun _ s₃ h₃ => ?_)
    refine .bind (.attach fun s₄ h₄ => ?_)
    rw [if_pos rfl]
    refine .bind (.discard (.movImm hk fun _ s₅ h₅ => ?_))
    refine .bind (.attach fun s₆ h₆ => ?_)
    rw [if_neg nofun]
    exact hend s₆ (((((h₁.trans h₂).trans h₃).trans h₄).trans h₅).trans h₆)

omit hk in
/-- A machine that is elsewhere stays there. -/
lemma verdict_away (ht : s.Taken (.gpr q)) (hσ : σ ≠ .next)
    (hls : ∀ l ∈ [isTrue, isFalse, done], σ ≠ .label l) (hQ : ∀ s', Q s' ⟨σ, r, mem⟩) :
    k.Ends ls s (Lowering.verdict q isTrue isFalse done) ⟨σ, r, mem⟩ Q T := by
  simp only [List.forall_mem_cons, List.not_mem_nil, false_imp_iff, implies_true, and_true] at hls
  unfold Lowering.verdict
  refine .bind (.attach fun s₁ h₁ => ?_)
  rw [if_neg hls.1]
  refine .bind (.discard (.skip (Calm.movImm _ _) (.movImm _ _) hσ fun _ s₂ h₂ => ?_))
  refine .bind (.skip (Calm.jmp _) (.jmp hl.done_mem) hσ fun _ s₃ h₃ => ?_)
  refine .bind (.attach fun s₄ h₄ => ?_)
  rw [if_neg hls.2.1]
  refine .bind (.discard (.skip (Calm.movImm _ _) (.movImm _ _) hσ fun _ s₅ h₅ => ?_))
  refine .bind (.attach fun s₆ h₆ => ?_)
  rw [if_neg hls.2.2]
  have h' := (((((h₁.trans h₂).trans h₃).trans h₄).trans h₅).trans h₆)
  exact .gprResult_away hu (h'.toSame.taken.mpr ht) hσ hQ

end Verdict

section Walk

variable (hk : k.Sound) (hu : Unborn k.env.graph k.cur k.before) (hl : Branches ls isTrue isFalse done)
  (ha : h.Aside k.env.graph r₀ mem) (hp : p.isCell = true) (hne : proto ≠ q)
include hk hu hl ha hp hne

/-- A pass ends at the label of the verdict, or comes back with less of the chain to go. -/
lemma searchStep {n : Nat} (hw : k.Searches h s q proto p ps n r mem) (ht : s.Taken (.gpr q))
    (hc : Confined k.env.graph r₁ mem₀ mem) (hfresh : l ∉ ls) :
    k.Ends (l :: ls) s (Lowering.searchStep q proto l isTrue isFalse done) ⟨.next, r, mem⟩
      (fun s' t' => k.Yields .jsBoolean (.ok (.ofBool (decide (p ∈ ps)))) r₁ mem₀ s' t' ∨
        t'.spot = .label l ∧ ∃ m < n, t'.memory = mem ∧
          k.Searches h s q proto p ps m t'.registers t'.memory) T := by
  obtain ⟨hproto, hst, u, qs, y, hline, hy, hq, rfl, hiff⟩ := hw
  obtain ⟨d, hd, hcases⟩ := hline.step hy
  have hl' := hl.cons l
  have hset : ∀ (r : Registers) (w : UInt64), (r.setGpr q w).gpr q = w ∧
      (r.setGpr q w).gpr proto = r.gpr proto := fun r w => by
    rw [Registers.gpr_setGpr, if_pos rfl, Registers.gpr_setGpr, if_neg hne]
    exact ⟨rfl, rfl⟩
  unfold Lowering.searchStep
  refine .bind (.emit' hk rfl (Inst.steps_load (ha.read_prototype (hq ▸ hd))) fun s₁ h₁ => ?_)
  rw [UInt64.ofNat_toNat]
  obtain ⟨r₂, hr₂⟩ : ∃ r₂, r₂ = r.setGpr q d.prototype.bits := ⟨_, rfl⟩
  refine .intro fun hs₁ _ => ?_
  have hst₂ : Stands k.val s.ledger r₂ mem :=
    h₁.ledger ▸ hr₂ ▸ Stands.setGpr (h₁.ledger ▸ hst) hs₁ (h₁.toSame.taken.mpr ht) _
  rw [← hr₂]
  have hq₂ : r₂.gpr q = d.prototype.bits := by rw [hr₂, (hset r _).1]
  have hproto₂ : r₂.gpr proto = p.bits := by rw [hr₂, (hset r _).2, hproto]
  -- is it the one?
  refine .bind (.emit' hk rfl Inst.steps_cmp fun s₂ h₂ => ?_)
  have hfound : Cond.e.holds (Size.s64.run .sub (r₂.gpr q) (r₂.operand (.reg proto))).2 r₂.order =
      decide (d.prototype = p) := by
    rw [Cond.holds_e_sub64, show r₂.operand (.reg proto) = r₂.gpr proto from rfl, hq₂, hproto₂]
    exact decide_eq_decide.mpr ⟨fun h => congrArg Value.mk h, fun h => congrArg Value.bits h⟩
  have hf₂ := h₁.trans h₂
  refine .bind (.jcc hk hl'.true_mem (fun hb s₃ h₃ => ?_) fun hb s₃ h₃ => ?_)
  · obtain rfl := of_decide_eq_true (hfound.symm.trans hb)
    have hmem : d.prototype ∈ ps := by
      rcases hcases with ⟨hnull, -⟩ | ⟨-, qs', rfl, -⟩
      · rw [hnull] at hp
        cases hp
      · exact hiff.mpr List.mem_cons_self
    rw [decide_eq_true hmem]
    refine .bind (.skip (Calm.test64 _ _) (.test64 _ _) nofun fun _ s₄ h₄ => ?_)
    refine .bind (.skip (Calm.jcc _ _) (.jcc _ hl'.false_mem) nofun fun _ s₅ h₅ => ?_)
    refine .bind (.skip (Calm.load64 _ _) (.load64 _ _) nofun fun _ s₆ h₆ => ?_)
    refine .bind (.skip (Calm.jmp _) (.jmp List.mem_cons_self) nofun fun _ s₇ h₇ => ?_)
    have hf₇ := ((((hf₂.trans h₃).trans h₄).trans h₅).trans h₆).trans h₇
    exact (verdict hk hu hl' (hf₇.ledger ▸ hst₂.setFlags _) (hf₇.toSame.taken.mpr ht) hc true).mono
      (fun _ _ => .inl) fun _ _ => id
  have hother : d.prototype ≠ p := of_decide_eq_false (hfound.symm.trans hb)
  obtain ⟨r₃, hr₃⟩ : ∃ r₃, r₃ = { r₂ with
    flags := (Size.s64.run .sub (r₂.gpr q) (r₂.operand (.reg proto))).2 } := ⟨_, rfl⟩
  have hst₃ : Stands k.val s.ledger r₃ mem := hr₃ ▸ hst₂.setFlags _
  rw [← hr₃]
  have hq₃ : r₃.gpr q = d.prototype.bits := hr₃ ▸ hq₂
  have hproto₃ : r₃.gpr proto = p.bits := hr₃ ▸ hproto₂
  -- is there one at all?
  refine .bind (.emit' hk rfl Inst.steps_test fun s₄ h₄ => ?_)
  have hnone : Cond.ne.holds (Size.s64.run .and (r₃.gpr q) (r₃.operand (.reg .tagMask))).2 r₃.order =
      decide (d.prototype.bits &&& Value.cellMask ≠ 0) := by
    rw [Cond.holds_ne_and64, hq₃, show r₃.operand (.reg .tagMask) = Value.cellMask from hst₃.tagMask]
  have hf₄ := (hf₂.trans h₃).trans h₄
  refine .bind (.jcc hk hl'.false_mem (fun hb s₅ h₅ => ?_) fun hb s₅ h₅ => ?_)
  · have hmem : p ∉ ps := by
      rcases hcases with ⟨-, rfl⟩ | ⟨hcell, -⟩
      · exact fun hps => List.not_mem_nil (hiff.mp hps)
      · simp only [Value.isCell, Bool.and_eq_true, beq_iff_eq] at hcell
        exact absurd hcell.2 (of_decide_eq_true (hnone.symm.trans hb))
    rw [decide_eq_false hmem]
    refine .bind (.skip (Calm.load64 _ _) (.load64 _ _) nofun fun _ s₆ h₆ => ?_)
    refine .bind (.skip (Calm.jmp _) (.jmp List.mem_cons_self) nofun fun _ s₇ h₇ => ?_)
    have hf₇ := ((hf₄.trans h₅).trans h₆).trans h₇
    exact (verdict hk hu hl' (hf₇.ledger ▸ hst₃.setFlags _) (hf₇.toSame.taken.mpr ht) hc false).mono
      (fun _ _ => .inl) fun _ _ => id
  · rcases hcases with ⟨hnull, -⟩ | ⟨-, qs', rfl, hline'⟩
    · rw [hnull] at hnone
      cases hnone.symm.trans hb
    obtain ⟨z, hz⟩ := hline'.cell
    have hiff' : p ∈ ps ↔ p ∈ qs' := by
      rw [hiff, List.mem_cons, or_iff_right hother.symm]
    refine .bind (.emit' hk rfl (Inst.steps_load (ha.read_kind (x := z) ?_)) fun s₆ h₆ => ?_)
    · show h.cell? (r₃.gpr q) = some z
      rw [hq₃, hz]
    rw [UInt64.ofNat_toNat]
    refine .intro fun hs₆ _ => .bind (.jmp hk List.mem_cons_self fun s₇ h₇ => ?_)
    have hf₆ := (hf₄.trans h₅).trans h₆
    have hf₇ := hf₆.trans h₇
    have hst₆ := Stands.setGpr (hf₆.ledger ▸ hst₃.setFlags (Size.s64.run .and (r₃.gpr q)
      (r₃.operand (.reg .tagMask))).2) hs₆ (hf₆.toSame.taken.mpr ht) z.kind
    refine verdict_away hu hl' (hf₇.toSame.taken.mpr ht) (Spot.next_ne_label l).symm ?_ fun s' =>
      .inr ⟨rfl, qs'.length, Nat.lt_succ_self _, rfl, (hset _ _).2.trans hproto₃, hf₆.ledger ▸ hst₆,
        d.prototype, qs', z, hline', hz, (hset _ _).1, rfl, hiff'⟩
    rintro m hm heq
    obtain rfl := Spot.label.inj heq
    simp only [List.mem_cons, List.not_mem_nil, or_false] at hm
    rcases hm with rfl | rfl | rfl
    · exact hfresh hl.true_mem
    · exact hfresh hl.false_mem
    · exact hfresh hl.done_mem

/-- **A chain is searched to its end**, or until the prototype is found. -/
lemma walkPrototypes (hline : h.Line v ps) (hst : Stands k.val s.ledger r mem)
    (ht : s.Taken (.gpr q)) (hv : r.gpr cell = v.bits) (hproto : r.gpr proto = p.bits)
    (hc : Confined k.env.graph r₁ mem₀ mem) :
    k.Ends ls s (Lowering.walkPrototypes q cell proto isTrue isFalse done) ⟨.next, r, mem⟩
      (k.Yields .jsBoolean (.ok (.ofBool (decide (p ∈ ps)))) r₁ mem₀) T := by
  obtain ⟨x, hx⟩ := hline.cell
  refine .bind (.emit' hk rfl (Inst.steps_load (ha.read_kind (hv ▸ hx))) fun s₁ h₁ => ?_)
  rw [UInt64.ofNat_toNat]
  refine .intro fun hs₁ _ => .bindHere fun l s₂ h₂ hlabel hfresh => ?_
  have ht₂ : s₂.Taken (.gpr q) := (h₁.trans h₂).toSame.taken.mpr ht
  have hst₂ : Stands k.val s₂.ledger (r.setGpr q x.kind) mem := by
    rw [h₂.ledger]
    exact Stands.setGpr (h₁.ledger ▸ hst) hs₁ (h₁.toSame.taken.mpr ht) _
  refine .loop (P := fun n r' mem' => mem' = mem ∧ k.Searches h s₂ q proto p ps n r' mem') hlabel
    (m := ps.length) ?_ ⟨rfl, ?_, hst₂, v, ps, x, hline, hx, ?_, rfl, .rfl⟩
  · rintro n r' mem' ⟨rfl, hw⟩
    refine (searchStep hk hu hl ha hp hne hw ht₂ hc hfresh).mono (fun s' t' => ?_) fun _ _ => id
    rintro (hdone | ⟨hspot, m, hlt, hmem, hw'⟩)
    · exact .inl hdone
    · exact .inr ⟨hspot, m, hlt, hmem, hw'⟩
  · rw [Registers.gpr_setGpr, if_neg hne, hproto]
  · rw [Registers.gpr_setGpr, if_pos rfl]

end Walk

/-- A machine that is elsewhere does not search. -/
lemma walkPrototypes_skip (hl : Branches ls isTrue isFalse done) (hσ : σ ≠ .next)
    (hend : ∀ l s', k.Follows s s' → k.Ends (l :: ls) s' (Lowering.verdict q isTrue isFalse done)
      ⟨σ, r, mem⟩ Q T) :
    k.Ends ls s (Lowering.walkPrototypes q cell proto isTrue isFalse done) ⟨σ, r, mem⟩ Q T := by
  refine .bind (.skip (Calm.load64 _ _) (.load64 _ _) hσ fun _ s₁ h₁ => ?_)
  refine .bindHere fun l s₂ h₂ _ _ => ?_
  have hl' := hl.cons l
  refine .bind (.skip (Calm.load64 _ _) (.load64 _ _) hσ fun _ s₃ h₃ => ?_)
  refine .bind (.skip (Calm.cmp64 _ _) (.cmp64 _ _) hσ fun _ s₄ h₄ => ?_)
  refine .bind (.skip (Calm.jcc _ _) (.jcc _ hl'.true_mem) hσ fun _ s₅ h₅ => ?_)
  refine .bind (.skip (Calm.test64 _ _) (.test64 _ _) hσ fun _ s₆ h₆ => ?_)
  refine .bind (.skip (Calm.jcc _ _) (.jcc _ hl'.false_mem) hσ fun _ s₇ h₇ => ?_)
  refine .bind (.skip (Calm.load64 _ _) (.load64 _ _) hσ fun _ s₈ h₈ => ?_)
  refine .bind (.skip (Calm.jmp _) (.jmp List.mem_cons_self) hσ fun _ s₉ h₉ => ?_)
  exact hend l s₉ ((((((((h₁.trans h₂).trans h₃).trans h₄).trans h₅).trans h₆).trans h₇).trans h₈).trans
    h₉)

end Course.Ends

/-! ### The test -/

/-- What the test of a value for a prototype comes to, where the value has these prototypes. A value
that is no cell has none, and where it has to be a cell the machine leaves. -/
def Edge.instanceOf (e : Edge) (v p : Value) (ps : List Value) : Except ExitKind Value :=
  if v.isCell then .ok (.ofBool (decide (p ∈ ps)))
  else if isCellUse e then .error .badType
  else .ok (.ofBool false)

/-- What a compile knows of the operand of an edge is true of its value, which is one of the
language. -/
structure Told (g : Graph) (val : NodeId → Value) (s : State) (e : Edge) : Prop where
  constant {v : Value} (h : g.valueConstant e.node = .ok (some v)) : val e.node = v
  proven (h : e.kind = .knownCell ∨ (s.facts.known e.node).subset .cell = true) :
    (val e.node).isCell = true
  admits (h : (val e.node).isCell = true) : (s.facts.known e.node).intersects .cell = true
  plain : Plain s.ledger e.node
  nonempty : val e.node ≠ .empty

lemma Told.preserves {g : Graph} {val : NodeId → Value} {s s' : State} {e : Edge} {r r' : Registers}
    {mem mem' : Memory} (ht : Told g val s e) (hp : Preserves g s r mem s' r' mem') :
    Told g val s' e where
  constant := ht.constant
  proven hc := ht.proven (hp.facts ▸ hc)
  admits hc := by
    rw [hp.facts]
    exact ht.admits hc
  plain := hp.plain ht.plain
  nonempty := ht.nonempty

namespace Course

variable {k : Course} {s : State} {r : Registers} {mem : Memory} {e e₀ e₁ : Edge} {h : Heap}
  {ps : List Value} {d : Node}

lemma Fair.of_told (ht : Told k.env.graph k.val s e) : k.Fair s.facts e := ⟨ht.constant, ht.proven⟩

/-- **The code of the test finds the prototype if it is on the chain of the value.** -/
lemma Ends.lowerInstanceOf (hk : k.Sound) (hu : Unborn k.env.graph k.cur k.before)
    (hd : k.env.graph.nodes[k.cur]? = some d) (he₀ : d.children[0]? = some e₀)
    (he₁ : d.children[1]? = some e₁) (hst : Stands k.val s.ledger r mem)
    (ha : h.Aside k.env.graph r mem) (hv : Told k.env.graph k.val s e₀)
    (hp : Told k.env.graph k.val s e₁)
    (hcell : (k.val e₁.node).isCell = true)
    (hline : (k.val e₀.node).isCell = true → h.Line (k.val e₀.node) ps) :
    k.Ends [] s lowerInstanceOf ⟨.next, r, mem⟩
      (k.Yields .jsBoolean (e₀.instanceOf (k.val e₀.node) (k.val e₁.node) ps) r mem)
      fun _ => k.Quits (e₀.instanceOf (k.val e₀.node) (k.val e₁.node) ps) r mem := by
  refine .child fun d' e hd' he => ?_
  obtain rfl := Option.some.inj (hd.symm.trans hd')
  obtain rfl := Option.some.inj (he₀.symm.trans he)
  refine .child fun d' e hd' he => ?_
  obtain rfl := Option.some.inj (hd.symm.trans hd')
  obtain rfl := Option.some.inj (he₁.symm.trans he)
  have hcell' : (k.val e₁.node).isCell ≠ false := by simp [hcell]
  refine .bind (.fillCell hk hst (.of_told hp) hp.plain hp.nonempty ?_ (fun hno => absurd hno hcell')
    fun hno => absurd (hno (hp.admits hcell)) hcell')
  intro _ proto s₁ r₁ mem₁ hb₁ hproto
  refine .bind (.allocGpr hk hb₁.stands fun q s₂ mem₂ hh₂ hp₂ hst₂ => ?_)
  refine .bindNewLabel fun isTrue s₃ h₃ _ => .bindNewLabel fun isFalse s₄ h₄ hfresh₄ =>
    .bindNewLabel fun done s₅ h₅ hfresh₅ => ?_
  have hbr : Branches [done, isFalse, isTrue] isTrue isFalse done := {
    true_mem := by simp
    false_mem := by simp
    done_mem := by simp
    true_ne := by
      rintro rfl
      exact hfresh₄ List.mem_cons_self
    done_ne := by
      rintro rfl
      exact hfresh₅ List.mem_cons_self }
  have hf₅ := (h₃.trans h₄).trans h₅
  have hp₅ : Preserves k.env.graph s r mem s₅ r₁ mem₂ :=
    (hb₁.preserves.trans hp₂).trans (.of_same hf₅.toSame)
  have hst₅ : Stands k.val s₅.ledger r₁ mem₂ := hf₅.ledger ▸ hst₂
  have hv₅ := hv.preserves hp₅
  have hne : proto.reg ≠ q := by
    rintro rfl
    exact absurd hb₁.filled.lock (hh₂.free ▸ Nat.lt_irrefl 0)
  have ht₅ : s₅.Taken (.gpr q) := hf₅.toSame.taken.mpr hh₂.taken
  have hlock₅ : 0 < s₅.locks (.gpr proto.reg) :=
    Nat.lt_of_lt_of_le (Nat.lt_of_lt_of_le hb₁.filled.lock (hp₂.onward.locks _))
      (hf₅.toSame.onward.locks _)
  -- with the box of a cell in a register, the search begins
  have hsearch : (k.val e₀.node).isCell = true → ∀ cell s₆ r₆ mem₆,
      Preserves k.env.graph s₅ r₁ mem₂ s₆ r₆ mem₆ → Stands k.val s₆.ledger r₆ mem₆ →
      r₆.gpr cell = (k.val e₀.node).bits →
      k.Ends [done, isFalse, isTrue] s₆
        (Lowering.walkPrototypes q cell proto.reg isTrue isFalse done) ⟨.next, r₆, mem₆⟩
        (k.Yields .jsBoolean (e₀.instanceOf (k.val e₀.node) (k.val e₁.node) ps) r mem)
        fun _ => k.Quits (e₀.instanceOf (k.val e₀.node) (k.val e₁.node) ps) r mem := by
    intro hc cell s₆ r₆ mem₆ hp₆ hst₆ hbits
    have hp' := hp₅.trans hp₆
    rw [Edge.instanceOf, if_pos hc]
    exact .walkPrototypes hk hu hbr (ha.confined hp'.memory hp'.frame) hcell hne (hline hc) hst₆
      (hp₆.onward.taken ht₅) hbits ((hp₆.gpr hlock₅).trans hproto) hp'.memory
  refine .look (fun _ => looks_provenIs) fun b hb => .ite (fun hcond => ?_) fun hcond => ?_
  · -- it is to be a cell
    have huse : (k.val e₀.node).isCell = false → isCellUse e₀ = true := by
      intro hno
      rw [hb, Bool.or_eq_true] at hcond
      refine hcond.resolve_right fun hproven => ?_
      rw [hv₅.proven (.inr hproven)] at hno
      cases hno
    have hbad : (k.val e₀.node).isCell = false →
        e₀.instanceOf (k.val e₀.node) (k.val e₁.node) ps = .error .badType := by
      intro hno
      rw [Edge.instanceOf, if_neg (by simp [hno]), if_pos (huse hno)]
    refine .bind (.fillCell hk hst₅ (.of_told hv₅) hv₅.plain hv₅.nonempty ?_ ?_ ?_)
    · intro hc op s₆ r₆ mem₆ hb₆ hbits
      exact hsearch hc _ _ _ _ hb₆.preserves hb₆.stands hbits
    · intro hno op s₆ r₆ mem₆ hf₆ hconf
      rw [hbad hno]
      refine .walkPrototypes_skip hbr nofun fun l s₇ h₇ => ?_
      exact .verdict_away hu (hbr.cons l) (h₇.toSame.taken.mpr (hf₆.onward.taken ht₅)) nofun
        (fun _ _ => Spot.exit_ne_label _ _) fun _ => ⟨hp₅.memory.trans hconf hp₅.frame, rfl⟩
    · intro hno s₆ r₆ mem₆ hconf
      have hno : (k.val e₀.node).isCell = false := by
        by_contra hc
        exact hc (hno (hv₅.admits (by simpa using hc)))
      exact ⟨hp₅.memory.trans hconf hp₅.frame, _, hbad hno, rfl⟩
  · -- it may be anything
    refine .bind (.fillValue hk hst₅ (fun _ => hv₅.constant) fun op s₆ r₆ mem₆ hb₆ hbits => ?_)
    have hp₆ := hb₆.preserves
    refine .bind (.emit' hk rfl Inst.steps_test fun s₇ h₇ => ?_)
    have htest : Cond.ne.holds (Size.s64.run .and (r₆.gpr op.reg) (r₆.operand (.reg .tagMask))).2
        r₆.order = !(k.val e₀.node).isCell := by
      have hmask : r₆.operand (.reg .tagMask) = Value.cellMask := hb₆.stands.tagMask
      rw [Cond.holds_ne_and64, hbits, hmask, Value.isCell_of_ne_empty hv.nonempty, decide_not,
        beq_eq_decide]
    refine .bind (.jcc hk hbr.false_mem (fun hb' s₈ h₈ => ?_) fun hb' s₈ h₈ => ?_)
    · have hno : (k.val e₀.node).isCell = false := by
        simpa using htest.symm.trans hb'
      have huse : ¬isCellUse e₀ = true := fun huse => hcond (by simp [huse])
      rw [Edge.instanceOf, if_neg (by simp [hno]), if_neg huse]
      refine .walkPrototypes_skip hbr nofun fun l s₉ h₉ => ?_
      have hf₉ := (h₇.trans h₈).trans h₉
      exact .verdict hk hu (hbr.cons l) (hf₉.ledger ▸ hb₆.stands.setFlags _)
        (hf₉.toSame.taken.mpr (hp₆.onward.taken ht₅))
        (hp₅.memory.trans hp₆.memory hp₅.frame) false
    · have hc : (k.val e₀.node).isCell = true := by
        simpa using htest.symm.trans hb'
      have hf₈ := h₇.trans h₈
      exact hsearch hc _ _ _ _ ((hp₆.trans (.of_same hf₈.toSame)).setFlags _)
        (hf₈.ledger ▸ hb₆.stands.setFlags _) hbits

end Course
end Speculation
