import Speculation.Proofs.Facts.Truth
import Speculation.Proofs.Running.Doubles
import Speculation.Proofs.Running.Instances
import Speculation.Proofs.SlowPath.Transparent
import Speculation.Proofs.Switch.Dispatch

/-!
Checks before an access, and elements, while code is running.

A check reads a description of a cell into the scratch register, in which there never is a value, and
compares it. An index is compared with the number of elements as a natural number, so that a negative
one is out of bounds; for that it has to be raw. Within bounds the address is that of the element. The
element is within an item of the heap, in which no slot of a value is: so it reads as the heap has it,
and when other bytes are stored there, every value is still where the ledger has it.
-/

namespace Speculation

open Lowering

section Spared

variable {val : NodeId → Value} {g : Graph} {cur : NodeId} {before : List NodeId} {s s' : State}
  {r r' r'' : Registers} {mem mem' : Memory}

/-- There is no value in the scratch register. -/
lemma Stands.spared (h : Stands val s.ledger r mem) (hs : Coherent g cur before [] s)
    (hr : r.Spared r') : Stands val s.ledger r' mem := by
  refine h.of_unowned hs (hr.gpr (by decide)) (hr.gpr (by decide)) (hr.gpr (by decide)) fun l hl => ?_
  rcases l with _ | p | f
  · rfl
  · obtain ⟨o, ho⟩ := Option.ne_none_iff_exists'.mp hl
    exact hr.gpr (Location.ne_of_mem (Bank.mem_allocatable_of_owner ho)).2.2.2
  · exact congrArg (fun g => (g f).bits) hr.fpr

/-- Nothing in the scratch register is locked. -/
lemma Spares.spared (hp : Spares g s r mem s' r' mem') (hr : r'.Spared r'') :
    Spares g s r mem s' r'' mem' :=
  { hp with
    word := fun {l} hl => by
      refine Eq.trans ?_ (hp.word hl)
      rcases l with _ | p | q
      · rfl
      · exact hr.gpr (Location.ne_of_mem (Bank.mem_allocatable_of_locksOf hl)).2.2.2
      · exact congrArg (fun g => (g q).bits) hr.fpr
    frame := (hr.gpr (by decide)).trans hp.frame }

lemma Preserves.spared (hp : Preserves g s r mem s' r' mem') (hr : r'.Spared r'') :
    Preserves g s r mem s' r'' mem' := ⟨hp.toSpares.spared hr, hp.onward⟩

namespace Registers.Spared

lemma setScratch (h : r.Spared r') (w : UInt64) : r.Spared (r'.setGpr .scratch w) where
  gpr hp := by rw [gpr_setGpr, if_neg hp, h.gpr hp]
  fpr := h.fpr

lemma setFlags (h : r.Spared r') (f : Flags) : r.Spared { r' with flags := f } := ⟨h.gpr, h.fpr⟩

lemma setOrder (h : r.Spared r') (o : Option Ordering) : r.Spared { r' with order := o } := ⟨h.gpr, h.fpr⟩

end Registers.Spared

end Spared

namespace Heap.Aside

variable {h : Heap} {g : Graph} {r r' : Registers} {mem : Memory} {d : Structure} {q : Gpr} {x : Cell}
  {mode : ArrayMode} {ws : List Nat}

lemma read_type (ha : h.Aside g r mem) (hd : h.structure? (r'.gpr q) = some d) :
    mem.read? 1 (r'.address (.ofBase q (Int32.ofNat Layout.structureCellType))) =
      some d.type.code.toNat :=
  (ha.item (structure?_eq_some.mp hd)).1

lemma read_indexing (ha : h.Aside g r mem) (hd : h.structure? (r'.gpr q) = some d) :
    mem.read? 1 (r'.address (.ofBase q (Int32.ofNat Layout.structureIndexing))) =
      some d.indexing.toNat :=
  (ha.item (structure?_eq_some.mp hd)).2.1

lemma read_storage (ha : h.Aside g r mem) (hx : h.cell? (r'.gpr q) = some x) :
    mem.read? 8 (r'.address (.ofBase q (Int32.ofNat Layout.cellStorage))) = some x.storage.toNat :=
  ha.item (cell?_eq_some.mp hx) .storage trivial

lemma read_length (ha : h.Aside g r mem) (hx : h.cell? (r'.gpr q) = some x) :
    mem.read? 4 (r'.address (lengthOf q)) = some x.length.toNat :=
  ha.item (cell?_eq_some.mp hx) .length trivial

end Heap.Aside

namespace Lowering.Entry

variable {g : Graph} {s : State} {n : NodeId} {d d' : Node} {i i' : Nat} {x x' : ValueInfo} {v : Value}

/-- A value has one entry in the ledger. -/
lemma unique (h : Entry g s n d i x) (h' : Entry g s n d' i' x') : x = x' := by
  obtain rfl := Option.some.inj (h.node.symm.trans h'.node)
  have hslot := Option.some.inj (h.slot.symm.trans h'.slot)
  have hindex := h'.index
  rw [← hslot, h.index] at hindex
  obtain rfl := Option.some.inj hindex
  exact Option.some.inj (h.entry.symm.trans h'.entry)

lemma not_constant (h : Entry g s n d i x) : g.valueConstant n ≠ .ok (some v) := by
  rw [Graph.valueConstant_of_node h.node, Op.value?_eq_none.mpr h.op]
  simp

end Lowering.Entry

/-! ### Comparisons -/

lemma low_shape (index : UInt8) {shape : UInt8}
    (hshape : shape = Indexing.contiguous ∨ shape = Indexing.double) :
    low (Size.s32.run .and (UInt64.ofNat index.toNat)
        (Int32.ofNat Indexing.shapeMask.toNat).toInt64.toUInt64).1 =
      low (Int32.ofNat shape.toNat).toInt64.toUInt64 ↔ index &&& Indexing.shapeMask = shape := by
  have hall : ∀ n < 256, low (Size.s32.run .and (UInt64.ofNat n)
      (Int32.ofNat Indexing.shapeMask.toNat).toInt64.toUInt64).1 =
      low (Int32.ofNat shape.toNat).toInt64.toUInt64 ↔
        UInt8.ofNat n &&& Indexing.shapeMask = shape := by
    rcases hshape with rfl | rfl <;> decide +kernel
  simpa using hall index.toNat index.toNat_lt

lemma low_type (t u : CellType) : low (UInt64.ofNat t.code.toNat) =
    low (Int32.ofNat u.code.toNat).toInt64.toUInt64 ↔ t = u := by
  cases t <;> cases u <;> decide

/-- A double that is not ordered even with itself is a NaN. -/
lemma Cond.holds_dUnordered_self {f : Flags} {z : Double} :
    Cond.dUnordered.holds f (z.compare? z) = z.isNaN := by
  unfold Double.compare?
  show Option.isNone _ = _
  cases z.isNaN <;> rfl

/-- A raw index is below a length if it is not negative and below it. -/
lemma Cond.holds_ae_sub_raw {a b : UInt64} {d : Option Ordering} {i : Int32} {n : Nat}
    (ha : a = i.toUInt32.toUInt64) (hb : b = UInt64.ofNat n) (hn : n < 2147483648) :
    Cond.ae.holds (Size.s32.run .sub a b).2 d = !decide (0 ≤ i.toInt ∧ i.toInt < n) := by
  have hlow : a.toUInt32.toNat = i.toUInt32.toNat := by rw [ha, UInt32.toUInt32_toUInt64]
  have hlen : b.toUInt32.toNat = n := by
    rw [hb, UInt64.toNat_toUInt32, UInt64.toNat_ofNat']
    omega
  have hint : i.toInt = (i.toBitVec).toInt := rfl
  have hnat : i.toUInt32.toNat = i.toBitVec.toNat := rfl
  rw [Cond.holds_ae_sub, hlow, hlen, ← decide_not]
  refine decide_eq_decide.mpr ?_
  rw [hint, hnat, BitVec.toInt_eq_toNat_cond]
  have := i.toBitVec.isLt
  split <;> omega

namespace Course

variable {k : Course} {ls : List Label} {s s' : State} {r r' r₀ : Registers} {mem mem' : Memory}
  {q : Gpr} {e : Edge} {h : Heap} {x : Cell} {d : Structure} {T : State → Moment → Prop}

namespace Wp

section Descriptions

variable {Q : Unit → State → Moment → Prop} (hk : k.Sound) (ha : h.Aside k.env.graph r₀ mem)
  (hx : h.cell? (r.gpr q) = some x) (hd : h.structure? x.kind = some d)
include hk ha hx hd

lemma compareShape {shape : UInt8} (hshape : shape = Indexing.contiguous ∨ shape = Indexing.double)
    (hQ : ∀ s' r', k.Follows s s' → r.Spared r' →
      Cond.ne.holds r'.flags r'.order = !decide (d.indexing &&& Indexing.shapeMask = shape) →
      Q () s' ⟨.next, r', mem⟩) :
    k.Wp ls s (compareShape q shape) ⟨.next, r, mem⟩ Q T := by
  refine .bind (.emit' hk rfl (Inst.steps_load (ha.read_kind hx)) fun s₁ h₁ => ?_)
  rw [UInt64.ofNat_toNat]
  have hself : ∀ (r : Registers) (w : UInt64), (r.setGpr .scratch w).gpr .scratch = w := fun r w => by
    rw [Registers.gpr_setGpr, if_pos rfl]
  have hdescribed : h.structure? ((r.setGpr .scratch x.kind).gpr .scratch) = some d := by rw [hself, hd]
  have hread := ha.read_indexing hdescribed
  refine .bind (.emit' hk rfl (Inst.steps_load hread) fun s₂ h₂ => ?_)
  refine .bind (.emit' hk rfl Inst.steps_alu fun s₃ h₃ => .emit' hk rfl Inst.steps_cmp fun s₄ h₄ => ?_)
  refine hQ _ _ (((h₁.trans h₂).trans h₃).trans h₄)
    (((((Registers.Spared.refl r).setScratch _).setScratch _).setFlags _).setScratch _ |>.setFlags _) ?_
  rw [Cond.holds_ne_sub, hself, hself, ← decide_not]
  exact decide_eq_decide.mpr (not_congr (low_shape d.indexing hshape))

/-- The type of a cell is checked: it is to be the type, or it is not to be. -/
lemma guardCellType {type : CellType} {want : Bool} {kind : ExitKind} (hkind : kind ≠ .argumentTypeCheck)
    (hQ : decide (d.type = type) = want → ∀ s' r', k.Follows s s' → r.Spared r' →
      Q () s' ⟨.next, r', mem⟩)
    (hX : decide (d.type = type) ≠ want → ∀ s' r', k.Follows s s' → Q () s' ⟨.exit kind, r', mem⟩) :
    k.Wp ls s (guardCellType q type want kind) ⟨.next, r, mem⟩ Q T := by
  refine .bind (.emit' hk rfl (Inst.steps_load (ha.read_kind hx)) fun s₁ h₁ => ?_)
  rw [UInt64.ofNat_toNat]
  have hself : ∀ (r : Registers) (w : UInt64), (r.setGpr .scratch w).gpr .scratch = w := fun r w => by
    rw [Registers.gpr_setGpr, if_pos rfl]
  have hdescribed : h.structure? ((r.setGpr .scratch x.kind).gpr .scratch) = some d := by rw [hself, hd]
  have hread := ha.read_type hdescribed
  refine .bind (.emit' hk rfl (Inst.steps_load hread) fun s₂ h₂ => ?_)
  refine .bind (.emit' hk rfl Inst.steps_cmp fun s₃ h₃ => ?_)
  have hfollows := (h₁.trans h₂).trans h₃
  have hholds : ∀ order, (if want then Cond.ne else .e).holds (Size.s32.run .sub
      (((r.setGpr .scratch x.kind).setGpr .scratch (UInt64.ofNat d.type.code.toNat)).gpr .scratch)
      (Int32.ofNat type.code.toNat).toInt64.toUInt64).2 order = (decide (d.type = type) != want) := by
    intro order
    have hlow : decide (low (UInt64.ofNat d.type.code.toNat) =
        low (Int32.ofNat type.code.toNat).toInt64.toUInt64) = decide (d.type = type) :=
      decide_eq_decide.mpr (low_type d.type type)
    cases want with
    | true => rw [if_pos rfl, Cond.holds_ne_sub, hself, decide_not, hlow, Bool.bne_true]
    | false => rw [if_neg Bool.false_ne_true, Cond.holds_e_sub, hself, hlow, Bool.bne_false]
  refine .guard' hk hkind (fun hc s₄ h₄ => ?_) fun hc s₄ h₄ => ?_
  · exact hX (bne_iff_ne.mp ((hholds _).symm.trans hc)) _ _ (hfollows.trans h₄)
  · exact hQ (by simpa using (hholds _).symm.trans hc) _ _ (hfollows.trans h₄)
      ((((Registers.Spared.refl r).setScratch _).setScratch _).setFlags _)

end Descriptions

/-- An index is checked against the number of elements. -/
lemma guardBounds {Q : Unit → State → Moment → Prop} (hk : k.Sound) {mode : ArrayMode}
    {base storage index : Gpr} {i : Int32} {n : Nat}
    (hlen : mem.read? 4 (r.address (if inArrayStorage mode then .ofBase storage Layout.publicLength
      else lengthOf base)) = some n) (hn : n < 2147483648) (hne : index ≠ .scratch)
    (hi : r.gpr index = i.toUInt32.toUInt64)
    (hQ : 0 ≤ i.toInt ∧ i.toInt < n → ∀ s' r', k.Follows s s' → r.Spared r' → Q () s' ⟨.next, r', mem⟩)
    (hX : ¬(0 ≤ i.toInt ∧ i.toInt < n) → ∀ s' r', k.Follows s s' →
      Q () s' ⟨.exit .outOfBounds, r', mem⟩) :
    k.Wp ls s (guardBounds mode base storage index) ⟨.next, r, mem⟩ Q T := by
  have hrest : ∀ s₁, k.Follows s s₁ → k.Wp ls s₁ (do
      Lowering.cmp32 index (.reg .scratch)
      Lowering.guard' .outOfBounds .ae) ⟨.next, r.setGpr .scratch (UInt64.ofNat n), mem⟩ Q T := by
    intro s₁ h₁
    refine .bind (.emit' hk rfl Inst.steps_cmp fun s₂ h₂ => ?_)
    have hindex : (r.setGpr .scratch (UInt64.ofNat n)).gpr index = i.toUInt32.toUInt64 := by
      rw [Registers.gpr_setGpr, if_neg hne, hi]
    have hscratch : (r.setGpr .scratch (UInt64.ofNat n)).operand (.reg .scratch) = UInt64.ofNat n := by
      show (r.setGpr .scratch (UInt64.ofNat n)).gpr .scratch = _
      rw [Registers.gpr_setGpr, if_pos rfl]
    have hholds := fun d => Cond.holds_ae_sub_raw (d := d) hindex hscratch hn
    refine .guard' hk (by decide) (fun hc s₃ h₃ => ?_) fun hc s₃ h₃ => ?_
    · have hout := (hholds _).symm.trans hc
      rw [Bool.not_eq_true', decide_eq_false_iff_not] at hout
      exact hX hout _ _ ((h₁.trans h₂).trans h₃)
    · have hin := (hholds _).symm.trans hc
      exact hQ (by simpa using hin) _ _ ((h₁.trans h₂).trans h₃)
        (((Registers.Spared.refl r).setScratch _).setFlags _)
  unfold Lowering.guardBounds
  split
  · rw [if_pos ‹_›] at hlen
    exact .bind (.emit' hk rfl (Inst.steps_load hlen) fun s₁ h₁ => hrest s₁ h₁)
  · rw [if_neg ‹_›] at hlen
    exact .bind (.emit' hk rfl (Inst.steps_load hlen) fun s₁ h₁ => hrest s₁ h₁)

/-! ### Raw indices and storage -/

/-- An operand is filled as a raw integer. The register of the value becomes raw with it, unless someone
else holds it. -/
lemma rawInt {Q : GprOperand → State → Moment → Prop} {i : Int32} (hk : k.Sound)
    (h : Stands k.val s.ledger r mem) (he : Integral k.env.graph k.val s.facts e i)
    (hQ : ∀ op s' r' mem', Spares k.env.graph s r mem s' r' mem' → Stands k.val s'.ledger r' mem' →
      r'.gpr op.reg = i.toUInt32.toUInt64 → Q op s' ⟨.next, r', mem'⟩) :
    k.Wp ls s (fillStrictInt e) ⟨.next, r, mem⟩ Q T := by
  have hint : (k.val e.node).isInt32 ≠ false := by
    rw [he.value, Value.isInt32_ofInt32]
    nofun
  have hfill : ∀ shared : Bool, (shared = false → ∀ q, (s.locks (.gpr q) = 0 ∨
      ∃ d i x, Entry k.env.graph s e.node d i x ∧ x.location = .gpr q) → s.locks (.gpr q) = 0) →
      k.Wp ls s (do
        let op ← Lowering.fillInt e
        if op.format = .int32 then return op
        else if shared then
          let t ← Lowering.allocGpr
          Lowering.emit' (.zext32 t op.reg)
          Lowering.unlockGpr op.reg
          return ⟨t, .int32⟩
        else
          Lowering.emit' (.zext32 op.reg op.reg)
          Lowering.refine e.node op.reg .int32
          return ⟨op.reg, .int32⟩) ⟨.next, r, mem⟩ Q T := by
    intro shared hshared
    refine .bind (.fillInt hk h (.of_integral he) (fun j op s₁ r₁ mem₁ hj hb => ?_)
      (fun hn => absurd hn hint) fun hn => absurd (hn he.admits) hint)
    obtain rfl : j = i := Value.ofInt32_injective (hj.symm.trans he.value)
    have hp := hb.preserves.toSpares
    have hlocks := hb.preserves.onward.locks
    have hword : (r₁.gpr op.reg).toUInt32.toUInt64 = j.toUInt32.toUInt64 :=
      congrArg (fun i : Int32 => i.toUInt32.toUInt64) hb.low
    refine .ite (fun hraw => .pure (hQ _ _ _ _ hp hb.stands (hb.raw hraw))) fun hraw => ?_
    obtain ⟨ho, hown⟩ := hb.own hraw
    refine .ite (fun _ => ?_) fun hno => ?_
    · refine .bind (.allocGpr hk hb.stands fun t s₂ mem₂ hh hp₂ h₂ => ?_)
      refine .bind (.emit' hk rfl Inst.steps_zext32 fun s₃ h₃ => .intro fun hs₃ _ => ?_)
      refine .bind (.unlockGpr fun s₄ h₄ hf₄ hl₄ => .pure (hQ _ _ _ _ ?_ ?_ ?_))
      · exact ((hp.trans hlocks hp₂.toSpares).then_facts (hf₄.trans h₃.facts) fun hn =>
          hl₄ ▸ h₃.ledger ▸ hn).setGpr hh hlocks _
      · rw [hl₄]
        exact Stands.setGpr (h₃.ledger ▸ h₂) hs₃ (hh.of_same h₃.toSame).taken _
      · rw [Registers.gpr_setGpr, if_pos rfl]
        exact hword
    · refine .bind (.emit' hk rfl Inst.steps_zext32 fun s₂ h₂ => .intro fun hs₂ _ => ?_)
      have ho₂ : Owned k.env.graph s₂ e.node (.gpr op.reg) := ho.of_owner (by rw [h₂.toSame.owner])
      obtain ⟨_, _, -, -, howner⟩ := id ho
      have hframe := (Location.ne_of_mem (Bank.mem_allocatable_of_owner howner)).1
      have hfree := hshared (by simpa using hno) _ hown
      refine .bind (.reformat ho₂ (fun d i x he' hx => ?_) nofun fun s₃ hr₃ hp₃ h₃ => .pure ?_)
      · have hst := hb.stands
        rw [← h₂.ledger] at hst
        exact hst.convert hs₂ he' hx ⟨j, hj, hword⟩
      · refine hQ _ _ _ _ ((hp.setFree hfree hframe _).then_facts (hp₃.facts.trans h₂.facts) fun hn =>
          hp₃.plain (h₂.ledger ▸ hn)) h₃ ?_
        rw [Registers.gpr_setGpr, if_pos rfl]
        exact hword
  -- only a register in which the value is already can be held by someone else
  have hother : ∀ {l : Location}, (∀ q, l ≠ .gpr q) → (∃ d i x, Entry k.env.graph s e.node d i x ∧
      x.location = l) → ∀ q, (s.locks (.gpr q) = 0 ∨ ∃ d i x, Entry k.env.graph s e.node d i x ∧
      x.location = .gpr q) → s.locks (.gpr q) = 0 := by
    rintro l hl ⟨d, i, x, he, hx⟩ q (hfree | ⟨d', i', x', he', hx'⟩)
    · exact hfree
    · rw [he.unique he', hx'] at hx
      exact absurd hx.symm (hl q)
  unfold Lowering.fillStrictInt
  refine .look leads_locate_found fun w hw => ?_
  cases w with
  | gpr p format =>
    obtain ⟨d, i, x, he, hx, -⟩ := hw
    refine .look (P := fun b => b = s.gprs.isLocked p) (F := fun _ _ => False) (fun _ => ⟨rfl, rfl⟩)
      fun shared hlocked => hfill shared ?_
    rintro rfl q (hfree | ⟨d', i', x', he', hx'⟩)
    · exact hfree
    · rw [he.unique he', hx'] at hx
      rw [Location.gpr.inj hx]
      exact Bank.locksOf_eq_zero hlocked.symm
  | constant v =>
    refine .look (P := (· = false)) (F := fun _ _ => False) (fun _ => ⟨rfl, rfl⟩) fun shared _ =>
      hfill shared ?_
    rintro - q (hfree | ⟨d, i, x, he, -⟩)
    · exact hfree
    · exact absurd hw he.not_constant
  | fpr f =>
    obtain ⟨d, i, x, he, hx⟩ := hw
    exact .look (P := (· = false)) (F := fun _ _ => False) (fun _ => ⟨rfl, rfl⟩) fun shared _ =>
      hfill shared fun _ => hother (fun _ hl => Location.noConfusion hl) ⟨d, i, x, he, hx⟩
  | spilled format =>
    obtain ⟨d, i, x, he, hx, -⟩ := hw
    exact .look (P := (· = false)) (F := fun _ _ => False) (fun _ => ⟨rfl, rfl⟩) fun shared _ =>
      hfill shared fun _ => hother (fun _ hl => Location.noConfusion hl) ⟨d, i, x, he, hx⟩

/-- An operand is filled as a raw integer and held. -/
lemma fillStrictInt {Q : GprOperand → State → Moment → Prop} {i : Int32} (hk : k.Sound)
    (h : Stands k.val s.ledger r mem) (he : Integral k.env.graph k.val s.facts e i)
    (hQ : ∀ op s' r' mem', k.Brings s r mem e.node (.gpr op.reg) s' r' mem' →
      r'.gpr op.reg = i.toUInt32.toUInt64 → Q op s' ⟨.next, r', mem'⟩) :
    k.Wp ls s (fillStrictInt e) ⟨.next, r, mem⟩ Q T := by
  have hfill : k.Wp ls s (Lowering.fillStrictInt e) ⟨.next, r, mem⟩ (fun op s' t' => ∃ r' mem',
      t' = ⟨.next, r', mem'⟩ ∧ Spares k.env.graph s r mem s' r' mem' ∧
        Stands k.val s'.ledger r' mem' ∧ r'.gpr op.reg = i.toUInt32.toUInt64) T :=
    .rawInt hk h he fun op s' r' mem' hp h' hw => ⟨r', mem', rfl, hp, h', hw⟩
  refine (hfill.and leads_fillStrictInt).weaken ?_
  rintro op s' _ ⟨⟨r', mem', rfl, hp, h', hw⟩, -, hf⟩
  exact hQ op s' r' mem' ⟨hf, ⟨hp, hf.onward⟩, h'⟩ hw

/-- The storage of an object is kept as it is. -/
lemma fillStorage {Q : Gpr → State → Moment → Prop} (hk : k.Sound) (h : Stands k.val s.ledger r mem)
    (hQ : ∀ q s' r' mem', k.Brings s r mem e.node (.gpr q) s' r' mem' →
      r'.gpr q = (k.val e.node).bits → Q q s' ⟨.next, r', mem'⟩) :
    k.Wp ls s (fillStorage e) ⟨.next, r, mem⟩ Q T := by
  unfold Lowering.fillStorage
  refine .look leads_locate_found fun w hw => ?_
  split
  · rename_i q
    obtain ⟨d, i, x, he, hl, hf⟩ := hw
    refine .intro fun hs _ => .bind (.lockGpr fun s₁ hl₁ hf₁ => .pure (hQ _ _ _ _ ⟨?_, ?_, ?_⟩ ?_))
    · exact ⟨hl₁.onward, hl₁.more, .inr ((hs.owned_of_entry he hl nofun).of_owner (hl₁.owner _))⟩
    · exact .of_onward hl₁.onward hf₁ fun hn => hl₁.ledger ▸ hn
    · exact hl₁.ledger ▸ h
    · have hword := h.register he.entry he.named (by simp [hl])
      rw [hl, hf] at hword
      exact hword.1
  · obtain ⟨d, i, x, he, hl, hf, hne⟩ := hw
    exact .fillSpilledGpr hk h he hl hf hne fun q s₁ r₁ mem₁ hb _ hrep _ => hQ _ _ _ _ hb hrep.1
  · exact fun _ _ _ => trivial

end Wp
end Course
/-! ### Elements -/

namespace Registers

variable {r : Registers} {st q : Gpr} {i : Int32}

/-- An index that is not negative is scaled without an overflow. -/
lemma address_indexed (hq : r.gpr q = i.toUInt32.toUInt64) (hi : 0 ≤ i.toInt) (scale : Fin 4) :
    r.address (.indexed st q scale 0) = r.gpr st + UInt64.ofNat (2 ^ scale.val * i.toInt.toNat) := by
  have hnat : i.toUInt32.toNat = i.toInt.toNat := by
    have hint : i.toInt = i.toBitVec.toInt := rfl
    have hbits : i.toUInt32.toNat = i.toBitVec.toNat := rfl
    rw [hint, BitVec.toInt_eq_toNat_cond] at hi ⊢
    have := i.toBitVec.isLt
    split at hi <;> split <;> omega
  have hlt := i.toUInt32.toNat_lt
  show r.gpr st + (0 : Int32).toInt64.toUInt64 + r.gpr q <<< UInt64.ofNat scale.val = _
  rw [show (0 : Int32).toInt64.toUInt64 = 0 from rfl, UInt64.add_zero, hq]
  congr 1
  apply UInt64.toNat_inj.mp
  rw [UInt64.toNat_shiftLeft, UInt32.toNat_toUInt64, hnat]
  have hscale : (UInt64.ofNat scale.val).toNat = scale.val :=
    UInt64.toNat_ofNat_of_lt' (Nat.lt_trans scale.isLt (by decide))
  rw [hscale, UInt64.toNat_ofNat', Nat.shiftLeft_eq, Nat.mul_comm,
    Nat.mod_eq_of_lt (Nat.lt_trans scale.isLt (by decide) : scale.val < 64)]

end Registers

namespace Heap.Aside

variable {h : Heap} {g : Graph} {r r' : Registers} {mem : Memory} {mode : ArrayMode} {x : Cell}
  {ws : List Nat} {k y : Nat} {base st : Gpr}

/-- An element is where the heap has it, away from the slots of values. -/
lemma element (ha : h.Aside g r mem) (hb : h.Backs mode x ws) (hk : ws[k]? = some y) :
    mem.read? mode.elementSize (x.element mode k) = some y ∧
    (x.element mode k).toNat + mode.elementSize < UInt64.size ∧
    ∀ b : UInt64, (x.element mode k).toNat ≤ b.toNat →
      b.toNat < (x.element mode k).toNat + mode.elementSize → r.Beyond g b := by
  obtain ⟨a, i, o, hi, hx, hext, hread⟩ := hb.exists_item
  have hroom := ha.room hi
  have hlt : k < ws.length := (List.getElem?_eq_some_iff.mp hk).1
  have hle : mode.elementSize * k + mode.elementSize ≤ mode.elementSize * ws.length := by
    rw [← Nat.mul_succ]
    exact Nat.mul_le_mul_left _ hlt
  have haddr : x.element mode k = a + UInt64.ofNat (o + mode.elementSize * k) := by
    rw [Cell.element, hx, UInt64.add_assoc, ← UInt64.ofNat_add]
  have hnat : (x.element mode k).toNat = a.toNat + (o + mode.elementSize * k) := by
    rw [haddr, Memory.toNat_add_ofNat (by omega)]
  refine ⟨haddr ▸ hread mem (ha.item hi) k y hk, by omega, fun b hlow hhigh => ?_⟩
  exact ha.beyond hi (by omega) (by omega)

/-- The number of elements is where the mode has it. -/
lemma read_count (ha : h.Aside g r mem) (hb : h.Backs mode x ws)
    (hbase : h.cell? (r'.gpr base) = some x) (hst : r'.gpr st = x.storage) :
    mem.read? 4 (r'.address (if inArrayStorage mode then .ofBase st Layout.publicLength
      else lengthOf base)) = some ws.length := by
  have helements : (∃ a us, h a = some (.elements us) ∧ x.storage = a + 8 ∧
      ws = us.map UInt64.toNat) →
      mem.read? 4 (r'.address (.ofBase st Layout.publicLength)) = some ws.length := by
    rintro ⟨a, us, hi, hx, rfl⟩
    obtain ⟨-, hread, -⟩ := ha.item hi
    have haddr : r'.address (.ofBase st Layout.publicLength) = a := by
      show r'.gpr st + Layout.publicLength.toInt64.toUInt64 = a
      rw [hst, hx, UInt64.add_assoc]
      exact UInt64.add_zero a
    rw [haddr, hread, List.length_map]
  have hwords : x.length.toNat = ws.length → mem.read? 4 (r'.address (lengthOf base)) =
      some ws.length := fun hlen => hlen ▸ ha.read_length hbase
  cases mode with
  | contiguous | double => exact helements hb
  | int32Array | float64Array | string => exact hwords hb.2

end Heap.Aside

/-- Bytes that are in no slot of a value make no difference to the values. -/
lemma Stands.of_stored {val : NodeId → Value} {g : Graph} {cur : NodeId} {before : List NodeId} {s : State}
    {r : Registers} {mem mem' : Memory} {a : UInt64} {n y : Nat} (h : Stands val s.ledger r mem)
    (hs : Coherent g cur before [] s) (hst : mem.Stored a n y mem')
    (hbeyond : ∀ b : UInt64, a.toNat ≤ b.toNat → b.toNat < a.toNat + n → r.Beyond g b) :
    Stands val s.ledger r mem' where
  numberTag := h.numberTag
  tagMask := h.tagMask
  small := h.small
  mapped hi := hst.mapped (h.mapped hi)
  register := h.register
  double := h.double
  slot {i x m} hx hn hf := by
    obtain ⟨w, hw, hrep⟩ := h.slot hx hn hf
    obtain ⟨-, d, hd, hslot, -⟩ := hs.agrees.named hx hn
    refine ⟨w, ?_, hrep⟩
    rw [← hw, Memory.read?, Memory.read?, Memory.readBytes?_congr fun j hj => ?_]
    refine hst.same ?_
    by_contra hno
    have hfar := hbeyond (r.slot i + UInt64.ofNat j) (by omega) (by omega) hd hslot
    rw [UInt64.add_comm, UInt64.add_sub_cancel,
      UInt64.toNat_ofNat_of_lt' (Nat.lt_trans hj (by decide))] at hfar
    exact absurd hj (Nat.not_lt.mpr hfar)

/-- A cell, a raw index and the storage of the cell are in registers that are held. -/
structure Heap.Addressed (h : Heap) (x : Cell) (i : Int32) (s : State) (r : Registers)
    (b j st : Gpr) : Prop where
  base : h.cell? (r.gpr b) = some x
  index : r.gpr j = i.toUInt32.toUInt64
  storage : r.gpr st = x.storage
  held {q : Gpr} (hq : q ∈ [b, j, st]) : 0 < s.locks (.gpr q)

namespace Heap.Addressed

variable {h : Heap} {x : Cell} {i : Int32} {s s' : State} {r r' : Registers} {b j st : Gpr}
  {g : Graph} {mem mem' : Memory} {mode : ArrayMode}

/-- Registers that were held have what they had. -/
lemma congr (ha : h.Addressed x i s r b j st) (hl : ∀ q, 0 < s.locks (.gpr q) → r'.gpr q = r.gpr q)
    (hs : ∀ l, s.locks l ≤ s'.locks l) : h.Addressed x i s' r' b j st where
  base := by
    rw [hl b (ha.held (by simp))]
    exact ha.base
  index := (hl j (ha.held (by simp))).trans ha.index
  storage := (hl st (ha.held (by simp))).trans ha.storage
  held hq := (ha.held hq).trans_le (hs _)

lemma preserves (ha : h.Addressed x i s r b j st) (hp : Preserves g s r mem s' r' mem') :
    h.Addressed x i s' r' b j st :=
  ha.congr (fun _ hq => hp.gpr hq) hp.onward.locks

lemma spared (ha : h.Addressed x i s r b j st) (hs : Same s s') (hr : r.Spared r') :
    h.Addressed x i s' r' b j st :=
  ha.congr (fun _ hq => hr.gpr (Location.ne_of_mem (Bank.mem_allocatable_of_locksOf hq)).2.2.2)
    hs.onward.locks

lemma index_ne_scratch (ha : h.Addressed x i s r b j st) : j ≠ .scratch :=
  (Location.ne_of_mem (Bank.mem_allocatable_of_locksOf (ha.held (by simp)))).2.2.2

lemma address (ha : h.Addressed x i s r b j st) (hi : 0 ≤ i.toInt) {scale : Fin 4}
    (hscale : 2 ^ scale.val = mode.elementSize) :
    r.address (.indexed st j scale 0) = x.element mode i.toInt.toNat := by
  rw [Registers.address_indexed ha.index hi, ha.storage, hscale, Cell.element]

end Heap.Addressed

end Speculation
