import Speculation.Proofs.Heap.Comparisons
import Speculation.Proofs.Independence.Sequences
import Speculation.Proofs.Lowering.Frame
import Speculation.Proofs.Running.Calls
import Speculation.Proofs.Running.Doubles
import Speculation.Proofs.Switch.Texts

/-!
Conversions to 32 bits while code is running.

The hardware truncates a double. What does not fit comes out as the least integer, which may also be the
right result: whenever it comes out, a slow path has a helper convert the number. A value that may be
anything goes to a helper unless it is an integer. Both ways lead to the same word.
-/

namespace Speculation

open Lowering

/-! ### The frame -/

namespace Plan

variable {p : Plan} {g : Draft} {frame : FrameLayout} {b : BlockId} {j : Nat} {n : NodeId} {d : Node}
  {s : State} {val : NodeId → Value} {r : Registers} {mem : Memory}

lemma exists_alike {blk : Block} {labels : Label × Label} (hframed : FrameLayout.ofGraph p.graph = .ok frame)
    (hb : p.graph.blocks[b]? = some blk)
    (hs : outcome (lowerUpTo b j) (p.env frame) p.start = (.ok labels, s)) :
    ∃ t u w, Alike (.self _ (p.ordered_env frame) t b) w s u := by
  have hblock : (p.env frame).graph.block b = .ok blk := by simp [env, Graph.block, Breach.get, hb]
  have hupTo : lowerUpTo b j = lowerThrough (List.range b) >>= fun labels => openBlock b >>= fun _ =>
      Lowering.graph >>= fun g => assume (g.block b) >>= fun blk =>
        lowerNodes (blk.nodes.toList.zipIdx.take j) >>= fun _ => pure labels := by
    unfold lowerUpTo lowerThrough
    simp only [bind_assoc, pure_bind]
  rw [hupTo, outcome_bind] at hs
  rcases hthrough : outcome (lowerThrough (List.range b)) (p.env frame) p.start with ⟨e | labels', s₁⟩ <;>
    rw [hthrough] at hs
  · cases hs
  have hreaches : p.Reaches frame (List.range b) s₁ := ⟨hframed, labels', hthrough⟩
  obtain ⟨hv, hfree⟩ := hreaches.before hb (by simp)
  have hopen := (both_openBlock (c := .self _ (p.ordered_env frame) s₁ b) (T := fun _ _ => True)
    hb hv hv hfree hfree).leads_self
  refine (leads_bind.mpr (hopen.weaken ?_)).result
    (Q := fun _ s' => ∃ t u w, Alike (.self _ (p.ordered_env frame) t b) w s' u) hs
  rintro _ s₂ ⟨-, t₂, halike⟩
  rw [leads_bind, leads_graph, hblock]
  refine Leads.then (P := fun x s' => x = blk ∧ s' = s₂) ⟨rfl, rfl⟩ ?_
  rintro x _ ⟨rfl, rfl⟩
  refine leads_bind.mpr ((both_lowerNodes halike fun _ _ => trivial).leads_self.weaken ?_)
  rintro _ s₃ ⟨-, t₃, w, -, halike⟩
  exact ⟨s₁, t₃, w, halike⟩

/-- There is an entry for every local and every value. -/
lemma TakesUp.size (ht : p.TakesUp frame b j n d s) : s.ledger.size = frame.numLocals := by
  obtain ⟨blk, hb, -⟩ := ht.block
  obtain ⟨labels, hs⟩ := ht.lowered
  obtain ⟨t, u, w, halike⟩ := exists_alike ht.framed hb hs
  exact halike.slots

/-- Registers are saved where there is no value. -/
lemma TakesUp.fits (hd : g.Built) (hg : g.finish = .ok p.graph) (ht : p.TakesUp frame b j n d s)
    (hs : Stands val s.ledger r mem) : frame.Fits p.graph where
  numbered hx ho := by
    obtain ⟨-, fixed, hfin⟩ := Draft.finish_finished hg
    obtain ⟨i, rfl, -, hlt⟩ := Draft.slot_beyond hd.sane hfin hx ho
    exact ⟨i, rfl, (FrameLayout.ofGraph_eq_ok ht.framed).1 ▸ hlt⟩
  small := ht.size ▸ hs.small

end Plan

/-! ### The lowering -/

namespace Course

variable {k : Course} {ls : List Label} {s : State} {r : Registers} {mem : Memory} {e : Edge} {d : Node}
  {f : Helper} {args : List Argument} {q : Gpr} {i : Int32} {x : Double} {σ : Spot}
  {entry done : Label} {T : State → Moment → Prop}

/-- What the code of a node needs of the rest: the constants that it loads, the code of its slow paths,
and a frame with room for the registers that these save. -/
structure Furnished (k : Course) : Prop where
  supplied : k.Supplied
  pathed : k.Pathed
  fits : k.env.frame.Fits k.env.graph

lemma Furnished.of_lower {p : Plan} {g : Draft} {base : UInt64} {frame : FrameLayout} {layout : Layout}
    {final : State} {c : Site} {val : NodeId → Value} {n : NodeId} {before : List NodeId} (hd : g.Built)
    (hg : g.finish = .ok p.graph) (h : (p.compile base).outcome = .ok c.artifact)
    (hf : p.lower = .ok (frame, layout, final)) (hc : c.Loaded) (hfits : frame.Fits p.graph) :
    (⟨p.env frame, c, final, val, n, before⟩ : Course).Furnished where
  supplied := .of_compile h hf hc
  pathed _ := Plan.hasPath_of_mem hd hg hf
  fits := hfits

namespace Ends

variable (hk : k.Sound) (hf : k.Furnished) (hu : Unborn k.env.graph k.cur k.before)
include hk hf hu

lemma convertedOr (hw : (SlowWork.call f args (some q)).Formed [q]) (ht : f.mayThrow = false)
    (hdone : done ∈ ls) (hq : s.Taken (.gpr q)) (h : Stands k.val s.ledger r mem)
    (hσ : σ = .next ∧ r.gpr q = i.toUInt32.toUInt64 ∨
      σ = .label entry ∧ k.env.frame.Mapped (r.gpr .frame) mem ∧
        k.Gives f args i.toUInt32.toUInt64 r mem) :
    k.Ends ls s (attach done >>= fun _ => addSlowPath entry done [q] (.call f args (some q)) >>= fun _ =>
      Lowering.gprResult q .int32) ⟨σ, r, mem⟩ (k.Computes (.ok i.toInt)) T := by
  rw [← bind_assoc]
  refine .bind (.attachSlow hk hf.fits hf.pathed hdone hw ht hq h hσ fun s' r' mem' h' hres => ?_)
  have hword : r'.gpr q = (Int32.ofInt i.toInt).toUInt32.toUInt64 := by rw [Int32.ofInt_toInt, hres]
  exact .gprResult hu h' ⟨.ofInt i.toInt, rfl, hword⟩ fun d s'' hd hb =>
    ⟨rfl, hb.stands, d, q, hd, hb.records, hword⟩

variable (hd : k.env.graph.nodes[k.cur]? = some d) (he : d.children[0]? = some e)
  (hst : Stands k.val s.ledger r mem) (hmap : k.env.frame.Mapped (r.gpr .frame) mem)
include hd he hst hmap

/-- A number is truncated, and where that does not fit it is converted by the helper. -/
lemma lowerNumberToInt32 (hkind : e.kind = .number) (hnum : k.Numeric s.facts e)
    (hmay : (s.facts.known e.node).intersects .number = true) (hx : (k.val e.node).number? = some x) :
    k.Ends [] s lowerValueToInt32 ⟨.next, r, mem⟩ (k.Computes (.ok x.toInt32.toInt)) T := by
  have hnumber : (k.val e.node).isNumber ≠ false := by simp [Value.isNumber_of_number? hx]
  refine .child fun d' e' hd' he' => ?_
  obtain rfl := Option.some.inj (hd.symm.trans hd')
  obtain rfl := Option.some.inj (he.symm.trans he')
  simp only [hkind]
  refine .bind (.fillDouble hk hf.supplied hst hnum (fun g s₁ r₁ mem₁ hb hz => ?_)
    (fun hno => absurd hno hnumber) fun hno => absurd (hno hmay) hnumber)
  obtain rfl : r₁.fpr g = x := Option.some.inj (hz.symm.trans hx)
  refine .bind (.allocGpr hk hb.stands fun q s₂ mem₂ hh hp₂ hst₂ => ?_)
  refine .bindNewLabel fun slow s₃ h₃ _ => .bindNewLabel fun done s₄ h₄ _ => ?_
  refine .bind (.emit' hk rfl Inst.steps_cvtDToInt fun s₅ h₅ => .intro fun hs₅ _ => ?_)
  have hf₅ := (h₃.trans h₄).trans h₅
  have htaken := hf₅.toSame.taken.mpr hh.taken
  have hst₅ := Stands.setGpr (hf₅.ledger ▸ hst₂) hs₅ htaken (r₁.fpr g).truncateInt32.toUInt32.toUInt64
  refine .bind (.emit' hk rfl Inst.steps_cmp fun s₆ h₆ => ?_)
  have hp := hb.preserves.trans hp₂
  have hqframe : Gpr.frame ≠ q := (Location.ne_of_mem hh.mem).1.symm
  obtain ⟨r₆, hr₆⟩ : ∃ r₆ : Registers, r₆ = { r₁.setGpr q (r₁.fpr g).truncateInt32.toUInt32.toUInt64 with
    flags := (Size.s32.run .sub ((r₁.setGpr q (r₁.fpr g).truncateInt32.toUInt32.toUInt64).gpr q)
      ((r₁.setGpr q (r₁.fpr g).truncateInt32.toUInt32.toUInt64).operand (.imm Int32.minValue))).2 } :=
    ⟨_, rfl⟩
  have hq₆ : r₆.gpr q = (r₁.fpr g).truncateInt32.toUInt32.toUInt64 := by
    rw [hr₆, Registers.gpr_flags, Registers.gpr_setGpr, if_pos rfl]
  have hleast : Cond.e.holds r₆.flags r₆.order = decide ((r₁.fpr g).truncateInt32 = Int32.minValue) := by
    rw [hr₆]
    simp [Registers.operand]
  have hframe₆ : r₆.gpr .frame = r.gpr .frame := by
    rw [hr₆, Registers.gpr_flags, Registers.gpr_setGpr, if_neg hqframe]
    exact hp.frame
  have hst₆ : Stands k.val s₆.ledger r₆ mem₂ := h₆.ledger ▸ hr₆ ▸ hst₅.setFlags _
  have hfpr₆ : r₆.fpr g = r₁.fpr g := hr₆ ▸ rfl
  rw [← hr₆]
  refine .bind (.jcc hk (by simp) (fun hc s₇ h₇ => ?_) fun hc s₇ h₇ => ?_)
  all_goals
    have htaken₇ : s₇.Taken (.gpr q) := (h₆.trans h₇).toSame.taken.mpr htaken
    refine convertedOr hk hf hu (.toInt32 g q) rfl (by simp) htaken₇ (h₇.ledger ▸ hst₆) ?_
  · refine .inr ⟨rfl, ?_, fun r₈ mem₈ hpassed _ => ?_⟩
    · rw [hframe₆]
      exact hf.fits.mapped hmap hp.memory
    · obtain ⟨hfirst, -⟩ : r₈.fpr .first = r₆.fpr g ∧ True := hpassed.passes
      show World.runs (Pure.pure (r₈.fpr .first).toInt32.toUInt32.toUInt64) _ = _
      rw [hfirst, hfpr₆]
      rfl
  · have hfit : (r₁.fpr g).truncateInt32 ≠ Int32.minValue := of_decide_eq_false (hleast.symm.trans hc)
    exact .inl ⟨rfl, by rw [hq₆, Double.toInt32_of_truncateInt32 hfit]⟩

/-- An integer is taken as it is, and any other value is converted by the helper. -/
lemma lowerUntypedToInt32 (hkind : e.kind = .untyped)
    (hconst : ∀ v, k.env.graph.valueConstant e.node = .ok (some v) → k.val e.node = v)
    (hx : ∀ mem', k.env.frame.Confined k.env.graph r mem mem' →
      World.runs (Semantics.toNumber (k.val e.node)) { k.site.world with memory := mem' } =
        (.ok x, { k.site.world with memory := mem' })) :
    k.Ends [] s lowerValueToInt32 ⟨.next, r, mem⟩ (k.Computes (.ok x.toInt32.toInt)) T := by
  refine .child fun d' e' hd' he' => ?_
  obtain rfl := Option.some.inj (hd.symm.trans hd')
  obtain rfl := Option.some.inj (he.symm.trans he')
  simp only [hkind]
  refine .bind (.fillValue hk hst hconst fun op s₁ r₁ mem₁ hb hbits => ?_)
  refine .bind (.allocGpr hk hb.stands fun q s₂ mem₂ hh hp₂ hst₂ => ?_)
  refine .bindNewLabel fun slow s₃ h₃ _ => .bindNewLabel fun done s₄ h₄ hfresh => ?_
  refine .bind (.emit' hk rfl Inst.steps_cmp fun s₅ h₅ => ?_)
  have hint : Cond.b.holds _ _ = !(k.val e.node).isInt32 := Cond.holds_b_sub_tag hst₂.numberTag hbits
  have hp := hb.preserves.trans hp₂
  obtain ⟨r₅, hr₅⟩ : ∃ r₅ : Registers, r₅ = { r₁ with
    flags := (Size.s64.run .sub (r₁.gpr op.reg) (r₁.operand (.reg .numberTag))).2 } := ⟨_, rfl⟩
  rw [← hr₅]
  have hbits₅ : r₅.gpr op.reg = (k.val e.node).bits := hr₅ ▸ hbits
  have hframe₅ : r₅.gpr .frame = r.gpr .frame := hr₅ ▸ hp.frame
  have hst₅ : Stands k.val s₂.ledger r₅ mem₂ := hr₅ ▸ hst₂.setFlags _
  refine .bind (.jcc hk (by simp) (fun hc s₆ h₆ => ?_) fun hc s₆ h₆ => ?_)
  all_goals have hf₆ := ((h₃.trans h₄).trans h₅).trans h₆
  · refine .bind (.skip (Calm.emit' _) (.emit' rfl) nofun fun _ s₇ h₇ => ?_)
    have hf₇ := hf₆.trans h₇
    refine convertedOr hk hf hu (.toInt32Generic op.reg q) rfl (by simp) (hf₇.toSame.taken.mpr hh.taken)
      (hf₇.ledger ▸ hst₅) (.inr ⟨rfl, ?_, fun r₈ mem₈ hpassed hmem => ?_⟩)
    · rw [hframe₅]
      exact hf.fits.mapped hmap hp.memory
    · obtain ⟨hfirst, -⟩ : r₈.gpr .first = r₅.gpr op.reg ∧ True := hpassed.passes
      have hvalue : (⟨r₈.gpr .first⟩ : Value) = k.val e.node := by rw [hfirst, hbits₅]
      have hnumber := hx mem₈ fun a ha hsaved => (hmem a (hframe₅ ▸ hsaved)).trans (hp.memory ha)
      rw [← hvalue] at hnumber
      exact World.runs_bind_of_ok hnumber
  · refine .bind (.emit' hk rfl Inst.steps_zext32 fun s₇ h₇ => .intro fun hs₇ _ => ?_)
    have hf₇ := hf₆.trans h₇
    have htaken := hf₇.toSame.taken.mpr hh.taken
    refine convertedOr hk hf hu (.toInt32Generic op.reg q) rfl (by simp) htaken
      (Stands.setGpr (hf₇.ledger ▸ hst₅) hs₇ htaken _) (.inl ⟨rfl, ?_⟩)
    have hisInt : (k.val e.node).isInt32 = true := by
      have hno : (!(k.val e.node).isInt32) = false := by rw [← hint, ← hc, hr₅]
      simpa using hno
    have hnumber : (k.val e.node).number? = some (.ofInt32 (k.val e.node).bits.toUInt32.toInt32) := by
      rw [Value.number?, Value.int32?, if_pos hisInt]
    have hruns := (hx mem fun a _ _ => rfl).symm.trans (World.runs_toNumber_of_number hnumber)
    obtain rfl : x = .ofInt32 (k.val e.node).bits.toUInt32.toInt32 :=
      Except.ok.inj (congrArg Prod.fst hruns)
    rw [Registers.gpr_setGpr, if_pos rfl, hbits₅, Double.toInt32_ofInt32]
    rfl

end Ends
end Course

/-! ### Compiled code -/

/-- The frame is beside the heap of a world, which is in the memory. -/
def Lowering.FrameLayout.BesideHeap (f : FrameLayout) (g : Graph) (w : World) (r : Registers)
    (mem : Memory) : Prop :=
  ∀ ⦃a : UInt64⦄, Memory.heapBase ≤ a.toNat → a.toNat < w.memory.next →
    r.Beyond g a ∧ f.Unsaved (r.gpr .frame) a ∧ mem.byte? a = w.memory.byte? a

lemma Lowering.FrameLayout.BesideHeap.shows {f : FrameLayout} {g : Graph} {w : World} {r : Registers}
    {mem mem' : Memory} {limit : Nat} {h : Heap} (hb : f.BesideHeap g w r mem)
    (hm : w.memory.Houses limit h) (hc : f.Confined g r mem mem') : mem'.Shows h where
  item hi := (hm.item hi).congr (hm.area hi).room fun _ hle hlt =>
    have ⟨hbeyond, hunsaved, hsame⟩ := hb ((hm.low hi).trans hle) (hlt.trans_le (hm.high hi))
    (hc hbeyond hunsaved).trans hsame
  room hi := (hm.area hi).room
  cell := hm.isCell

namespace Plan

open World

/-- A compile has taken up a conversion of the value of `e` to 32 bits, and a machine is consistent with
the ledger there. What the compile knows of the value is true of it, and registers can be saved. -/
structure Converts (p : Plan) (frame : FrameLayout) (b : BlockId) (j : Nat) (n : NodeId) (d : Node)
    (s : State) (c : Site) (val : NodeId → Value) (r : Registers) (mem : Memory) (e : Edge) : Prop where
  draft : ∃ g : Draft, g.Built ∧ g.finish = .ok p.graph
  compiled : ∃ base, (p.compile base).outcome = .ok c.artifact
  loaded : c.Loaded
  taken : p.TakesUp frame b j n d s
  op : d.op = .valueToInt32
  operand : d.children[0]? = some e
  stands : Stands val s.ledger r mem
  saves : frame.Mapped (r.gpr .frame) mem
  constant {v : Value} (hv : p.graph.valueConstant e.node = .ok (some v)) : val e.node = v
  proven (h : (s.facts.known e.node).subset .number = true) : (val e.node).isNumber = true
  admits (h : (val e.node).isNumber = true) : (s.facts.known e.node).intersects .number = true

variable {p : Plan} {frame : FrameLayout} {b : BlockId} {j : Nat} {n : NodeId} {d : Node} {s : State}
  {c : Site} {val : NodeId → Value} {r : Registers} {mem : Memory} {e : Edge} {x : Double}

namespace Converts

/-- What is shown of the lowering of a conversion is true of its compiled code. -/
lemma performs {z : Int} (hc : p.Converts frame b j n d s c val r mem e)
    (hx : ∀ k : Course, k.Sound → k.Furnished → Unborn p.graph n k.before → k.env = p.env frame →
      k.site = c → k.val = val → k.cur = n →
      k.Ends [] (s.visiting j n d.op) lowerValueToInt32 ⟨.next, r, mem⟩ (k.Computes (.ok z))
        fun _ _ => False) :
    c.Performs (p.env frame) val j n d s r mem (.ok z) := by
  obtain ⟨g, hd, hg⟩ := hc.draft
  obtain ⟨base, hcompile⟩ := hc.compiled
  refine hc.taken.performs_of_lower hd hg hcompile hc.loaded rfl (by rw [hc.op]; rfl) (by simp [hc.op]) ?_
  intro layout final before hf k hk hu
  have hfits := hc.taken.fits hd hg hc.stands
  have hends := hx k hk (.of_lower hd hg hcompile hf hc.loaded hfits) hu rfl rfl rfl rfl
  rwa [hc.op] at hends ⊢

/-- A number comes out as its value modulo `2 ^ 32`. -/
lemma number (hc : p.Converts frame b j n d s c val r mem e) (hkind : e.kind = .number)
    (hx : (val e.node).number? = some x) :
    c.Performs (p.env frame) val j n d s r mem (.ok x.toInt32.toInt) := by
  refine hc.performs ?_
  rintro ⟨env, site, final, val, cur, before⟩ hk hf hu rfl rfl rfl rfl
  exact Course.Ends.lowerNumberToInt32 hk hf hu hc.taken.node hc.operand hc.stands hc.saves hkind
    ⟨hc.constant, hc.proven⟩ (hc.admits (Value.isNumber_of_number? hx)) hx

/-- A value comes out as the number that it counts as does. -/
lemma untyped (hc : p.Converts frame b j n d s c val r mem e) (hkind : e.kind = .untyped)
    (hx : ∀ mem', frame.Confined p.graph r mem mem' →
      runs (Semantics.toNumber (val e.node)) { c.world with memory := mem' } =
        (.ok x, { c.world with memory := mem' })) :
    c.Performs (p.env frame) val j n d s r mem (.ok x.toInt32.toInt) := by
  refine hc.performs ?_
  rintro ⟨env, site, final, val, cur, before⟩ hk hf hu rfl rfl rfl rfl
  exact Course.Ends.lowerUntypedToInt32 hk hf hu hc.taken.node hc.operand hc.stands hc.saves hkind
    (fun _ => hc.constant) hx

end Converts

/-- **Both ways of a conversion to 32 bits agree.** A double counts as its value truncated toward zero,
modulo `2 ^ 32` and with a sign, and as zero if it is not finite; an integer counts as itself. This is what
the code of a conversion of a number leaves, whether the hardware truncates it or the helper is called.
The code of a conversion of any value of the language leaves what the number counts as that the value is
converted to. -/
theorem toInt32_agrees : (∀ x : Double, x.toInt32 = x.wrapped) ∧
    (∀ i : Int32, (Double.ofInt32 i).wrapped = i) ∧
    ∀ p frame b j n d s c val r mem e, Converts p frame b j n d s c val r mem e →
      (e.kind = .number → ∀ x, (val e.node).number? = some x →
        c.Performs (p.env frame) val j n d s r mem (.ok x.wrapped.toInt)) ∧
      (e.kind = .untyped → ∀ w h limit, w.Sound limit h → h.Language (val e.node) →
        frame.BesideHeap p.graph w r mem →
        ∃ x, runs (Semantics.toNumber (val e.node)) w = (.ok x, w) ∧
          c.Performs (p.env frame) val j n d s r mem (.ok x.wrapped.toInt)) := by
  refine ⟨Double.toInt32_eq_wrapped, fun i => ?_, fun p frame b j n d s c val r mem e hc =>
    ⟨fun hkind x hx => ?_, fun hkind w h limit hw hv hbeside => ?_⟩⟩
  · rw [← Double.toInt32_eq_wrapped, Double.toInt32_ofInt32]
  · rw [← Double.toInt32_eq_wrapped]
    exact hc.number hkind hx
  · have hm := hw.houses.memory
    obtain ⟨l, hl, hlv⟩ := hw.exists_looks hv
    refine ⟨l.number, hlv ▸ runs_toNumber hm.shows hl, ?_⟩
    rw [← Double.toInt32_eq_wrapped]
    exact hc.untyped hkind fun mem' hconfined => hlv ▸ runs_toNumber (hbeside.shows hm hconfined) hl

end Plan

/-! ### Conversions of constants -/

def Draft.converting (v : Value) (t : TypeSet) : Draft :=
  let d := ({ name := "converting", kind := .program : Draft }).addBlock.select 0
  let d := (d.addNode (.constant v) [] t).2
  let d := (d.addNode .valueToInt32 [0] .int32).2
  (d.addNode .ret [1] .empty).2

lemma Draft.built_converting (v : Value) (t : TypeSet) : (Draft.converting v t).Built := by
  refine .addNode (.addNode (.addNode (((Draft.Built.new _ _).addBlock).select _) ?_ _ _ _ _) ?_ _ _ _ _)
    ?_ _ _ _ _
  · exact (by decide : 0 < UInt32.size)
  · exact (by decide : 1 < UInt32.size)
  · exact (by decide : 2 < UInt32.size)

namespace Plan

open World

variable {v : Value} {t : TypeSet} {w : World} {h : Heap}

def converting (v : Value) (t : TypeSet) : Plan := ofDraft (.converting v t)

def beforeConversion (v : Value) (t : TypeSet) : State := (converting v t).stateAt ⟨2, 27⟩ 0 1

lemma exists_converts (kind : UseKind) (hsketch : ((converting v t).sketch 0x7e0000000000).isSome = true)
    (ht : (converting v t).TakesUp ⟨2, 27⟩ 0 1 1 ((converting v t).nodeAt 1) (beforeConversion v t))
    (hgraph : (Draft.converting v t).finish.isOk = true ∧
      (converting v t).graph.valueConstant 0 = .ok (some v) ∧
      ((converting v t).nodeAt 1).op = .valueToInt32 ∧
      ((converting v t).nodeAt 1).children[0]? = some { node := 0, kind := kind })
    (hstate : ((beforeConversion v t).ledger.size = 2 ∧
        ∀ z ∈ (beforeConversion v t).ledger, z.location = .none ∧ z.spillFormat = .none) ∧
      ((beforeConversion v t).facts.known 0).subset .number = false ∧
      ((beforeConversion v t).facts.known 0).intersects .number = true)
    (hmap : ∀ i < 23, (withStack w).Mapped (onStack.slot i) 8) :
    ∃ c, ((converting v t).compile 0x7e0000000000).outcome = .ok c.artifact ∧
      (converting v t).Converts ⟨2, 27⟩ 0 1 1 ((converting v t).nodeAt 1) (beforeConversion v t) c
        (fun _ => v) onStack (withStack w) { node := 0, kind := kind } := by
  obtain ⟨hfinish, hconstant, hop, hchild⟩ := hgraph
  obtain ⟨⟨hsize, hledger⟩, hproven, hadmits⟩ := hstate
  obtain ⟨a, c, hcompile, hc, rfl, -⟩ := exists_loaded (converting v t) 0x7e0000000000 hsketch
    (show (0x7e0000000000 : UInt64).toNat + ({} : Options).codeLimit < UInt64.size by decide)
  refine ⟨c, hcompile,
    { draft := ⟨_, Draft.built_converting v t, finish_ofDraft hfinish⟩
      compiled := ⟨_, hcompile⟩
      loaded := hc
      taken := ht
      op := hop
      operand := hchild
      stands := .of_constants (by decide +kernel) (by decide +kernel) (by omega)
        (fun i hi => hmap i (by omega)) hledger
      saves := fun i hi => hmap (2 + i) (by simp only [saveAreaSlots] at hi; omega)
      constant := fun hx => Option.some.inj (Except.ok.inj (hconstant.symm.trans hx))
      proven := fun h => ?_
      admits := fun _ => hadmits }⟩
  rw [hproven] at h
  cases h

lemma besideHeap_withStack {g : Graph} (hslots : ∀ d ∈ g.nodes, d.slot = none ∨
      ∃ i < 3, d.slot = some (.ofLocal i)) (hnext : w.memory.next ≤ 0x20000000)
    (hsame : ∀ x : UInt64, x.toNat < w.memory.next → (withStack w).byte? x = w.memory.byte? x) :
    FrameLayout.BesideHeap ⟨2, 27⟩ g w onStack (withStack w) := fun _ _ hlt =>
  ⟨beyond_onStack hslots (by omega),
    fun i hi => apart_onStack (i := 2 + i) (by simp only [saveAreaSlots] at hi; omega) (by omega),
    hsame _ hlt⟩

/-- A fraction that is too large for 32 bits. -/
def large : Value := .ofDouble ⟨0x41f0000000250000⟩

/-- It is truncated and reduced, and a truth value is converted to a number. -/
theorem toInt32_agrees_constants : ∃ c₀ c₁ : Site,
    ((converting large .number).compile 0x7e0000000000).outcome = .ok c₀.artifact ∧
    c₀.Performs ((converting large .number).env ⟨2, 27⟩) (fun _ => large) 1 1
      ((converting large .number).nodeAt 1) (beforeConversion large .number) onStack
      (withStack World.start) (.ok 2) ∧
    ((converting (.ofBool true) .boolean).compile 0x7e0000000000).outcome = .ok c₁.artifact ∧
    c₁.Performs ((converting (.ofBool true) .boolean).env ⟨2, 27⟩) (fun _ => .ofBool true) 1 1
      ((converting (.ofBool true) .boolean).nodeAt 1) (beforeConversion (.ofBool true) .boolean)
      onStack (withStack World.start) (.ok 1) := by
  obtain ⟨h, hw, hnext⟩ := sound_start 281474976710656 (by decide) (Nat.le_refl _)
  have hlow : Memory.heapBase + startSize ≤ 0x20000000 := by decide
  obtain ⟨hmap, hsame⟩ := byte?_withStack hw (by omega)
  obtain ⟨c₀, hcompile₀, hc₀⟩ := exists_converts (v := large) (t := .number) .number
    (by decide +kernel) (takesUp_of_isOk (by decide +kernel) (by decide +kernel) (by decide +kernel)
      (by decide +kernel) (by decide +kernel) (by decide +kernel)) (by decide +kernel)
    (by decide +kernel) hmap
  obtain ⟨c₁, hcompile₁, hc₁⟩ := exists_converts (v := .ofBool true) (t := .boolean) .untyped
    (by decide +kernel) (takesUp_of_isOk (by decide +kernel) (by decide +kernel) (by decide +kernel)
      (by decide +kernel) (by decide +kernel) (by decide +kernel)) (by decide +kernel)
    (by decide +kernel) hmap
  have hlarge : large.number? = some ⟨0x41f0000000250000⟩ :=
    Value.number?_of_double? (Value.double?_ofDouble (by decide))
  have htrue : (Value.ofBool true).isBoolean = true := by decide
  obtain ⟨-, -, hagrees⟩ := toInt32_agrees
  have hperforms₀ := (hagrees _ _ _ _ _ _ _ _ _ _ _ _ hc₀).1 rfl _ hlarge
  obtain ⟨x, hx, hperforms₁⟩ := (hagrees _ _ _ _ _ _ _ _ _ _ _ _ hc₁).2 rfl World.start h _ hw
    (.inr (.inl htrue)) (besideHeap_withStack (by decide +kernel) (by omega) hsame)
  obtain rfl : Double.ofInt 1 = x := Except.ok.inj (congrArg Prod.fst hx)
  rw [← Double.toInt32_eq_wrapped] at hperforms₀ hperforms₁
  have htwo : (⟨0x41f0000000250000⟩ : Double).toInt32.toInt = 2 := by decide +kernel
  have hone : (Double.ofInt 1).toInt32.toInt = 1 := by decide +kernel
  rw [htwo] at hperforms₀
  rw [hone] at hperforms₁
  exact ⟨c₀, c₁, hcompile₀, hperforms₀, hcompile₁, hperforms₁⟩

end Plan
end Speculation
