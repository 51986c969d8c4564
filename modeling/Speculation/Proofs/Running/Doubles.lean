import Speculation.Proofs.Compile.WellFormed
import Speculation.Proofs.Numbers
import Speculation.Proofs.Running.Boxed
import Speculation.Proofs.Running.Results

/-!
Raw doubles while code is running.

An operand that is filled as a double is a number, or the machine leaves. An integer is converted, and
a boxed double is unboxed by way of the scratch register, in which there never is a value. A constant
is loaded from the pool behind the code.
-/

namespace Speculation

open Lowering

namespace Lowering

/-- A boxed double is unboxed; where the label for integers leads, an integer is converted. -/
def unboxOrConvert (f : Fpr) (q : Gpr) (isInt done : Label) : Lower Fpr := do
  mov .scratch q
  alu64 .add .scratch (.reg .numberTag)
  emit' (.movGToD f .scratch)
  jmp done
  attach isInt
  emit' (.cvtIntToD f q)
  attach done
  return f

def unboxNumber (e : Edge) (f : Fpr) (q : Gpr) : Lower Fpr := do
  let isInt ← newLabel
  let done ← newLabel
  cmp64 q (.reg .numberTag)
  jcc .ae isInt
  unless ← provenIs e .number do
    test64 q (.reg .numberTag)
    guard' .badType .e
  unboxOrConvert f q isInt done

lemma doubleFromGpr_js (e : Edge) (q : Gpr) :
    doubleFromGpr e q .js = allocFpr >>= fun f => unboxNumber e f q := rfl

end Lowering

/-- The register has the double, and others than it and the scratch register have what they had. -/
structure Registers.Takes (r : Registers) (f : Fpr) (z : Double) (r' : Registers) : Prop where
  self : r'.fpr f = z
  gpr {p : Gpr} (hp : p ≠ .scratch) : r'.gpr p = r.gpr p
  fpr {g : Fpr} (hg : g ≠ f) : r'.fpr g = r.fpr g

section Registers

variable {val : NodeId → Value} {g : Graph} {cur : NodeId} {before : List NodeId}
  {s s₁ s₂ s' : State} {r r' r'' : Registers} {mem mem' : Memory} {f : Fpr} {z : Double}

namespace Registers.Takes

lemma of_setFpr (r : Registers) (f : Fpr) (z : Double) : r.Takes f z (r.setFpr f z) where
  self := by rw [fpr_setFpr, if_pos rfl]
  gpr _ := rfl
  fpr hg := by rw [fpr_setFpr, if_neg hg]

/-- What happened before to flags and to the scratch register does not count. -/
lemma of_gpr (h : r'.Takes f z r'') (hg : ∀ {p}, p ≠ .scratch → r'.gpr p = r.gpr p)
    (hf : r'.fpr = r.fpr) : r.Takes f z r'' where
  self := h.self
  gpr hp := (h.gpr hp).trans (hg hp)
  fpr hg := (h.fpr hg).trans (congrFun hf _)

end Registers.Takes

/-- A register that was taken gets a double. -/
lemma Stands.takes (h : Stands val s.ledger r mem) (hs : Coherent g cur before [] s)
    (ht : s.Taken (.fpr f)) (hr : r.Takes f z r') : Stands val s.ledger r' mem := by
  refine h.of_unowned hs (hr.gpr (by decide)) (hr.gpr (by decide)) (hr.gpr (by decide)) fun l hl => ?_
  rcases l with _ | p | q
  · rfl
  · obtain ⟨o, ho⟩ := Option.ne_none_iff_exists'.mp hl
    exact hr.gpr (Location.ne_of_mem (Bank.mem_allocatable_of_owner ho)).2.2.2
  · have hqf : q ≠ f := by
      rintro rfl
      exact hl ht.2
    exact congrArg Double.bits (hr.fpr hqf)

/-- A register that was handed out gets a double. -/
lemma Spares.takes (hp : Spares g s r mem s' r' mem') (h : Handed s₁ s₂ (.fpr f))
    (hlocks : ∀ l, s.locks l ≤ s₁.locks l) (hr : r'.Takes f z r'') : Spares g s r mem s' r'' mem' :=
  { hp with
    word := fun {l} hl => by
      refine Eq.trans ?_ (hp.word hl)
      rcases l with _ | p | q
      · rfl
      · exact hr.gpr (Location.ne_of_mem (Bank.mem_allocatable_of_locksOf hl)).2.2.2
      · have hqf : q ≠ f := by
          rintro rfl
          have hle := hlocks (.fpr q)
          rw [h.free] at hle
          exact absurd hl (Nat.not_lt.mpr hle)
        exact congrArg Double.bits (hr.fpr hqf)
    frame := (hr.gpr (by decide)).trans hp.frame }

end Registers

namespace Value

variable {v : Value}

lemma number?_of_isInt32 (h : v.isInt32 = true) : v.number? = some (.ofInt32 (low v.bits)) := by
  rw [number?, int32?, if_pos h]
  rfl

/-- Adding the tag takes the offset off. -/
lemma number?_of_isDouble (h : v.isDouble = true) : v.number? = some ⟨v.bits + numberTag⟩ := by
  have htag : numberTag = -doubleOffset := rfl
  refine number?_of_double? ?_
  rw [double?, if_pos h, htag, UInt64.sub_eq_add_neg]

end Value

namespace Represents

variable {format : DataFormat} {w : UInt64} {v : Value}

lemma isNumber_eq_false (h : Represents format w v) (hi : format ≠ .int32) (hd : format ≠ .double)
    (hj : format ≠ .js) (hji : format ≠ .jsInt32) (hjd : format ≠ .jsDouble) : v.isNumber = false := by
  cases format with
  | none => exact h.elim
  | int32 => exact absurd rfl hi
  | double => exact absurd rfl hd
  | boolean =>
    obtain ⟨b, rfl, -⟩ := h
    exact Value.isNumber_of_isBoolean (Value.isBoolean_ofBool b)
  | cell => exact Value.isNumber_of_isCell h.2
  | storage => exact h.2
  | js => exact absurd rfl hj
  | jsInt32 => exact absurd rfl hji
  | jsDouble => exact absurd rfl hjd
  | jsCell => exact Value.isNumber_of_isCell h.2
  | jsBoolean => exact Value.isNumber_of_isBoolean h.2

lemma number?_of_int (h : Represents format w v) (hf : format = .int32 ∨ format = .jsInt32) :
    v.number? = some (.ofInt32 (Speculation.low w)) := by
  obtain ⟨i, rfl, hlow⟩ := h.low hf
  rw [Value.number?_ofInt32, hlow]

end Represents

lemma Cond.holds_e_and64 {a b : UInt64} {d : Option Ordering} :
    Cond.e.holds (Size.s64.run .and a b).2 d = decide (a &&& b = 0) := by
  show (a.toBitVec &&& b.toBitVec == 0#64) = _
  rw [Bool.eq_iff_iff, decide_eq_true_iff, beq_iff_eq, ← UInt64.toBitVec_inj]
  rfl

/-- Integers are not below the tag. -/
lemma Cond.holds_ae_sub_tag {r : Registers} {q : Gpr} {v : Value}
    (h : r.gpr .numberTag = Value.numberTag) (hq : r.gpr q = v.bits) :
    Cond.ae.holds (Size.run .s64 .sub (r.gpr q) (r.operand (.reg .numberTag))).2 r.order =
      v.isInt32 := by
  have hb := Cond.holds_b_sub_tag h hq
  rw [← Bool.not_inj_iff, ← hb]
  exact Bool.not_not _

namespace Course

variable {α β : Type} {k : Course} {ls : List Label} {s s' s'' : State} {r r' : Registers}
  {mem mem' : Memory} {t t' : Moment} {q : Gpr} {f : Fpr} {l : Label} {i : Nat} {x : ValueInfo}
  {n : NodeId} {d : Node} {e : Edge} {format : DataFormat} {w : UInt64} {z : Double} {v : Value}
  {T : State → Moment → Prop}

/-! ### Constants -/

/-- Where a constant was asked for, it is what the code loads. -/
def Supplied (k : Course) : Prop :=
  ∀ ⦃o : Nat⦄ ⦃bits : UInt64⦄, (o, bits) ∈ k.final.loads → ∃ (f : Fpr) (rel : Int32) (n : Nat),
    Inst.decodeAt k.site.artifact.code o = .ok (.loadDConst f rel, n) ∧
      k.site.artifact.readData? (k.site.artifact.addressOf
        (o + (Inst.loadDConst f rel).encode.length) + rel.toInt64.toUInt64) = some bits

lemma addressOf_add {a : Artifact} {i : Inst} {o j : Nat} {rel : Int32} (h : i.reach o rel = j) :
    a.addressOf (o + i.encode.length) + rel.toInt64.toUInt64 = a.addressOf j := by
  have hrel := toNat_extend rel
  unfold Inst.reach at h
  rw [Artifact.addressOf, Artifact.addressOf, UInt64.add_assoc]
  congr 1
  apply UInt64.toNat_inj.mp
  simp only [UInt64.toNat_add, UInt64.toNat_ofNat']
  omega

/-- A word of the pool is read where it is. -/
lemma readData?_addressOf {a : Artifact} {j : Nat} {bits : UInt64}
    (hroom : a.base.toNat + a.code.size < UInt64.size)
    (h : Bytes.window a.code j 8 = Encoding.uint64 bits) :
    a.readData? (a.addressOf j) = some bits := by
  have hlen := congrArg List.length h
  rw [Bytes.window_eq, Encoding.uint64, Bytes.length_ofNat, List.length_take, List.length_drop,
    Array.length_toList, ByteArray.size_data] at hlen
  have hsize : UInt64.size = 18446744073709551616 := rfl
  have hj : (UInt64.ofNat j).toNat = j := UInt64.toNat_ofNat_of_lt' (by omega)
  have hat : (a.addressOf j).toNat = a.base.toNat + j := Memory.toNat_add_ofNat (by omega)
  have hdiff : a.addressOf j - a.base = UInt64.ofNat j := by
    rw [Artifact.addressOf, UInt64.add_comm, UInt64.add_sub_cancel]
  have hlow : ¬a.addressOf j < a.base := by
    rw [UInt64.lt_iff_toNat_lt]
    omega
  rw [Artifact.readData?, if_neg hlow, hdiff, hj, h]
  simp only [Encoding.uint64, Bytes.length_ofNat, if_true]
  rw [Bytes.toNat_ofNat_of_lt bits.toNat_lt, UInt64.ofNat_toNat]

/-- The pool of compiled code has the constants. -/
lemma Supplied.of_compile {p : Plan} {base : UInt64} {frame : FrameLayout} {layout : Layout}
    (h : (p.compile base).outcome = .ok k.site.artifact) (hf : p.lower = .ok (frame, layout, k.final))
    (hc : k.site.Loaded) : k.Supplied := by
  intro o bits hload
  obtain ⟨frame', layout', s', code, hs', hcode, hart, -⟩ := Plan.build_ok h
  rw [hf] at hs'
  cases hs'
  obtain ⟨rfl, -, -, rfl, -⟩ := Plan.artifact_ok hart
  obtain ⟨s₁, hasm⟩ := Plan.assembled_of_lower hf
  have hloads : k.final.loads = s₁.loads := by rw [hasm.pools.rest]
  obtain ⟨f, rel, n, j, hdecode, hreach, -, hword⟩ := Plan.load_of_pooled hcode
    (hasm.insts.aimed (Plan.aimed_start p frame)).pooled hasm.pools (hloads ▸ hload)
  refine ⟨f, rel, n, hdecode, ?_⟩
  rw [addressOf_add hreach]
  exact readData?_addressOf hc.room hword

/-- A load of a constant was emitted. -/
lemma reaches_loadDConst {s₁ : State} {asm : Assembler} (hk : k.Sound) (hsup : k.Supplied)
    (hm : ∃ ps, s₁.asm.Made ps)
    (hadds : s₁.asm.Adds asm [.inst (.loadDConst f 0) (some (.label l))])
    (hstart : s₁.asm.offset = s.asm.offset) (hload : (s₁.asm.offset, z.bits) ∈ s'.loads)
    (hasm : s'.asm = asm) :
    k.Reaches s ⟨.next, r, mem⟩ s' ⟨.next, r.setFpr f z, mem⟩ := by
  subst hasm
  rintro he o rfl
  obtain ⟨ps, hm⟩ := hm
  have hstands := he.stands (hm.stands hadds (by simp [Piece.Fits, Assembler.RelocTarget.fits,
    Inst.rel32Field?]))
  obtain ⟨j, rel, -, hres, -⟩ := hstands.near hk.linked
  have hnext := hk.next hstands r mem
  rw [hres] at hnext
  obtain ⟨f', rel', n, hdecode, hdata⟩ := hsup (he.loads hload)
  obtain ⟨hf, hrel⟩ := Inst.loadDConst.inj
    (congrArg Prod.fst (Except.ok.inj (hnext.1.symm.trans hdecode)))
  obtain rfl : f = f' := hf
  obtain rfl : rel = rel' := hrel
  have hoffset : s'.asm.offset = s₁.asm.offset + (Inst.loadDConst f rel).encode.length := by
    rw [hadds.offset]
    rfl
  rw [hstart] at hnext hoffset hdata
  refine ⟨1, _, Site.goes_of_execute hk.loaded hnext ?_, hoffset.symm⟩
  let m : Machine := ⟨r, mem, s.asm.offset⟩
  have hart : World.runs (World.artifact (k.site.past m (.loadDConst f rel)).code) (k.site.around m) =
      (.ok k.site.artifact, k.site.around m) := World.runs_artifact hk.loaded.artifact
  have hpc : (k.site.past m (.loadDConst f rel)).pc = k.site.artifact.addressOf
      (s.asm.offset + (Inst.loadDConst f rel).encode.length) := rfl
  simp only [Inst.setRel, Execution.execute]
  rw [World.runs_bind_of_ok hart, hpc, hdata]
  rfl

namespace Wp

lemma loadDoubleConstant {Q : Unit → State → Moment → Prop} (hk : k.Sound) (hsup : k.Supplied)
    (hQ : ∀ s', k.Follows s s' → Q () s' ⟨.next, r.setFpr f z, mem⟩) :
    k.Wp ls s (loadDoubleConstant f z) ⟨.next, r, mem⟩ Q T :=
  .of_calm (Calm.loadDoubleConstant f z) (Extending.loadDoubleConstant f z) fun hm _ => by
    have hemit : ∀ (s₁ : State) (l : Label), (∃ ps, s₁.asm.Made ps) → s₁.asm.offset = s.asm.offset →
        (s₁.asm.offset, z.bits) ∈ s₁.loads →
        Leads k.env s₁ (Functor.discard (Lowering.emitReloc (.loadDConst f 0) (.label l)))
          (fun a s' => ∃ t', k.Reaches s ⟨.next, r, mem⟩ s' t' ∧ (k.Follows s s' → Q a s' t'))
          (fun _ => True) fun _ _ => True := by
      intro s₁ l hm₁ hstart hload
      obtain ⟨asm, ha, hadds, -⟩ :=
        Assembler.adds_emitReloc (a := s₁.asm) (i := .loadDConst f 0) (t := .label l) rfl
      unfold Lowering.emitReloc
      simp only [leads_discard, leads_bind, leads_get, ha, leads_assume_ok]
      exact ⟨_, reaches_loadDConst hk hsup hm₁ hadds hstart hload rfl, hQ _⟩
    unfold Lowering.loadDoubleConstant
    simp only [leads_bind, leads_modify, leads_get]
    split
    · exact hemit _ _ hm rfl Array.mem_push_self
    · simp only [leads_bind, leads_modify]
      obtain ⟨ps, hm⟩ := hm
      exact leads_modifyGet.mpr (hemit _ _ ⟨ps, hm.code, hm.relocs, hm.fits⟩ rfl Array.mem_push_self)

/-! ### Registers and slots -/

lemma vacateFpr {Q : Fpr → State → Moment → Prop} (hk : k.Sound) (h : Equipped s.ledger r mem)
    (hQ : ∀ f s' mem', Handed s s' (.fpr f) → Evicts k.env.graph s r mem s' mem' →
      Q f s' ⟨.next, r, mem'⟩) : k.Wp ls s allocFpr ⟨.next, r, mem⟩ Q T := by
  refine .of_leads leads_allocFpr Extending.allocFpr fun hm hs => ?_
  rw [Lowering.allocFpr, leads_bind, leads_get, leads_bind, leads_check]
  refine ⟨?_, fun _ _ => trivial⟩
  rintro ⟨a, b⟩ hab
  have he : a.evicted = s.owner (.fpr a.register) := (hs.fprs.allocate hab).evicted
  refine (leads_vacate hk hm hs h he).weaken ?_
  rintro q s' ⟨rfl, mem', hr, hev⟩
  exact ⟨_, hr, fun _ hh => hQ _ s' mem' hh hev⟩

lemma allocFpr {Q : Fpr → State → Moment → Prop} (hk : k.Sound) (h : Stands k.val s.ledger r mem)
    (hQ : ∀ f s' mem', Handed s s' (.fpr f) → Preserves k.env.graph s r mem s' r mem' →
      Stands k.val s'.ledger r mem' → Q f s' ⟨.next, r, mem'⟩) :
    k.Wp ls s allocFpr ⟨.next, r, mem⟩ Q T :=
  .vacateFpr hk h.equipped fun f s' mem' hh he =>
    hQ f s' mem' hh ⟨he.toSpares, hh.onward⟩ (he.stands h)

lemma bindFpr {Q : Unit → State → Moment → Prop} (h : Stands k.val s.ledger r mem)
    (he : Entry k.env.graph s n d i x) (hx : x.location = .none) (hf : s.Taken (.fpr f))
    (hrep : Represents .double (r.fpr f).bits (k.val n))
    (hQ : ∀ s', s'.locks = s.locks → Spares k.env.graph s r mem s' r mem →
      Stands k.val s'.ledger r mem → (∀ l, s'.owner l = if l = .fpr f then some (.ofLocal i) else s.owner l) →
      Q () s' ⟨.next, r, mem⟩) : k.Wp ls s (bindFpr n f) ⟨.next, r, mem⟩ Q T := by
  refine .of_leads (fun hs => leads_bindFpr hs he hx hf) (Extending.bindFpr n f) fun _ hs => ?_
  rw [Lowering.bindFpr, leads_bind, leads_slotOf he.node he.slot, leads_bind,
    leads_info he.node he.slot he.index he.entry, leads_bind,
    leads_setInfo he.node he.slot he.index he.entry]
  have hst : Stands k.val (s.ledger.setIfInBounds i (x.fillFpr f)) r mem := by
    refine h.set (fun m hm _ => ?_) (fun _ _ => rfl) fun m hm hsf => h.slot (x := x) he.entry hm hsf
    have hmn : m = n := Option.some.inj (hm.symm.trans he.named)
    exact hmn ▸ hrep
  refine ⟨_, .of_offset rfl, fun _ hr => hQ _ hr.1 (.of_facts rfl fun hp => ?_) hst hr.2⟩
  exact hp.set fun hm => ⟨fun h => DataFormat.noConfusion h, (hp he.entry hm).2⟩

/-- A double is loaded from its slot. -/
lemma fillSpilledFpr {Q : Fpr → State → Moment → Prop} (hk : k.Sound)
    (h : Stands k.val s.ledger r mem) (he : Entry k.env.graph s n d i x) (hx : x.location = .none)
    (hf : x.spillFormat = .double)
    (hQ : ∀ f s' r' mem', k.Brings s r mem n (.fpr f) s' r' mem' →
      (k.val n).double? = some (r'.fpr f) → Q f s' ⟨.next, r', mem'⟩) :
    k.Wp ls s (fillSpilledFpr n) ⟨.next, r, mem⟩ Q T := by
  refine .bind (.allocFpr hk h fun f s₁ mem₁ hh hp₁ h₁ => ?_)
  have he₁ : Entry k.env.graph s₁ n d i x := { he with entry := hh.elsewhere he.entry hx }
  obtain ⟨w, hw, hrep⟩ := h₁.slot he₁.entry he₁.named (hf ▸ nofun)
  rw [hf] at hrep
  refine .look (P := (· = .ofLocal i)) (F := fun _ _ => True)
    (fun _ => (leads_slotOf he₁.node he₁.slot).mpr ⟨rfl, rfl⟩) ?_
  rintro _ rfl
  have hload : (Inst.loadD f (FrameLayout.address (.ofLocal i))).effect r mem₁ =
      some (r.setFpr f ⟨w⟩, mem₁) := by
    show (mem₁.read? 8 (r.slot i)).map _ = _
    rw [hw, Option.map_some, UInt64.ofNat_toNat]
  refine .bind (.emit' hk rfl (Inst.steps_of_effect hload) fun s₂ h₂ => .intro fun hs₂ _ => ?_)
  have hh₂ := hh.of_same h₂.toSame
  have he₂ : Entry k.env.graph s₂ n d i x := { he with entry := hh₂.elsewhere he.entry hx }
  have htakes := Registers.Takes.of_setFpr r f ⟨w⟩
  have hst : Stands k.val s₂.ledger (r.setFpr f ⟨w⟩) mem₁ :=
    Stands.takes (h₂.ledger ▸ h₁) hs₂ hh₂.taken htakes
  have hrep₂ : Represents .double ((r.setFpr f ⟨w⟩).fpr f).bits (k.val n) := by
    rw [htakes.self]
    exact hrep
  refine .bind (.bindFpr hst he₂ hx hh₂.taken hrep₂ fun s₃ hl₃ hp₃ h₃ ho₃ => .pure ?_)
  have hfilled := hh₂.filled_of_bound he hl₃ ho₃
  have hp := (hp₁.trans (.of_same h₂.toSame)).toSpares.then_facts hp₃.facts hp₃.plain
  refine hQ f s₃ _ mem₁ ⟨hfilled, ⟨hp.takes hh (fun _ => Nat.le_refl _) htakes, hfilled.onward⟩, h₃⟩ ?_
  rw [htakes.self]
  exact hrep

/-! ### Numbers -/

/-- An integer in a register is converted. -/
lemma convert {Q : Unit → State → Moment → Prop} (hk : k.Sound)
    (hv : v.number? = some (.ofInt32 (low (r.gpr q))))
    (hQ : ∀ s' r' z, k.Follows s s' → v.number? = some z → r.Takes f z r' → Q () s' ⟨.next, r', mem⟩) :
    k.Wp ls s (Lowering.emit' (.cvtIntToD f q)) ⟨.next, r, mem⟩ Q T :=
  .emit' hk rfl Inst.steps_cvtIntToD fun s₁ h₁ => hQ s₁ _ _ h₁ hv (.of_setFpr r f _)

lemma unbox {Q : Fpr → State → Moment → Prop} {x : Lower Fpr} (hk : k.Sound)
    (hn : r.gpr .numberTag = Value.numberTag) (hq : r.gpr q = v.bits) (hv : v.isDouble = true)
    (hx : ∀ s' r' z, k.Follows s s' → v.number? = some z → r.Takes f z r' →
      k.Wp ls s' x ⟨.next, r', mem⟩ Q T) :
    k.Wp ls s (do
      Lowering.mov .scratch q
      alu64 .add .scratch (.reg .numberTag)
      Lowering.emit' (.movGToD f .scratch)
      x) ⟨.next, r, mem⟩ Q T := by
  refine .bind (.mov hk fun s₁ h₁ => .bind (.emit' hk rfl Inst.steps_alu fun s₂ h₂ => ?_))
  refine .bind (.emit' hk rfl Inst.steps_movGToD fun s₃ h₃ => ?_)
  refine hx s₃ _ ⟨v.bits + Value.numberTag⟩ ((h₁.trans h₂).trans h₃) (Value.number?_of_isDouble hv) ?_
  have hscratch : (r.setGpr .scratch (r.gpr q)).gpr .scratch = v.bits := by
    rw [Registers.gpr_setGpr, if_pos rfl, hq]
  have htag : (r.setGpr .scratch (r.gpr q)).operand (.reg .numberTag) = Value.numberTag := by
    show (r.setGpr .scratch (r.gpr q)).gpr .numberTag = _
    rw [Registers.gpr_setGpr, if_neg (by decide), hn]
  have hsum : ∀ flags, ((({ r.setGpr .scratch (r.gpr q) with flags } : Registers).setGpr .scratch
      (Size.s64.run .add ((r.setGpr .scratch (r.gpr q)).gpr .scratch)
        ((r.setGpr .scratch (r.gpr q)).operand (.reg .numberTag))).1).gpr .scratch) =
      v.bits + Value.numberTag := by
    intro flags
    rw [Registers.gpr_setGpr, if_pos rfl, hscratch, htag]
    rfl
  rw [hsum]
  refine (Registers.Takes.of_setFpr _ f _).of_gpr (fun {p} hp => ?_) rfl
  rw [Registers.gpr_setGpr, if_neg hp, Registers.gpr_flags, Registers.gpr_setGpr, if_neg hp]

section Join

variable {isInt done : Label} {σ : Spot} {Q : Fpr → State → Moment → Prop}

/-- A machine that is on its way to somewhere else than the end does not come by the unboxing. -/
lemma unboxOrConvert_skip (hd : done ∈ ls) (hσ : σ ≠ .next)
    (hx : ∀ s', k.Follows s s' → k.Wp ls s' (do
      Lowering.attach isInt
      Lowering.emit' (.cvtIntToD f q)
      Lowering.attach done
      return f) ⟨σ, r, mem⟩ Q T) :
    k.Wp ls s (unboxOrConvert f q isInt done) ⟨σ, r, mem⟩ Q T := by
  refine .bind (.skip (Calm.mov _ _) (.mov _ _) hσ fun _ s₁ h₁ => ?_)
  refine .bind (.skip (Calm.alu64 _ _ _) (.alu64 _ _ _) hσ fun _ s₂ h₂ => ?_)
  refine .bind (.skip (Calm.emit' _) (.emit' rfl) hσ fun _ s₃ h₃ => ?_)
  exact .bind (.skip (Calm.jmp _) (.jmp hd) hσ fun _ s₄ h₄ => hx s₄ (((h₁.trans h₂).trans h₃).trans h₄))

variable (hk : k.Sound) (hd : done ∈ ls) (hne : done ≠ isInt)
include hk hd hne

lemma unboxOrConvert_double (hn : r.gpr .numberTag = Value.numberTag) (hq : r.gpr q = v.bits)
    (hv : v.isDouble = true)
    (hx : ∀ s' r' z, k.Follows s s' → v.number? = some z → r.Takes f z r' →
      k.Wp ls s' (Pure.pure f) ⟨.next, r', mem⟩ Q T) :
    k.Wp ls s (unboxOrConvert f q isInt done) ⟨.next, r, mem⟩ Q T := by
  refine .unbox hk hn hq hv fun s₁ r₁ z h₁ hz hr₁ => .bind (.jmp hk hd fun s₂ h₂ => ?_)
  refine .bind (.attach fun s₃ h₃ => ?_)
  rw [if_neg (by simpa using hne)]
  refine .bind (.skip (Calm.emit' _) (.emit' rfl) nofun fun _ s₄ h₄ => .bind (.attach fun s₅ h₅ => ?_))
  rw [if_pos rfl]
  exact hx s₅ r₁ z ((((h₁.trans h₂).trans h₃).trans h₄).trans h₅) hz hr₁

omit hne in
lemma unboxOrConvert_int (hv : v.number? = some (.ofInt32 (low (r.gpr q))))
    (hx : ∀ s' r' z, k.Follows s s' → v.number? = some z → r.Takes f z r' →
      k.Wp ls s' (Pure.pure f) ⟨.next, r', mem⟩ Q T) :
    k.Wp ls s (unboxOrConvert f q isInt done) ⟨.label isInt, r, mem⟩ Q T := by
  refine unboxOrConvert_skip hd nofun fun s₁ h₁ => .bind (.attach fun s₂ h₂ => ?_)
  rw [if_pos rfl]
  refine .bind (.convert hk hv fun s₃ r₃ z h₃ hz hr₃ => .bind (.attach fun s₄ h₄ => ?_))
  rw [if_neg nofun]
  exact hx s₄ r₃ z (((h₁.trans h₂).trans h₃).trans h₄) hz hr₃

omit hk hne in
lemma unboxOrConvert_exit {kind : ExitKind}
    (hQ : ∀ s', k.Follows s s' → Q f s' ⟨.exit kind, r, mem⟩) :
    k.Wp ls s (unboxOrConvert f q isInt done) ⟨.exit kind, r, mem⟩ Q T := by
  refine unboxOrConvert_skip hd nofun fun s₁ h₁ => .bind (.attach fun s₂ h₂ => ?_)
  rw [if_neg nofun]
  refine .bind (.skip (Calm.emit' _) (.emit' rfl) nofun fun _ s₃ h₃ => .bind (.attach fun s₄ h₄ => ?_))
  rw [if_neg nofun]
  exact .pure (hQ s₄ (((h₁.trans h₂).trans h₃).trans h₄))

end Join

end Wp

namespace Wp

/-- A number in a register becomes a double in one that was handed out for it, or the machine leaves.
Only code is emitted. -/
lemma unboxNumber {Q : Fpr → State → Moment → Prop} (hk : k.Sound)
    (hn : r.gpr .numberTag = Value.numberTag) (hq : r.gpr q = v.bits)
    (hproven : (s.facts.known e.node).subset .number = true → v.isNumber = true)
    (hQ : ∀ {ls'} s' r' z, k.Follows s s' → v.number? = some z → r.Takes f z r' →
      k.Wp ls' s' (Pure.pure f) ⟨.next, r', mem⟩ Q T)
    (hx : v.isNumber = false → ∀ s' r', k.Follows s s' → Q f s' ⟨.exit .badType, r', mem⟩) :
    k.Wp ls s (Lowering.unboxNumber e f q) ⟨.next, r, mem⟩ Q T := by
  have hend : ∀ {ls' s₂ z} {r₁ r₂ : Registers}, k.Follows s s₂ → r₁.gpr = r.gpr → r₁.fpr = r.fpr →
      v.number? = some z → r₁.Takes f z r₂ →
      k.Wp ls' s₂ (Pure.pure f) ⟨.next, r₂, mem⟩ Q T := fun h₂ hgpr hfpr hz hr =>
    hQ _ _ _ h₂ hz (hr.of_gpr (fun _ => congrFun hgpr _) hfpr)
  refine .bindNewLabel fun isInt s₂ h₂ _ => .bindNewLabel fun done s₃ h₃ hnew => ?_
  have hne : done ≠ isInt := fun heq => hnew (heq ▸ List.mem_cons_self)
  have hdone : done ∈ done :: isInt :: ls := List.mem_cons_self
  refine .bind (.emit' hk rfl Inst.steps_cmp fun s₄ h₄ => ?_)
  have htag := Cond.holds_ae_sub_tag hn hq
  obtain ⟨rc, hrc⟩ : ∃ rc : Registers, rc = { r with
    flags := (Size.s64.run .sub (r.gpr q) (r.operand (.reg .numberTag))).2 } := ⟨_, rfl⟩
  rw [← hrc]
  have hsame : rc.gpr = r.gpr ∧ rc.fpr = r.fpr := hrc ▸ ⟨rfl, rfl⟩
  obtain ⟨hgpr, hfpr⟩ := hsame
  have hint? : Cond.ae.holds rc.flags rc.order = v.isInt32 := by
    rw [hrc]
    exact htag
  refine .bind (.jcc hk (List.mem_cons_of_mem _ List.mem_cons_self) (fun hc s₅ h₅ => ?_)
    fun hc s₅ h₅ => ?_)
  all_goals
    have h₁₅ := ((h₂.trans h₃).trans h₄).trans h₅
    refine .look (fun _ => looks_provenIs) fun p hp => ?_
  · -- an integer is converted at its label
    have hlow : v.number? = some (.ofInt32 (low (rc.gpr q))) := by
      rw [hgpr, hq]
      exact Value.number?_of_isInt32 (hint?.symm.trans hc)
    have hjoin : ∀ {s'}, k.Follows s₅ s' → k.Wp (done :: isInt :: ls) s'
        (unboxOrConvert f q isInt done) ⟨.label isInt, rc, mem⟩ Q T := fun h' =>
      unboxOrConvert_int hk hdone hlow fun s₆ r₆ z h₆ hz hr =>
        hend ((h₁₅.trans h').trans h₆) hgpr hfpr hz hr
    refine .ite (fun _ => hjoin (.refl s₅)) fun _ => ?_
    refine .bind (.skip (Calm.test64 _ _) (.test64 _ _) nofun fun _ s₆ h₆ => ?_)
    exact .bind (.skip (Calm.guard' (by decide) _) (.guard' _ _) nofun fun _ s₇ h₇ =>
      hjoin (h₆.trans h₇))
  · have hno : v.isInt32 = false := hint?.symm.trans hc
    have hjoin : ∀ {s' r'}, k.Follows s₅ s' → r'.gpr = r.gpr → r'.fpr = r.fpr →
        v.isNumber = true → k.Wp (done :: isInt :: ls) s'
        (unboxOrConvert f q isInt done) ⟨.next, r', mem⟩ Q T := fun h' hg hf hnumber =>
      unboxOrConvert_double hk hdone hne ((congrFun hg _).trans hn) ((congrFun hg _).trans hq)
        (Value.isDouble_of_isNumber hnumber hno)
        fun s₆ r₆ z h₆ hz hr => hend ((h₁₅.trans h').trans h₆) hg hf hz hr
    refine .ite (fun hp' => ?_) fun _ => ?_
    · refine hjoin (.refl s₅) hgpr hfpr (hproven ?_)
      rw [← h₁₅.facts]
      exact hp ▸ hp'
    · refine .bind (.emit' hk rfl Inst.steps_test fun s₆ h₆ => ?_)
      have htest : Cond.e.holds (Size.s64.run .and (rc.gpr q) (rc.operand (.reg .numberTag))).2
          rc.order = !v.isNumber := by
        have htagged : rc.operand (.reg .numberTag) = Value.numberTag :=
          (congrFun hgpr _).trans hn
        rw [Cond.holds_e_and64, htagged, hgpr, hq, Value.isNumber, bne, Bool.not_not, beq_eq_decide]
      obtain ⟨rt, hrt⟩ : ∃ rt : Registers, rt = { rc with
        flags := (Size.s64.run .and (rc.gpr q) (rc.operand (.reg .numberTag))).2 } := ⟨_, rfl⟩
      rw [← hrt]
      have hsame : rt.gpr = r.gpr ∧ rt.fpr = r.fpr := hrt ▸ ⟨hgpr, hfpr⟩
      obtain ⟨hgpr', hfpr'⟩ := hsame
      have hno? : Cond.e.holds rt.flags rt.order = !v.isNumber := by
        rw [hrt]
        exact htest
      refine .bind (.guard' hk (by decide) (fun hc s₇ h₇ => ?_) fun hc s₇ h₇ => ?_)
      · refine unboxOrConvert_exit hdone fun s₈ h₈ => ?_
        exact hx (by simpa using hno?.symm.trans hc) s₈ rt (((h₁₅.trans h₆).trans h₇).trans h₈)
      · exact hjoin (h₆.trans h₇) hgpr' hfpr' (by simpa using hno?.symm.trans hc)

end Wp

/-- What makes the lowering treat the operand of an edge as a number, or as a constant, is true of its
value. -/
structure Numeric (k : Course) (facts : Facts) (e : Edge) : Prop where
  constant {v : Value} (h : k.env.graph.valueConstant e.node = .ok (some v)) : k.val e.node = v
  proven (h : (facts.known e.node).subset .number = true) : (k.val e.node).isNumber = true

namespace Wp

/-- A value in a register becomes a double in another one, or the machine leaves. -/
lemma doubleFromGpr {Q : Fpr → State → Moment → Prop} (hk : k.Sound)
    (h : Stands k.val s.ledger r mem) (hnum : k.Numeric s.facts e)
    (hrep : Represents format (r.gpr q) (k.val e.node)) (hd : format ≠ .double)
    (hQ : ∀ f s' r' mem', Handed s s' (.fpr f) → Spares k.env.graph s r mem s' r' mem' →
      Stands k.val s'.ledger r' mem' → (k.val e.node).number? = some (r'.fpr f) →
      Q f s' ⟨.next, r', mem'⟩)
    (hx : (k.val e.node).isNumber = false → ∀ f s' r' mem', Handed s s' (.fpr f) →
      Confined k.env.graph r mem mem' → Q f s' ⟨.exit .badType, r', mem'⟩)
    (hT : (k.val e.node).isNumber = false → ∀ s' r' mem', Confined k.env.graph r mem mem' →
      T s' ⟨.exit .badType, r', mem'⟩) :
    k.Wp ls s (doubleFromGpr e q format) ⟨.next, r, mem⟩ Q T := by
  -- once the register is handed out, only code is emitted
  have hend : ∀ {ls f s₁ mem₁ s₂ z} {r₁ r₂ : Registers}, Handed s s₁ (.fpr f) →
      Preserves k.env.graph s r mem s₁ r mem₁ → Stands k.val s₁.ledger r mem₁ → k.Follows s₁ s₂ →
      r₁.gpr = r.gpr → r₁.fpr = r.fpr → (k.val e.node).number? = some z → r₁.Takes f z r₂ →
      k.Wp ls s₂ (Pure.pure f) ⟨.next, r₂, mem₁⟩ Q T := by
    intro ls f s₁ mem₁ s₂ z r₁ r₂ hh hp₁ h₁ h₂ hgpr hfpr hz hr
    have hr := hr.of_gpr (r := r) (fun _ => congrFun hgpr _) hfpr
    refine .intro fun hs₂ _ => .pure ?_
    have hh₂ := hh.of_same h₂.toSame
    have hp₂ := (hp₁.trans (.of_same h₂.toSame)).toSpares
    refine hQ f s₂ r₂ mem₁ hh₂ (hp₂.takes hh (fun _ => Nat.le_refl _) hr)
      (Stands.takes (h₂.ledger ▸ h₁) hs₂ hh₂.taken hr) ?_
    rw [hr.self]
    exact hz
  have hint : format = .int32 ∨ format = .jsInt32 → k.Wp ls s (do
      let f ← Lowering.allocFpr
      Lowering.emit' (.cvtIntToD f q)
      return f) ⟨.next, r, mem⟩ Q T := fun hf =>
    .bind (.allocFpr hk h fun f s₁ mem₁ hh hp₁ h₁ =>
      .bind (.convert hk (hrep.number?_of_int hf) fun s₂ r₂ z h₂ hz hr =>
        hend hh hp₁ h₁ h₂ rfl rfl hz hr))
  unfold Lowering.doubleFromGpr
  split
  · exact hint (.inl rfl)
  · exact hint (.inr rfl)
  · refine .bind (.allocFpr hk h fun f s₁ mem₁ hh hp₁ h₁ => ?_)
    refine .unboxNumber hk h.numberTag hrep (fun hp => hnum.proven (hp₁.facts ▸ hp))
      (fun s₂ r₂ z h₂ hz hr => hend hh hp₁ h₁ h₂ rfl rfl hz hr) fun hno s₂ r₂ h₂ => ?_
    exact hx hno f s₂ r₂ mem₁ (hh.of_same h₂.toSame) hp₁.memory
  · simp only [reduceIte, reduceCtorEq]
    refine .bind (.allocFpr hk h fun f s₁ mem₁ hh hp₁ h₁ => ?_)
    refine .bindNewLabel fun isInt s₂ h₂ _ => .bindNewLabel fun done s₃ h₃ hnew => ?_
    refine .unbox hk h.numberTag hrep.1 hrep.2 fun s₄ r₄ z h₄ hz hr => ?_
    exact hend hh hp₁ h₁ ((h₂.trans h₃).trans h₄) rfl rfl hz hr
  · rename_i hi hji hj hjd
    refine .terminate hk (by decide) fun s₁ _ => hT ?_ s₁ r mem (.refl _ r mem)
    exact hrep.isNumber_eq_false hi hd hj hji hjd

end Wp

structure Unboxes (k : Course) (s : State) (r : Registers) (mem : Memory) (n : NodeId) (f : Fpr)
    (s' : State) (r' : Registers) (mem' : Memory) : Prop where
  spares : Spares k.env.graph s r mem s' r' mem'
  stands : Stands k.val s'.ledger r' mem'
  number : (k.val n).number? = some (r'.fpr f)

namespace Wp

/-- An operand is filled as a double, or the machine leaves. -/
lemma unboxValue {Q : Fpr → State → Moment → Prop} (hk : k.Sound) (hsup : k.Supplied)
    (h : Stands k.val s.ledger r mem) (hnum : k.Numeric s.facts e)
    (hQ : ∀ f s' r' mem', k.Unboxes s r mem e.node f s' r' mem' → Q f s' ⟨.next, r', mem'⟩)
    (hx : (k.val e.node).isNumber = false → ∀ f s' r' mem', Confined k.env.graph r mem mem' →
      Q f s' ⟨.exit .badType, r', mem'⟩)
    (hT : ((s.facts.known e.node).intersects .number = true → (k.val e.node).isNumber = false) →
      ∀ s' r' mem', Confined k.env.graph r mem mem' → T s' ⟨.exit .badType, r', mem'⟩) :
    k.Wp ls s (fillDouble e) ⟨.next, r, mem⟩ Q T := by
  have hbad : (k.val e.node).isNumber = false → ∀ s' r' mem', Confined k.env.graph r mem mem' →
      T s' ⟨.exit .badType, r', mem'⟩ := fun hno => hT fun _ => hno
  -- a register that was locked before the conversion is free again after it
  have hconverted : ∀ {format : DataFormat} {q : Gpr} s₁ r₁ mem₁, Spares k.env.graph s r mem s₁ r₁ mem₁ →
      (∀ l, s.locks l ≤ s₁.locks l) → Stands k.val s₁.ledger r₁ mem₁ → format ≠ .double →
      Represents format (r₁.gpr q) (k.val e.node) →
      k.Wp ls s₁ (do
        let f ← Lowering.doubleFromGpr e q format
        Lowering.unlockGpr q
        return f) ⟨.next, r₁, mem₁⟩ Q T := by
    intro format q s₁ r₁ mem₁ hp₁ hlocks₁ h₁ hd hrep
    have hconf : ∀ {mem₂}, Confined k.env.graph r₁ mem₁ mem₂ → Confined k.env.graph r mem mem₂ :=
      fun hc => hp₁.memory.trans hc hp₁.frame
    refine .bind (.doubleFromGpr hk h₁ (hp₁.facts ▸ hnum) hrep hd ?_ ?_ ?_)
    · intro f s₂ r₂ mem₂ _ hp₂ h₂ hz
      refine .bind (.unlockGpr fun s₃ h₃ hf₃ hl₃ => .pure (hQ _ _ _ _ ⟨?_, hl₃ ▸ h₂, hz⟩))
      exact (hp₁.trans hlocks₁ hp₂).then_facts hf₃ fun hn => hl₃ ▸ hn
    · intro hno f s₂ r₂ mem₂ _ hc
      exact .bind (.unlockGpr fun s₃ h₃ _ _ => .pure (hx hno _ _ _ _ (hconf hc)))
    · exact fun hno s₂ r₂ mem₂ hc => hbad hno s₂ r₂ mem₂ (hconf hc)
  unfold Lowering.fillDouble
  refine .look (fun _ => looks_mayBe) fun b hb => ?_
  refine .ite (fun hmay => ?_) fun hmay => ?_
  case refine_2 =>
    refine .bind (.terminate hk (by decide) fun s₁ _ => hT (fun hi => ?_) s₁ r mem (.refl _ r mem))
    exact absurd (hb.trans hi) hmay
  refine .look leads_locate_found fun w hw => ?_
  cases w with
  | constant v =>
    have hv := hnum.constant hw
    dsimp only
    split
    · rename_i z hz
      refine .bind (.allocFpr hk h fun f s₁ mem₁ hh hp₁ h₁ => ?_)
      refine .bind (.loadDoubleConstant hk hsup fun s₂ h₂ => .intro fun hs₂ _ => .pure ?_)
      have hr := Registers.Takes.of_setFpr r f z
      refine hQ _ _ _ _ ⟨(hp₁.trans (.of_same h₂.toSame)).toSpares.takes hh (fun _ => Nat.le_refl _) hr,
        Stands.takes (h₂.ledger ▸ h₁) hs₂ (hh.of_same h₂.toSame).taken hr, ?_⟩
      rw [hv, hz, hr.self]
    · rename_i hnone
      refine .terminate hk (by decide) fun s₁ _ => hbad ?_ s₁ r mem (.refl _ r mem)
      rw [hv]
      exact Value.isNumber_of_number?_eq_none hnone
  | gpr q format =>
    obtain ⟨d, i, x, he, hl, hf⟩ := hw
    have hrep : Represents format (r.gpr q) (k.val e.node) := by
      have hword := h.register he.entry he.named (by simp [hl])
      rwa [hl, hf] at hword
    refine .intro fun hs _ => .bind (.lockGpr fun s₁ hl₁ hf₁ => ?_)
    have hsuits : Suits (.gpr q) format := hl ▸ hf ▸ (hs.agrees.resident he.entry (by simp [hl])).2.1
    have hd : format ≠ .double := fun hd => by
      obtain ⟨f, hq⟩ := hsuits.double.mp hd
      cases hq
    exact hconverted s₁ r mem (.of_facts hf₁ fun hn => hl₁.ledger ▸ hn) hl₁.onward.locks
      (hl₁.ledger ▸ h) hd hrep
  | fpr f =>
    obtain ⟨d, i, x, he, hl⟩ := hw
    have hrep : Represents .double (r.fpr f).bits (k.val e.node) := by
      have hword := h.register he.entry he.named (by simp [hl])
      rwa [h.double he.entry hl, hl] at hword
    refine .bind (.lockFpr fun s₁ hl₁ hf₁ => .pure (hQ _ _ _ _ ⟨?_, hl₁.ledger ▸ h, ?_⟩))
    · exact .of_facts hf₁ fun hn => hl₁.ledger ▸ hn
    · exact Value.number?_of_double? hrep
  | spilled format =>
    obtain ⟨d, i, x, he, hl, hf, hne⟩ := hw
    split
    any_goals cases ‹Residence.spilled format = _›
    · refine .fillSpilledFpr hk h he hl hf fun f s₁ r₁ mem₁ hb₁ hz => hQ _ _ _ _ ?_
      exact ⟨hb₁.preserves.toSpares, hb₁.stands, Value.number?_of_double? hz⟩
    · refine .bind (.fillSpilledGpr hk h he hl hf hne fun q s₁ r₁ mem₁ hb₁ ho₁ hrep₁ _ => ?_)
      exact hconverted s₁ r₁ mem₁ hb₁.preserves.toSpares hb₁.preserves.onward.locks hb₁.stands
        ‹_› hrep₁

/-- An operand is filled as a double and held, or the machine leaves. -/
lemma fillDouble {Q : Fpr → State → Moment → Prop} (hk : k.Sound) (hsup : k.Supplied)
    (h : Stands k.val s.ledger r mem) (hnum : k.Numeric s.facts e)
    (hQ : ∀ f s' r' mem', k.Brings s r mem e.node (.fpr f) s' r' mem' →
      (k.val e.node).number? = some (r'.fpr f) → Q f s' ⟨.next, r', mem'⟩)
    (hx : (k.val e.node).isNumber = false → ∀ f s' r' mem',
      Filled k.env.graph s s' e.node (.fpr f) → Confined k.env.graph r mem mem' →
      Q f s' ⟨.exit .badType, r', mem'⟩)
    (hT : ((s.facts.known e.node).intersects .number = true → (k.val e.node).isNumber = false) →
      ∀ s' r' mem', Confined k.env.graph r mem mem' → T s' ⟨.exit .badType, r', mem'⟩) :
    k.Wp ls s (fillDouble e) ⟨.next, r, mem⟩ Q T := by
  have hfill : k.Wp ls s (Lowering.fillDouble e) ⟨.next, r, mem⟩ (fun f s' t' => ∃ r' mem',
      t' = ⟨.next, r', mem'⟩ ∧ k.Unboxes s r mem e.node f s' r' mem' ∨
      t' = ⟨.exit .badType, r', mem'⟩ ∧ (k.val e.node).isNumber = false ∧
        Confined k.env.graph r mem mem') T :=
    .unboxValue hk hsup h hnum (fun f s' r' mem' hu => ⟨r', mem', .inl ⟨rfl, hu⟩⟩)
      (fun hno f s' r' mem' hc => ⟨r', mem', .inr ⟨rfl, hno, hc⟩⟩) hT
  refine (hfill.and leads_fillDouble).weaken ?_
  rintro f s' _ ⟨⟨r', mem', ⟨rfl, hu⟩ | ⟨rfl, hno, hc⟩⟩, -, hf⟩
  · exact hQ f s' r' mem' ⟨hf, ⟨hu.spares, hf.onward⟩, hu.stands⟩ hu.number
  · exact hx hno f s' r' mem' hf hc

end Wp

end Course
end Speculation
