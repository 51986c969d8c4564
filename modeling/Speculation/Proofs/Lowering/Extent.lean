import Speculation.Proofs.Lowering.Growth

/-!
Lowering a graph takes nothing back.

Every operation is put together from steps that only add to the code, and that refer to labels of
their own, of blocks and handlers, or of exits.
-/

namespace Speculation
namespace Lowering

variable {α β : Type} {env : Env} {s s' s'' : State} {ls : List Label}

namespace Extending

/-! ### Arithmetic and conversions -/

@[simp] lemma intResultFrom (e : Edge) (op : GprOperand) :
    Extending env ls (intResultFrom e op) := by
  unfold Lowering.intResultFrom
  with_reducible repeat' first | refine bind ?_ fun _ => ?_ | refine ite ?_ ?_ | split
  all_goals simp

@[simp] lemma intRhs (e : Edge) : Extending env ls (intRhs e) := by
  unfold Lowering.intRhs
  with_reducible repeat' first | refine bind ?_ fun _ => ?_ | refine ite ?_ ?_ | split
  all_goals simp

@[simp] lemma doubleBinary (op : DoubleOp) (a b : Edge) :
    Extending env ls (doubleBinary op a b) := by
  unfold Lowering.doubleBinary
  with_reducible repeat' first | refine bind ?_ fun _ => ?_ | refine ite ?_ ?_ | split
  all_goals simp

@[simp] lemma doubleUnary (op : DoubleUnary) (a : Edge) : Extending env ls (doubleUnary op a) := by
  unfold Lowering.doubleUnary
  with_reducible repeat' first | refine bind ?_ fun _ => ?_ | refine ite ?_ ?_ | split
  all_goals simp

@[simp] lemma valueResult (operands : List Gpr) : Extending env ls (valueResult operands) :=
  bind (forIn fun _ _ => bind (unlockGpr _) fun _ => pure _) fun _ =>
    bind callResultGpr fun _ => gprResult _ _

@[simp] lemma genericBinary (op : Option GenericArith) (a b : Edge) :
    Extending env ls (genericBinary op a b) := by
  unfold Lowering.genericBinary
  with_reducible repeat' first | refine bind ?_ fun _ => ?_ | refine ite ?_ ?_ | split
  all_goals simp

@[simp] lemma onlyLeftConstant (a b : Edge) : Extending env ls (onlyLeftConstant a b) := by
  unfold Lowering.onlyLeftConstant
  with_reducible repeat' first | refine bind ?_ fun _ => ?_ | refine ite ?_ ?_ | split
  all_goals simp

@[simp] lemma addInt (n : Node) (a b : Edge) : Extending env ls (addInt n a b) := by
  unfold Lowering.addInt
  with_reducible repeat' first | refine bind ?_ fun _ => ?_ | refine ite ?_ ?_ | split
  all_goals simp

@[simp] lemma lowerAdd : Extending env ls lowerAdd := by
  unfold Lowering.lowerAdd
  with_reducible repeat' first | refine bind ?_ fun _ => ?_ | refine ite ?_ ?_ | split
  all_goals simp

@[simp] lemma subInt (n : Node) (a b : Edge) : Extending env ls (subInt n a b) := by
  unfold Lowering.subInt
  with_reducible repeat' first | refine bind ?_ fun _ => ?_ | refine ite ?_ ?_ | split
  all_goals simp

@[simp] lemma lowerSub : Extending env ls lowerSub := by
  unfold Lowering.lowerSub
  with_reducible repeat' first | refine bind ?_ fun _ => ?_ | refine ite ?_ ?_ | split
  all_goals simp

@[simp] lemma mulInt (n : Node) (a b : Edge) : Extending env ls (mulInt n a b) := by
  unfold Lowering.mulInt
  with_reducible repeat' first
    | refine bindNewLabel fun _ => ?_ | refine bind ?_ fun _ => ?_ | refine ite ?_ ?_ | split
  all_goals simp

@[simp] lemma lowerMul : Extending env ls lowerMul := by
  unfold Lowering.lowerMul
  with_reducible repeat' first | refine bind ?_ fun _ => ?_ | refine ite ?_ ?_ | split
  all_goals simp

@[simp] lemma lowerNegate : Extending env ls lowerNegate := by
  unfold Lowering.lowerNegate
  with_reducible repeat' first | refine bind ?_ fun _ => ?_ | refine ite ?_ ?_ | split
  all_goals simp

@[simp] lemma divisionGuards (x y : Gpr) : Extending env ls (divisionGuards x y) := by
  unfold Lowering.divisionGuards
  with_reducible repeat' first
    | refine bindNewLabel fun _ => ?_ | refine bind ?_ fun _ => ?_ | refine ite ?_ ?_ | split
  all_goals simp

@[simp] lemma divTruncating (r x y : Gpr) : Extending env ls (divTruncating r x y) := by
  unfold Lowering.divTruncating
  with_reducible repeat' first
    | refine bindNewLabel fun _ => ?_ | refine bind ?_ fun _ => ?_ | refine ite ?_ ?_ | split
  all_goals simp

@[simp] lemma divExact (negZero : Bool) (r x y : Gpr) :
    Extending env ls (divExact negZero r x y) := by
  unfold Lowering.divExact
  with_reducible repeat' first
    | refine bindNewLabel fun _ => ?_ | refine bind ?_ fun _ => ?_ | refine ite ?_ ?_ | split
  all_goals simp

@[simp] lemma lowerDiv : Extending env ls lowerDiv := by
  unfold Lowering.lowerDiv
  with_reducible repeat' first | refine bind ?_ fun _ => ?_ | refine ite ?_ ?_ | split
  all_goals simp

@[simp] lemma modTruncating (r x y : Gpr) : Extending env ls (modTruncating r x y) := by
  unfold Lowering.modTruncating
  with_reducible repeat' first
    | refine bindNewLabel fun _ => ?_ | refine bind ?_ fun _ => ?_ | refine ite ?_ ?_ | split
  all_goals simp

@[simp] lemma modExact (negZero : Bool) (r x y : Gpr) :
    Extending env ls (modExact negZero r x y) := by
  unfold Lowering.modExact
  with_reducible repeat' first
    | refine bindNewLabel fun _ => ?_ | refine bind ?_ fun _ => ?_ | refine ite ?_ ?_ | split
  all_goals simp

@[simp] lemma lowerMod : Extending env ls lowerMod := by
  unfold Lowering.lowerMod
  with_reducible repeat' first | refine bind ?_ fun _ => ?_ | refine ite ?_ ?_ | split
  all_goals simp

@[simp] lemma lowerAbs : Extending env ls lowerAbs := by
  unfold Lowering.lowerAbs
  with_reducible repeat' first | refine bind ?_ fun _ => ?_ | refine ite ?_ ?_ | split
  all_goals simp

@[simp] lemma lowerMinMax (isMin : Bool) : Extending env ls (lowerMinMax isMin) := by
  unfold Lowering.lowerMinMax
  with_reducible repeat' first
    | refine bindNewLabel fun _ => ?_ | refine bind ?_ fun _ => ?_ | refine ite ?_ ?_ | split
  all_goals simp

@[simp] lemma lowerSqrt : Extending env ls lowerSqrt := by
  unfold Lowering.lowerSqrt
  with_reducible repeat' first | refine bind ?_ fun _ => ?_ | refine ite ?_ ?_ | split
  all_goals simp

@[simp] lemma lowerBit (op : BitOp) : Extending env ls (lowerBit op) := by
  unfold Lowering.lowerBit
  with_reducible repeat' first | refine bind ?_ fun _ => ?_ | refine ite ?_ ?_ | split
  all_goals simp

@[simp] lemma lowerValueToInt32 : Extending env ls lowerValueToInt32 := by
  unfold Lowering.lowerValueToInt32
  with_reducible repeat' first
    | refine bindNewLabel fun _ => ?_ | refine bindAttach ?_ | refine bind ?_ fun _ => ?_
    | refine ExtendingAt.bind (.addSlowPath _ (by simp) _ rfl) fun _ => ?_ | refine ite ?_ ?_ | split
  all_goals first | simp | exact .of_extending (by simp)

@[simp] lemma lowerUInt32ToNumber : Extending env ls lowerUInt32ToNumber := by
  unfold Lowering.lowerUInt32ToNumber
  with_reducible repeat' first
    | refine bindNewLabel fun _ => ?_ | refine bind ?_ fun _ => ?_ | refine ite ?_ ?_ | split
  all_goals simp

@[simp] lemma lowerInt32ToDouble : Extending env ls lowerInt32ToDouble := by
  unfold Lowering.lowerInt32ToDouble
  with_reducible repeat' first | refine bind ?_ fun _ => ?_ | refine ite ?_ ?_ | split
  all_goals simp

@[simp] lemma lowerDoubleAsInt32 : Extending env ls lowerDoubleAsInt32 := by
  unfold Lowering.lowerDoubleAsInt32
  with_reducible repeat' first
    | refine bindNewLabel fun _ => ?_ | refine bind ?_ fun _ => ?_ | refine ite ?_ ?_ | split
  all_goals simp

/-! ### Comparisons -/

@[simp] lemma fusableBranch : Extending env ls fusableBranch := by
  unfold Lowering.fusableBranch
  with_reducible repeat' first | refine bind ?_ fun _ => ?_ | refine ite ?_ ?_ | split
  all_goals simp

@[simp] lemma finishCompare (c : Cond) (target : CompareTarget) :
    Extending env ls (finishCompare c target) := by
  unfold Lowering.finishCompare
  with_reducible repeat' first | refine bind ?_ fun _ => ?_ | refine ite ?_ ?_ | split
  all_goals simp

@[simp] lemma masqueradeGuard (cells : List Gpr) : Extending env ls (masqueradeGuard cells) := by
  refine fun s hs hls => leads_bind.mpr (leads_read.mpr ?_)
  split
  · rename_i h
    exact guardWatchpoint h _ s hs hls
  · refine bind (forIn fun _ _ => ?_) (fun _ => pure _) s hs hls
    with_reducible repeat' refine bind ?_ fun _ => ?_
    all_goals simp

@[simp] lemma guardOther (v : Gpr) : Extending env ls (guardOther v) := by
  unfold Lowering.guardOther
  with_reducible repeat' first | refine bind ?_ fun _ => ?_ | refine ite ?_ ?_ | split
  all_goals simp

@[simp] lemma objectOrOtherEq (a b : Edge) (target : CompareTarget) :
    Extending env ls (objectOrOtherEq a b target) := by
  unfold Lowering.objectOrOtherEq
  with_reducible repeat' first
    | refine bindNewLabel fun _ => ?_ | refine bindBlockLabel fun _ => ?_
    | refine bind ?_ fun _ => ?_ | refine ite ?_ ?_ | split
  all_goals simp

@[simp] lemma genericCompare (op : Comparison) (a b : Edge) (fused : Option (BlockId × BlockId)) :
    Extending env ls (genericCompare op a b fused) := by
  unfold Lowering.genericCompare
  with_reducible repeat' first | refine bind ?_ fun _ => ?_ | refine ite ?_ ?_ | split
  all_goals simp

@[simp] lemma compareInto (op : Comparison) (a b : Edge) (target : CompareTarget) :
    Extending env ls (compareInto op a b target) := by
  unfold Lowering.compareInto
  with_reducible repeat' first | refine bind ?_ fun _ => ?_ | refine ite ?_ ?_ | split
  all_goals simp

@[simp] lemma lowerCompare (op : Comparison) : Extending env ls (lowerCompare op) := by
  unfold Lowering.lowerCompare
  with_reducible repeat' first | refine bind ?_ fun _ => ?_ | refine ite ?_ ?_ | split
  any_goals simp
  exact modify fun _ => rfl

@[simp] lemma compareZero (f : Fpr) : Extending env ls (compareZero f) := by
  unfold Lowering.compareZero
  with_reducible repeat' first | refine bind ?_ fun _ => ?_ | refine ite ?_ ?_ | split
  all_goals simp

@[simp] lemma lowerNot : Extending env ls lowerNot := by
  unfold Lowering.lowerNot
  with_reducible repeat' first | refine bind ?_ fun _ => ?_ | refine ite ?_ ?_ | split
  all_goals simp

@[simp] lemma lowerBranch (t f : BlockId) : Extending env ls (lowerBranch t f) := by
  unfold Lowering.lowerBranch
  with_reducible repeat' first
    | refine bindBlockLabel fun _ => ?_ | refine bind ?_ fun _ => ?_ | refine ite ?_ ?_ | split
  all_goals simp

/-! ### Heap accesses -/

@[simp] lemma compareShape (cell : Gpr) (shape : UInt8) :
    Extending env ls (compareShape cell shape) := by
  unfold Lowering.compareShape
  with_reducible repeat' first | refine bind ?_ fun _ => ?_ | refine ite ?_ ?_ | split
  all_goals simp

@[simp] lemma testFlags (cell : Gpr) (flags : UInt8) : Extending env ls (testFlags cell flags) := by
  unfold Lowering.testFlags
  with_reducible repeat' first | refine bind ?_ fun _ => ?_ | refine ite ?_ ?_ | split
  all_goals simp

@[simp] lemma guardStructures (t : Gpr) {ok : Label} (hok : ok ∈ ls) (set : List UInt64) :
    Extending env ls (guardStructures t ok set) := by
  induction set with
  | nil => exact pure _
  | cons s rest ih =>
    cases rest with
    | nil => exact bind (discard (movImm _ _)) fun _ => bind (cmp64 _ _) fun _ => guard' _ _
    | cons s' rest =>
      exact bind (discard (movImm _ _)) fun _ => bind (cmp64 _ _) fun _ =>
        bind (jcc _ hok) fun _ => ih

@[simp] lemma lowerCheckStructure (set : List UInt64) :
    Extending env ls (lowerCheckStructure set) := by
  unfold Lowering.lowerCheckStructure
  with_reducible repeat' first
    | refine bindNewLabel fun _ => ?_ | refine bind ?_ fun _ => ?_ | refine ite ?_ ?_ | split
  all_goals simp

@[simp] lemma lowerCheckArray (mode : ArrayMode) : Extending env ls (lowerCheckArray mode) := by
  unfold Lowering.lowerCheckArray
  with_reducible repeat' first | refine bind ?_ fun _ => ?_ | refine ite ?_ ?_ | split
  all_goals simp

@[simp] lemma lowerArrayify (mode : ArrayMode) : Extending env ls (lowerArrayify mode) := by
  have hconvert {h : Helper} (hh : h.serves = true) (shape : UInt8) : Extending env ls (do
      let c ← Lowering.fillCell (← Lowering.child 0)
      let slow ← Lowering.newLabel
      let done ← Lowering.newLabel
      Lowering.compareShape c.reg shape
      Lowering.jcc .ne slow
      Lowering.attach done
      Lowering.addSlowPath slow done [] (.convert h c.reg shape)) := by
    with_reducible repeat' first
      | refine bindNewLabel fun _ => ?_ | refine bindAttach ?_ | refine bind ?_ fun _ => ?_
    case refine_2.refine_2.refine_2.refine_2 => exact .addSlowPath _ (by simp) _ hh
    all_goals simp
  unfold Lowering.lowerArrayify
  cases mode with
  | contiguous => exact hconvert (h := .ensureContiguous) rfl _
  | double => exact hconvert (h := .ensureDouble) rfl _
  | _ => exact fail _

@[simp] lemma lowerGetStorage : Extending env ls lowerGetStorage := by
  unfold Lowering.lowerGetStorage
  with_reducible repeat' first | refine bind ?_ fun _ => ?_ | refine ite ?_ ?_ | split
  all_goals simp

@[simp] lemma lowerGetArrayLength (mode : ArrayMode) :
    Extending env ls (lowerGetArrayLength mode) := by
  unfold Lowering.lowerGetArrayLength
  with_reducible repeat' first | refine bind ?_ fun _ => ?_ | refine ite ?_ ?_ | split
  all_goals simp

@[simp] lemma guardBounds (mode : ArrayMode) (base storage index : Gpr) :
    Extending env ls (guardBounds mode base storage index) := by
  unfold Lowering.guardBounds
  with_reducible repeat' first | refine bind ?_ fun _ => ?_ | refine ite ?_ ?_ | split
  all_goals simp

@[simp] lemma stringAccess : Extending env ls stringAccess := by
  unfold Lowering.stringAccess
  with_reducible repeat' first | refine bind ?_ fun _ => ?_ | refine ite ?_ ?_ | split
  all_goals simp

@[simp] lemma lowerCharCodeAt : Extending env ls lowerCharCodeAt := by
  unfold Lowering.lowerCharCodeAt
  with_reducible repeat' first | refine bind ?_ fun _ => ?_ | refine ite ?_ ?_ | split
  all_goals simp

@[simp] lemma lowerCharAt : Extending env ls lowerCharAt := by
  unfold Lowering.lowerCharAt
  with_reducible repeat' first
    | refine bindNewLabel fun _ => ?_ | refine bindAttach ?_ | refine bind ?_ fun _ => ?_
    | refine ExtendingAt.bind (.addSlowPath _ (by simp) _ rfl) fun _ => ?_ | refine ite ?_ ?_ | split
  all_goals first | simp | exact .of_extending (by simp)

@[simp] lemma lowerGetByVal (mode : ArrayMode) : Extending env ls (lowerGetByVal mode) := by
  unfold Lowering.lowerGetByVal
  with_reducible repeat' first | refine bind ?_ fun _ => ?_ | refine ite ?_ ?_ | split
  all_goals simp

@[simp] lemma lowerPutByVal (mode : ArrayMode) : Extending env ls (lowerPutByVal mode) := by
  unfold Lowering.lowerPutByVal
  with_reducible repeat' first | refine bind ?_ fun _ => ?_ | refine ite ?_ ?_ | split
  all_goals simp

lemma proceeds_cache {c : CacheSite} {p : SlowPath} {o : Nat}
    (hc : State.Cached { s with caches := s.caches.push c, slowPaths := s.slowPaths.push p } c o p)
    (hp : s.Returns p) (hlast : ∀ d ∈ s.caches, d.access < c.structureImm) :
    Proceeds env s { s with caches := s.caches.push c, slowPaths := s.slowPaths.push p } where
  toExtends := .of_eq rfl rfl rfl rfl rfl fun _ => Array.mem_push_of_mem _
  isCode hl := hl.of_size (Nat.le_refl _) rfl
  aimed hs := by
    have hpath : Aimed env _ := (proceeds_path hp).aimed hs
    refine hpath.rest rfl rfl rfl rfl (fun _ hx => hpath.rooted.stub hx)
      (fun _ hq => hpath.rooted.done hq) ⟨fun h => hs.listed.call h, hs.listed.calls, fun hd => ?_, ?_,
        fun hw => hs.listed.watchpoint hw⟩
    · rcases Array.mem_push.mp hd with hd | rfl
      · obtain ⟨o, q, hd⟩ := hs.listed.cache hd
        exact ⟨o, q, hd.codes, hd.structureImm, hd.access, Array.mem_push_of_mem _ hd.path, hd.work,
          hd.done⟩
      · exact ⟨o, p, hc⟩
    · rw [Array.toList_push, List.pairwise_append]
      exact ⟨hs.listed.caches, List.pairwise_singleton _ _, fun d hd e he =>
        List.mem_singleton.mp he ▸ hlast d (Array.mem_toList_iff.mp hd)⟩

lemma cached (kind : CacheKind) {ident : Nat} {base expected value : Gpr} {slow done : Label}
    {exclude : List Gpr} {z : Lower α} (hslow : slow ∈ ls) (hdone : done ∈ ls)
    (hz : Extending env ls z) : Extending env ls (do
      let imm ← Lowering.cacheCheck base expected slow
      let access ← Lowering.emit (kind.access base value)
      Lowering.attach done
      Lowering.addCache kind ident imm access base expected value
      Lowering.addSlowPath slow done exclude (kind.work ident base value)
      z) := by
  intro s hs hls
  refine leads_bind.mpr (leads_cacheCheck.mono (fun imm s₁ ⟨himm, h₁⟩ => ?_) (fun _ => False.elim)
    fun _ _ => False.elim)
  refine leads_bind.mpr ((leads_emit _).mono (fun access s₂ ⟨haccess, h₂⟩ => ?_) (fun _ => False.elim)
    fun _ _ => False.elim)
  have hlain := h₁.trans h₂
  have haims : ∀ p ∈ cachePieces base expected slow ++ [.inst (kind.access base value) none],
      ∃ i t, p = .inst i t ∧ ∀ o, s.Aims o i t := by
    refine List.forall_mem_append.mpr ⟨?_, List.forall_mem_singleton.mpr
      ⟨_, _, rfl, fun _ => aims_none.mpr (by cases kind <;> rfl)⟩⟩
    simp only [cachePieces, List.forall_mem_cons]
    exact ⟨⟨_, _, rfl, fun _ => rfl⟩, ⟨_, _, rfl, fun _ => rfl⟩, ⟨_, _, rfl, fun _ => rfl⟩,
      ⟨_, _, rfl, fun _ => hls slow hslow⟩, List.forall_mem_nil _⟩
  have h₀₂ : Proceeds env s s₂ := by
    refine hlain.proceeds haims (followed_of_not_call ?_)
    rintro p hp k t rfl
    cases kind <;> simp [cachePieces, CacheKind.access] at hp
  refine leads_bind.mpr (leads_attach.mono ?_ (fun _ => False.elim) fun _ _ h => h ▸ h₀₂)
  rintro ⟨⟩ _ ⟨rfl, hfree⟩
  have hattached : Proceeds env s₂ (s₂.attached done) := proceeds_attached hfree
  have h₀₃ : Proceeds env s (s₂.attached done) := h₀₂.trans hattached
  refine leads_bind.mpr (leads_bind.mpr (leads_bind.mpr (leads_get.mpr (leads_bind.mpr
    (leads_read.mpr (leads_assume.mpr ⟨fun n _ => ?_, fun _ _ => h₀₃⟩))))))
  refine leads_modify.mpr (leads_bind.mpr (leads_modify.mpr ?_))
  have hoffset : s₂.asm.offset = s.asm.offset + 41 := by
    rw [hlain.adds.offset, List.flatMap_append, List.length_append, length_cachePieces]
    simp [Piece.bytes, length_access]
  have hdonelt := (Array.getElem?_eq_some_iff.mp hfree).1
  have hcaches : s₂.caches = s.caches := by rw [hlain.rest]
  have hreturns : ∀ p : SlowPath, p.done = done → p.work = kind.work ident base value →
      (s₂.attached done).Returns p := by
    rintro p rfl hwork
    refine ⟨h₀₃.isCode (hls _ hdone), ⟨_, Array.getElem?_setIfInBounds_self_of_lt hdonelt⟩, ?_⟩
    rw [hwork]
    cases kind <;> rfl
  have h₀₅ : Proceeds env s _ := h₀₃.trans (proceeds_cache (o := s.asm.offset)
    (c := { kind, ident, structureImm := imm, access, origin := n.origin, base, expected, value })
    (p := { entry := slow
            done
            gprs := ((s₂.attached done).gprs.bound.map Prod.fst).filter fun r => !exclude.contains r
            fprs := (s₂.attached done).fprs.bound.map Prod.fst
            node := (s₂.attached done).current
            streamIndex := (s₂.attached done).events.size
            ledger := (s₂.attached done).ledger
            work := kind.work ident base value }) ⟨?_, himm, ?_, Array.mem_push_self, rfl, ?_⟩
    (hreturns _ rfl rfl) fun d hd => ?_)
  · exact ProceedsBy.before (hz _ (h₀₅.aimed hs) fun l hl => h₀₅.isCode (hls l hl)) h₀₅
  · obtain ⟨all, hm, hinst, -⟩ := hs.coded
    have hcodes : s₂.asm.Codes s.asm.offset _ :=
      hm.codes hinst hlain.adds (fun p hp => ?_) fun p hp => ?_
    · exact hcodes.adds (.of_eq rfl rfl) (by simp) (by simp)
    · obtain ⟨i, t, rfl, h⟩ := haims p hp
      exact (h 0).fits
    · obtain ⟨i, t, hp, -⟩ := haims p hp
      exact ⟨i, t, hp⟩
  · rw [haccess, h₁.adds.offset, length_cachePieces]
  · rw [← hoffset]
    exact Array.getElem?_setIfInBounds_self_of_lt hdonelt
  · have hd : d ∈ s.caches := hcaches ▸ hd
    obtain ⟨o, q, hd⟩ := hs.listed.cache hd
    have hle := hd.codes.stands.le
    rw [CacheSite.pieces, List.flatMap_append, List.length_append, length_cachePieces] at hle
    simp only [hd.access, himm]
    omega

@[simp] lemma lowerGetById (ident : Nat) : Extending env ls (lowerGetById ident) := by
  unfold Lowering.lowerGetById
  refine bind (child _) fun e => ite ?_ ?_
  · exact bind (fillCell _) fun b => bind allocGpr fun r => bindNewLabel fun slow =>
      bindNewLabel fun done => cached .getById (by simp) (by simp) (gprResult _ _)
  · exact bind (fillValue _) fun _ => bind (callHelper rfl _) fun _ => valueResult _

@[simp] lemma lowerPutById (ident : Nat) : Extending env ls (lowerPutById ident) := by
  unfold Lowering.lowerPutById
  refine bind (child _) fun e => bind (child _) fun v => ite ?_ ?_
  · refine bind (fillCell _) fun b => bind (fillValue _) fun v => bind allocGpr fun t =>
      bindNewLabel fun slow => bindNewLabel fun done => ?_
    exact cached .putById (by simp) (by simp) (pure ())
  · exact bind (fillValue _) fun _ => bind (fillValue _) fun _ => callHelper rfl _

@[simp] lemma lowerCheckHasInstance : Extending env ls lowerCheckHasInstance := by
  unfold Lowering.lowerCheckHasInstance
  with_reducible repeat' first | refine bind ?_ fun _ => ?_ | refine ite ?_ ?_ | split
  all_goals simp

@[simp] lemma walkPrototypes (r cell proto : Gpr) {isTrue isFalse done : Label}
    (htrue : isTrue ∈ ls) (hfalse : isFalse ∈ ls) (hdone : done ∈ ls) :
    Extending env ls (walkPrototypes r cell proto isTrue isFalse done) := by
  unfold Lowering.walkPrototypes
  with_reducible repeat' first
    | refine bindHere fun _ => ?_ | refine bind ?_ fun _ => ?_ | refine ite ?_ ?_ | split
  all_goals simp [*]

@[simp] lemma lowerInstanceOf : Extending env ls lowerInstanceOf := by
  unfold Lowering.lowerInstanceOf
  with_reducible repeat' first
    | refine bindNewLabel fun _ => ?_ | refine bind ?_ fun _ => ?_ | refine ite ?_ ?_ | split
  all_goals simp

/-! ### Locals, calls and returns -/

@[simp] lemma lowerGetLocal (v : VarId) : Extending env ls (lowerGetLocal v) := by
  unfold Lowering.lowerGetLocal
  with_reducible repeat' first | refine bind ?_ fun _ => ?_ | refine ite ?_ ?_ | split
  all_goals simp

@[simp] lemma storeBoxed (op : GprOperand) (raw : DataFormat) (tag : Operand) (a : Address) :
    Extending env ls (storeBoxed op raw tag a) := by
  unfold Lowering.storeBoxed
  with_reducible repeat' first | refine bind ?_ fun _ => ?_ | refine ite ?_ ?_ | split
  all_goals simp

@[simp] lemma lowerSetLocal (v : VarId) : Extending env ls (lowerSetLocal v) := by
  unfold Lowering.lowerSetLocal
  with_reducible repeat' first | refine bind ?_ fun _ => ?_ | refine ite ?_ ?_ | split
  all_goals simp

@[simp] lemma storeOutgoing (f : FrameLayout) (es : List (Edge × Nat)) :
    Extending env ls (storeOutgoing f es) := by
  induction es with
  | nil => exact pure _
  | cons e es ih =>
    exact bind (fillValue _) fun _ => bind (store64 _ _) fun _ => bind (unlockGpr _) fun _ => ih

/-- The call of a value is listed. -/
lemma proceeds_site {c : CallSite}
    (hc : s.asm.Codes c.offset [.inst (.call 0) (some (.external (.thunk .virtualCall)))])
    (hlast : ∀ d ∈ s.calls, d.offset < c.offset) :
    Proceeds env s { s with calls := s.calls.push c } where
  toExtends := .of_eq rfl rfl rfl rfl rfl fun _ => id
  isCode hl := hl.of_size (Nat.le_refl _) rfl
  aimed hs := by
    refine hs.rest rfl rfl rfl rfl (fun _ hx => hs.rooted.stub hx) (fun _ hq => hs.rooted.done hq)
      ⟨fun hd => ?_, ?_, fun hd => ?_, hs.listed.caches, fun hw => hs.listed.watchpoint hw⟩
    · exact (Array.mem_push.mp hd).elim hs.listed.call fun h => h ▸ hc
    · rw [Array.toList_push, List.pairwise_append]
      exact ⟨hs.listed.calls, List.pairwise_singleton _ _, fun d hd e he =>
        List.mem_singleton.mp he ▸ hlast d (Array.mem_toList_iff.mp hd)⟩
    · obtain ⟨o, q, hd⟩ := hs.listed.cache hd
      exact ⟨o, q, hd.codes, hd.structureImm, hd.access, hd.path, hd.work, hd.done⟩

/-- The call of a value is followed by what has to come after it. -/
lemma callSite {origin : Origin} {z : Lower α} (hz : Extending env ls z) : Extending env ls (do
      let offset ← Lowering.emitReloc (.call 0) (.external (.thunk .virtualCall))
      MonadStateOf.modifyGet fun s : State =>
        (PUnit.unit, { s with calls := s.calls.push { offset, origin } })
      Lowering.exceptionCheck
      z) := by
  intro s hs hls
  refine leads_bind.mpr ((leads_emitReloc rfl).mono (fun o s₁ ⟨ho, h₁⟩ => ?_) (fun _ => False.elim)
    fun _ _ => False.elim)
  refine leads_bind.mpr (leads_modifyGet.mpr (leads_bind.mpr ((Lays.exceptionCheck _).mono
    (fun _ s₂ ⟨_, h₂⟩ => ?_) (fun _ => False.elim) fun _ _ => False.elim)))
  have hcall : Proceeds env s { s₁ with asm := s₂.asm } := by
    exact Lain.proceeds_call (e := .thunk .virtualCall) (h₁.trans ⟨h₂.adds, h₂.labels, rfl⟩) hs
  have hfits : ∀ p ∈ checkPieces env, p.Fits := by
    intro p hp
    obtain ⟨i, t, rfl, h⟩ := aims_afterCall hs (.thunk .virtualCall) p hp
    exact (h 0).fits
  have hinsts : ∀ p ∈ checkPieces env, ∃ i t, p = .inst i t := by
    intro p hp
    obtain ⟨i, t, hp, -⟩ := aims_afterCall hs (.thunk .virtualCall) p hp
    exact ⟨i, t, hp⟩
  have hsite : Proceeds env s s₂ := by
    rw [h₂.rest]
    refine hcall.trans (proceeds_site ?_ fun d hd => ?_)
    · obtain ⟨all, hm, hinst, -⟩ := hs.coded
      exact ho ▸ (hm.codes hinst h₁.adds (List.forall_mem_singleton.mpr rfl) (by simp)).adds h₂.adds
        hfits hinsts
    · have hd : d ∈ s.calls := by rwa [h₁.rest] at hd
      have hle := (hs.listed.call hd).stands.le
      have hlen : 0 < (Inst.call 0).encode.length := by decide
      simp only [List.flatMap_singleton, Piece.bytes] at hle
      simp only [ho]
      omega
  exact ProceedsBy.before (hz _ (hsite.aimed hs) fun l hl => hsite.isCode (hls l hl)) hsite

@[simp] lemma lowerCall : Extending env ls lowerCall := by
  unfold Lowering.lowerCall
  refine bind currentNode fun n => bind read fun _ => bind (storeOutgoing _ _) fun _ =>
    bind flushRegisters fun _ => bind (discard (movImm _ _)) fun _ => bind (store64 _ _) fun _ =>
    bind (store64 _ _) fun _ => bind (mov _ _) fun _ => bind (alu64 _ _ _) fun _ => ?_
  exact callSite (bind callResultGpr fun _ => gprResult _ _)

@[simp] lemma lowerReturn : Extending env ls lowerReturn := by
  unfold Lowering.lowerReturn
  with_reducible repeat' first | refine bind ?_ fun _ => ?_ | refine ite ?_ ?_ | split
  all_goals simp

@[simp] lemma lowerThrow : Extending env ls lowerThrow := by
  unfold Lowering.lowerThrow
  with_reducible repeat' first
    | refine bindRead ?_ | refine bind ?_ fun _ => ?_ | refine ite ?_ ?_ | split
  all_goals simp

@[simp] lemma beginEntry : Extending env ls beginEntry := by
  unfold Lowering.beginEntry
  refine bind (event _) fun _ => bind graph fun _ => bind (forIn fun _ _ => ?_) fun _ => pure _
  exact bind (variableOf _) fun _ => bind (event _) fun _ => pure _

@[simp] lemma checkArgument (x : Variable) : Extending env ls (checkArgument x) := by
  unfold Lowering.checkArgument
  with_reducible repeat' first | refine bind ?_ fun _ => ?_ | refine ite ?_ ?_ | split
  all_goals simp

@[simp] lemma checkArguments : Extending env ls checkArguments := by
  unfold Lowering.checkArguments
  refine bind graph fun g => ?_
  split
  · exact pure _
  · refine bind (modify fun _ => rfl) fun _ =>
      bind (forIn fun _ _ => ?_) fun _ => bind (forIn fun _ _ => ?_) fun _ => pure _
    · exact bind (variableOf _) fun _ => bind (checkArgument _) fun _ => pure _
    · exact bind (variableOf _) fun _ => ite (pure _) (bind (event _) fun _ => pure _)

lemma proceeds_listed {data : SwitchData} (h : env.graph.op? s.current = some (.switch data)) :
    Proceeds env s { s with switches := s.switches.push s.current } :=
  { Proceeds.refl s with
    switches := fun {n} hn => (Array.mem_push.mp hn).imp id fun (hn : n = s.current) =>
      ⟨data, hn ▸ h⟩
    listed := fun hn => Array.mem_push_of_mem _ hn
    isCode := fun h => h.of_size (Nat.le_refl _) rfl
    aimed := fun h => h.labels rfl rfl (Nat.le_refl _) (fun _ _ => .inl) (fun _ _ => id) rfl }

lemma leads_lowerSwitch {data data' : SwitchData}
    (h : env.graph.op? s.current = some (.switch data')) (hs : Aimed env s) :
    Leads env s (lowerSwitch data) (fun _ s' => Proceeds env s s' ∧ s.current ∈ s'.switches)
      (fun s' => Proceeds env s s' ∧ s.current ∈ s'.switches) fun _ => Proceeds env s := by
  unfold Lowering.lowerSwitch
  have hlisted := proceeds_listed h
  have hrest : ∀ {x : Lower Unit}, Extending env [] x →
      Leads env { s with switches := s.switches.push s.current } x
        (fun _ s' => Proceeds env s s' ∧ s.current ∈ s'.switches)
        (fun s' => Proceeds env s s' ∧ s.current ∈ s'.switches) fun _ => Proceeds env s := fun hx =>
    (hx _ (hlisted.aimed hs) (List.forall_mem_nil _)).mono
      (fun _ _ hp => ⟨hlisted.trans hp, hp.listed Array.mem_push_self⟩)
      (fun _ hp => ⟨hlisted.trans hp, hp.listed Array.mem_push_self⟩) fun _ _ hp => hlisted.trans hp
  refine leads_bind.mpr (leads_modify.mpr (hrest ?_))
  with_reducible repeat' first
    | refine bindBlockLabel fun _ => ?_ | refine bind ?_ fun _ => ?_ | refine ite ?_ ?_ | split
  all_goals simp

lemma lowerSwitch {data data' : SwitchData} (h : env.graph.op? s.current = some (.switch data'))
    (hs : Aimed env s) : ProceedsBy env s (lowerSwitch data) :=
  (leads_lowerSwitch h hs).mono (fun _ _ h => h.1) (fun _ h => h.1) fun _ _ => id

/-! ### Blocks -/

lemma lowerNode {op : Op} (h : env.graph.op? s.current = some op) (hs : Aimed env s) :
    ProceedsBy env s (lowerNode op) := by
  cases op with
  | switch data => exact lowerSwitch h hs
  | _ => exact (by simp [Lowering.lowerNode] : Extending env [] _) s hs nofun

@[simp] lemma bindPlaceholder : Extending env ls bindPlaceholder := by
  unfold Lowering.bindPlaceholder
  with_reducible repeat' first | refine bind ?_ fun _ => ?_ | refine ite ?_ ?_ | split
  all_goals simp

@[simp] lemma inconsistent (f : StateFault) : Extending env ls (inconsistent f : Lower α) :=
  bind get fun _ => internal _

@[simp] lemma checkBound (bound : List (Location × Slot)) : Extending env ls (checkBound bound) :=
  bind (forIn fun _ _ => bind (ledgerIndex _) fun _ => bind (infoAt _) fun _ =>
    ite (pure _) (bind (inconsistent _) fun _ => pure _)) fun _ => pure _

@[simp] lemma checkInfo (i : Nat) (x : ValueInfo) : Extending env ls (checkInfo i x) := by
  unfold Lowering.checkInfo
  with_reducible repeat' first | refine bind ?_ fun _ => ?_ | refine ite ?_ ?_ | split
  all_goals simp

@[simp] lemma checkState : Extending env ls checkState := by
  unfold Lowering.checkState
  with_reducible repeat' first
    | refine bind ?_ fun _ => ?_ | refine ite ?_ ?_ | refine forIn fun _ _ => ?_
  all_goals simp

lemma lowerCurrent {n : Node} (h : env.graph.op? s.current = some n.op) (hs : Aimed env s) :
    ProceedsBy env s (lowerCurrent n) := by
  have hnode := (lowerNode h hs).bind hs (List.forall_mem_nil _) fun _ => dropGuards
  refine hnode.tryCatch hs (List.forall_mem_nil _) fun e => ?_
  split
  · exact bind dropGuards fun _ => bind bindPlaceholder fun _ => dropGuards
  · exact throw _

@[simp] lemma advance (id : NodeId) : Extending env ls (advance id) :=
  bind get fun _ => bind graph fun _ => bind (assume _) fun _ =>
    modify fun _ => rfl

@[simp] lemma lowerAt (position : Nat) (id : NodeId) : Extending env ls (lowerAt position id) := by
  unfold Lowering.lowerAt
  refine bind get fun s => ite (bind (modify fun _ => rfl) fun _ => advance _) fun s₀ hs₀ _ => ?_
  have hset : Proceeds env s₀ { s₀ with position, current := id } := Unseen.proceeds rfl
  have hs := hset.aimed hs₀
  refine leads_bind.mpr (leads_modify.mpr (ProceedsBy.before ?_ hset))
  refine leads_bind.mpr (leads_bind.mpr (leads_read.mpr (leads_assume.mpr ⟨fun n hn => ?_,
    fun _ _ => .refl _⟩)))
  have hop : env.graph.op? id = some n.op := by
    rw [Graph.node, Breach.get] at hn
    split at hn
    · rename_i d hd
      cases hn
      simp [Graph.op?, hd]
    · cases hn
  have hcurrent : ∀ s₁ : State, s₁.current = id → Aimed env s₁ → ∀ {k : Unit → Lower Unit},
      (∀ u, Extending env [] (k u)) → ProceedsBy env s₁ (Lowering.lowerCurrent n >>= k) :=
    fun s₁ hid hs _ hk => (lowerCurrent (hid ▸ hop) hs).bind hs (List.forall_mem_nil _) hk
  split
  · exact ite (setInfo _ _) (pure _) _ hs (List.forall_mem_nil _)
  · exact ite (setInfo _ _) (pure _) _ hs (List.forall_mem_nil _)
  · exact bind (assume _) (fun _ => bind (variableOf _) fun _ => event _) _ hs
      (List.forall_mem_nil _)
  · have hc (text : String) : Proceeds env { s₀ with position, current := id } _ :=
      proceeds_comment text
    refine leads_ite.mpr ⟨fun _ => leads_bind.mpr (leads_get.mpr (leads_ite.mpr ⟨fun _ =>
      leads_bind.mpr (leads_modify.mpr ((hcurrent _ rfl ((hc _).aimed hs) ?_).before (hc _))),
      fun _ => hcurrent _ rfl hs ?_⟩)), fun _ => .refl _⟩
    all_goals
      intro _
      with_reducible repeat' first | refine bind ?_ fun _ => ?_ | refine ite ?_ ?_ | split
      all_goals simp

@[simp] lemma resetBlock (b : Block) : Extending env ls (resetBlock b) := by
  unfold Lowering.resetBlock
  refine bind graph fun g => bind (modify fun _ => rfl)
    fun _ => bind (event _) fun _ => bind (forIn fun _ _ => ?_) fun _ => bind (forIn fun _ _ => ?_)
    fun _ => pure _
  · exact bind (variableOf _) fun _ => bind (event _) fun _ => pure _
  · exact bind (variableOf _) fun _ => ite (bind (event _) fun _ => pure _) (pure _)

/-! ### Slow paths -/

@[simp] lemma saveRegisters (p : SlowPath) : Extending env ls (saveRegisters p) :=
  bind read fun _ => bind (forIn fun _ _ => bind (store64 _ _) fun _ => pure _) fun _ =>
    bind (forIn fun _ _ => bind (emit' rfl) fun _ => pure _) fun _ => pure _

@[simp] lemma restoreRegisters (p : SlowPath) : Extending env ls (restoreRegisters p) :=
  bind read fun _ => bind (forIn fun _ _ => bind (load64 _ _) fun _ => pure _) fun _ =>
    bind (forIn fun _ _ => bind (emit' rfl) fun _ => pure _) fun _ => pure _

lemma called_bind {f : Helper} {z : Lower α} (hf : f.serves = true) (hz : Extending env ls z) :
    Extending env ls (do
      Lowering.emitCall f
      if f.mayThrow then Lowering.exceptionCheck
      z) := by
  have h : Extending env ls (_ >>= fun _ => z) := bind (called hf) fun _ => hz
  rw [bind_assoc] at h
  convert h using 3
  split <;> simp

lemma slowCall (p : SlowPath) {f : Helper} (hf : f.serves = true) (args : List Argument)
    (result : Option Gpr) : Extending env ls (slowCall p f args result) := by
  unfold Lowering.slowCall
  refine bind (saveRegisters p) fun _ => bind (setupArguments _) fun _ => ?_
  refine called_bind hf ?_
  cases result with
  | none => exact restoreRegisters p
  | some r => exact bind (mov r _) fun _ => restoreRegisters p

lemma slowWork {p : SlowPath} (hp : p.work.helper.serves = true) :
    Extending env ls (slowWork p) := by
  unfold Lowering.slowWork
  generalize p.work = w at hp ⊢
  cases w with
  | call f args result => exact slowCall p hp _ _
  | convert f cell shape =>
    exact bind (testFlags _ _) fun _ => bind (guard' _ _) fun _ => bind (slowCall p hp _ _) fun _ =>
      bind (alu32 _ _ _) fun _ => bind (cmp32 _ _) fun _ => guard' _ _

@[simp] lemma emitSlowPaths : Extending env ls emitSlowPaths := by
  refine fun s hs _ => leads_bind.mpr (leads_get.mpr ?_)
  have hdone : ∀ l ∈ s.slowPaths.toList.map SlowPath.done, s.IsCode l := by
    simp only [List.mem_map, Array.mem_toList_iff]
    rintro _ ⟨p, hp, rfl⟩
    exact (hs.rooted.done hp).code
  have hlast : ∀ _ : PUnit, Extending env (s.slowPaths.toList.map SlowPath.done)
      (MonadStateOf.modifyGet fun s : State =>
        (PUnit.unit, { s with exitStream := none, exitLedger := none })) :=
    fun _ => modify fun _ => rfl
  refine bind (forIn_mem fun p hp _ => ?_) hlast s hs hdone
  exact bind (attach _) fun _ => bind (comment _) fun _ => bind (modify fun _ => rfl) fun _ =>
    bind (slowWork (hs.rooted.done (Array.mem_toList_iff.mp hp)).serves) fun _ =>
    bind (jmp (List.mem_map_of_mem hp)) fun _ => pure _

end Extending

end Lowering
end Speculation
