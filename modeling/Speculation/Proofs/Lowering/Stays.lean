import Speculation.Proofs.Independence.Entry

/-!
Where a lowering is does not change while a node is lowered.

The block stays the same, and so does the mark by which a node is passed over that was lowered together
with the one before. Only a comparison that is lowered together with a branch leaves that mark, before it
emits any code.
-/

namespace Speculation
namespace Lowering

variable {α β : Type} {env : Env}

/-- The lowering is in the same block, and the next node is passed over if it was to be before. -/
structure Stays (s s' : State) : Prop where
  block : s'.block = s.block
  skip : s'.skipNext = s.skipNext

instance : IsPreorder State Stays where
  refl _ := ⟨rfl, rfl⟩
  trans _ _ _ h h' := ⟨h'.block.trans h.block, h'.skip.trans h.skip⟩

namespace Along.Stays

lemma modifyGet {f : State → α × State} (h : ∀ s, Stays s (f s).2) :
    Along Stays env (modifyGet f : Lower α) := h

@[simp] lemma terminated : Along Stays env (throw .terminated : Lower α) := fun _ => trivial

@[simp] lemma check (x : Except CompileError α) : Along Stays env (check x) := by
  cases x with
  | ok a => exact pure a
  | error _ => exact fun _ => trivial

/-! ### Emitting -/

@[simp] lemma emit (i : Inst) : Along Stays env (emit i) := modifyGet fun _ => ⟨rfl, rfl⟩

@[simp] lemma emit' (i : Inst) : Along Stays env (emit' i) := discard (emit i)

@[simp] lemma emitReloc (i : Inst) (t : RelocTarget) : Along Stays env (emitReloc i t) := by
  intro s
  rw [Lowering.emitReloc, leads_bind, leads_get, leads_bind, leads_assume]
  exact ⟨fun _ _ => ⟨rfl, rfl⟩, fun _ _ => trivial⟩

@[simp] lemma newLabel : Along Stays env newLabel := modifyGet fun _ => ⟨rfl, rfl⟩

@[simp] lemma attach (l : Label) : Along Stays env (attach l) := fun _ =>
  leads_attach.mono (fun _ _ h => by rw [h.1]; exact ⟨rfl, rfl⟩) (fun _ _ => trivial) fun _ _ _ => trivial

@[simp] lemma blockLabel (b : BlockId) : Along Stays env (blockLabel b) := bind read fun _ => assume _

@[simp] lemma event (e : Event) : Along Stays env (event e) := modify fun _ => ⟨rfl, rfl⟩

@[simp] lemma jcc (c : Cond) (l : Label) : Along Stays env (jcc c l) := discard (emitReloc _ _)

@[simp] lemma jmp (l : Label) : Along Stays env (jmp l) := discard (emitReloc _ _)

@[simp] lemma mov (p q : Gpr) : Along Stays env (mov p q) := ite (pure _) (emit' _)

@[simp] lemma dmov (f g : Fpr) : Along Stays env (dmov f g) := ite (pure _) (emit' _)

@[simp] lemma movImm (q : Gpr) (w : UInt64) : Along Stays env (movImm q w) := emit _

@[simp] lemma alu64 (op : AluOp) (q : Gpr) (o : Operand) : Along Stays env (alu64 op q o) := emit' _

@[simp] lemma cmp32 (q : Gpr) (o : Operand) : Along Stays env (cmp32 q o) := emit' _

@[simp] lemma cmp64 (q : Gpr) (o : Operand) : Along Stays env (cmp64 q o) := emit' _

@[simp] lemma test32 (q : Gpr) (o : Operand) : Along Stays env (test32 q o) := emit' _

@[simp] lemma test64 (q : Gpr) (o : Operand) : Along Stays env (test64 q o) := emit' _

@[simp] lemma load (w : Width) (q : Gpr) (a : Address) : Along Stays env (load w q a) := emit' _

@[simp] lemma load64 (q : Gpr) (a : Address) : Along Stays env (load64 q a) := emit' _

@[simp] lemma store64 (q : Gpr) (a : Address) : Along Stays env (store64 q a) := emit' _

@[simp] lemma loadDoubleConstant (f : Fpr) (x : Double) : Along Stays env (loadDoubleConstant f x) := by
  refine bind (modify fun _ => ⟨rfl, rfl⟩) fun _ => bind get fun _ => bind get fun _ => ?_
  split
  · exact discard (emitReloc _ _)
  · exact bind newLabel fun _ => bind (modify fun _ => ⟨rfl, rfl⟩) fun _ => discard (emitReloc _ _)

/-! ### Values and registers -/

@[simp] lemma slotOf (n : NodeId) : Along Stays env (slotOf n) := by
  refine bind (node n) fun d => ?_
  split
  · exact pure _
  · exact internal _

@[simp] lemma setInfoAt (i : Nat) (x : ValueInfo) : Along Stays env (setInfoAt i x) :=
  modify fun _ => ⟨rfl, rfl⟩

@[simp] lemma setInfo (n : NodeId) (x : ValueInfo) : Along Stays env (setInfo n x) :=
  bind (slotOf n) fun _ => bind (ledgerIndex _) fun _ => setInfoAt _ _

@[simp] lemma info (n : NodeId) : Along Stays env (info n) :=
  bind (slotOf n) fun _ => bind (ledgerIndex _) fun _ => infoAt _

@[simp] lemma modifyGprs (f : Bank Gpr → Bank Gpr) : Along Stays env (modifyGprs f) :=
  modify fun _ => ⟨rfl, rfl⟩

@[simp] lemma modifyFprs (f : Bank Fpr → Bank Fpr) : Along Stays env (modifyFprs f) :=
  modify fun _ => ⟨rfl, rfl⟩

@[simp] lemma holdGpr (b : Bank Gpr) (q : Gpr) : Along Stays env (holdGpr b q) :=
  modify fun _ => ⟨rfl, rfl⟩

@[simp] lemma holdFpr (b : Bank Fpr) (f : Fpr) : Along Stays env (holdFpr b f) :=
  modify fun _ => ⟨rfl, rfl⟩

@[simp] lemma lockGpr (q : Gpr) : Along Stays env (lockGpr q) :=
  bind get fun _ => bind (check _) fun _ => holdGpr _ _

@[simp] lemma lockFpr (f : Fpr) : Along Stays env (lockFpr f) :=
  bind get fun _ => bind (check _) fun _ => holdFpr _ _

@[simp] lemma unlockGpr (q : Gpr) : Along Stays env (unlockGpr q) := modify fun _ => ⟨rfl, rfl⟩

@[simp] lemma unlockFpr (f : Fpr) : Along Stays env (unlockFpr f) := modify fun _ => ⟨rfl, rfl⟩

@[simp] lemma isLockedGpr (q : Gpr) : Along Stays env (isLockedGpr q) := bind get fun _ => pure _

@[simp] lemma spillSlot (o : Slot) (l : Location) : Along Stays env (spillSlot o l) := by
  unfold Lowering.spillSlot
  refine bind (ledgerIndex o) fun i => bind (infoAt i) fun x => ?_
  split
  · exact internal _
  · refine ite (internal _) (ite (bind (setInfoAt _ _) fun _ => event _) ?_)
    split
    all_goals refine bind ?_ fun _ => bind (assume _) fun _ => bind (setInfoAt _ _) fun _ => event _
    all_goals simp

/-- A register changes hands. -/
lemma vacate (ev : Option Slot) (l : Location) (a : α) : Along Stays env (do
    if let some o := ev then Lowering.spillSlot o l
    return a) := by
  split
  · exact bind (spillSlot _ _) fun _ => pure _
  · exact pure _

@[simp] lemma allocGpr : Along Stays env allocGpr :=
  bind get fun _ => bind (check _) fun _ => bind (holdGpr _ _) fun _ => vacate _ _ _

@[simp] lemma allocFpr : Along Stays env allocFpr :=
  bind get fun _ => bind (check _) fun _ => bind (holdFpr _ _) fun _ => vacate _ _ _

@[simp] lemma allocGprPreferring (q : Gpr) : Along Stays env (allocGprPreferring q) :=
  bind get fun _ => bind (check _) fun _ => bind (holdGpr _ _) fun _ => vacate _ _ _

@[simp] lemma flushRegisters : Along Stays env flushRegisters :=
  bind get fun _ => bind (forIn fun _ _ => bind (modifyGprs _) fun _ => bind (spillSlot _ _) fun _ => pure _)
    fun _ => bind get fun _ => bind (forIn fun _ _ => bind (modifyFprs _) fun _ =>
      bind (spillSlot _ _) fun _ => pure _) fun _ => pure _

@[simp] lemma gprResult (q : Gpr) (format : DataFormat) : Along Stays env (gprResult q format) :=
  bind get fun _ => bind currentNode fun _ => ite (pure _) (bind (slotOf _) fun _ =>
    bind (assume _) fun _ => bind (setInfo _ _) fun _ => bind (modifyGprs _) fun _ => event _)

/-! ### Exits -/

@[simp] lemma newExit (kind : ExitKind) : Along Stays env (newExit kind) :=
  bind newLabel fun _ => bind currentNode fun _ => modifyGet fun _ => ⟨rfl, rfl⟩

@[simp] lemma modifyExit (x : Nat) (f : Exit → Exit) : Along Stays env (modifyExit x f) :=
  modify fun _ => ⟨rfl, rfl⟩

@[simp] lemma jccExit (c : Cond) (x : Nat) : Along Stays env (jccExit c x) :=
  bind get fun _ => bind (assume _) fun _ => jcc _ _

@[simp] lemma guard (kind : ExitKind) (c : Cond) : Along Stays env (guard kind c) :=
  bind (newExit _) fun _ => bind (jccExit _ _) fun _ => pure _

@[simp] lemma guard' (kind : ExitKind) (c : Cond) : Along Stays env (guard' kind c) := discard (guard _ _)

@[simp] lemma guardUndo (kind : ExitKind) (c : Cond) (u : Undo) : Along Stays env (guardUndo kind c u) :=
  bind (newExit _) fun _ => bind (modifyExit _ _) fun _ => jccExit _ _

@[simp] lemma terminate (kind : ExitKind) : Along Stays env (terminate kind : Lower α) :=
  bind (newExit _) fun _ => bind get fun _ => bind (assume _) fun _ => bind (jmp _) fun _ => terminated

@[simp] lemma guardWatchpoint (kind : ExitKind) : Along Stays env (guardWatchpoint kind) :=
  bind (newExit _) fun _ => bind (modifyExit _ _) fun _ => bind (emit _) fun _ =>
    modify fun _ => ⟨rfl, rfl⟩

/-! ### Calls -/

@[simp] lemma setupArguments (args : List Argument) : Along Stays env (setupArguments args) :=
  bind (check _) fun _ => bind (forIn fun _ _ => bind (emit' _) fun _ => pure _) fun _ =>
    bind (forIn fun _ _ => bind (emit' _) fun _ => pure _) fun _ =>
      bind (forIn fun _ _ => bind (discard (movImm _ _)) fun _ => pure _) fun _ => pure _

@[simp] lemma exceptionCheck : Along Stays env exceptionCheck :=
  bind read fun _ => bind (discard (movImm _ _)) fun _ => bind (load64 _ _) fun _ =>
    bind (test64 _ _) fun _ => bind read fun _ => jcc _ _

@[simp] lemma callHelper (f : Helper) (args : List Argument) : Along Stays env (callHelper f args) :=
  bind flushRegisters fun _ => bind (setupArguments _) fun _ =>
    bind (discard (emitReloc _ _)) fun _ => ite exceptionCheck (pure _)

@[simp] lemma callResultGpr : Along Stays env callResultGpr :=
  bind (allocGprPreferring _) fun _ => bind (mov _ _) fun _ => pure _

/-! ### Operands -/

@[simp] lemma provenIs (e : Edge) (t : TypeSet) : Along Stays env (provenIs e t) :=
  bind (bind get fun _ => assume _) fun _ => pure _

@[simp] lemma mayBe (e : Edge) (t : TypeSet) : Along Stays env (mayBe e t) :=
  bind (bind get fun _ => assume _) fun _ => pure _

@[simp] lemma locate (n : NodeId) : Along Stays env (locate n) := by
  refine bind graph fun g => bind (assume _) fun v => ?_
  split
  · exact pure _
  · refine bind (info n) fun x => ite (internal _) ?_
    split
    · exact pure _
    · exact pure _
    · exact ite (pure _) (internal _)

@[simp] lemma bindGpr (n : NodeId) (q : Gpr) (format : DataFormat) :
    Along Stays env (bindGpr n q format) :=
  bind (slotOf n) fun _ => bind (info n) fun _ => bind (assume _) fun _ => bind (setInfo _ _) fun _ =>
    bind (modifyGprs _) fun _ => event _

@[simp] lemma bindFpr (n : NodeId) (f : Fpr) : Along Stays env (bindFpr n f) :=
  bind (slotOf n) fun _ => bind (info n) fun _ => bind (setInfo _ _) fun _ =>
    bind (modifyFprs _) fun _ => event _

@[simp] lemma refine (n : NodeId) (q : Gpr) (format : DataFormat) : Along Stays env (refine n q format) :=
  bind (info n) fun _ => ite (pure _) (bind (assume _) fun _ => bind (setInfo _ _) fun _ =>
    bind (modifyGprs _) fun _ => event _)

@[simp] lemma fillSpilledGpr (n : NodeId) (format : DataFormat) :
    Along Stays env (fillSpilledGpr n format) := by
  refine bind allocGpr fun q => bind (slotOf n) fun o => ?_
  split
  all_goals refine bind ?_ fun _ => bind (bindGpr _ _ _) fun _ => pure _
  all_goals simp

@[simp] lemma fillSpilledFpr (n : NodeId) : Along Stays env (fillSpilledFpr n) :=
  bind allocFpr fun _ => bind (slotOf n) fun _ => bind (emit' _) fun _ => bind (bindFpr _ _) fun _ => pure _

@[simp] lemma intFromGpr (e : Edge) (q : Gpr) (format : DataFormat) :
    Along Stays env (intFromGpr e q format) := by
  unfold Lowering.intFromGpr
  with_reducible repeat' first | refine bind ?_ fun _ => ?_ | refine ite ?_ ?_ | split
  all_goals simp

@[simp] lemma fillInt (e : Edge) : Along Stays env (fillInt e) := by
  unfold Lowering.fillInt
  with_reducible repeat' first | refine bind ?_ fun _ => ?_ | refine ite ?_ ?_ | split
  all_goals simp

@[simp] lemma intRhs (e : Edge) : Along Stays env (intRhs e) := by
  unfold Lowering.intRhs
  with_reducible repeat' first | refine bind ?_ fun _ => ?_ | refine ite ?_ ?_ | split
  all_goals simp

@[simp] lemma doubleFromGpr (e : Edge) (q : Gpr) (format : DataFormat) :
    Along Stays env (doubleFromGpr e q format) := by
  unfold Lowering.doubleFromGpr
  with_reducible repeat' first | refine bind ?_ fun _ => ?_ | refine ite ?_ ?_ | split
  all_goals simp

@[simp] lemma fillDouble (e : Edge) : Along Stays env (fillDouble e) := by
  unfold Lowering.fillDouble
  with_reducible repeat' first | refine bind ?_ fun _ => ?_ | refine ite ?_ ?_ | split
  all_goals simp

@[simp] lemma cellFromGpr (e : Edge) (q : Gpr) (format : DataFormat) :
    Along Stays env (cellFromGpr e q format) := by
  unfold Lowering.cellFromGpr
  with_reducible repeat' first | refine bind ?_ fun _ => ?_ | refine ite ?_ ?_ | split
  all_goals simp

@[simp] lemma fillCell (e : Edge) : Along Stays env (fillCell e) := by
  unfold Lowering.fillCell
  with_reducible repeat' first | refine bind ?_ fun _ => ?_ | refine ite ?_ ?_ | split
  all_goals simp

@[simp] lemma guardCellType (q : Gpr) (type : CellType) (want : Bool) (kind : ExitKind) :
    Along Stays env (guardCellType q type want kind) :=
  bind (load64 _ _) fun _ => bind (load _ _ _) fun _ => bind (cmp32 _ _) fun _ => guard' _ _

@[simp] lemma fillObject (e : Edge) : Along Stays env (fillObject e) := by
  unfold Lowering.fillObject
  with_reducible repeat' first | refine bind ?_ fun _ => ?_ | refine ite ?_ ?_ | split
  all_goals simp

@[simp] lemma booleanFromGpr (e : Edge) (q : Gpr) (format : DataFormat) (shared : Bool) :
    Along Stays env (booleanFromGpr e q format shared) := by
  unfold Lowering.booleanFromGpr
  with_reducible repeat' first | refine bind ?_ fun _ => ?_ | refine ite ?_ ?_ | split
  all_goals simp

@[simp] lemma fillBoolean (e : Edge) : Along Stays env (fillBoolean e) := by
  unfold Lowering.fillBoolean
  with_reducible repeat' first | refine bind ?_ fun _ => ?_ | refine ite ?_ ?_ | split
  all_goals simp

@[simp] lemma boxGpr (n : NodeId) (q : Gpr) (shared : Bool) (tag : Operand) (format : DataFormat) :
    Along Stays env (boxGpr n q shared tag format) := by
  unfold Lowering.boxGpr
  with_reducible repeat' first | refine bind ?_ fun _ => ?_ | refine ite ?_ ?_ | split
  all_goals simp

@[simp] lemma boxInt (n : NodeId) (q : Gpr) (shared : Bool) : Along Stays env (boxInt n q shared) :=
  boxGpr _ _ _ _ _

@[simp] lemma boxBoolean (n : NodeId) (q : Gpr) (shared : Bool) :
    Along Stays env (boxBoolean n q shared) := boxGpr _ _ _ _ _

@[simp] lemma fillValue (e : Edge) : Along Stays env (fillValue e) := by
  unfold Lowering.fillValue
  with_reducible repeat' first | refine bind ?_ fun _ => ?_ | refine ite ?_ ?_ | split
  all_goals simp

/-! ### Comparisons and branches -/

@[simp] lemma child (i : Nat) : Along Stays env (child i) := bind currentNode fun _ => assume _

@[simp] lemma jumpToBlock (b : BlockId) : Along Stays env (jumpToBlock b) :=
  bind get fun _ => ite (pure _) (bind (blockLabel _) fun _ => jmp _)

@[simp] lemma branch (c : Cond) (taken notTaken : BlockId) : Along Stays env (branch c taken notTaken) :=
  bind get fun _ => ite (bind (blockLabel _) fun _ => jcc _ _) (bind (blockLabel _) fun _ =>
    bind (jcc _ _) fun _ => jumpToBlock _)

@[simp] lemma finishCompare (c : Cond) (target : CompareTarget) :
    Along Stays env (finishCompare c target) := by
  unfold Lowering.finishCompare
  with_reducible repeat' first | refine bind ?_ fun _ => ?_ | split
  all_goals simp

@[simp] lemma masqueradeGuard (cells : List Gpr) : Along Stays env (masqueradeGuard cells) :=
  bind read fun _ => ite (guardWatchpoint _) (bind (forIn fun _ _ => bind (load64 _ _) fun _ =>
    bind (load _ _ _) fun _ => bind (test32 _ _) fun _ => bind (guard' _ _) fun _ => pure _) fun _ => pure _)

@[simp] lemma guardOther (q : Gpr) : Along Stays env (guardOther q) :=
  bind (mov _ _) fun _ => bind (alu64 _ _ _) fun _ => bind (cmp64 _ _) fun _ => guard' _ _

@[simp] lemma objectOrOtherEq (a b : Edge) (target : CompareTarget) :
    Along Stays env (objectOrOtherEq a b target) := by
  unfold Lowering.objectOrOtherEq
  with_reducible repeat' first | refine bind ?_ fun _ => ?_ | split
  all_goals simp

@[simp] lemma genericCompare (op : Comparison) (a b : Edge) (fused : Option (BlockId × BlockId)) :
    Along Stays env (genericCompare op a b fused) := by
  unfold Lowering.genericCompare
  with_reducible repeat' first | refine bind ?_ fun _ => ?_ | split
  all_goals simp

@[simp] lemma compareInto (op : Comparison) (a b : Edge) (target : CompareTarget) :
    Along Stays env (compareInto op a b target) := by
  unfold Lowering.compareInto
  with_reducible repeat' first | refine bind ?_ fun _ => ?_ | refine ite ?_ ?_
  all_goals simp

@[simp] lemma compareZero (f : Fpr) : Along Stays env (compareZero f) :=
  bind (discard (movImm _ _)) fun _ => bind (emit' _) fun _ => emit' _

@[simp] lemma lowerBranch (taken notTaken : BlockId) : Along Stays env (lowerBranch taken notTaken) := by
  unfold Lowering.lowerBranch
  with_reducible repeat' first | refine bind ?_ fun _ => ?_ | split
  all_goals simp

end Along.Stays

end Lowering
end Speculation
