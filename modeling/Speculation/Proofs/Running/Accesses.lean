import Speculation.Proofs.Running.Checks
import Speculation.Proofs.Running.Successors

/-!
Accesses to elements while code is running.

A check of a cell is passed by what suits the mode. The storage of the cell is a result of its own. With
both at hand a load or a store first checks its index; within bounds it reads or writes the element, and
nothing else in memory but slots of values.
-/

namespace Speculation

open Lowering

namespace Lowering

def checkElements (mode : ArrayMode) (e : Edge) (q : Gpr) : Lower Unit :=
  match indexingShape? mode, cellType? mode with
  | some shape, _ => do
    compareShape q shape
    guard' .badIndexingType .ne
  | none, some type => do
    unless ← provenIs e mode.typeSet do guardCellType q type true .badType
  | none, none => pure ()

lemma Extending.checkElements {env : Env} {ls : List Label} (mode : ArrayMode) (e : Edge) (q : Gpr) :
    Extending env ls (checkElements mode e q) := by
  unfold Lowering.checkElements
  with_reducible repeat' first | refine bind ?_ fun _ => ?_ | refine ite ?_ ?_ | split
  all_goals simp

def loadElement (mode : ArrayMode) (st i : Gpr) : Lower Unit :=
  match mode with
  | .contiguous => do
    let q ← allocGpr
    load64 q (.indexed st i (.last 3) 0)
    test64 q (.reg q)
    guard' .loadFromHole .e
    gprResult q .js
  | .double => do
    let f ← allocFpr
    emit' (.loadD f (.indexed st i (.last 3) 0))
    emit' (.dcmp f f)
    guard' .loadFromHole .dUnordered
    fprResult f
  | .int32Array => do
    let q ← allocGpr
    load .w32 q (.indexed st i (.castSucc (.last 2)) 0)
    gprResult q .int32
  | .float64Array => do
    let f ← allocFpr
    emit' (.loadD f (.indexed st i (.last 3) 0))
    fprResult f
  | .string => internal (.loweredElsewhere mode)

lemma Extending.loadElement {env : Env} {ls : List Label} (mode : ArrayMode) (st i : Gpr) :
    Extending env ls (loadElement mode st i) := by
  unfold Lowering.loadElement
  split
  all_goals first | exact internal _ | skip
  all_goals
    with_reducible repeat' first | refine bind ?_ fun _ => ?_
    all_goals first | exact emit' rfl | simp

lemma lowerGetByVal_eq {mode : ArrayMode} (h : mode ≠ .string) : lowerGetByVal mode = (do
    let b ← fillCell (← child 0)
    let i ← fillStrictInt (← child 1)
    let st ← fillStorage (← child 2)
    guardBounds mode b.reg st i.reg
    loadElement mode st i.reg) := if_neg h

end Lowering

namespace Lowering

/-- A double is stored to an element; a NaN would be a hole among doubles. -/
def storeDouble (mode : ArrayMode) (f : Fpr) (b i st : Gpr) : Lower Unit := do
  if mode = .double then
    emit' (.dcmp f f)
    guard' .badType .dUnordered
  guardBounds mode b st i
  emit' (.storeD f (.indexed st i (.last 3) 0))

def storeValue (mode : ArrayMode) (v : Edge) (b i st : Gpr) : Lower Unit :=
  match mode with
  | .contiguous => do
    let j ← fillValue v
    guardBounds mode b st i
    store64 j.reg (.indexed st i (.last 3) 0)
  | .double | .float64Array => do
    let f ← fillDouble v
    storeDouble mode f b i st
  | .int32Array => do
    let x ← fillInt v
    guardBounds mode b st i
    emit' (.store .w32 x.reg (.indexed st i (.castSucc (.last 2)) 0))
  | .string => internal (.loweredElsewhere mode)

lemma Extending.storeDouble {env : Env} {ls : List Label} (mode : ArrayMode) (f : Fpr) (b i st : Gpr) :
    Extending env ls (storeDouble mode f b i st) := by
  have hstore : Extending env ls (do
      Lowering.guardBounds mode b st i
      Lowering.emit' (.storeD f (.indexed st i 3 0))) :=
    bind (guardBounds _ _ _ _) fun _ => emit' rfl
  unfold Lowering.storeDouble
  exact ite (bind (emit' rfl) fun _ => bind (guard' _ _) fun _ => hstore) hstore

lemma lowerPutByVal_eq {mode : ArrayMode} (h : mode ≠ .string) : lowerPutByVal mode = (do
    let b ← fillCell (← child 0)
    let i ← fillStrictInt (← child 1)
    let st ← fillStorage (← child 3)
    let v ← child 2
    storeValue mode v b.reg i.reg st) := if_neg h

end Lowering

namespace Course

variable {k : Course} {ls : List Label} {s s' s₀ : State} {r r' r₀ : Registers} {mem mem' mem₀ : Memory}
  {q b j st : Gpr} {e : Edge} {h : Heap} {x : Cell} {i : Int32} {mode : ArrayMode} {ws : List Nat}
  {d : Node} {δ : Structure} {m y : Nat} {v : Value} {l : Location} {format : DataFormat}
  {Q T : State → Moment → Prop}

lemma Bears.passed (hb : k.Bears d v l format s r mem s')
    (hp : Spares k.env.graph s₀ r₀ mem₀ s r mem) :
    Passed k.env.graph k.cur (Function.update k.val k.cur v) s₀ r₀ mem₀ s' r mem where
  stands := hb.stands
  facts := hb.retains.facts.trans hp.facts
  plain hm h := hb.retains.plain hm (hp.plain h)
  frame := hp.frame
  memory := hp.memory

/-- There is no result, and memory has changed at most in the slots of values. -/
def Refuses {α : Type} (k : Course) (res : Except ExitKind α) (r : Registers) (mem : Memory)
    (kind : ExitKind) (mem' : Memory) : Prop :=
  res = .error kind ∧ Confined k.env.graph r mem mem'

/-- A load has come to the element, whose value the node has now, or the machine leaves. -/
def Loads (k : Course) (mode : ArrayMode) (res : Except ExitKind Value) (s : State) (r : Registers)
    (mem : Memory) (s' : State) (t' : Moment) : Prop :=
  t'.Decides
    (fun r' mem' => ∃ u v d l format, res = .ok u ∧ mode.Same v u ∧
      k.env.graph.nodes[k.cur]? = some d ∧ k.RecordsAt d l format s' ∧
      Represents format (r'.word l) v ∧
      Passed k.env.graph k.cur (Function.update k.val k.cur v) s r mem s' r' mem')
    (k.Refuses res r mem)

/-- A store has changed the bytes of the element, and nothing else but slots of values, or the machine
leaves. -/
def Stores (k : Course) (a : UInt64) (n : Nat) (res : Except ExitKind Nat) (r : Registers) (mem : Memory)
    (s' : State) (t' : Moment) : Prop :=
  t'.Decides
    (fun r' mem' => ∃ bits mem₁, res = .ok bits ∧ Confined k.env.graph r mem mem₁ ∧
      mem₁.Stored a n bits mem' ∧ Stands k.val s'.ledger r' mem')
    (k.Refuses res r mem)

/-- What a compile knows of the operand of an edge, as a number, is true of its value. -/
structure Storable (k : Course) (facts : Facts) (e : Edge) : Prop where
  constant {v : Value} (h : k.env.graph.valueConstant e.node = .ok (some v)) : k.val e.node = v
  integer (h : (k.val e.node).isInt32 = true) : ∃ i, k.val e.node = .ofInt32 i
  provenInt (h : e.kind = .knownInt32 ∨ (facts.known e.node).subset .int32 = true) :
    (k.val e.node).isInt32 = true
  provenNumber (h : (facts.known e.node).subset .number = true) : (k.val e.node).isNumber = true
  admitsInt (h : (k.val e.node).isInt32 = true) : (facts.known e.node).intersects .int32 = true
  admitsNumber (h : (k.val e.node).isNumber = true) : (facts.known e.node).intersects .number = true

/-- What a compile knows of the operand of an edge is true of its value, which suits the mode or not. -/
structure Checkable (k : Course) (h : Heap) (s : State) (e : Edge) (mode : ArrayMode) (suits : Prop) :
    Prop where
  told : Told k.env.graph k.val s e
  described (hc : (k.val e.node).isCell = true) : ∃ x d, h.cell? (k.val e.node).bits = some x ∧
    h.structure? x.kind = some d ∧ (suits ↔ d.Suits mode)
  isCell (hs : suits) : (k.val e.node).isCell = true
  validated (hv : s.facts.isArrayValidated e.node mode = .ok true) : suits
  admits (hs : suits) : (s.facts.known e.node).intersects mode.typeSet = true
  proven {type : CellType} (htype : cellType? mode = some type)
    (hp : (s.facts.known e.node).subset mode.typeSet = true) : suits

/-- A check is passed by what suits the mode; anything else makes the machine leave. -/
def Checks (k : Course) (suits : Prop) (s : State) (r : Registers) (mem : Memory) (s' : State)
    (t' : Moment) : Prop :=
  t'.Decides (fun r' mem' => suits ∧ Passed k.env.graph k.cur k.val s r mem s' r' mem') fun kind mem' =>
    ¬suits ∧ kind ∈ [ExitKind.badType, .badIndexingType] ∧ Confined k.env.graph r mem mem'

/-- The operands of an access: a cell, an index, and in the third place given the storage of the cell. -/
structure Access (k : Course) (h : Heap) (s : State) (d : Node) (m : Nat) (x : Cell) (i : Int32) :
    Prop where
  base : ∃ e, d.children[0]? = some e ∧ Told k.env.graph k.val s e ∧
    (k.val e.node).isCell = true ∧ h.cell? (k.val e.node).bits = some x
  index : ∃ e, d.children[1]? = some e ∧ Integral k.env.graph k.val s.facts e i
  storage : ∃ e, d.children[m]? = some e ∧ k.val e.node = ⟨x.storage⟩

namespace Ends

lemma checkElements {suits : Prop} (hk : k.Sound) (hst : Stands k.val s.ledger r mem)
    (ha : h.Aside k.env.graph r mem) (hx : h.cell? (r.gpr q) = some x)
    (hstr : h.structure? x.kind = some δ) (hsuits : suits ↔ δ.Suits mode)
    (hp : Preserves k.env.graph s₀ r₀ mem₀ s r mem)
    (hproven : ∀ {type}, cellType? mode = some type →
      (s₀.facts.known e.node).subset mode.typeSet = true → suits) :
    k.Ends ls s (Lowering.checkElements mode e q) ⟨.next, r, mem⟩ (k.Checks suits s₀ r₀ mem₀)
      fun _ t' => t'.Leaves fun kind mem' =>
        ¬suits ∧ kind ∈ [ExitKind.badType, .badIndexingType] ∧ Confined k.env.graph r₀ mem₀ mem' := by
  refine .intro fun hs _ => ?_
  have hpass : ∀ {s' r'}, suits → k.Follows s s' → r.Spared r' →
      k.Checks suits s₀ r₀ mem₀ s' ⟨.next, r', mem⟩ := fun h hf hr =>
    .inl ⟨rfl, h, .of_spares ((hp.trans (.of_same hf.toSame)).spared hr).toSpares
      (hf.ledger ▸ Stands.spared hst hs hr)⟩
  have hfail : ∀ {kind s' r'}, ¬suits → kind ∈ [ExitKind.badType, .badIndexingType] →
      k.Checks suits s₀ r₀ mem₀ s' ⟨.exit kind, r', mem⟩ :=
    fun hno hkind => .inr ⟨_, rfl, hno, hkind, hp.memory⟩
  unfold Lowering.checkElements
  split
  · rename_i shape hshape
    have hiff : (suits ↔ δ.indexing &&& Indexing.shapeMask = shape) ∧
        (shape = Indexing.contiguous ∨ shape = Indexing.double) := by
      cases mode <;> cases hshape <;> exact ⟨hsuits, by decide⟩
    refine .bind (.compareShape hk ha hx hstr hiff.2 fun s₁ r₁ h₁ hr₁ hne => ?_)
    refine .of_wp (.guard' hk (by decide) (fun hc s₂ h₂ => ?_) fun hc s₂ h₂ => ?_)
    · have hno := hne.symm.trans hc
      exact hfail (fun h => by simp [hiff.1.mp h] at hno) (by simp)
    · have heq := hne.symm.trans hc
      exact hpass (hiff.1.mpr (by simpa using heq)) (h₁.trans h₂) hr₁
  · rename_i type _ htype
    have hiff : suits ↔ δ.type = type := by
      cases mode <;> cases htype <;> exact hsuits
    refine .look (fun _ => looks_provenIs) fun b hb => .ite (fun hyes => ?_) fun _ => ?_
    · rw [hb, hp.facts] at hyes
      exact .of_wp (.pure (hpass (hproven htype hyes) (.refl s) (.refl r)))
    · refine .of_wp (.guardCellType hk ha hx hstr (by decide) (fun ht s₁ r₁ h₁ hr₁ => ?_)
        fun ht s₁ r₁ h₁ => ?_)
      · exact hpass (hiff.mpr (of_decide_eq_true ht)) h₁ hr₁
      · exact hfail (fun hs => ht (decide_eq_true (hiff.mp hs))) (by simp)
  · rename_i hnone hnone'
    cases mode <;> first | exact absurd hnone (Option.some_ne_none _) |
      exact absurd hnone' (Option.some_ne_none _)

/-- **A check is passed by what suits the mode.** -/
lemma lowerCheckArray {suits : Prop} (hk : k.Sound) (hd : k.env.graph.nodes[k.cur]? = some d)
    (he : d.children[0]? = some e) (hc : k.Checkable h s e mode suits)
    (hst : Stands k.val s.ledger r mem) (ha : h.Aside k.env.graph r mem) :
    k.Ends ls s (Lowering.lowerCheckArray mode) ⟨.next, r, mem⟩ (k.Checks suits s r mem)
      fun _ t' => t'.Leaves fun kind mem' =>
        ¬suits ∧ kind ∈ [ExitKind.badType, .badIndexingType] ∧ Confined k.env.graph r mem mem' := by
  have hpass : ∀ {s' r' mem'}, suits → Spares k.env.graph s r mem s' r' mem' →
      Stands k.val s'.ledger r' mem' → k.Checks suits s r mem s' ⟨.next, r', mem'⟩ :=
    fun hs hp hst' => .inl ⟨rfl, hs, .of_spares hp hst'⟩
  have hleaves : ∀ {kind r' mem'}, ¬suits → kind ∈ [ExitKind.badType, .badIndexingType] →
      Confined k.env.graph r mem mem' → (⟨.exit kind, r', mem'⟩ : Moment).Leaves fun kind mem' =>
        ¬suits ∧ kind ∈ [ExitKind.badType, .badIndexingType] ∧ Confined k.env.graph r mem mem' :=
    fun hno hkind hconf => ⟨_, rfl, hno, hkind, hconf⟩
  refine .child fun d' e' hd' he' => ?_
  obtain rfl := Option.some.inj (hd.symm.trans hd')
  obtain rfl := Option.some.inj (he.symm.trans he')
  refine .look (P := (· = s)) (F := fun _ _ => False) (fun _ => ⟨rfl, rfl⟩) ?_
  rintro s rfl
  refine .look (fun _ => looks_assume) fun valid hvalid => .ite (fun hyes => ?_) fun _ => ?_
  · exact .of_wp (.pure (hpass (hc.validated (hyes ▸ hvalid)) (.of_facts rfl id) hst))
  refine .look (fun _ => looks_mayBe) fun b hb => ?_
  have hbad : (k.val e.node).isCell = false → ¬suits := fun hno hs => by
    rw [hc.isCell hs] at hno
    cases hno
  refine .ite (fun hmay => ?_) fun hmay => ?_
  case refine_2 =>
    refine .of_wp (.bind (.terminate hk (by decide) fun s₁ _ => hleaves (fun hs => ?_) (by simp)
      (.refl _ r mem)))
    exact hmay (hb.trans (hc.admits hs))
  refine .bind (.fillCell hk hst (.of_told hc.told) hc.told.plain hc.told.nonempty
    (fun hcell op s₁ r₁ mem₁ hb₁ hbits => ?_) (fun hno op s₁ r₁ mem₁ _ hconf => ?_)
    fun hno s₁ r₁ mem₁ hconf => ?_)
  case refine_2 =>
    have hout : (⟨.exit .badType, r₁, mem₁⟩ : Moment).Leaves _ := hleaves (hbad hno) (by simp) hconf
    exact .away (.checkElements _ _ _) nofun (fun _ => .inr hout) fun _ => hout
  case refine_3 =>
    refine hleaves (hbad ?_) (by simp) hconf
    by_contra hyes
    exact hyes (hno (hc.told.admits (by simpa using hyes)))
  have hp₁ := hb₁.preserves
  obtain ⟨x, d', hx, hd', hsuits⟩ := hc.described hcell
  have ha₁ := ha.confined hp₁.memory hp₁.frame
  rw [← hbits] at hx
  show k.Ends ls s₁ (Lowering.checkElements mode e op.reg) ⟨.next, r₁, mem₁⟩ _ _
  exact .checkElements hk hb₁.stands ha₁ hx hd' hsuits hp₁ hc.proven

lemma fillAccess {f : GprOperand → GprOperand → Gpr → Lower Unit} (hk : k.Sound)
    (hd : k.env.graph.nodes[k.cur]? = some d) (hacc : k.Access h s d m x i)
    (hst : Stands k.val s.ledger r mem)
    (hf : ∀ b j st s' r' mem', Preserves k.env.graph s r mem s' r' mem' →
      Stands k.val s'.ledger r' mem' → h.Addressed x i s' r' b.reg j.reg st →
      k.Ends ls s' (f b j st) ⟨.next, r', mem'⟩ Q T) :
    k.Ends ls s (do
      let b ← Lowering.fillCell (← Lowering.child 0)
      let j ← Lowering.fillStrictInt (← Lowering.child 1)
      let st ← Lowering.fillStorage (← Lowering.child m)
      f b j st) ⟨.next, r, mem⟩ Q T := by
  obtain ⟨⟨e₀, he₀, htold, hcell, hx⟩, ⟨e₁, he₁, hint⟩, e₂, he₂, hstorage⟩ := hacc
  have hchild : ∀ {d' : Node} {n : Nat} {e e' : Edge}, k.env.graph.nodes[k.cur]? = some d' →
      d'.children[n]? = some e' → d.children[n]? = some e → e' = e := by
    intro d' n e e' hd' he' he
    obtain rfl := Option.some.inj (hd.symm.trans hd')
    exact Option.some.inj (he'.symm.trans he)
  have hcell' : (k.val e₀.node).isCell ≠ false := by simp [hcell]
  refine .child fun d' e hd' he => ?_
  obtain rfl := hchild hd' he he₀
  refine .bind (.fillCell hk hst (.of_told htold) htold.plain htold.nonempty ?_
    (fun hno => absurd hno hcell') fun hno => absurd (hno (htold.admits hcell)) hcell')
  intro _ b s₁ r₁ mem₁ hb₁ hbits₁
  refine .child fun d' e hd' he => ?_
  obtain rfl := hchild hd' he he₁
  refine .bind (.fillStrictInt hk hb₁.stands (hb₁.preserves.facts ▸ hint) fun j s₂ r₂ mem₂ hb₂ hraw₂ => ?_)
  refine .child fun d' e hd' he => ?_
  obtain rfl := hchild hd' he he₂
  refine .bind (.fillStorage hk hb₂.stands fun st s₃ r₃ mem₃ hb₃ hbits₃ => ?_)
  have hp := (hb₁.preserves.trans hb₂.preserves).trans hb₃.preserves
  have hlock₁ := hb₁.filled.lock.trans_le (hb₂.preserves.onward.locks _)
  refine hf _ _ _ _ _ _ hp hb₃.stands ⟨?_, ?_, ?_, fun hq => ?_⟩
  · rw [hb₃.preserves.gpr hlock₁, hb₂.preserves.gpr hb₁.filled.lock, hbits₁]
    exact hx
  · exact (hb₃.preserves.gpr hb₂.filled.lock).trans hraw₂
  · rw [hbits₃, hstorage]
  · simp only [List.mem_cons, List.not_mem_nil, or_false] at hq
    rcases hq with rfl | rfl | rfl
    · exact hlock₁.trans_le (hb₃.preserves.onward.locks _)
    · exact hb₂.filled.lock.trans_le (hb₃.preserves.onward.locks _)
    · exact hb₃.filled.lock

section Load

variable (hk : k.Sound) (hu : Unborn k.env.graph k.cur k.before) (hst : Stands k.val s.ledger r mem)
  (ha : h.Aside k.env.graph r mem) (hb : h.Backs mode x ws) (hx : h.Addressed x i s r b j st)
  (hi : 0 ≤ i.toInt) (hy : ws[i.toInt.toNat]? = some y)
include hk hst ha hb hx hi hy

/-- The bytes of an element are loaded into a register that was taken for it. -/
lemma loadGpr {f : Gpr → Lower Unit} {width : Width} {scale : Fin 4}
    (hscale : 2 ^ scale.val = mode.elementSize) (hwidth : width.bytes = mode.elementSize)
    (hf : ∀ q s' mem', Preserves k.env.graph s r mem s' (r.setGpr q (.ofNat y)) mem' →
      Stands k.val s'.ledger (r.setGpr q (.ofNat y)) mem' → s'.Taken (.gpr q) →
      k.Ends ls s' (f q) ⟨.next, r.setGpr q (.ofNat y), mem'⟩ Q T) :
    k.Ends ls s (do
      let q ← Lowering.allocGpr
      Lowering.load width q (.indexed st j scale 0)
      f q) ⟨.next, r, mem⟩ Q T := by
  refine .bind (.allocGpr hk hst fun q s₁ mem₁ hh hp₁ h₁ => ?_)
  have hread := ((ha.confined hp₁.memory rfl).element hb hy).1
  rw [← hx.address hi hscale, ← hwidth] at hread
  refine .bind (.emit' hk rfl (Inst.steps_load hread) fun s₂ h₂ => .intro fun hs₂ _ => ?_)
  have hh₂ := hh.of_same h₂.toSame
  exact hf q s₂ mem₁ ((hp₁.trans (.of_same h₂.toSame)).setGpr hh _)
    (Stands.setGpr (h₂.ledger ▸ h₁) hs₂ hh₂.taken _) hh₂.taken

/-- So are those of a double. -/
lemma loadFpr {f : Fpr → Lower Unit} (hsize : mode.elementSize = 8)
    (hf : ∀ q s' r' mem', Spares k.env.graph s r mem s' r' mem' → Stands k.val s'.ledger r' mem' →
      r'.fpr q = ⟨.ofNat y⟩ → k.Ends ls s' (f q) ⟨.next, r', mem'⟩ Q T) :
    k.Ends ls s (do
      let q ← Lowering.allocFpr
      Lowering.emit' (.loadD q (.indexed st j 3 0))
      f q) ⟨.next, r, mem⟩ Q T := by
  refine .bind (.allocFpr hk hst fun q s₁ mem₁ hh hp₁ h₁ => ?_)
  have hread := ((ha.confined hp₁.memory rfl).element hb hy).1
  have hscale : 2 ^ (3 : Fin 4).val = mode.elementSize := hsize.symm
  rw [← hx.address hi hscale, hsize] at hread
  have hload : (Inst.loadD q (.indexed st j 3 0)).effect r mem₁ =
      some (r.setFpr q ⟨.ofNat y⟩, mem₁) := by
    show (mem₁.read? 8 (r.address (.indexed st j 3 0))).map _ = _
    rw [hread, Option.map_some]
  refine .bind (.emit' hk rfl (Inst.steps_of_effect hload) fun s₂ h₂ => .intro fun hs₂ _ => ?_)
  have htakes := Registers.Takes.of_setFpr r q ⟨.ofNat y⟩
  exact hf q s₂ _ mem₁ ((hp₁.trans (.of_same h₂.toSame)).toSpares.takes hh (fun _ => Nat.le_refl _) htakes)
    (Stands.takes (h₂.ledger ▸ h₁) hs₂ (hh.of_same h₂.toSame).taken htakes) htakes.self

lemma loadElement (hu : Unborn k.env.graph k.cur k.before) (hmode : mode ≠ .string)
    (hnan : mode = .float64Array → (⟨.ofNat y⟩ : Double).isNaN = false)
    (hp : Spares k.env.graph s₀ r₀ mem₀ s r mem) (hlocks : ∀ l, s₀.locks l ≤ s.locks l) :
    k.Ends ls s (Lowering.loadElement mode st j) ⟨.next, r, mem⟩
      (k.Loads mode (mode.fetch ws i) s₀ r₀ mem₀)
      fun _ t' => t'.Leaves (k.Refuses (mode.fetch ws i) r₀ mem₀) := by
  have hfetch : mode.fetch ws i =
      if mode.element y = .empty then .error .loadFromHole else .ok (mode.element y) := by
    simp only [ArrayMode.fetch, if_pos hi, hy]
  -- a hole makes the machine leave
  have hhole : ∀ {x : Lower Unit} {s₁ r₁ mem₁}, Extending k.env ls x → mode.element y = .empty →
      Confined k.env.graph r mem mem₁ → k.Ends ls s₁ x ⟨.exit .loadFromHole, r₁, mem₁⟩
        (k.Loads mode (mode.fetch ws i) s₀ r₀ mem₀)
        fun _ t' => t'.Leaves (k.Refuses (mode.fetch ws i) r₀ mem₀) := by
    intro x s₁ r₁ mem₁ hx hempty hconf
    have hleaves : (⟨.exit .loadFromHole, r₁, mem₁⟩ : Moment).Leaves
        (k.Refuses (mode.fetch ws i) r₀ mem₀) :=
      ⟨_, rfl, by rw [hfetch, if_pos hempty], hp.memory.trans hconf hp.frame⟩
    exact .away hx nofun (fun _ => .inr hleaves) fun _ => hleaves
  have hnext : ∀ {d v l format s₁ s' r₁ mem₁}, mode.element y ≠ .empty →
      mode.Same v (mode.element y) → k.env.graph.nodes[k.cur]? = some d →
      Spares k.env.graph s r mem s₁ r₁ mem₁ → k.Bears d v l format s₁ r₁ mem₁ s' →
      Represents format (r₁.word l) v →
      k.Loads mode (mode.fetch ws i) s₀ r₀ mem₀ s' ⟨.next, r₁, mem₁⟩ := by
    intro d v l format s₁ s' r₁ mem₁ hne hsame hd hp₁ hbears hrep
    exact .inl ⟨rfl, _, v, d, l, format, by rw [hfetch, if_neg hne], hsame, hd, hbears.records, hrep,
      hbears.passed (hp.trans hlocks hp₁)⟩
  have hdouble : ∀ {f s₁ r₁ mem₁}, mode = .double ∨ mode = .float64Array →
      (⟨.ofNat y⟩ : Double).isNaN = false → Spares k.env.graph s r mem s₁ r₁ mem₁ →
      Stands k.val s₁.ledger r₁ mem₁ → r₁.fpr f = ⟨.ofNat y⟩ →
      k.Ends ls s₁ (Lowering.fprResult f) ⟨.next, r₁, mem₁⟩
        (k.Loads mode (mode.fetch ws i) s₀ r₀ mem₀)
        fun _ t' => t'.Leaves (k.Refuses (mode.fetch ws i) r₀ mem₀) := by
    intro f s₁ r₁ mem₁ hmode hno hp₁ h₁ hf₁
    obtain ⟨-, hne, hsame⟩ := ArrayMode.same_ofDouble hmode hno
    have hrep : (Value.ofDouble ⟨.ofNat y⟩).double? = some (r₁.fpr f) := by
      rw [hf₁]
      exact Value.double?_ofDouble (Double.toNat_bits_lt hno)
    exact .fprResult hu h₁ hrep fun d s' hd hbears => hnext hne hsame hd hp₁ hbears hrep
  unfold Lowering.loadElement
  cases mode with
  | contiguous =>
    refine .loadGpr hk hst ha hb hx hi hy rfl rfl fun q s₁ mem₁ hp₁ h₁ ht₁ => ?_
    have hself : (r.setGpr q (.ofNat y)).gpr q = .ofNat y := by rw [Registers.gpr_setGpr, if_pos rfl]
    refine .bind (.emit' hk rfl Inst.steps_test fun s₂ h₂ => ?_)
    have htest : ∀ order, Cond.e.holds (Size.s64.run .and ((r.setGpr q (.ofNat y)).gpr q)
        ((r.setGpr q (.ofNat y)).operand (.reg q))).2 order = decide (UInt64.ofNat y = 0) := by
      intro order
      rw [Cond.holds_e_and64, show (r.setGpr q (.ofNat y)).operand (.reg q) = _ from hself, hself,
        UInt64.and_self]
    have hzero : ArrayMode.contiguous.element y = .empty ↔ UInt64.ofNat y = 0 :=
      ⟨fun h => congrArg Value.bits h, fun h => congrArg Value.mk h⟩
    refine .bind (.guard' hk (by decide) (fun hc s₃ h₃ => ?_) fun hc s₃ h₃ => ?_)
    · have heq := of_decide_eq_true ((htest _).symm.trans hc)
      exact hhole (.gprResult _ _) (hzero.mpr heq) hp₁.memory
    · have hne := of_decide_eq_false ((htest _).symm.trans hc)
      have hf₃ := h₂.trans h₃
      refine .gprResult hu (hf₃.ledger ▸ h₁.setFlags _) (v := ⟨.ofNat y⟩) hself fun d s' hd hbears => ?_
      exact hnext (mt hzero.mp hne) (.inl rfl) hd
        ((hp₁.trans (.of_same hf₃.toSame)).setFlags _).toSpares hbears hself
  | double =>
    refine .loadFpr hk hst ha hb hx hi hy rfl fun f s₁ r₁ mem₁ hp₁ h₁ hf₁ => ?_
    refine .bind (.emit' hk rfl Inst.steps_dcmp fun s₂ h₂ => ?_)
    have hnan? : Cond.dUnordered.holds r₁.flags ((r₁.fpr f).compare? (r₁.fpr f)) =
        (⟨.ofNat y⟩ : Double).isNaN := by
      rw [hf₁, Cond.holds_dUnordered_self]
    refine .bind (.guard' hk (by decide) (fun hc s₃ h₃ => ?_) fun hc s₃ h₃ => ?_)
    · exact hhole (.fprResult _) (if_pos (hnan?.symm.trans hc)) hp₁.memory
    · have hf₃ := h₂.trans h₃
      have hr := (Registers.Spared.refl r₁).setOrder ((r₁.fpr f).compare? (r₁.fpr f))
      refine .intro fun hs₃ _ => hdouble (.inl rfl) (hnan?.symm.trans hc) (.spared ?_ hr)
        (Stands.spared (hf₃.ledger ▸ h₁) hs₃ hr) hf₁
      exact hp₁.then_facts hf₃.facts fun hn => hf₃.ledger ▸ hn
  | int32Array =>
    refine .loadGpr hk hst ha hb hx hi hy rfl rfl fun q s₁ mem₁ hp₁ h₁ ht₁ => ?_
    have hself : (r.setGpr q (.ofNat y)).gpr q = .ofNat y := by rw [Registers.gpr_setGpr, if_pos rfl]
    have hlt : y < 4294967296 := by
      obtain ⟨z, hz, hzlt⟩ := Memory.read?_of_mapped (Memory.mapped_of_read? (ha.element hb hy).1)
      obtain rfl := Option.some.inj (hz.symm.trans (ha.element hb hy).1)
      exact hzlt
    have hrep : Represents .int32 ((r.setGpr q (.ofNat y)).gpr q) (ArrayMode.int32Array.element y) := by
      refine ⟨(UInt32.ofNat y).toInt32, rfl, ?_⟩
      rw [hself]
      apply UInt64.toNat_inj.mp
      show _ = (UInt32.ofNat y).toUInt64.toNat
      rw [UInt32.toNat_toUInt64, UInt32.toNat_ofNat_of_lt' hlt, UInt64.toNat_ofNat_of_lt'
        (Nat.lt_trans hlt (by decide))]
    refine .gprResult hu h₁ hrep fun d s' hd hbears => ?_
    have hint := Value.isInt32_ofInt32 (UInt32.ofNat y).toInt32
    refine hnext (fun hempty => ?_) (.inl rfl) hd hp₁.toSpares hbears hrep
    rw [show Value.ofInt32 _ = _ from hempty] at hint
    cases hint
  | float64Array =>
    refine .loadFpr hk hst ha hb hx hi hy rfl fun f s₁ r₁ mem₁ hp₁ h₁ hf₁ => ?_
    exact hdouble (.inr rfl) (hnan rfl) hp₁ h₁ hf₁
  | string => exact absurd rfl hmode

end Load

/-- **A load gives the element at the index**, if there is one and it is no hole. -/
lemma lowerGetByVal (hk : k.Sound) (hu : Unborn k.env.graph k.cur k.before)
    (hd : k.env.graph.nodes[k.cur]? = some d) (hacc : k.Access h s d 2 x i)
    (hst : Stands k.val s.ledger r mem) (ha : h.Aside k.env.graph r mem) (hb : h.Backs mode x ws)
    (hlen : ws.length < 2147483648) (hmode : mode ≠ .string)
    (hnan : ∀ y, mode = .float64Array → 0 ≤ i.toInt → ws[i.toInt.toNat]? = some y →
      (⟨.ofNat y⟩ : Double).isNaN = false) :
    k.Ends ls s (Lowering.lowerGetByVal mode) ⟨.next, r, mem⟩ (k.Loads mode (mode.fetch ws i) s r mem)
      fun _ t' => t'.Leaves (k.Refuses (mode.fetch ws i) r mem) := by
  rw [lowerGetByVal_eq hmode]
  refine .fillAccess hk hd hacc hst fun b j st s₁ r₁ mem₁ hp₁ h₁ hx => ?_
  have ha₁ := ha.confined hp₁.memory hp₁.frame
  refine .bind (.guardBounds hk (ha₁.read_count hb hx.base hx.storage) hlen hx.index_ne_scratch hx.index
    (fun hin s₂ r₂ h₂ hr₂ => ?_) fun hout s₂ r₂ h₂ => ?_)
  · obtain ⟨hi, hlt⟩ := hin
    obtain ⟨y, hy⟩ : ∃ y, ws[i.toInt.toNat]? = some y := ⟨_, List.getElem?_eq_getElem (by omega)⟩
    have hp₂ := (hp₁.trans (.of_same h₂.toSame)).spared hr₂
    exact .intro fun hs₂ _ => .loadElement hk (Stands.spared (h₂.ledger ▸ h₁) hs₂ hr₂)
      (ha₁.confined (.refl _ r₁ mem₁) (hr₂.gpr (by decide))) hb
      (hx.spared h₂.toSame hr₂) hi hy hu hmode (fun hf => hnan y hf hi hy) hp₂.toSpares hp₂.onward.locks
  · have hrefuses : mode.fetch ws i = .error .outOfBounds := by
      unfold ArrayMode.fetch
      split
      · rw [List.getElem?_eq_none (by omega)]
      · rfl
    have hleaves : (⟨.exit .outOfBounds, r₂, mem₁⟩ : Moment).Leaves (k.Refuses (mode.fetch ws i) r mem) :=
      ⟨_, rfl, hrefuses, hp₁.memory⟩
    exact .away (.loadElement _ _ _) nofun (fun _ => .inr hleaves) fun _ => hleaves

section Store

variable {w : Nat} (hk : k.Sound) (hlen : ws.length < 2147483648) (hb : h.Backs mode x ws)
include hk hlen hb

/-- A word is stored to an element within bounds. -/
lemma storeElement {inst : Inst} (scale : Fin 4) (hplain : inst.isPlain = true)
    (hst : Stands k.val s.ledger r mem) (ha : h.Aside k.env.graph r mem) (hx : h.Addressed x i s r b j st)
    (hp : Preserves k.env.graph s₀ r₀ mem₀ s r mem) (hscale : 2 ^ scale.val = mode.elementSize)
    (hbits : mode.encode? v = some (w % 256 ^ mode.elementSize))
    (hstep : ∀ r' : Registers, r.Spared r' →
      (mem.write mode.elementSize (r'.address (.indexed st j scale 0)) w).1 = true →
      inst.Steps r' mem r' (mem.write mode.elementSize (r'.address (.indexed st j scale 0)) w).2) :
    k.Ends ls s (do
      Lowering.guardBounds mode b st j
      Lowering.emit' inst) ⟨.next, r, mem⟩
      (k.Stores (x.element mode i.toInt.toNat) mode.elementSize (mode.assign ws.length i v) r₀ mem₀)
      fun _ t' => t'.Leaves (k.Refuses (mode.assign ws.length i v) r₀ mem₀) := by
  have hassign : mode.assign ws.length i v =
      if 0 ≤ i.toInt ∧ i.toInt < ws.length then .ok (w % 256 ^ mode.elementSize)
      else .error .outOfBounds := by
    rw [ArrayMode.assign, hbits]
  refine .bind (.guardBounds hk (ha.read_count hb hx.base hx.storage) hlen hx.index_ne_scratch hx.index
    (fun hin s₁ r₁ h₁ hr₁ => ?_) fun hout s₁ r₁ h₁ => ?_)
  · rw [if_pos hin] at hassign
    obtain ⟨hi, hlt⟩ := hin
    have hframe : r₁.gpr .frame = r.gpr .frame := hr₁.gpr (by decide)
    have ha₁ := ha.confined (.refl _ r mem) hframe
    obtain ⟨y, hy⟩ : ∃ y, ws[i.toInt.toNat]? = some y := ⟨_, List.getElem?_eq_getElem (by omega)⟩
    obtain ⟨hread, hroom, hbeyond⟩ := ha₁.element hb hy
    have hmap := Memory.mapped_of_read? hread
    have hstored := Memory.stored_write_mod (x := w) hmap hroom.le
    have hstep₁ := hstep r₁ hr₁
    rw [(hx.spared h₁.toSame hr₁).address hi hscale] at hstep₁
    refine .intro fun hs₁ _ => ?_
    have hst₁ := (Stands.spared (h₁.ledger ▸ hst) hs₁ hr₁).of_stored hs₁ hstored hbeyond
    refine .of_wp (.emit' hk hplain (hstep₁ (Memory.write_of_mapped hmap w).1) fun s₂ h₂ => ?_)
    exact .inl ⟨rfl, _, mem, hassign, hp.memory, hstored, h₂.ledger ▸ hst₁⟩
  · rw [if_neg hout] at hassign
    have hleaves : (⟨.exit .outOfBounds, r₁, mem⟩ : Moment).Leaves
        (k.Refuses (mode.assign ws.length i v) r₀ mem₀) := ⟨_, rfl, hassign, hp.memory⟩
    exact .away (.emit' hplain) nofun (fun _ => .inr hleaves) fun _ => hleaves

/-- A double is stored to an element, if there is one and it can be that double. -/
lemma storeDouble {f : Fpr} (hmode : mode = .double ∨ mode = .float64Array)
    (hst : Stands k.val s.ledger r mem) (ha : h.Aside k.env.graph r mem) (hx : h.Addressed x i s r b j st)
    (hp : Preserves k.env.graph s₀ r₀ mem₀ s r mem) (hv : v.number? = some (r.fpr f)) :
    k.Ends ls s (Lowering.storeDouble mode f b j st) ⟨.next, r, mem⟩
      (k.Stores (x.element mode i.toInt.toNat) mode.elementSize (mode.assign ws.length i v) r₀ mem₀)
      fun _ t' => t'.Leaves (k.Refuses (mode.assign ws.length i v) r₀ mem₀) := by
  have hsize : mode.elementSize = 8 := by rcases hmode with rfl | rfl <;> rfl
  have hw : (r.fpr f).bits.toNat % 256 ^ mode.elementSize = (r.fpr f).bits.toNat := by
    rw [hsize]
    exact Nat.mod_eq_of_lt (r.fpr f).bits.toNat_lt
  have hstore : ∀ {s₁ r₁}, Same s s₁ → Stands k.val s₁.ledger r₁ mem → r.Spared r₁ →
      mode.encode? v = some (r.fpr f).bits.toNat →
      k.Ends ls s₁ (do
        Lowering.guardBounds mode b st j
        Lowering.emit' (.storeD f (.indexed st j 3 0))) ⟨.next, r₁, mem⟩
        (k.Stores (x.element mode i.toInt.toNat) mode.elementSize (mode.assign ws.length i v) r₀ mem₀)
        fun _ t' => t'.Leaves (k.Refuses (mode.assign ws.length i v) r₀ mem₀) := by
    intro s₁ r₁ h₁ hst₁ hr₁ henc
    refine .storeElement hk hlen hb 3 rfl hst₁ (ha.confined (.refl _ r mem) (hr₁.gpr (by decide)))
      (hx.spared h₁ hr₁) ((hp.trans (.of_same h₁)).spared hr₁) hsize.symm
      (w := (r.fpr f).bits.toNat) (by rw [henc, hw]) fun r' hr' hfst => ?_
    rw [hsize, ← congrFun (hr'.fpr.trans hr₁.fpr) f] at hfst ⊢
    exact Inst.steps_storeD hfst
  unfold Lowering.storeDouble
  refine .ite (fun hd => ?_) fun hd => ?_
  · subst hd
    refine .bind (.emit' hk rfl Inst.steps_dcmp fun s₁ h₁ => ?_)
    have hnan? : Cond.dUnordered.holds r.flags ((r.fpr f).compare? (r.fpr f)) = (r.fpr f).isNaN :=
      Cond.holds_dUnordered_self
    have henc : ArrayMode.double.encode? v =
        if (r.fpr f).isNaN then none else some (r.fpr f).bits.toNat := by
      rw [ArrayMode.encode?, hv, Option.filter_some]
      cases (r.fpr f).isNaN <;> rfl
    refine .bind (.guard' hk (by decide) (fun hc s₂ h₂ => ?_) fun hc s₂ h₂ => ?_)
    · rw [if_pos (hnan?.symm.trans hc)] at henc
      have hleaves : ∀ r', (⟨.exit .badType, r', mem⟩ : Moment).Leaves
          (k.Refuses (ArrayMode.double.assign ws.length i v) r₀ mem₀) :=
        fun _ => ⟨_, rfl, by rw [ArrayMode.assign, henc], hp.memory⟩
      exact .away (.bind (.guardBounds _ _ _ _) fun _ => .emit' rfl) nofun
        (fun _ => .inr (hleaves _)) fun _ => hleaves _
    · rw [if_neg (by simp [hnan?.symm.trans hc])] at henc
      have hf₂ := h₁.trans h₂
      have hr₂ := (Registers.Spared.refl r).setOrder ((r.fpr f).compare? (r.fpr f))
      exact .intro fun hs₂ _ => hstore hf₂.toSame (Stands.spared (hf₂.ledger ▸ hst) hs₂ hr₂) hr₂ henc
  · obtain rfl := hmode.resolve_left hd
    refine hstore (.refl s) hst (.refl r) ?_
    rw [ArrayMode.encode?, hv]
    rfl

/-- A value is stored to an element, if there is one and it can be that value. -/
lemma storeValue (hsup : k.Supplied) (hmode : mode ≠ .string) (hst : Stands k.val s.ledger r mem)
    (ha : h.Aside k.env.graph r mem) (hx : h.Addressed x i s r b j st)
    (hp : Preserves k.env.graph s₀ r₀ mem₀ s r mem) (hv : k.Storable s.facts e) :
    k.Ends ls s (Lowering.storeValue mode e b j st) ⟨.next, r, mem⟩
      (k.Stores (x.element mode i.toInt.toNat) mode.elementSize
        (mode.assign ws.length i (k.val e.node)) r₀ mem₀)
      fun _ t' => t'.Leaves (k.Refuses (mode.assign ws.length i (k.val e.node)) r₀ mem₀) := by
  -- what cannot be an element makes the machine leave
  have hbad : ∀ {r' mem'}, mode.encode? (k.val e.node) = none → Confined k.env.graph r mem mem' →
      (⟨.exit .badType, r', mem'⟩ : Moment).Leaves
        (k.Refuses (mode.assign ws.length i (k.val e.node)) r₀ mem₀) := by
    intro r' mem' hnone hconf
    refine ⟨_, rfl, ?_, hp.memory.trans hconf hp.frame⟩
    rw [ArrayMode.assign, hnone]
  have hdoubles : mode = .double ∨ mode = .float64Array →
      ((k.val e.node).isNumber = false → mode.encode? (k.val e.node) = none) →
      k.Ends ls s (Lowering.fillDouble e >>= fun f => Lowering.storeDouble mode f b j st) ⟨.next, r, mem⟩
        (k.Stores (x.element mode i.toInt.toNat) mode.elementSize
          (mode.assign ws.length i (k.val e.node)) r₀ mem₀)
        fun _ t' => t'.Leaves (k.Refuses (mode.assign ws.length i (k.val e.node)) r₀ mem₀) := by
    intro hmode hnone
    refine .bind (.fillDouble hk hsup hst ⟨hv.constant, hv.provenNumber⟩
      (fun f s₁ r₁ mem₁ hb₁ hz => ?_) (fun hn f s₁ r₁ mem₁ _ hc => ?_) fun hn s₁ r₁ mem₁ hc => ?_)
    · have hp₁ := hb₁.preserves
      exact .storeDouble hk hlen hb hmode hb₁.stands (ha.confined hp₁.memory hp₁.frame)
        (hx.preserves hp₁) (hp.trans hp₁) hz
    · exact .away (.storeDouble _ _ _ _ _) nofun (fun _ => .inr (hbad (hnone hn) hc))
        fun _ => hbad (hnone hn) hc
    · refine hbad (hnone ?_) hc
      by_contra hyes
      exact hyes (hn (hv.admitsNumber (by simpa using hyes)))
  unfold Lowering.storeValue
  cases mode with
  | contiguous =>
    refine .bind (.fillValue hk hst (fun _ => hv.constant) fun op s₁ r₁ mem₁ hb₁ hbits => ?_)
    have hp₁ := hb₁.preserves
    have hw : (r₁.gpr op.reg).toNat % 256 ^ 8 = (k.val e.node).bits.toNat := by
      rw [hbits]
      exact Nat.mod_eq_of_lt (k.val e.node).bits.toNat_lt
    refine .storeElement hk hlen hb 3 rfl hb₁.stands (ha.confined hp₁.memory hp₁.frame)
      (hx.preserves hp₁) (hp.trans hp₁) rfl (w := (r₁.gpr op.reg).toNat) (congrArg some hw.symm)
      fun r' hr' hfst => ?_
    have hne := (Location.ne_of_mem (Bank.mem_allocatable_of_locksOf hb₁.filled.lock)).2.2.2
    rw [← hr'.gpr hne] at hfst ⊢
    exact Inst.steps_store hfst
  | double =>
    refine hdoubles (.inl rfl) fun hno => ?_
    rw [ArrayMode.encode?, Value.number?_eq_none hno]
    rfl
  | float64Array =>
    refine hdoubles (.inr rfl) fun hno => ?_
    rw [ArrayMode.encode?, Value.number?_eq_none hno]
    rfl
  | int32Array =>
    have hnone : (k.val e.node).isInt32 = false →
        ArrayMode.int32Array.encode? (k.val e.node) = none := by
      intro hno
      rw [ArrayMode.encode?, Value.int32?, if_neg (by simp [hno])]
      rfl
    refine .bind (.fillInt hk hst ⟨hv.constant, hv.integer, hv.provenInt⟩
      (fun z op s₁ r₁ mem₁ hz hb₁ => ?_) (fun hn op s₁ r₁ mem₁ _ hc => ?_) fun hn s₁ r₁ mem₁ hc => ?_)
    · have hp₁ := hb₁.preserves
      have hw : (r₁.gpr op.reg).toNat % 256 ^ 4 = z.toUInt32.toNat := by
        rw [← hb₁.low]
        exact (UInt64.toNat_toUInt32 _).symm
      have henc : ArrayMode.int32Array.encode? (k.val e.node) = some z.toUInt32.toNat := by
        rw [ArrayMode.encode?, hz, Value.int32?_ofInt32]
        rfl
      refine .storeElement hk hlen hb 2 rfl hb₁.stands (ha.confined hp₁.memory hp₁.frame)
        (hx.preserves hp₁) (hp.trans hp₁) rfl (w := (r₁.gpr op.reg).toNat) (henc.trans (congrArg some hw.symm))
        fun r' hr' hfst => ?_
      have hne := (Location.ne_of_mem (Bank.mem_allocatable_of_locksOf hb₁.filled.lock)).2.2.2
      rw [← hr'.gpr hne] at hfst ⊢
      exact Inst.steps_store hfst
    · exact .away (.bind (.guardBounds _ _ _ _) fun _ => .emit' rfl) nofun
        (fun _ => .inr (hbad (hnone hn) hc)) fun _ => hbad (hnone hn) hc
    · refine hbad (hnone ?_) hc
      by_contra hyes
      exact hyes (hn (hv.admitsInt (by simpa using hyes)))
  | string => exact absurd rfl hmode

end Store

/-- **A store changes the bytes of the element at the index**, if there is one and it can be the
value. -/
lemma lowerPutByVal (hk : k.Sound) (hsup : k.Supplied) (hd : k.env.graph.nodes[k.cur]? = some d)
    (hacc : k.Access h s d 3 x i) (he : d.children[2]? = some e) (hv : k.Storable s.facts e)
    (hst : Stands k.val s.ledger r mem) (ha : h.Aside k.env.graph r mem) (hb : h.Backs mode x ws)
    (hlen : ws.length < 2147483648) (hmode : mode ≠ .string) :
    k.Ends ls s (Lowering.lowerPutByVal mode) ⟨.next, r, mem⟩
      (k.Stores (x.element mode i.toInt.toNat) mode.elementSize
        (mode.assign ws.length i (k.val e.node)) r mem)
      fun _ t' => t'.Leaves (k.Refuses (mode.assign ws.length i (k.val e.node)) r mem) := by
  rw [lowerPutByVal_eq hmode]
  refine .fillAccess hk hd hacc hst fun b j st s₁ r₁ mem₁ hp₁ h₁ hx => ?_
  refine .child fun d' e' hd' he' => ?_
  obtain rfl := Option.some.inj (hd.symm.trans hd')
  obtain rfl := Option.some.inj (he.symm.trans he')
  exact .storeValue hk hlen hb hsup hmode h₁ (ha.confined hp₁.memory hp₁.frame) hx hp₁ (hp₁.facts ▸ hv)

lemma lowerGetStorage (hk : k.Sound) (hu : Unborn k.env.graph k.cur k.before)
    (hd : k.env.graph.nodes[k.cur]? = some d) (he : d.children[0]? = some e)
    (ht : Told k.env.graph k.val s e) (hcell : (k.val e.node).isCell = true)
    (hx : h.cell? (k.val e.node).bits = some x) (hno : (⟨x.storage⟩ : Value).isNumber = false)
    (hst : Stands k.val s.ledger r mem) (ha : h.Aside k.env.graph r mem) :
    k.Ends ls s Lowering.lowerGetStorage ⟨.next, r, mem⟩
      (fun s' t' => t'.spot = .next ∧ Passed k.env.graph k.cur
        (Function.update k.val k.cur ⟨x.storage⟩) s r mem s' t'.registers t'.memory)
      fun _ _ => False := by
  have hcell' : (k.val e.node).isCell ≠ false := by simp [hcell]
  refine .child fun d' e' hd' he' => ?_
  obtain rfl := Option.some.inj (hd.symm.trans hd')
  obtain rfl := Option.some.inj (he.symm.trans he')
  refine .bind (.fillCell hk hst (.of_told ht) ht.plain ht.nonempty ?_ (fun hno => absurd hno hcell')
    fun hno => absurd (hno (ht.admits hcell)) hcell')
  intro _ op s₁ r₁ mem₁ hb₁ hbits
  refine .bind (.allocGpr hk hb₁.stands fun q s₂ mem₂ hh hp₂ h₂ => ?_)
  have hp := hb₁.preserves.trans hp₂
  have hcell₁ : h.cell? (r₁.gpr op.reg) = some x := by rw [hbits, hx]
  have hread := (ha.confined hp.memory hp.frame).read_storage hcell₁
  refine .bind (.emit' hk rfl (Inst.steps_load hread) fun s₃ h₃ => .intro fun hs₃ _ => ?_)
  rw [UInt64.ofNat_toNat]
  have hself : (r₁.setGpr q x.storage).gpr q = x.storage := by rw [Registers.gpr_setGpr, if_pos rfl]
  have hst₃ := Stands.setGpr (h₃.ledger ▸ h₂) hs₃ (hh.of_same h₃.toSame).taken x.storage
  refine .gprResult hu hst₃ (v := ⟨x.storage⟩) ⟨hself, hno⟩ fun d s' hd hbears => ⟨rfl, hbears.passed ?_⟩
  exact (hp.toSpares.then_facts h₃.facts fun hn => h₃.ledger ▸ hn).setGpr hh hb₁.preserves.onward.locks _

end Ends
end Course
end Speculation
