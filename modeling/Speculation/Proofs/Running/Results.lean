import Speculation.Proofs.Running.Division

/-!
Results while code is running.

The lowering of a node ends with its result. `Ends` is `Wp` for the lowering up to there: the node may
have a value then. An operation on integers brings its operands into registers, has code compute its
result in another one, and has the ledger say that the result is there.
-/

namespace Speculation

open Lowering

/-- Nothing is recorded yet for the current node. -/
lemma Lowering.Coherent.fresh {g : Graph} {cur : NodeId} {before : List NodeId} {s : State}
    (h : Coherent g cur before [] s) (hu : Unborn g cur before) (i : Nat) (x : ValueInfo)
    (hx : s.ledger[i]? = some x) : x.node ≠ some cur := fun hn =>
  hu.fresh (h.agrees.named hx hn).1

/-- The result of an operation on integers is in its register; the other values are where they
were. -/
lemma Stands.gives {val : NodeId → Value} {g : Graph} {cur : NodeId} {before : List NodeId}
    {s : State} {r r' : Registers} {mem : Memory} {q : Gpr} {z : Int} (h : Stands val s.ledger r mem)
    (hs : Coherent g cur before [] s) (ht : s.Taken (.gpr q)) (hg : r.Gives q z r') :
    Stands val s.ledger r' mem := by
  obtain ⟨hf, hn, hm, -⟩ := Location.ne_of_mem (Bank.mem_allocatable_of_locksOf ht.1)
  refine h.of_unowned hs (hg.gpr hf.symm nofun) (hg.gpr hn.symm nofun) (hg.gpr hm.symm nofun)
    fun l hl => ?_
  rcases l with _ | p | f
  · rfl
  · have hpq : p ≠ q := by
      rintro rfl
      exact hl ht.2
    have hps : p ≠ .scratch := by
      obtain ⟨o, ho⟩ := Option.ne_none_iff_exists'.mp hl
      exact (Location.ne_of_mem (Bank.mem_allocatable_of_owner ho)).2.2.2
    exact hg.gpr hpq hps
  · exact congrArg Double.bits (congrFun hg.fpr f)

/-- The value of an operand is an integer, and nothing that is known of it speaks against that. -/
structure Integral (g : Graph) (val : NodeId → Value) (facts : Facts) (e : Edge) (i : Int32) :
    Prop where
  value : val e.node = .ofInt32 i
  constant {v : Value} (h : g.valueConstant e.node = .ok (some v)) : v = .ofInt32 i
  admits : (facts.known e.node).intersects .int32 = true

namespace Course

variable {α : Type} {k : Course} {ls : List Label} {s s' : State} {r r' : Registers}
  {mem mem' : Memory} {t : Moment} {q : Gpr} {l : Location} {format : DataFormat} {d : Node} {v : Value}
  {facts : Facts} {e : Edge} {i : Int32} {Q : State → Moment → Prop} {T : State → Moment → Prop}

/-- Where the node has been lowered, the code leads from the moment `t` to one with `Q`; if it was
terminated, to one with `T`. -/
def Ends (k : Course) (ls : List Label) (s : State) (x : Lower Unit) (t : Moment)
    (Q : State → Moment → Prop) (T : State → Moment → Prop) : Prop :=
  Coherent k.env.graph k.cur k.before [] s → Aimed k.env s → (∀ l ∈ ls, s.IsCode l) →
    Leads k.env s x (fun _ s' => Proceeds k.env s s' ∧ ∃ t', k.Reaches s t s' t' ∧ Q s' t')
      (fun s' => Proceeds k.env s s' ∧ ∃ t', k.Reaches s t s' t' ∧ T s' t') fun _ _ => True

/-- The ledger has the result of the current node in a general purpose register, if it has any uses. -/
def Records (k : Course) (d : Node) (q : Gpr) (format : DataFormat) (s : State) : Prop :=
  d.refCount ≠ 0 → ∃ i, d.slot = some (.ofLocal i) ∧ s.ledger[i]? =
    some { node := some k.cur, useCount := d.refCount, registerFormat := format, location := .gpr q }

/-- The ledger has the result of the current node in a register, if it has any uses. -/
def RecordsAt (k : Course) (d : Node) (l : Location) (format : DataFormat) (s : State) : Prop :=
  d.refCount ≠ 0 → ∃ i, d.slot = some (.ofLocal i) ∧ s.ledger[i]? =
    some { node := some k.cur, useCount := d.refCount, registerFormat := format, location := l }

/-- What is known of values is the same, and no value of another node has come to be kept as storage. -/
structure Retains (k : Course) (s s' : State) : Prop where
  facts : s'.facts = s.facts
  plain {n : NodeId} (hn : n ≠ k.cur) (h : Plain s.ledger n) : Plain s'.ledger n

/-- The current node has got its value, which is in a register. It is kept as storage only if that is its
format. -/
structure Bears (k : Course) (d : Node) (v : Value) (l : Location) (format : DataFormat) (s : State)
    (r : Registers) (mem : Memory) (s' : State) : Prop where
  stands : Stands (Function.update k.val k.cur v) s'.ledger r mem
  records : k.RecordsAt d l format s'
  retains : k.Retains s s'
  plain (hne : format ≠ .storage) : Plain s'.ledger k.cur

lemma Retains.of_spares {g : Graph} (h : Spares g s r mem s' r' mem') : k.Retains s s' :=
  ⟨h.facts, fun _ => h.plain⟩

lemma Retains.trans {s'' : State} (h : k.Retains s s') (h' : k.Retains s' s'') : k.Retains s s'' :=
  ⟨h'.facts.trans h.facts, fun hn hp => h'.plain hn (h.plain hn hp)⟩

namespace Ends

lemma mono {Q₁ T₁ : State → Moment → Prop} {x : Lower Unit} (h : k.Ends ls s x t Q T)
    (hQ : ∀ s' t', Q s' t' → Q₁ s' t') (hT : ∀ s' t', T s' t' → T₁ s' t') :
    k.Ends ls s x t Q₁ T₁ := fun hs ha hl =>
  (h hs ha hl).mono (fun _ s' ⟨hp, t', hr, hq⟩ => ⟨hp, t', hr, hQ s' t' hq⟩)
    (fun s' ⟨hp, t', hr, ht⟩ => ⟨hp, t', hr, hT s' t' ht⟩) fun _ _ => id

lemma bind {x : Lower α} {f : α → Lower Unit}
    (h : k.Wp ls s x t (fun a s' t' => k.Ends ls s' (f a) t' Q T) T) :
    k.Ends ls s (x >>= f) t Q T := by
  intro hs ha hl
  refine leads_bind.mpr ((h hs ha hl).weaken ?_)
  rintro a s' ⟨hs', hp, t', hr, hf⟩
  refine (hf hs' (hp.aimed ha) fun l hm => hp.isCode (hl l hm)).mono ?_ ?_ fun _ _ => id
  · rintro b s'' ⟨hp', t'', hr', hq⟩
    exact ⟨hp.trans hp', t'', hr.trans hr' hp', hq⟩
  · rintro s'' ⟨hp', t'', hr', hq⟩
    exact ⟨hp.trans hp', t'', hr.trans hr' hp', hq⟩

lemma ite {p : Prop} [Decidable p] {x y : Lower Unit} (hx : p → k.Ends ls s x t Q T)
    (hy : ¬p → k.Ends ls s y t Q T) : k.Ends ls s (if p then x else y) t Q T := by
  split
  · exact hx ‹_›
  · exact hy ‹_›

lemma intro {x : Lower Unit} (h : Coherent k.env.graph k.cur k.before [] s → Aimed k.env s →
    k.Ends ls s x t Q T) : k.Ends ls s x t Q T := fun hs ha hl => h hs ha hs ha hl

lemma look {P : α → Prop} {F : Failure → State → Prop} {x : Lower α} {f : α → Lower Unit}
    (hx : Coherent k.env.graph k.cur k.before [] s →
      Leads k.env s x (fun a s' => s' = s ∧ P a) (fun _ => False) F)
    (hf : ∀ a, P a → k.Ends ls s (f a) t Q T) : k.Ends ls s (x >>= f) t Q T := by
  intro hs ha hl
  refine leads_bind.mpr ((hx hs).mono ?_ (fun _ => False.elim) fun _ _ _ => trivial)
  rintro a _ ⟨rfl, hP⟩
  exact hf a hP hs ha hl

lemma currentNode {f : Node → Lower Unit}
    (hf : ∀ d, k.env.graph.nodes[k.cur]? = some d → k.Ends ls s (f d) t Q T) :
    k.Ends ls s (Lowering.currentNode >>= f) t Q T := by
  refine .look (P := fun d => k.env.graph.nodes[k.cur]? = some d) (F := Lowering.Fault k.env.graph)
    (fun hs => ?_) hf
  rw [Lowering.currentNode, leads_bind, leads_get, hs.current]
  exact leads_node_of hs.sighted fun d hd => ⟨rfl, hd⟩

lemma child {i : Nat} {f : Edge → Lower Unit}
    (hf : ∀ d e, k.env.graph.nodes[k.cur]? = some d → d.children[i]? = some e →
      k.Ends ls s (f e) t Q T) : k.Ends ls s (Lowering.child i >>= f) t Q T := by
  refine .look (P := fun e => ∃ d, k.env.graph.nodes[k.cur]? = some d ∧ d.children[i]? = some e)
    (F := Lowering.Fault k.env.graph) (fun hs => ?_) fun e ⟨d, hd, he⟩ => hf d e hd he
  rw [Lowering.child, leads_bind, Lowering.currentNode, leads_bind, leads_get, hs.current]
  refine leads_node_of hs.sighted fun d hd => ?_
  rw [leads_assume]
  refine ⟨fun e he => ⟨rfl, d, hd, ?_⟩, fun _ _ => ⟨noDisagreement_breach _, hs.sighted⟩⟩
  unfold Node.child Breach.get at he
  split at he
  · cases he
    assumption
  · cases he

/-- Whatever is lowered after the machine has left makes no difference to it. -/
lemma away {x : Lower Unit} (hx : Extending k.env ls x) (hσ : t.spot ≠ .next) (hQ : ∀ s', Q s' t)
    (hT : ∀ s', T s' t) : k.Ends ls s x t Q T := by
  intro _ ha hl
  refine Leads.mono (hx s ha hl) ?_ ?_ fun _ _ _ => trivial
  · exact fun _ s' hp => ⟨hp, t, .of_away hσ, hQ s'⟩
  · exact fun s' hp => ⟨hp, t, .of_away hσ, hT s'⟩

section Result

variable (hu : Unborn k.env.graph k.cur k.before)
include hu

section Bears

variable (hs : Coherent k.env.graph k.cur k.before [] s) (h : Stands k.val s.ledger r mem)
include hs h

/-- The entry of the current node says where its value is. -/
lemma leads_setResult {o : Slot} (hd : k.env.graph.nodes[k.cur]? = some d) (ho : d.slot = some o)
    (hf : ∀ f, l = .fpr f → format = .double) (hrep : Represents format (r.word l) v) :
    Leads k.env s (setInfo k.cur
        { node := some k.cur, useCount := d.refCount, registerFormat := format, location := l })
      (fun _ s' => s'.asm.offset = s.asm.offset ∧ k.Bears d v l format s r mem s') (fun _ => False)
      (Lowering.Fault k.env.graph) := by
  have hplain : Plain s.ledger k.cur := fun i x hx hn => absurd hn (hs.fresh hu i x hx)
  refine leads_setInfo_of hs.sighted hd ho fun i x hi hx => ⟨rfl, ?_, ?_, ⟨rfl, fun hn hp => ?_⟩,
    fun hne => hplain.set fun _ => ⟨hne, DataFormat.noConfusion⟩⟩
  · refine (h.update (v := v) (hs.fresh hu)).set (fun n hn _ => ?_) hf fun _ _ hf => absurd rfl hf
    obtain rfl := Option.some.inj hn
    rw [Function.update_self]
    exact hrep
  · have hlt := (Array.getElem?_eq_some_iff.mp hx).1
    exact fun _ => ⟨i, hs.formed.eq_ofLocal hd ho hi ▸ ho, Array.getElem?_setIfInBounds_self_of_lt hlt⟩
  · exact hp.set fun hm => absurd (Option.some.inj hm).symm hn

lemma leads_result {x : Nat → Slot → Lower Unit}
    (hx : ∀ d o, k.env.graph.nodes[k.cur]? = some d → d.slot = some o →
      Leads k.env s (x d.refCount o) (fun _ s' => s'.asm.offset = s.asm.offset ∧
        k.Bears d v l format s r mem s') (fun _ => False) (Lowering.Fault k.env.graph)) :
    Leads k.env s (do
        let uses := (← Lowering.currentNode).refCount
        unless uses = 0 do x uses (← slotOf k.cur))
      (fun _ s' => ∃ d, k.env.graph.nodes[k.cur]? = some d ∧ s'.asm.offset = s.asm.offset ∧
        k.Bears d v l format s r mem s') (fun _ => False) (Lowering.Fault k.env.graph) := by
  rw [leads_bind, Lowering.currentNode, leads_bind, leads_get, hs.current]
  refine leads_node_of hs.sighted fun d hd => leads_ite.mpr ⟨fun huses => ?_, fun _ => ?_⟩
  · exact ⟨d, hd, rfl, h.update (hs.fresh hu), fun h => absurd huses h, ⟨rfl, fun _ => id⟩,
      fun _ i x hx hn => absurd hn (hs.fresh hu i x hx)⟩
  · refine leads_bind.mpr (leads_slotOf_of hs.sighted fun d' o hd' ho => ?_)
    obtain rfl := Option.some.inj (hd.symm.trans hd')
    exact (hx d o hd ho).weaken fun _ s' hs' => ⟨d, hd, hs'⟩

end Bears

lemma gprResult (h : Stands k.val s.ledger r mem) (hrep : Represents format (r.gpr q) v)
    (hQ : ∀ d s', k.env.graph.nodes[k.cur]? = some d → k.Bears d v (.gpr q) format s r mem s' →
      Q s' ⟨.next, r, mem⟩) :
    k.Ends ls s (Lowering.gprResult q format) ⟨.next, r, mem⟩ Q T := by
  intro hs ha hl
  have hkept : Leads k.env s (Lowering.gprResult q format) (fun _ s' => ∃ d,
      k.env.graph.nodes[k.cur]? = some d ∧ s'.asm.offset = s.asm.offset ∧
      k.Bears d v (.gpr q) format s r mem s') (fun _ => False) (Lowering.Fault k.env.graph) := by
    rw [Lowering.gprResult, leads_bind, leads_get, hs.current]
    refine leads_result (x := fun uses o => do
      setInfo k.cur (← assume (ValueInfo.ofGpr k.cur uses q format))
      modifyGprs (·.retain q o (.ofFormat format))
      event (.birth k.cur (.gpr q) format)) hu hs h fun d o hd ho => ?_
    rw [leads_bind, leads_assume]
    refine ⟨fun y hy => ?_, fun _ _ => ⟨noDisagreement_breach _, hs.sighted⟩⟩
    unfold ValueInfo.ofGpr at hy
    split at hy
    · cases hy
      have hset := leads_setResult (l := .gpr q) hu hs h hd ho (fun _ hl => Location.noConfusion hl) hrep
      refine leads_bind.mpr (hset.weaken ?_)
      rintro _ s' ⟨hoffset, hst, hrec, hret, hpl⟩
      exact ⟨hoffset, hst, hrec, ⟨hret.facts, hret.plain⟩, hpl⟩
    · cases hy
  refine ((Extending.gprResult q format s ha hl).and hkept).mono ?_ (fun _ h => h.2.elim)
    fun _ _ _ => trivial
  rintro _ s' ⟨hp, d, hd, hoffset, hb⟩
  exact ⟨hp, _, .of_offset hoffset, hQ d s' hd hb⟩

lemma fprResult {f : Fpr} (h : Stands k.val s.ledger r mem) (hrep : v.double? = some (r.fpr f))
    (hQ : ∀ d s', k.env.graph.nodes[k.cur]? = some d → k.Bears d v (.fpr f) .double s r mem s' →
      Q s' ⟨.next, r, mem⟩) :
    k.Ends ls s (Lowering.fprResult f) ⟨.next, r, mem⟩ Q T := by
  intro hs ha hl
  have hkept : Leads k.env s (Lowering.fprResult f) (fun _ s' => ∃ d,
      k.env.graph.nodes[k.cur]? = some d ∧ s'.asm.offset = s.asm.offset ∧
      k.Bears d v (.fpr f) .double s r mem s') (fun _ => False) (Lowering.Fault k.env.graph) := by
    rw [Lowering.fprResult, leads_bind, leads_get, hs.current]
    refine leads_result (x := fun uses o => do
      setInfo k.cur (.ofFpr k.cur uses f)
      modifyFprs (·.retain f o .double)
      event (.birth k.cur (.fpr f) .double)) hu hs h fun d o hd ho => ?_
    have hset := leads_setResult (l := .fpr f) hu hs h hd ho (fun _ _ => rfl) hrep
    refine leads_bind.mpr (hset.weaken ?_)
    rintro _ s' ⟨hoffset, hst, hrec, hret, hpl⟩
    exact ⟨hoffset, hst, hrec, ⟨hret.facts, hret.plain⟩, hpl⟩
  refine ((Extending.fprResult f s ha hl).and hkept).mono ?_ (fun _ h => h.2.elim) fun _ _ _ => trivial
  rintro _ s' ⟨hp, d, hd, hoffset, hb⟩
  exact ⟨hp, _, .of_offset hoffset, hQ d s' hd hb⟩

/-- A machine that has left has no result. -/
lemma gprResult_away (ht : s.Taken (.gpr q)) (hσ : t.spot ≠ .next) (hQ : ∀ s', Q s' t) :
    k.Ends ls s (Lowering.gprResult q format) t Q T := by
  intro hs ha hl
  have hdone : Leads k.env s (Lowering.gprResult q format)
      (fun _ s' => Lowered k.env.graph k.cur k.before [] s') (fun _ => False) (Lowering.Fault k.env.graph) :=
    leads_gprResult hs hu (hs.usable ht)
  refine ((Extending.gprResult q format s ha hl).and hdone).mono ?_ (fun _ h => h.2.elim)
    fun _ _ _ => trivial
  exact fun _ s' h => ⟨h.1, t, .of_away hσ, hQ s'⟩

end Result

end Ends

/-! ### Integers -/

/-- An operation on integers was lowered: its result, a raw integer with a clear high half, is in a
register, and the ledger says so; or the machine leaves. -/
def Computes (k : Course) (res : Except ExitKind Int) (s : State) (t : Moment) : Prop :=
  match res with
  | .ok z => t.spot = .next ∧
    Stands (Function.update k.val k.cur (.ofInt32 (.ofInt z))) s.ledger t.registers t.memory ∧
    ∃ d q, k.env.graph.nodes[k.cur]? = some d ∧ k.Records d q .int32 s ∧
      t.registers.gpr q = (Int32.ofInt z).toUInt32.toUInt64
  | .error kind => t.spot = .exit kind

namespace Ends

section Computes

variable {res : Except ExitKind Int} (hu : Unborn k.env.graph k.cur k.before)
  (ht : s.Taken (.gpr q)) (h : Stands k.val s.ledger r mem)
include hu ht h

lemma computed (hs : Same s s') (hshows : t.Shows res q r mem) :
    k.Ends ls s' (Lowering.gprResult q .int32) t (k.Computes res) T := by
  obtain ⟨σ, r', mem'⟩ := t
  obtain ⟨rfl, hres⟩ := hshows
  have ht' : s'.Taken (.gpr q) := hs.taken.mpr ht
  cases res with
  | ok z =>
    obtain ⟨rfl, hg⟩ := hres
    refine .intro fun hc _ => ?_
    have hst : Stands k.val s'.ledger r' mem' := by
      have h' : Stands k.val s'.ledger r mem' := by rwa [hs.ledger]
      exact h'.gives hc ht' hg
    refine .gprResult hu hst ⟨.ofInt z, rfl, hg.result⟩ fun d s'' hd hb => ?_
    exact ⟨rfl, hb.stands, d, q, hd, hb.records, hg.result⟩
  | error kind =>
    exact .gprResult_away hu ht' (by rw [hres]; nofun) fun s'' => hres

/-- The code of an operation is emitted for the register that was taken. -/
lemma shown {x : Lower Unit} (hcalm : Calm x)
    (hx : k.Wp ls s x ⟨.next, r, mem⟩ (fun _ _ t => t.Shows res q r mem) T) :
    k.Ends ls s (x >>= fun _ => Lowering.gprResult q .int32) ⟨.next, r, mem⟩ (k.Computes res) T :=
  .bind ((hx.calm hcalm).weaken fun _ _ _ ⟨hshows, hs⟩ => .computed hu ht h hs hshows)

end Computes

end Ends

lemma Honest.of_integral (h : Integral k.env.graph k.val facts e i) : k.Honest facts e where
  constant hv := h.value.trans (h.constant hv).symm
  integer _ := ⟨i, h.value⟩
  proven _ := h.value ▸ Value.isInt32_ofInt32 i

/-- A register for the result of an operation: none of those of the operands. No operand is in the
scratch register. -/
structure Apart (q : Gpr) (ps : List Gpr) : Prop where
  ne {p : Gpr} (hp : p ∈ ps) : q ≠ p
  operand {p : Gpr} (hp : p ∈ ps) : p ≠ .scratch
  scratch : q ≠ .scratch

/-- Operands are locked when the register for the result is taken. -/
lemma Apart.of_handed {ps : List Gpr} (h : Handed s s' (.gpr q))
    (hps : ∀ p ∈ ps, 0 < s.locks (.gpr p)) : Apart q ps where
  ne {p} hp := by
    rintro rfl
    exact absurd (hps _ hp) (h.free ▸ Nat.lt_irrefl 0)
  operand hp := (Location.ne_of_mem (Bank.mem_allocatable_of_locksOf (hps _ hp))).2.2.2
  scratch := (Location.ne_of_mem h.mem).2.2.2

namespace Wp

variable (hk : k.Sound) (h : Stands k.val s.ledger r mem) (he : Integral k.env.graph k.val s.facts e i)
include hk h he

/-- Speculation on an integer does not fail. -/
lemma fillIntegral {Q : GprOperand → State → Moment → Prop}
    (hQ : ∀ op s' r' mem', k.Brings s r mem e.node (.gpr op.reg) s' r' mem' →
      low (r'.gpr op.reg) = i → Q op s' ⟨.next, r', mem'⟩) :
    k.Wp ls s (Lowering.fillInt e) ⟨.next, r, mem⟩ Q T := by
  have hint : (k.val e.node).isInt32 ≠ false := by
    rw [he.value, Value.isInt32_ofInt32]
    nofun
  refine .fillInt hk h (.of_integral he) (fun j op s' r' mem' hj hb => ?_)
    (fun hn => absurd hn hint) fun hn => absurd (hn he.admits) hint
  rw [he.value] at hj
  exact hQ op s' r' mem' hb.toBrings (hb.low.trans (Value.ofInt32_injective hj).symm)

lemma rhsIntegral {Q : Operand → State → Moment → Prop}
    (hQ : ∀ o s' r' mem', Preserves k.env.graph s r mem s' r' mem' →
      Stands k.val s'.ledger r' mem' → Held s' o → low (r'.operand o) = i →
      Q o s' ⟨.next, r', mem'⟩) :
    k.Wp ls s (Lowering.intRhs e) ⟨.next, r, mem⟩ Q T := by
  have hint : (k.val e.node).isInt32 ≠ false := by
    rw [he.value, Value.isInt32_ofInt32]
    nofun
  refine .intRhs hk h (.of_integral he) (fun j o s' r' mem' hj hp h' ho hlow => ?_)
    (fun hn => absurd hn hint) fun hn => absurd (hn he.admits) hint
  rw [he.value] at hj
  exact hQ o s' r' mem' hp h' ho (hlow.trans (Value.ofInt32_injective hj).symm)

end Wp

end Course
end Speculation
