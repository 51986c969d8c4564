import Speculation.Proofs.Running.Checks
import Speculation.Proofs.Running.Compiled

/-!
Guards and boxing while code is running, whatever is in the words.

The guards of fills and of the entry compare a word with the tags that are kept in registers, or with
immediates that are extended with their sign. Here no value has to be one of the language: every word
but the empty value is let by exactly where its kind says so, and what is boxed or unboxed is what the
encoding of values has for it, also for patterns of doubles that no number has.
-/

namespace Speculation

open Lowering

namespace Value

variable {v : Value}

lemma xor_and (a b c : UInt64) : (a ^^^ b) &&& c = (a &&& c) ^^^ (b &&& c) := by
  apply UInt64.toBitVec_inj.mp
  ext i hi
  simp [Bool.and_xor_distrib_right]

/-- An exclusive or with false leaves at most the lowest bit of a boolean. -/
lemma isBoolean_eq_xor (v : Value) : v.isBoolean = ((v.bits ^^^ 6) &&& ~~~1 == 0) := by
  have hmask : (v.bits ^^^ 6) &&& ~~~1 = (v.bits &&& ~~~1) ^^^ 6 := xor_and _ _ _
  rw [isBoolean, hmask, Bool.eq_iff_iff, beq_iff_eq, beq_iff_eq, UInt64.xor_eq_zero_iff]
  rfl

/-- A word without bits above the lowest. -/
lemma zero_or_one {a : UInt64} (h : a &&& ~~~1 = 0) : a = 0 ∨ a = 1 := by
  have hsplit : ∀ b : UInt64, a = (a &&& ~~~b) ||| (a &&& b) := by
    intro b
    apply UInt64.toBitVec_inj.mp
    ext i hi
    simp [← Bool.and_or_distrib_left]
  have hone : a = a &&& 1 := by
    have := hsplit 1
    rwa [h, UInt64.zero_or] at this
  have hmod : (a &&& 1).toNat = a.toNat % 2 := by
    rw [UInt64.toNat_and]
    exact Nat.and_one_is_mod _
  rw [hone]
  rcases Nat.mod_two_eq_zero_or_one a.toNat with h | h
  · exact .inl (UInt64.toNat_inj.mp (hmod.trans h))
  · exact .inr (UInt64.toNat_inj.mp (hmod.trans h))

/-- The lowest bit of a boolean is its truth value, also after an exclusive or with false. -/
lemma boolean?_of_isBoolean (h : v.isBoolean = true) :
    v.boolean? = some ((v.bits ^^^ 6) &&& 1 != 0) ∧ v.boolean? = some (v.bits &&& 1 != 0) := by
  have hbits : v.bits = (v.bits ^^^ 6) ^^^ 6 := by rw [UInt64.xor_assoc, UInt64.xor_self, UInt64.xor_zero]
  rw [boolean?, if_pos h]
  rw [isBoolean_eq_xor, beq_iff_eq] at h
  rcases zero_or_one h with h | h <;> rw [h] at hbits <;> rw [hbits] <;> exact ⟨rfl, rfl⟩

/-- The number that a boxed double holds is the double. -/
lemma double?_eq_number? (h : v.isDouble = true) : v.double? = v.number? := by
  have hint : v.int32? = none := if_neg (by simp [isInt32_of_isDouble h])
  rw [number?, hint]

lemma int32?_of_isInt32 (h : v.isInt32 = true) : v.int32? = some (low v.bits) := if_pos h

end Value

namespace Cond

variable {r : Registers} {q : Gpr} {v : Value} {d : Option Ordering}

/-- After an exclusive or with false, everything but a boolean has bits above the lowest. -/
lemma holds_ne_and_high (hq : r.gpr q = v.bits ^^^ 6) :
    ne.holds (Size.s64.run .and (r.gpr q) (r.operand (.imm (-2)))).2 d = !v.isBoolean := by
  have himm : r.operand (.imm (-2)) = ~~~1 := rfl
  rw [holds_ne_and64, hq, himm, Value.isBoolean_eq_xor, decide_not, beq_eq_decide]

end Cond

/-- The word that the check of a boolean makes. -/
lemma Registers.gpr_xor_false (r : Registers) (q : Gpr) (f : Flags) :
    (({ r with flags := f } : Registers).setGpr q
      (Size.s64.run .xor (r.gpr q) (r.operand falseImm)).1).gpr q = r.gpr q ^^^ 6 := by
  rw [gpr_setGpr, if_pos rfl]
  rfl

/-- The kind of the arguments that come with a format. A double comes boxed, and so does any value. -/
def FlushFormat.admits (f : FlushFormat) (v : Value) : Bool :=
  match f with
  | .int32 => v.isInt32
  | .boolean => v.isBoolean
  | .cell => v.isCell
  | .value | .double => true

def Graph.admits (g : Graph) (arg : VarId → Value) : Bool :=
  g.arguments.all fun v => (g.vars[v]?).all fun x => x.format.admits (arg v)

namespace Course

variable {α β : Type} {k : Course} {ls : List Label} {s s' : State} {r r' r₁ : Registers}
  {mem mem' : Memory} {t t' : Moment} {q : Gpr} {n : NodeId} {e : Edge} {d : Node} {j : Nat}
  {x : ValueInfo} {format : DataFormat} {w : UInt64} {v : Value} {i : Inst} {c : Cond} {σ : Spot}
  {b : Bool} {T : State → Moment → Prop}

/-- The ledger has a value in a register or in its slot, in a format, and that is the word there. -/
inductive Has (k : Course) (s : State) (r : Registers) (mem : Memory) (n : NodeId)
    (format : DataFormat) (w : UInt64) : Prop where
  | gpr {d : Node} {i : Nat} {x : ValueInfo} {q : Gpr} (he : Entry k.env.graph s n d i x)
    (hx : x.location = .gpr q) (hf : x.registerFormat = format) (hw : r.gpr q = w)
  | fpr {d : Node} {i : Nat} {x : ValueInfo} {f : Fpr} (he : Entry k.env.graph s n d i x)
    (hx : x.location = .fpr f) (hf : format = .double) (hw : (r.fpr f).bits = w)
  | slot {d : Node} {i : Nat} {x : ValueInfo} (he : Entry k.env.graph s n d i x)
    (hx : x.location = .none) (hf : x.spillFormat = format) (hne : format ≠ .none)
    (hw : mem.read? 8 (r.slot i) = some w.toNat)

/-- The step goes on exactly where `b` is true, and with `P` then; otherwise the machine leaves for a
bad type. -/
def Admits (k : Course) (ls : List Label) (s : State) (r : Registers) (mem : Memory) (x : Lower α)
    (b : Bool) (P : α → Registers → Prop) : Prop :=
  k.Wp ls s x ⟨.next, r, mem⟩
    (fun a _ t => if b then t.spot = .next ∧ P a t.registers else t.spot = .exit .badType)
    fun _ t => b = false ∧ t.spot = .exit .badType

/-- What the lowering takes for granted of the operand of an edge is true of it: it is of the kind if the
edge or the facts say so, and the facts do not exclude it if it is. -/
structure Warranted (facts : Facts) (e : Edge) (type : TypeSet) (known : Prop) (b : Bool) : Prop where
  proven (h : known ∨ (facts.known e.node).subset type = true) : b = true
  possible (h : b = true) : (facts.known e.node).intersects type = true

lemma Warranted.eq_false {facts : Facts} {type : TypeSet} {known : Prop}
    (h : Warranted facts e type known b) (hmay : ¬(facts.known e.node).intersects type = true) :
    b = false :=
  Bool.eq_false_iff.mpr fun hb => hmay (h.possible hb)

namespace Wp

/-- A value is found where the ledger has it. -/
lemma locate {f : Residence → Lower β} {Q : β → State → Moment → Prop}
    (h : k.Has s r mem n format w)
    (hgpr : ∀ q d i x, Entry k.env.graph s n d i x → x.location = .gpr q → r.gpr q = w →
      k.Wp ls s (f (.gpr q format)) t Q T)
    (hfpr : ∀ g, format = .double → (r.fpr g).bits = w → k.Wp ls s (f (.fpr g)) t Q T)
    (hslot : ∀ d i x, Entry k.env.graph s n d i x → x.location = .none → x.spillFormat = format →
      format ≠ .none → mem.read? 8 (r.slot i) = some w.toNat →
      k.Wp ls s (f (.spilled format)) t Q T) : k.Wp ls s (locate n >>= f) t Q T := by
  refine .look leads_locate_found fun res hres => ?_
  cases res with
  | constant v => cases h <;> exact absurd hres ‹Entry _ _ _ _ _ _›.not_constant
  | gpr q' format' =>
    obtain ⟨d', i', x', he', hx', rfl⟩ := hres
    rcases h with ⟨he, hx, hf, hw⟩ | ⟨he, hx, hf, hw⟩ | ⟨he, hx, hf, hne, hw⟩
    all_goals
      obtain rfl := he.unique he'
      rw [hx] at hx'
      cases hx'
    rw [hf]
    exact hgpr _ _ _ _ he hx hw
  | fpr g =>
    obtain ⟨d', i', x', he', hx'⟩ := hres
    rcases h with ⟨he, hx, hf, hw⟩ | ⟨he, hx, hf, hw⟩ | ⟨he, hx, hf, hne, hw⟩
    all_goals
      obtain rfl := he.unique he'
      rw [hx] at hx'
      cases hx'
    exact hfpr _ hf hw
  | spilled format' =>
    obtain ⟨d', i', x', he', hx', rfl, -⟩ := hres
    rcases h with ⟨he, hx, hf, hw⟩ | ⟨he, hx, hf, hw⟩ | ⟨he, hx, hf, hne, hw⟩
    all_goals
      obtain rfl := he.unique he'
      rw [hx] at hx'
      cases hx'
    rw [hf]
    exact hslot _ _ _ he hx hf hne hw

/-- An exit is changed that the machine may be on its way to. -/
lemma modifyExit {f : Exit → Exit} {Q : Unit → State → Moment → Prop}
    (hf : ∀ x, (f x).kind = x.kind ∧ (f x).streamIndex = x.streamIndex ∧ (f x).identity = x.identity)
    (hQ : ∀ s', k.Follows s s' → Q () s' t) : k.Wp ls s (modifyExit j f) t Q T :=
  .of_calm (Calm.modifyExit fun x => ⟨(hf x).1, (hf x).2.1, congrArg (·.2.2) (hf x).2.2⟩)
    (Extending.modifyExit fun x => (hf x).2.2) fun _ _ => ⟨t, .of_offset rfl, hQ _⟩

lemma guardUndo {kind : ExitKind} {u : Undo} {Q : Unit → State → Moment → Prop} (hk : k.Sound)
    (hkind : kind ≠ .argumentTypeCheck)
    (ht : c.holds r.flags r.order = true → ∀ s', k.Follows s s' → Q () s' ⟨.exit kind, r, mem⟩)
    (hf : c.holds r.flags r.order = false → ∀ s', k.Follows s s' → Q () s' ⟨.next, r, mem⟩) :
    k.Wp ls s (guardUndo kind c u) ⟨.next, r, mem⟩ Q T := by
  refine .bind (.newExit hkind fun x s₁ h₁ hx => .bind (.modifyExit (fun _ => ⟨rfl, rfl, rfl⟩)
    fun s₂ h₂ => ?_))
  have h₁₂ := h₁.trans h₂
  exact .jccExit hk (hx.extends h₂.proceeds.toExtends) (fun hc s₃ h₃ => ht hc s₃ (h₁₂.trans h₃))
    fun hc s₃ h₃ => hf hc s₃ (h₁₂.trans h₃)

/-- A value is entered in another format, wherever the machine is. -/
lemma settle {op : GprOperand} {Q : GprOperand → State → Moment → Prop}
    (ho : Owned k.env.graph s n (.gpr q)) (hne : format ≠ .storage)
    (hQ : ∀ s', Q op s' ⟨σ, r, mem⟩) : k.Wp ls s (do
      Lowering.refine n q format
      return op) ⟨σ, r, mem⟩ Q T :=
  .bind (.relabel ho hne fun s' _ _ _ => .pure (hQ s'))

end Wp

namespace Admits

variable {P : α → Registers → Prop} {op : GprOperand} {P' : GprOperand → Registers → Prop}

lemma look {y : Lower β} {f : β → Lower α} {p : β}
    (hy : Leads k.env s y (fun a s' => s' = s ∧ a = p) (fun _ => False) fun _ _ => True)
    (hf : k.Admits ls s r mem (f p) b P) : k.Admits ls s r mem (y >>= f) b P :=
  Wp.look (fun _ => hy) fun _ hp => hp ▸ hf

lemma ite {p : Prop} [Decidable p] {x y : Lower α} (hx : p → k.Admits ls s r mem x b P)
    (hy : ¬p → k.Admits ls s r mem y b P) : k.Admits ls s r mem (if p then x else y) b P :=
  Wp.ite hx hy

lemma bind {y : Lower β} {f : β → Lower α} (hy : k.Wp ls s y ⟨.next, r, mem⟩
    (fun a s' t => ∃ r' mem', t = ⟨.next, r', mem'⟩ ∧ k.Admits ls s' r' mem' (f a) b P)
    fun _ _ => False) : k.Admits ls s r mem (y >>= f) b P :=
  Wp.bind (hy.mono (fun _ _ _ ⟨_, _, ht, hf⟩ => ht ▸ hf) fun _ _ => False.elim)

lemma emit {x : Lower α} (hk : k.Sound) (hi : i.isPlain = true) (hs : i.Steps r mem r' mem)
    (hx : ∀ s', k.Follows s s' → k.Admits ls s' r' mem x b P) :
    k.Admits ls s r mem (emit' i >>= fun _ => x) b P :=
  Wp.bind (.emit' hk hi hs hx)

lemma imp {x : Lower α} {P₁ : α → Registers → Prop} (h : k.Admits ls s r mem x b P)
    (hP : ∀ a r', P a r' → P₁ a r') : k.Admits ls s r mem x b P₁ :=
  Wp.weaken h fun a s' t' hq => by
    cases b
    · exact hq
    · exact ⟨hq.1, hP a _ hq.2⟩

lemma pure {a : α} (hb : b = true) (hP : P a r) : k.Admits ls s r mem (pure a) b P :=
  Wp.pure (by rw [if_pos hb]; exact ⟨rfl, hP⟩)

lemma terminate (hk : k.Sound) (hb : b = false) :
    k.Admits ls s r mem (terminate .badType : Lower α) b P :=
  Wp.terminate hk (by decide) fun _ _ => ⟨hb, rfl⟩

lemma settle (ho : Owned k.env.graph s n (.gpr q)) (hne : format ≠ .storage) (hb : b = true)
    (hP : P' op r) : k.Admits ls s r mem (do
      Lowering.refine n q format
      return op) b P' :=
  Wp.settle ho hne fun _ => by rw [if_pos hb]; exact ⟨rfl, hP⟩

/-- An exit is taken or not, and then the value is entered in another format. -/
lemma guarded {g : Lower Unit} (hk : k.Sound) (hg : g = guard' .badType c ∨ ∃ u, g = guardUndo .badType c u)
    (ho : Owned k.env.graph s n (.gpr q)) (hne : format ≠ .storage)
    (hc : c.holds r.flags r.order = !b) (hP : b = true → P' op r) : k.Admits ls s r mem (do
      g
      Lowering.refine n q format
      return op) b P' := by
  have hguard : ∀ {Q : Unit → State → Moment → Prop} {T},
      (c.holds r.flags r.order = true → ∀ s', k.Follows s s' → Q () s' ⟨.exit .badType, r, mem⟩) →
      (c.holds r.flags r.order = false → ∀ s', k.Follows s s' → Q () s' ⟨.next, r, mem⟩) →
      k.Wp ls s g ⟨.next, r, mem⟩ Q T := by
    intro Q T ht hf
    obtain rfl | ⟨u, rfl⟩ := hg
    · exact .guard' hk (by decide) ht hf
    · exact .guardUndo hk (by decide) ht hf
  have ho' : ∀ {s'}, k.Follows s s' → Owned k.env.graph s' n (.gpr q) := fun h =>
    ho.of_owner (by rw [h.toSame.owner])
  refine Wp.bind (hguard (fun ht s₁ h₁ => ?_) fun ht s₁ h₁ => ?_)
  all_goals
    rw [hc] at ht
    refine Wp.settle (ho' h₁) hne fun s₂ => ?_
  · rw [if_neg (by simpa using ht)]
  · have hb : b = true := by simpa using ht
    rw [if_pos hb]
    exact ⟨rfl, hP hb⟩

/-! ### Words in registers -/

section Registers

variable (hk : k.Sound) (ho : Owned k.env.graph s e.node (.gpr q)) (hq : r.gpr q = v.bits)
include hk ho hq

lemma intFromGpr (hn : r.gpr .numberTag = Value.numberTag)
    (hproven : e.kind = .knownInt32 ∨ (s.facts.known e.node).subset .int32 = true →
      v.isInt32 = true) :
    k.Admits ls s r mem (intFromGpr e q .js) v.isInt32
      fun op r' => v.int32? = some (low (r'.gpr op.reg)) := by
  have hlow : v.isInt32 = true → v.int32? = some (low (r.gpr q)) := fun h => by
    rw [hq]
    exact Value.int32?_of_isInt32 h
  refine .look looks_provenIs (.ite (fun hc => ?_) fun _ => ?_)
  · have hint : v.isInt32 = true := hproven (by simpa using hc)
    exact .settle ho nofun hint (hlow hint)
  · refine .emit hk rfl Inst.steps_cmp fun s₁ h₁ => ?_
    exact .guarded hk (.inl rfl) (ho.of_owner (by rw [h₁.toSame.owner])) nofun (Cond.holds_b_sub_tag hn hq) hlow

lemma cellFromGpr (hm : r.gpr .tagMask = Value.cellMask) (hne : v ≠ .empty)
    (hproven : e.kind = .knownCell ∨ (s.facts.known e.node).subset .cell = true →
      v.isCell = true) :
    k.Admits ls s r mem (cellFromGpr e q .js) v.isCell
      fun op r' => v.cell? = some (r'.gpr op.reg) := by
  have hcell : v.isCell = true → v.cell? = some (r.gpr q) := fun h => by
    rw [hq]
    exact if_pos h
  refine .look looks_provenIs (.ite (fun hc => ?_) fun _ => ?_)
  · have hb : v.isCell = true := hproven (by simpa using hc)
    exact .settle ho nofun hb (hcell hb)
  · refine .emit hk rfl Inst.steps_test fun s₁ h₁ => ?_
    exact .guarded hk (.inl rfl) (ho.of_owner (by rw [h₁.toSame.owner])) nofun
      (Cond.holds_ne_and_mask hm hq hne) hcell

lemma booleanFromGpr (shared : Bool)
    (hproven : (s.facts.known e.node).subset .boolean = true → v.isBoolean = true) :
    k.Admits ls s r mem (booleanFromGpr e q .js shared) v.isBoolean
      fun op r' => v.boolean? = some (r'.gpr op.reg &&& 1 != 0) := by
  have ho' : ∀ {s'}, k.Follows s s' → Owned k.env.graph s' e.node (.gpr q) := fun h =>
    ho.of_owner (by rw [h.toSame.owner])
  have hscratch : q ≠ .scratch := by
    obtain ⟨_, _, -, -, howner⟩ := ho
    exact (Location.ne_of_mem (Bank.mem_allocatable_of_owner howner)).2.2.2
  have hbits : v.isBoolean = true → v.boolean? = some (r.gpr q &&& 1 != 0) := fun h => by
    rw [hq]
    exact (Value.boolean?_of_isBoolean h).2
  refine .look looks_provenIs (.ite (fun hb => ?_) fun _ => .ite (fun _ => ?_) fun _ => ?_)
  · exact .settle ho nofun (hproven hb) (hbits (hproven hb))
  · refine .bind (.mov hk fun s₁ h₁ => ⟨_, _, rfl, .emit hk rfl Inst.steps_alu fun s₂ h₂ => ?_⟩)
    refine .emit hk rfl Inst.steps_test fun s₃ h₃ => ?_
    refine .guarded hk (.inl rfl) (ho' ((h₁.trans h₂).trans h₃)) nofun
      (Cond.holds_ne_and_high ?_) fun h => ?_
    · rw [Registers.gpr_xor_false, Registers.gpr_setGpr, if_pos rfl, hq]
    · rw [hbits h]
      simp [hscratch]
  · refine .emit hk rfl Inst.steps_alu fun s₁ h₁ => .emit hk rfl Inst.steps_test fun s₂ h₂ => ?_
    have hxor : ∀ f, (({ r with flags := f } : Registers).setGpr q
        (Size.s64.run .xor (r.gpr q) (r.operand falseImm)).1).gpr q = v.bits ^^^ 6 := fun f => by
      rw [Registers.gpr_xor_false, hq]
    refine .guarded hk (.inr ⟨_, rfl⟩) (ho' (h₁.trans h₂)) nofun (Cond.holds_ne_and_high (hxor _))
      fun h => ?_
    rw [(Value.boolean?_of_isBoolean h).1, ← hxor]
    rfl

end Registers

/-! ### Fills -/

lemma lockGpr {x : Lower α} (ho : Owned k.env.graph s n (.gpr q))
    (hx : ∀ s', s'.facts = s.facts → s'.ledger = s.ledger → Owned k.env.graph s' n (.gpr q) →
      k.Admits ls s' r mem x b P) : k.Admits ls s r mem (lockGpr q >>= fun _ => x) b P :=
  Wp.bind (.lockGpr fun s' hl hf => hx s' hf hl.ledger (ho.of_owner (hl.owner _)))

lemma find {f : Residence → Lower α} (h : k.Has s r mem n format w)
    (hgpr : ∀ q, Owned k.env.graph s n (.gpr q) → r.gpr q = w →
      k.Admits ls s r mem (f (.gpr q format)) b P)
    (hfpr : ∀ g, format = .double → (r.fpr g).bits = w → k.Admits ls s r mem (f (.fpr g)) b P)
    (hslot : ∀ d i x, Entry k.env.graph s n d i x → x.location = .none → x.spillFormat = format →
      format ≠ .none → mem.read? 8 (r.slot i) = some w.toNat →
      k.Admits ls s r mem (f (.spilled format)) b P) : k.Admits ls s r mem (locate n >>= f) b P :=
  Wp.locate h (fun q _ _ _ he hx hw => .intro fun hs _ => hgpr q (hs.owned_of_entry he hx nofun) hw)
    hfpr hslot

/-- A boxed value is in its register or is loaded from its slot. -/
lemma locate {f : Residence → Lower α} {g : Gpr → Lower α} (hk : k.Sound)
    (h : Equipped s.ledger r mem) (hhas : k.Has s r mem n format w)
    (hf : format = .js ∨ format = .jsDouble)
    (hgpr : ∀ q, Owned k.env.graph s n (.gpr q) → r.gpr q = w →
      k.Admits ls s r mem (f (.gpr q format)) b P)
    (hslot : f (.spilled format) = fillSpilledGpr n format >>= g)
    (hg : ∀ q s' r' mem', s'.facts = s.facts → Equipped s'.ledger r' mem' →
      Owned k.env.graph s' n (.gpr q) → r'.gpr q = w → k.Admits ls s' r' mem' (g q) b P) :
    k.Admits ls s r mem (locate n >>= f) b P := by
  have hboxed : format ≠ .double ∧ ¬(format = .int32 ∨ format = .boolean) := by
    rcases hf with rfl | rfl <;> simp
  refine .find hhas hgpr (fun _ hd => absurd hd hboxed.1) fun d i x he hx hf hne hw => ?_
  rw [hslot]
  refine Wp.bind (.loadSpilledGpr hk h he hx hf hne hw (fun h => absurd h hboxed.2) ?_)
  intro q s' mem' _ ho hp heq _ _
  exact hg q s' _ mem' hp.facts heq ho (by rw [Registers.gpr_setGpr, if_pos rfl])

/-- The operand is let go of. -/
lemma unlockGpr {x : Lower α} (hx : k.Admits ls s r mem x b P) : k.Admits ls s r mem (do
      let f ← x
      Lowering.unlockGpr q
      return f) b P :=
  Wp.bind (hx.mono (fun _ _ _ hf => .bind (.unlockGpr fun _ _ _ _ => .pure hf)) fun _ _ => id)

lemma doubleFromGpr (hk : k.Sound) (h : Equipped s.ledger r mem) (hq : r.gpr q = v.bits)
    (hproven : (s.facts.known e.node).subset .number = true → v.isNumber = true) :
    k.Admits ls s r mem (doubleFromGpr e q .js) v.isNumber
      fun f r' => v.number? = some (r'.fpr f) := by
  rw [doubleFromGpr_js]
  refine Wp.bind (.vacateFpr hk h fun f s₁ mem₁ hh hev => ?_)
  refine .unboxNumber hk h.numberTag hq (fun hp => hproven (hev.facts ▸ hp))
    (fun s₂ r₂ z h₂ hz hr => .pure ?_) fun hno s₂ r₂ h₂ => ?_
  · rw [if_pos (Value.isNumber_of_number? hz)]
    exact ⟨rfl, hz.trans (congrArg some hr.self.symm)⟩
  · rw [if_neg (by simp [hno])]

/-- What is known to be a boxed double is unboxed without a guard. -/
lemma doubleFromGpr_jsDouble (hk : k.Sound) (h : Equipped s.ledger r mem) (hq : r.gpr q = v.bits)
    (hv : v.isDouble = true) : k.Admits ls s r mem (Lowering.doubleFromGpr e q .jsDouble) true
      fun f r' => v.double? = some (r'.fpr f) := by
  refine Wp.bind (.vacateFpr hk h fun f s₁ mem₁ hh hev => ?_)
  refine .bindNewLabel fun isInt s₂ h₂ _ => .bindNewLabel fun done s₃ h₃ hnew => ?_
  refine .unbox hk h.numberTag hq hv fun s₄ r₄ z h₄ hz hr => .pure ⟨rfl, ?_⟩
  exact ((Value.double?_eq_number? hv).trans hz).trans (congrArg some hr.self.symm)

section Fills

variable (hk : k.Sound) (h : Equipped s.ledger r mem) (hhas : k.Has s r mem e.node .js v.bits)
include hk h hhas

lemma fillInt (hw : Warranted s.facts e .int32 (e.kind = .knownInt32) v.isInt32) :
    k.Admits ls s r mem (fillInt e) v.isInt32
      fun op r' => v.int32? = some (low (r'.gpr op.reg)) := by
  refine .look looks_mayBe
    (.ite (fun _ => ?_) fun hmay => ?_)
  · refine .locate hk h hhas (.inl rfl) (fun q ho hq => .lockGpr ho fun s₁ hf₁ _ ho₁ => ?_) rfl ?_
    · exact .intFromGpr hk ho₁ hq h.numberTag (hf₁ ▸ hw.proven)
    · exact fun q s' r' mem' hf heq ho hq => .intFromGpr hk ho hq heq.numberTag (hf ▸ hw.proven)
  · exact Wp.bind (.terminate hk (by decide) fun _ _ => ⟨hw.eq_false hmay, rfl⟩)

lemma fillCell (hne : v ≠ .empty)
    (hw : Warranted s.facts e .cell (e.kind = .knownCell) v.isCell) :
    k.Admits ls s r mem (fillCell e) v.isCell fun op r' => v.cell? = some (r'.gpr op.reg) := by
  refine .look looks_mayBe
    (.ite (fun _ => ?_) fun hmay => ?_)
  · refine .locate hk h hhas (.inl rfl) (fun q ho hq => .lockGpr ho fun s₁ hf₁ _ ho₁ => ?_) rfl ?_
    · exact .cellFromGpr hk ho₁ hq h.tagMask hne (hf₁ ▸ hw.proven)
    · exact fun q s' r' mem' hf heq ho hq =>
        .cellFromGpr hk ho hq heq.tagMask hne (hf ▸ hw.proven)
  · exact Wp.bind (.terminate hk (by decide) fun _ _ => ⟨hw.eq_false hmay, rfl⟩)

lemma fillBoolean (hw : Warranted s.facts e .boolean False v.isBoolean) :
    k.Admits ls s r mem (fillBoolean e) v.isBoolean
      fun op r' => v.boolean? = some (r'.gpr op.reg &&& 1 != 0) := by
  refine .look looks_mayBe
    (.ite (fun _ => ?_) fun hmay => ?_)
  · refine .locate hk h hhas (.inl rfl) (fun q ho hq => .look (p := s.gprs.isLocked q) ⟨rfl, rfl⟩
      (.lockGpr ho fun s₁ hf₁ _ ho₁ => ?_)) rfl ?_
    · exact .booleanFromGpr hk ho₁ hq _ fun hp => hw.proven (.inr (hf₁ ▸ hp))
    · exact fun q s' r' mem' hf heq ho hq =>
        .booleanFromGpr hk ho hq _ fun hp => hw.proven (.inr (hf ▸ hp))
  · exact Wp.bind (.terminate hk (by decide) fun _ _ => ⟨hw.eq_false hmay, rfl⟩)

lemma fillDouble (hw : Warranted s.facts e .number False v.isNumber) :
    k.Admits ls s r mem (fillDouble e) v.isNumber fun f r' => v.number? = some (r'.fpr f) := by
  refine .look looks_mayBe
    (.ite (fun _ => ?_) fun hmay => ?_)
  · refine .locate hk h hhas (.inl rfl) (fun q ho hq => .lockGpr ho fun s₁ hf₁ hl₁ _ =>
      .unlockGpr ?_) rfl fun q s' r' mem' hf heq ho hq => .unlockGpr ?_
    · exact .doubleFromGpr hk (hl₁ ▸ h) hq fun hp => hw.proven (.inr (hf₁ ▸ hp))
    · exact .doubleFromGpr hk heq hq fun hp => hw.proven (.inr (hf ▸ hp))
  · exact Wp.bind (.terminate hk (by decide) fun _ _ => ⟨hw.eq_false hmay, rfl⟩)

end Fills

lemma fillDouble_jsDouble (hk : k.Sound) (h : Equipped s.ledger r mem)
    (hhas : k.Has s r mem e.node .jsDouble v.bits) (hv : v.isDouble = true)
    (hmay : (s.facts.known e.node).intersects .number = true) :
    k.Admits ls s r mem (Lowering.fillDouble e) true fun f r' => v.double? = some (r'.fpr f) := by
  refine .look looks_mayBe
    (.ite (fun _ => ?_) fun hno => absurd hmay hno)
  refine .locate hk h hhas (.inr rfl) (fun q ho hq => .lockGpr ho fun s₁ hf₁ hl₁ _ =>
    .unlockGpr ?_) rfl fun q s' r' mem' hf heq ho hq => .unlockGpr ?_
  · exact .doubleFromGpr_jsDouble hk (hl₁ ▸ h) hq hv
  · exact .doubleFromGpr_jsDouble hk heq hq hv

end Admits

/-! ### Boxing -/

/-- What a raw word in a format is when it is boxed. -/
inductive Boxing : DataFormat → UInt64 → Value → Prop where
  | int32 (i : Int32) : Boxing .int32 i.toUInt32.toUInt64 (.ofInt32 i)
  | boolean (b : Bool) : Boxing .boolean (if b then 1 else 0) (.ofBool b)
  | cell (a : UInt64) : Boxing .cell a (.ofCell a)
  | double (z : Double) : Boxing .double z.bits (.ofDouble z)

namespace Boxing

lemma represents (h : Boxing format w v) (hf : format = .int32 ∨ format = .boolean) :
    Represents format w v := by
  cases h with
  | int32 i => exact ⟨i, rfl, rfl⟩
  | boolean b => exact ⟨b, rfl, rfl⟩
  | cell | double => simp at hf

lemma or_numberTag (h : Boxing .int32 w v) : w ||| Value.numberTag = v.bits :=
  (h.represents (.inl rfl)).or_numberTag

lemma or_false (h : Boxing .boolean w v) : w ||| 6 = v.bits := (h.represents (.inr rfl)).or_false

/-- Every pattern is boxed like this, also that of a NaN with a payload. -/
lemma sub_numberTag (h : Boxing .double w v) : w - Value.numberTag = v.bits := by
  obtain ⟨z⟩ := h
  have htag : Value.numberTag = -Value.doubleOffset := rfl
  rw [htag, UInt64.sub_neg]
  rfl

end Boxing

/-- The step goes on with the box of a value in a register. -/
def Delivers (k : Course) (ls : List Label) (s : State) (r : Registers) (mem : Memory)
    (x : Lower GprOperand) (v : Value) : Prop :=
  k.Admits ls s r mem x true fun op r' => r'.gpr op.reg = v.bits

namespace Admits

/-- A raw word is combined with a tag where it is or in a fresh register. -/
lemma boxGpr {tag : Operand} {shared : Bool} (hk : k.Sound) (h : Equipped s.ledger r mem)
    (ho : Owned k.env.graph s n (.gpr q)) (htag : ∀ p, tag = .reg p → p = .numberTag)
    (hbits : r.gpr q ||| r.operand tag = v.bits) (hne : format ≠ .storage) :
    k.Delivers ls s r mem (boxGpr n q shared tag format) v := by
  refine .ite (fun _ => ?_) fun _ => ?_
  · refine Wp.bind (.vacateGpr hk h fun t s₁ mem₁ hh hev => .bind (.mov hk fun s₂ h₂ => ?_))
    refine .bind (.emit' hk rfl Inst.steps_alu fun s₃ h₃ => .bind (.unlockGpr fun s₄ _ _ _ => .pure ⟨rfl, ?_⟩))
    have htaken := Location.ne_of_mem (Bank.mem_allocatable_of_locksOf hh.taken.1)
    have hoperand : (r.setGpr t (r.gpr q)).operand tag = r.operand tag := by
      refine Registers.operand_congr fun p hp => ?_
      rw [Registers.gpr_setGpr, if_neg (htag p hp ▸ htaken.2.1.symm)]
    dsimp only
    rw [Registers.gpr_setGpr, if_pos rfl, Registers.gpr_setGpr, if_pos rfl, hoperand]
    exact hbits
  · refine .emit hk rfl Inst.steps_alu fun s₁ h₁ =>
      .settle (ho.of_owner (by rw [h₁.toSame.owner])) hne rfl ?_
    rw [Registers.gpr_setGpr, if_pos rfl]
    exact hbits

/-- A raw word in a register of its own is boxed. -/
lemma boxed {f : Lower GprOperand} (shared : Bool) (hk : k.Sound) (h : Equipped s.ledger r mem)
    (ho : Owned k.env.graph s n (.gpr q)) (hb : Boxing format (r.gpr q) v)
    (hf : (format = .int32 → f = boxInt n q shared) ∧ (format = .boolean → f = boxBoolean n q shared) ∧
      (format = .cell → f = do
        Lowering.refine n q .jsCell
        return ⟨q, .jsCell⟩))
    (hd : format = .double → k.Delivers ls s r mem f v) : k.Delivers ls s r mem f v := by
  have htag : ∀ p, Operand.reg .numberTag = .reg p → p = .numberTag := fun p hp => by
    cases hp
    rfl
  generalize hw : r.gpr q = w at hb
  cases hb with
  | int32 i =>
    rw [hf.1 rfl]
    refine .boxGpr hk h ho htag ?_ nofun
    have hbits := (Boxing.int32 i).or_numberTag
    rw [hw, ← hbits, ← h.numberTag]
    rfl
  | boolean b =>
    rw [hf.2.1 rfl]
    refine .boxGpr hk h ho nofun ?_ nofun
    rw [hw]
    exact (Boxing.boolean b).or_false
  | cell a =>
    rw [hf.2.2 rfl]
    exact .settle ho nofun rfl hw
  | double z => exact hd rfl

lemma subTag {x : Lower Unit} (hk : k.Sound) (hn : r.gpr .numberTag = Value.numberTag)
    (hb : Boxing .double (r.gpr q) v)
    (hx : ∀ {s r mem} {Q : Unit → State → Moment → Prop} {T}, (∀ s', Q () s' ⟨.next, r, mem⟩) →
      k.Wp ls s x ⟨.next, r, mem⟩ Q T) :
    k.Delivers ls s r mem (do
      alu64 .sub q (.reg .numberTag)
      x
      return ⟨q, .jsDouble⟩) v := by
  refine .emit hk rfl Inst.steps_alu fun s₁ h₁ => Wp.bind (hx fun s₂ => .pure ⟨rfl, ?_⟩)
  dsimp only
  rw [Registers.gpr_setGpr, if_pos rfl, ← hb.sub_numberTag, ← hn]
  rfl

lemma fillValue (hk : k.Sound) (h : Equipped s.ledger r mem)
    (hhas : k.Has s r mem e.node format w) (hb : Boxing format w v) :
    k.Delivers ls s r mem (fillValue e) v := by
  refine .find hhas (fun q ho hw => ?_) (fun g hd hw => ?_) fun d i x he hx hf hne hw => ?_
  · subst hw
    refine .look (p := s.gprs.isLocked q) ⟨rfl, rfl⟩ (.lockGpr ho fun s₁ _ hl₁ ho₁ => ?_)
    refine .boxed (s.gprs.isLocked q) hk (hl₁ ▸ h) ho₁ hb ⟨?_, ?_, ?_⟩ ?_
    · rintro rfl
      rfl
    · rintro rfl
      rfl
    · rintro rfl
      rfl
    · rintro rfl
      exact fun _ _ _ => trivial
  · subst hd hw
    refine Wp.bind (.lockFpr fun s₁ hl₁ _ => .bind (.vacateGpr hk (hl₁.ledger ▸ h)
      fun q s₂ mem₂ hh hev => ?_))
    have hmov : (Inst.movDToG q g).effect r mem₂ = some (r.setGpr q (r.fpr g).bits, mem₂) := rfl
    show k.Delivers ls s₂ r mem₂ _ v
    refine .emit hk rfl (Inst.steps_of_effect hmov) fun s₃ h₃ => ?_
    have hne := (Location.ne_of_mem (Bank.mem_allocatable_of_locksOf hh.taken.1)).2.1
    refine .subTag hk ?_ ?_ fun hQ => .unlockFpr fun _ _ _ _ => hQ _
    · rw [Registers.gpr_setGpr, if_neg hne.symm, h.numberTag]
    · rw [Registers.gpr_setGpr, if_pos rfl]
      exact hb
  · by_cases hd : format = .double
    · subst hd
      refine Wp.bind (.vacateGpr hk h fun q s₁ mem₁ hh hev => ?_)
      have he₁ : Entry k.env.graph s₁ e.node d i x := { he with entry := hh.elsewhere he.entry hx }
      have hw₁ : mem₁.read? 8 (r.slot i) = some w.toNat := (hev.slot he.entry hx).trans hw
      refine .look (P := (· = .ofLocal i)) (F := fun _ _ => True)
        (fun _ => (leads_slotOf he₁.node he₁.slot).mpr ⟨rfl, rfl⟩) ?_
      rintro _ rfl
      show k.Delivers ls s₁ r mem₁ _ v
      refine .emit hk rfl (Inst.steps_load hw₁) fun s₂ h₂ => ?_
      have hne := (Location.ne_of_mem (Bank.mem_allocatable_of_locksOf hh.taken.1)).2.1
      rw [UInt64.ofNat_toNat]
      refine .subTag (x := Pure.pure ()) hk ?_ ?_ fun hQ => .pure (hQ _)
      · rw [Registers.gpr_setGpr, if_neg hne.symm, h.numberTag]
      · rw [Registers.gpr_setGpr, if_pos rfl]
        exact hb
    · have hhalf : format = .int32 ∨ format = .boolean → w.toNat < 4294967296 := fun hf =>
        lt_half (hb.represents hf) hf
      have hload : ∀ {f : Gpr → Lower GprOperand}, (∀ q,
          (format = .int32 → f q = boxInt e.node q false) ∧
          (format = .boolean → f q = boxBoolean e.node q false) ∧
          (format = .cell → f q = do
            Lowering.refine e.node q .jsCell
            return ⟨q, .jsCell⟩)) →
          k.Delivers ls s r mem (fillSpilledGpr e.node format >>= f) v := by
        intro f hf'
        refine Wp.bind (.loadSpilledGpr hk h he hx hf hne hw hhalf ?_)
        intro q s' mem' _ ho _ heq _ _
        refine Admits.boxed false hk heq ho ?_ (hf' q) fun h => absurd h hd
        rwa [Registers.gpr_setGpr, if_pos rfl]
      cases hb with
      | int32 i => exact hload fun q => ⟨fun _ => rfl, nofun, nofun⟩
      | boolean b => exact hload fun q => ⟨nofun, fun _ => rfl, nofun⟩
      | cell a => exact hload fun q => ⟨nofun, nofun, fun _ => rfl⟩
      | double z => exact absurd rfl hd

end Admits

/-! ### The entry -/

/-- Nothing is coherent yet while arguments are checked: the code that the step emits leads from the
moment `t` to one with `Q`, and its exits are exits of the current node. -/
def Enters (k : Course) (s : State) (x : Lower α) (t : Moment) (Q : α → State → Moment → Prop) : Prop :=
  s.current = k.cur → Aimed k.env s → Leads k.env s x
    (fun a s' => s'.current = k.cur ∧ Proceeds k.env s s' ∧ ∃ t', k.Reaches s t s' t' ∧ Q a s' t')
    (fun _ => False) fun _ _ => True

namespace Enters

variable {y : Lower α} {f : α → Lower β} {Q : β → State → Moment → Prop}
  {Q₁ Q₂ : α → State → Moment → Prop}

lemma mono (h : k.Enters s y t Q₁) (hQ : ∀ a s' t', Q₁ a s' t' → Q₂ a s' t') : k.Enters s y t Q₂ :=
  fun hc ha => (h hc ha).weaken fun a s' ⟨hc', hp, t', hr, hq⟩ => ⟨hc', hp, t', hr, hQ a s' t' hq⟩

lemma pure {a : α} (h : Q₁ a s t) : k.Enters s (pure a) t Q₁ :=
  fun hc _ => ⟨hc, .refl s, t, .refl s t, h⟩

lemma bind (h : k.Enters s y t fun a s' t' => k.Enters s' (f a) t' Q) :
    k.Enters s (y >>= f) t Q := by
  intro hc ha
  refine leads_bind.mpr ((h hc ha).weaken ?_)
  rintro a s' ⟨hc', hp, t', hr, hf⟩
  refine (hf hc' (hp.aimed ha)).weaken ?_
  rintro b s'' ⟨hc'', hp', t'', hr', hq⟩
  exact ⟨hc'', hp.trans hp', t'', hr.trans hr' hp', hq⟩

/-- What a step keeps and where the code that it emits leads are shown apart. -/
lemma of_leads (he : Extending k.env [] y)
    (hc : Leads k.env s y (fun _ s' => s'.current = s.current) (fun _ => False) fun _ _ => True)
    (hr : (∃ ps, s.asm.Made ps) → s.current = k.cur → Leads k.env s y
      (fun a s' => ∃ t', k.Reaches s t s' t' ∧ Q₁ a s' t') (fun _ => True) fun _ _ => True) :
    k.Enters s y t Q₁ := by
  intro hcur ha
  obtain ⟨ps, hm, -⟩ := ha.coded
  refine (((he s ha (List.forall_mem_nil _)).and hc).and (hr ⟨ps, hm⟩ hcur)).mono ?_
    (fun _ h => h.1.2) fun _ _ _ => trivial
  rintro a s' ⟨⟨hp, hc⟩, t', hreach, hq⟩
  exact ⟨hc.trans hcur, hp, t', hreach, hq⟩

lemma emit' {Q : Unit → State → Moment → Prop} (hk : k.Sound) (hi : i.isPlain = true)
    (hs : i.Steps r mem r' mem') (hQ : ∀ s', Q () s' ⟨.next, r', mem'⟩) :
    k.Enters s (emit' i) ⟨.next, r, mem⟩ Q :=
  .of_leads (.emit' hi) rfl fun hm _ => ⟨_, reaches_emit hk hm hs, hQ _⟩

lemma newExit {kind : ExitKind} {Q : Nat → State → Moment → Prop}
    (hQ : ∀ x s', k.HasExit s' x kind → Q x s' t) : k.Enters s (newExit kind) t Q :=
  .of_leads (.newExit kind) (leads_newExit (k := { k with cur := s.current }) rfl |>.weaken
    fun _ _ h => h.2.1) fun _ hcur => (leads_newExit hcur).mono
      (fun x s' ⟨hoffset, _, hx⟩ => ⟨t, .of_offset hoffset, hQ x s' hx⟩) (fun _ => False.elim)
      fun _ _ _ => trivial

lemma jccExit {kind : ExitKind} {j : Nat} {Q : Unit → State → Moment → Prop} (hk : k.Sound)
    (hx : k.HasExit s j kind)
    (hQ : ∀ s', Q () s' ⟨if c.holds r.flags r.order then .exit kind else .next, r, mem⟩) :
    k.Enters s (jccExit c j) ⟨.next, r, mem⟩ Q := by
  intro hcur ha
  obtain ⟨ps, hm, -⟩ := ha.coded
  have hjcc : Leads k.env s (Lowering.jccExit c j) (fun _ s' => s'.current = s.current ∧
      k.Reaches s ⟨.next, r, mem⟩ s'
        ⟨if c.holds r.flags r.order then .exit kind else .next, r, mem⟩) (fun _ => False)
      fun _ _ => True := leads_jccExit hk ⟨ps, hm⟩ hx
  refine ((Extending.jccExit c j s ha (List.forall_mem_nil _)).and hjcc).mono ?_ (fun _ h => h.2)
    fun _ _ _ => trivial
  exact fun _ s' ⟨hp, hc, hreach⟩ => ⟨hc.trans hcur, hp, _, hreach, hQ s'⟩

lemma guard {Q : Unit → State → Moment → Prop} (hk : k.Sound)
    (hQ : ∀ s', Q () s' ⟨if c.holds r.flags r.order then .exit .argumentTypeCheck else .next, r, mem⟩) :
    k.Enters s (guard' .argumentTypeCheck c) ⟨.next, r, mem⟩ Q := by
  exact .bind (.bind (.newExit fun x s₁ hx => .bind (.jccExit hk hx fun s₂ => .pure (.pure (hQ s₂)))))

/-- A machine that has left is not concerned by the code that comes. -/
lemma away (h : k.Enters s y t Q₁) (ht : t'.spot ≠ .next) (hQ : ∀ a s', Q₂ a s' t') :
    k.Enters s y t' Q₂ := fun hc ha => (h hc ha).weaken fun a s' ⟨hc', hp, _⟩ =>
  ⟨hc', hp, t', .of_away ht, hQ a s'⟩

lemma forIn {xs : List β} {f : β → PUnit → Lower (ForInStep PUnit)} (I : List β → Moment → Prop)
    (h : I xs t) (hf : ∀ x rest s t, I (x :: rest) t →
      k.Enters s (f x ⟨⟩) t fun a _ t' => a = .yield ⟨⟩ ∧ I rest t') :
    k.Enters s (forIn xs PUnit.unit f) t fun _ _ t' => I [] t' := by
  induction xs generalizing s t with
  | nil =>
    have hend : k.Enters s (Pure.pure PUnit.unit) t fun _ _ t' => I [] t' := .pure h
    simpa using hend
  | cons x xs ih =>
    rw [List.forIn_cons]
    refine .bind ((hf x xs s t h).mono ?_)
    rintro _ s' t' ⟨rfl, h'⟩
    exact ih h'

/-- An argument is let by exactly where its format says so. -/
lemma checkArgument {x : Variable} (hk : k.Sound) (hn : r.gpr .numberTag = Value.numberTag)
    (hm : r.gpr .tagMask = Value.cellMask)
    (hread : mem.read? 8 (r.address (FrameLayout.address x.operand)) = some v.bits.toNat)
    (hne : v ≠ .empty) : k.Enters s (checkArgument x) ⟨.next, r, mem⟩ fun _ _ t =>
      t.memory = mem ∧ r.Spared t.registers ∧
        t.spot = if x.format.admits v then .next else .exit .argumentTypeCheck := by
  have hload : ∀ {y : Lower Unit} {Q : Unit → State → Moment → Prop},
      (∀ s', k.Enters s' y ⟨.next, r.setGpr .scratch v.bits, mem⟩ Q) → k.Enters s (do
        load64 .scratch (FrameLayout.address x.operand)
        y) ⟨.next, r, mem⟩ Q := fun hy =>
    .bind (.emit' hk rfl (Inst.steps_load hread) fun s' => by
      rw [UInt64.ofNat_toNat]
      exact hy s')
  -- the exit is taken where the kind is another one, and only the scratch register has changed
  have hguard : ∀ {r' c s}, r.Spared r' → c.holds r'.flags r'.order = (!x.format.admits v) →
      k.Enters s (guard' .argumentTypeCheck c) ⟨.next, r', mem⟩ fun _ _ t => t.memory = mem ∧
        r.Spared t.registers ∧ t.spot = if x.format.admits v then .next else .exit .argumentTypeCheck := by
    refine fun hr hc => .guard hk fun s' => ⟨rfl, hr, ?_⟩
    rw [hc]
    cases x.format.admits v <;> rfl
  have hscratch : (r.setGpr .scratch v.bits).gpr .scratch = v.bits := by
    rw [Registers.gpr_setGpr, if_pos rfl]
  have hother : ∀ p, p ≠ .scratch → (r.setGpr .scratch v.bits).gpr p = r.gpr p := fun p hp => by
    rw [Registers.gpr_setGpr, if_neg hp]
  have hspared : r.Spared (r.setGpr .scratch v.bits) := (Registers.Spared.refl r).setScratch _
  unfold Lowering.checkArgument
  cases hf : x.format with
  | int32 =>
    rw [hf] at hguard
    refine hload fun s₁ => .bind (.emit' hk rfl Inst.steps_cmp fun s₂ => hguard (hspared.setFlags _) ?_)
    exact Cond.holds_b_sub_tag ((hother _ (by decide)).trans hn) hscratch
  | boolean =>
    rw [hf] at hguard
    refine hload fun s₁ => .bind (.emit' hk rfl Inst.steps_alu fun s₂ =>
      .bind (.emit' hk rfl Inst.steps_test fun s₃ =>
        hguard (((hspared.setFlags _).setScratch _).setFlags _) (Cond.holds_ne_and_high ?_)))
    rw [Registers.gpr_xor_false, hscratch]
  | cell =>
    rw [hf] at hguard
    refine hload fun s₁ => .bind (.emit' hk rfl Inst.steps_test fun s₂ => hguard (hspared.setFlags _) ?_)
    exact Cond.holds_ne_and_mask ((hother _ (by decide)).trans hm) hscratch hne
  | value => exact .pure ⟨rfl, .refl r, rfl⟩
  | double => exact .pure ⟨rfl, .refl r, rfl⟩

lemma variableOf {u : VarId} {Q : Variable → State → Moment → Prop}
    (hQ : ∀ x, k.env.graph.vars[u]? = some x → Q x s t) : k.Enters s (variableOf u) t Q := by
  refine .of_leads (.variableOf u) ?_ fun _ _ => ?_
  all_goals
    unfold Lowering.variableOf
    rw [leads_bind, leads_read, leads_assume]
    refine ⟨fun x hx => ?_, fun _ _ => trivial⟩
  · rfl
  · unfold Breach.get at hx
    split at hx
    · cases hx
      exact ⟨t, .of_offset rfl, hQ x ‹_›⟩
    · cases hx

end Enters

/-- Every argument is in its slot, and none is the empty value. -/
def Passes (k : Course) (r : Registers) (mem : Memory) (arg : VarId → Value) : Prop :=
  ∀ u ∈ k.env.graph.arguments, ∀ x, k.env.graph.vars[u]? = some x →
    mem.read? 8 (r.address (FrameLayout.address x.operand)) = some (arg u).bits.toNat ∧ arg u ≠ .empty

/-- The machine gets by the checks of the entry if all arguments have their kinds, and otherwise leaves
through an exit of the first node. -/
lemma leads_checkArguments (hk : k.Sound) (hn : r.gpr .numberTag = Value.numberTag)
    (hm : r.gpr .tagMask = Value.cellMask) {arg : VarId → Value} (harg : k.Passes r mem arg)
    (hfirst : (k.env.graph.blocks[0]?.bind fun b => b.nodes[0]?) = some k.cur) (ha : Aimed k.env s) :
    Leads k.env s checkArguments (fun _ s' => Proceeds k.env s s' ∧ ∃ t',
        k.Reaches s ⟨.next, r, mem⟩ s' t' ∧
          t'.spot = if k.env.graph.admits arg then .next else .exit .argumentTypeCheck)
      (fun _ => False) fun _ _ => True := by
  let ok : VarId → Bool := fun u => (k.env.graph.vars[u]?).all fun x => x.format.admits (arg u)
  have hall : k.env.graph.admits arg = k.env.graph.arguments.toList.all ok :=
    (Array.all_toList ..).symm
  -- as long as the machine is there, what is left of the list decides
  let I : List VarId → Moment → Prop := fun rest t => (∀ u ∈ rest, u ∈ k.env.graph.arguments) ∧
    (t.memory = mem ∧ r.Spared t.registers ∧ t.spot = .next ∧ k.env.graph.admits arg = rest.all ok ∨
      t.spot = .exit .argumentTypeCheck ∧ k.env.graph.admits arg = false)
  have hstep : ∀ u rest s t, I (u :: rest) t → k.Enters s (do
      let x ← Lowering.variableOf u
      Lowering.checkArgument x
      return ForInStep.yield PUnit.unit) t fun a _ t' => a = .yield ⟨⟩ ∧ I rest t' := by
    rintro u rest s t ⟨hmem, ht⟩
    obtain ⟨hu, hrest⟩ := List.forall_mem_cons.mp hmem
    refine .bind (.variableOf fun x hx => ?_)
    obtain ⟨hread, hne⟩ := harg u hu x hx
    have hok : ok u = x.format.admits (arg u) := by
      show (k.env.graph.vars[u]?).all _ = _
      rw [hx]
      rfl
    rcases ht with ⟨rfl, hr, hspot, hrem⟩ | ⟨hspot, hno⟩
    · obtain ⟨σ, r', mem⟩ := t
      obtain rfl : σ = .next := hspot
      have haddr : r'.address (FrameLayout.address x.operand) =
          r.address (FrameLayout.address x.operand) := by
        show r'.gpr .frame + _ = r.gpr .frame + _
        rw [hr.gpr (by decide)]
      refine .bind (.mono (.checkArgument (r := r') hk ((hr.gpr (by decide)).trans hn)
        ((hr.gpr (by decide)).trans hm) (haddr ▸ hread) hne) ?_)
      rintro _ s' t' ⟨hmem', hr', hspot'⟩
      refine .pure ⟨rfl, hrest, ?_⟩
      rw [List.all_cons, hok] at hrem
      cases hx : x.format.admits (arg u) <;> rw [hx] at hspot' hrem
      · exact .inr ⟨hspot', hrem⟩
      · exact .inl ⟨hmem', hr.trans hr', hspot', hrem⟩
    · refine .bind (.away (.checkArgument hk hn hm hread hne) (by rw [hspot]; nofun) fun _ s' =>
        .pure ⟨rfl, hrest, .inr ⟨hspot, hno⟩⟩)
  have hevents : ∀ s t, k.Enters s (do
      for u in k.env.graph.arguments.toList do
        let x ← Lowering.variableOf u
        unless x.format = .value do event (.setLocal x.operand (.ofFlush x.format))) t
        fun _ _ t' => t' = t := by
    intro s t
    refine .bind (.mono (.forIn (fun _ t' => t' = t) rfl ?_) fun _ _ _ h => .pure h)
    rintro u rest s t rfl
    refine .bind (.variableOf fun x _ => ?_)
    split
    · exact .pure ⟨rfl, rfl⟩
    · exact .bind (.of_leads (.event _) rfl fun _ _ => ⟨t, .of_offset rfl, .pure ⟨rfl, rfl⟩⟩)
  have hentered : k.Enters { s with current := k.cur } (do
      for u in k.env.graph.arguments.toList do
        Lowering.checkArgument (← Lowering.variableOf u)
      for u in k.env.graph.arguments.toList do
        let x ← Lowering.variableOf u
        unless x.format = .value do event (.setLocal x.operand (.ofFlush x.format)))
      ⟨.next, r, mem⟩ fun _ _ t' => I [] t' := by
    refine .bind (.mono (.forIn I ⟨fun u hu => Array.mem_toList_iff.mp hu, .inl ⟨rfl, .refl r, rfl, hall⟩⟩ hstep) ?_)
    exact fun _ s' t' hI => (hevents s' t').mono fun _ _ _ h => h ▸ hI
  have hunseen : Unseen s { s with current := k.cur } := rfl
  have hsame : k.Reaches s ⟨.next, r, mem⟩ { s with current := k.cur } ⟨.next, r, mem⟩ :=
    .of_offset rfl
  rw [checkArguments, leads_bind, leads_graph]
  simp only [hfirst]
  rw [leads_bind, leads_modify]
  refine (hentered rfl (hunseen.proceeds.aimed ha)).weaken ?_
  rintro _ s' ⟨-, hp, t', hr, -, hI⟩
  refine ⟨hunseen.proceeds.trans hp, t', hsame.trans hr hp, ?_⟩
  rcases hI with ⟨-, -, hspot, hyes⟩ | ⟨hspot, hno⟩
  · rw [hspot, hyes]
    rfl
  · rw [hspot, hno]
    rfl

/-- Guards, boxes and what is unboxed are as the encoding of values has them. -/
structure Encodes (k : Course) : Prop where
  /-- Integers. -/
  int32 {ls : List Label} {s : State} {r : Registers} {mem : Memory} {e : Edge} {v : Value}
    (h : Equipped s.ledger r mem) (hhas : k.Has s r mem e.node .js v.bits)
    (hw : Warranted s.facts e .int32 (e.kind = .knownInt32) v.isInt32) :
    k.Admits ls s r mem (fillInt e) v.isInt32 fun op r' => v.int32? = some (low (r'.gpr op.reg))
  /-- Numbers. What comes of a boxed double is the double. -/
  number {ls : List Label} {s : State} {r : Registers} {mem : Memory} {e : Edge} {v : Value}
    (h : Equipped s.ledger r mem) (hhas : k.Has s r mem e.node .js v.bits)
    (hw : Warranted s.facts e .number False v.isNumber) :
    k.Admits ls s r mem (fillDouble e) v.isNumber fun f r' =>
      v.number? = some (r'.fpr f) ∧ (v.isDouble = true → v.double? = some (r'.fpr f))
  /-- Cells. -/
  cell {ls : List Label} {s : State} {r : Registers} {mem : Memory} {e : Edge} {v : Value}
    (h : Equipped s.ledger r mem) (hhas : k.Has s r mem e.node .js v.bits) (hne : v ≠ .empty)
    (hw : Warranted s.facts e .cell (e.kind = .knownCell) v.isCell) :
    k.Admits ls s r mem (fillCell e) v.isCell fun op r' => v.cell? = some (r'.gpr op.reg)
  /-- Booleans, whether or not someone else holds the register. -/
  boolean {ls : List Label} {s : State} {r : Registers} {mem : Memory} {e : Edge} {v : Value}
    (h : Equipped s.ledger r mem) (hhas : k.Has s r mem e.node .js v.bits)
    (hw : Warranted s.facts e .boolean False v.isBoolean) :
    k.Admits ls s r mem (fillBoolean e) v.isBoolean fun op r' =>
      v.boolean? = some (r'.gpr op.reg &&& 1 != 0)
  /-- The arguments on entry. -/
  entry {s : State} {r : Registers} {mem : Memory} {arg : VarId → Value}
    (hn : r.gpr .numberTag = Value.numberTag) (hm : r.gpr .tagMask = Value.cellMask)
    (harg : k.Passes r mem arg)
    (hfirst : (k.env.graph.blocks[0]?.bind fun b => b.nodes[0]?) = some k.cur)
    (ha : Aimed k.env s) : Leads k.env s checkArguments (fun _ s' => Proceeds k.env s s' ∧
      ∃ t', k.Reaches s ⟨.next, r, mem⟩ s' t' ∧
        t'.spot = if k.env.graph.admits arg then .next else .exit .argumentTypeCheck)
      (fun _ => False) fun _ _ => True
  /-- Boxes of raw words. -/
  boxing {ls : List Label} {s : State} {r : Registers} {mem : Memory} {e : Edge}
    {format : DataFormat} {w : UInt64} {v : Value} (h : Equipped s.ledger r mem)
    (hhas : k.Has s r mem e.node format w) (hb : Boxing format w v) :
    k.Delivers ls s r mem (fillValue e) v
  /-- What is known to be a boxed double. -/
  unboxing {ls : List Label} {s : State} {r : Registers} {mem : Memory} {e : Edge} {v : Value}
    (h : Equipped s.ledger r mem) (hhas : k.Has s r mem e.node .jsDouble v.bits)
    (hv : v.isDouble = true) (hmay : (s.facts.known e.node).intersects .number = true) :
    k.Admits ls s r mem (fillDouble e) true fun f r' => v.double? = some (r'.fpr f)

end Course

/-- Combine the bits of two arguments, the second of which is an integer. -/
def Draft.taking : Draft :=
  let d : Draft := { name := "taking", kind := .function }
  let d := ((d.addArgument .top .value).2.addArgument .int32 .int32).2.addBlock.select 0
  let d := (d.addNode (.getLocal 0) [] .top).2
  let d := (d.addNode (.getLocal 1) [] .top).2
  let d := (d.addNode (.bit .or) [0, 1] .top).2
  (d.addNode .ret [2] .top).2

namespace Plan

variable {p : Plan} {base : UInt64} {a : Artifact} {frame : FrameLayout} {layout : Layout}
  {final : State} {c : Site} {val : NodeId → Value} {cur : NodeId} {before : List NodeId}

/-- **Guards are exact.** In compiled code, and for every word but the empty value, a guard of a fill or
of the entry lets exactly the values of its kind by, and everything else leaves. Boxes of raw words are
those of the encoding, for every pattern of a double, and a boxed double is unboxed as the encoding has
it. -/
theorem guards_exact (h : (p.compile base).outcome = .ok a) (hc : c.Loaded) (ha : c.artifact = a)
    (hf : p.lower = .ok (frame, layout, final)) :
    (⟨p.env frame, c, final, val, cur, before⟩ : Course).Encodes := by
  subst ha
  obtain ⟨frame', layout', s', code, hs', hcode, hart, -⟩ := build_ok h
  rw [hf] at hs'
  cases hs'
  obtain ⟨rfl, -, -, rfl, -⟩ := artifact_ok hart
  have hk : (⟨p.env frame, c, final, val, cur, before⟩ : Course).Sound := ⟨hc, hcode⟩
  exact {
    int32 := .fillInt hk
    number := fun h hhas hw => (Course.Admits.fillDouble hk h hhas hw).imp fun f r' hz =>
      ⟨hz, fun hd => (Value.double?_eq_number? hd).trans hz⟩
    cell := .fillCell hk
    boolean := .fillBoolean hk
    entry := fun hn hm harg => Course.leads_checkArguments hk hn hm harg
    boxing := .fillValue hk
    unboxing := .fillDouble_jsDouble hk }

def passing (x y : Value) : Memory :=
  ((Memory.new.write 8 0x6ff80028 x.bits.toNat).2.write 8 0x6ff80030 y.bits.toNat).2

def EntersWith (k : Course) (s : State) (x y : Value) (σ : Spot) : Prop :=
  Leads k.env s checkArguments
    (fun _ s' => ∃ t', k.Reaches s ⟨.next, onStack, passing x y⟩ s' t' ∧ t'.spot = σ)
    (fun _ => False) fun _ _ => True

lemma passes_passing {k : Course} (hk : k.env.graph = (ofDraft .taking).graph) {x y : Value}
    (hx : x ≠ .empty) (hy : y ≠ .empty) :
    k.Passes onStack (passing x y) fun u => if u = 0 then x else y := by
  have hword (v : Value) : v.bits.toNat % Nat.pow 256 8 = v.bits.toNat :=
    Nat.mod_eq_of_lt v.bits.toNat_lt
  have hfirst : Memory.new.Mapped 0x6ff80028 8 := Memory.mapped_new (by decide) (by decide)
  have hsecond : (Memory.new.write 8 0x6ff80028 x.bits.toNat).2.Mapped 0x6ff80030 8 :=
    (Memory.mapped_new (by decide) (by decide)).write hfirst (by decide)
  have hvars : (ofDraft .taking).graph.arguments = #[0, 1] ∧ ∀ u < 2,
      ((ofDraft .taking).graph.vars[u]?).map (fun x => FrameLayout.address x.operand) =
        some (.ofBase .frame (if u = 0 then 40 else 48)) := by decide +kernel
  intro u hu z hz
  rw [hk] at hu hz
  rw [hvars.1] at hu
  have hlt : u = 0 ∨ u = 1 := by simpa using hu
  have haddr := hvars.2 u (by rcases hlt with rfl | rfl <;> decide)
  rw [hz, Option.map_some, Option.some.injEq] at haddr
  rw [haddr]
  obtain rfl | rfl := hlt
  · refine ⟨?_, hx⟩
    show (passing x y).read? 8 0x6ff80028 = some x.bits.toNat
    rw [passing, Memory.read?_write_of_apart hsecond (by decide) (by decide) (.inr (by decide)),
      Memory.read?_write_self hfirst (by decide), hword]
  · refine ⟨?_, hy⟩
    show (passing x y).read? 8 0x6ff80030 = some y.bits.toNat
    rw [passing, Memory.read?_write_self hsecond (by decide), hword]

/-- An integer with bits that no integer of the language has gets by, in a fill and on entry, and what
is next below all integers does not. The bits of two arguments are a raw integer, which is boxed before
it is returned. -/
theorem guards_exact_stray : ∃ k : Course, k.site.Loaded ∧
    ((ofDraft .taking).compile 0x7e0000000000).outcome = .ok k.site.artifact ∧
    k.Admits [] ((ofDraft .taking).stateAt ⟨3, 28⟩ 0 1) (onStack.setGpr .first 0xffff800000000007) .new
      (fillInt ⟨0, .untyped⟩) true (fun op r' => low (r'.gpr op.reg) = 7) ∧
    k.Admits [] ((ofDraft .taking).stateAt ⟨3, 28⟩ 0 1) (onStack.setGpr .first 0xfffeffffffffffff) .new
      (fillInt ⟨0, .untyped⟩) false (fun _ _ => False) ∧
    EntersWith k (ofDraft .taking).start .undefined ⟨0xffff800000000007⟩ .next ∧
    EntersWith k (ofDraft .taking).start .undefined ⟨0xfffeffffffffffff⟩ (.exit .argumentTypeCheck) ∧
    k.Delivers [] ((ofDraft .taking).stateAt ⟨3, 28⟩ 0 3) (onStack.setGpr .first 7) .new
      (fillValue ⟨2, .untyped⟩) (.ofInt32 7) := by
  obtain ⟨_, c, hcompile, hc, rfl, -⟩ := exists_loaded (ofDraft .taking) 0x7e0000000000
    (by decide +kernel) (by decide)
  obtain ⟨frame, layout, final, code, hf, -⟩ := build_ok hcompile
  have ht : (ofDraft .taking).TakesUp ⟨3, 28⟩ 0 1 1 _ _ := takesUp_of_isOk (by decide +kernel)
    (by decide +kernel) (by decide +kernel) (by decide +kernel) (by decide +kernel) (by decide +kernel)
  obtain rfl := Except.ok.inj ((outcome_of_lower hf).1.symm.trans ht.framed)
  have hexact : (⟨(ofDraft .taking).env ⟨3, 28⟩, c, final, fun _ => .empty, 0, []⟩ : Course).Encodes :=
    guards_exact hcompile hc rfl hf
  have hsize : ∀ j ∈ [1, 3], ((ofDraft .taking).stateAt ⟨3, 28⟩ 0 j).ledger.size = 3 := by
    decide +kernel
  have hequipped : ∀ j ∈ [1, 3], ∀ w, Equipped ((ofDraft .taking).stateAt ⟨3, 28⟩ 0 j).ledger
      (onStack.setGpr .first w) .new := fun j hj w =>
    Equipped.setGpr ⟨by decide +kernel, by decide +kernel, by rw [hsize j hj]; decide,
      fun hi => mapped_onStack (by rw [hsize j hj] at hi; omega)⟩ (by decide) w
  -- the first argument and the integer that is returned are in the first register
  have hhas : ∀ j n format, (j, n, format) ∈ [(1, 0, DataFormat.js), (3, 2, .int32)] → ∀ w,
      Course.Has ⟨(ofDraft .taking).env ⟨3, 28⟩, c, final, fun _ => .empty, 0, []⟩
        ((ofDraft .taking).stateAt ⟨3, 28⟩ 0 j) (onStack.setGpr .first w) .new n format w := by
    have hall : ∀ p ∈ [(1, 0, DataFormat.js), (3, 2, .int32)],
        (((ofDraft .taking).stateAt ⟨3, 28⟩ 0 p.1).ledger[p.2.1]?).map (fun x =>
          (x.node, x.isConstant, x.location, x.registerFormat)) =
            some (some p.2.1, false, .gpr .first, p.2.2) ∧
        ((ofDraft .taking).graph.nodes[p.2.1]?).map (fun d => (d.slot, d.op.isConstant)) =
          some (some (.ofLocal p.2.1), false) ∧ (Slot.ofLocal p.2.1).local? = some p.2.1 := by
      decide +kernel
    intro j n format hmem w
    obtain ⟨hentry, hnode, hlocal⟩ := hall _ hmem
    obtain ⟨x, hx, hfields⟩ := Option.map_eq_some_iff.mp hentry
    obtain ⟨d, hd, hdfields⟩ := Option.map_eq_some_iff.mp hnode
    simp only [Prod.mk.injEq] at hfields hdfields
    refine .gpr ⟨hd, hdfields.1, hlocal, hx, hfields.1, hfields.2.1, hdfields.2⟩ hfields.2.2.1
      hfields.2.2.2 ?_
    rw [Registers.gpr_setGpr, if_pos rfl]
  have hwarranted : ∀ v : Value, Course.Warranted ((ofDraft .taking).stateAt ⟨3, 28⟩ 0 1).facts
      ⟨0, .untyped⟩ .int32 (UseKind.untyped = .knownInt32) v.isInt32 := by
    have hfacts : (((ofDraft .taking).stateAt ⟨3, 28⟩ 0 1).facts.known 0).subset .int32 = false ∧
        (((ofDraft .taking).stateAt ⟨3, 28⟩ 0 1).facts.known 0).intersects .int32 = true := by
      decide +kernel
    exact fun v => ⟨fun h => h.elim nofun fun h => absurd (hfacts.1.symm.trans h) nofun, fun _ => hfacts.2⟩
  have hhead : ((ofDraft .taking).graph.blocks[0]?.bind fun b => b.nodes[0]?) = some 0 := by
    decide +kernel
  have henters : ∀ y : Value, y ≠ .empty → EntersWith
      ⟨(ofDraft .taking).env ⟨3, 28⟩, c, final, fun _ => .empty, 0, []⟩ (ofDraft .taking).start
      .undefined y (if (ofDraft .taking).graph.admits (fun u => if u = 0 then .undefined else y)
        then .next else .exit .argumentTypeCheck) := fun y hy =>
    (hexact.entry (by decide +kernel) (by decide +kernel) (passes_passing rfl (by decide) hy)
      hhead (aimed_start _ _)).weaken fun _ _ ⟨_, t', hr, hspot⟩ => ⟨t', hr, hspot⟩
  refine ⟨⟨(ofDraft .taking).env ⟨3, 28⟩, c, final, fun _ => .empty, 0, []⟩, hc, hcompile, ?_, ?_,
    ?_, ?_, ?_⟩
  · refine (hexact.int32 (v := ⟨0xffff800000000007⟩) (hequipped 1 (by decide) _)
      (hhas 1 0 .js (by decide) _) (hwarranted _)).imp fun op r' h => ?_
    exact (Option.some.inj h).symm
  · refine (hexact.int32 (v := ⟨0xfffeffffffffffff⟩) (hequipped 1 (by decide) _)
      (hhas 1 0 .js (by decide) _) (hwarranted _)).imp fun op r' h => ?_
    cases h
  · have h := henters ⟨0xffff800000000007⟩ (by decide)
    rwa [if_pos (by decide +kernel)] at h
  · have h := henters ⟨0xfffeffffffffffff⟩ (by decide)
    rwa [if_neg (by decide +kernel)] at h
  · exact hexact.boxing (hequipped 3 (by decide) _) (hhas 3 2 .int32 (by decide) _) (.int32 7)

end Plan
end Speculation
