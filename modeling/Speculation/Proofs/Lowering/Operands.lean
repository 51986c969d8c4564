import Speculation.Proofs.Lowering.Values

/-!
Filling operands.

However an operand is brought into a register, by a load, from a constant, in place, by a copy or by
a conversion, what comes out is the same to the banks: a register that is locked and that is
bound to the operand or to nothing. That is `Filled`, and every fill has it as its specification.
-/

namespace Speculation
namespace Lowering

variable {α β : Type} {env : Env} {g : Graph} {s s' s'' : State} {cur n : NodeId}
  {before pending : List NodeId} {T : State → Prop} {l : Location} {r : Gpr} {f : Fpr}
  {d : Node} {o : Slot} {i : Nat} {x : ValueInfo} {e : Edge} {format : DataFormat}

lemma present_of_locked {R : Type} [RegisterClass R] {b : Bank R} {q : R} (h : 0 < b.locksOf q) :
    (b.entryAt q).isSome := by
  unfold Bank.locksOf at h
  rcases he : b.entryAt q with _ | e
  · simp [he] at h
  · rfl

/-! ### Moving a value into a register -/

lemma leads_bindGpr (h : Coherent env.graph cur before [] s) (he : Entry env.graph s n d i x)
    (hx : x.location = .none) (hr : s.Taken (.gpr r)) :
    Leads env s (bindGpr n r format)
      (fun _ s' => Coherent env.graph cur before [] s' ∧ s'.locks = s.locks ∧
        ∀ q, s'.owner q = if q = .gpr r then some (.ofLocal i) else s.owner q)
      T (Fault env.graph) := by
  rw [bindGpr, leads_bind, leads_slotOf he.node he.slot, leads_bind,
    leads_info he.node he.slot he.index he.entry, leads_bind, leads_assume]
  refine ⟨fun y hy => ?_, fun _ _ => ⟨noDisagreement_breach _, h.sighted⟩⟩
  unfold ValueInfo.fillGpr at hy
  split at hy
  · rename_i hf
    cases hy
    have hown : ∀ k q, ({ s with gprs := s.gprs.retain r (.ofLocal i) k } : State).owner q =
        if q = .gpr r then some (.ofLocal i) else s.owner q := by
      intro k q
      cases q <;> simp [State.owner, Bank.owner_retain (present_of_locked hr.1)]
    rw [leads_bind, leads_setInfo he.node he.slot he.index he.entry]
    have hlocks : ∀ k q, ({ s with gprs := s.gprs.retain r (.ofLocal i) k } : State).locks q =
        s.locks q := by
      intro k q
      cases q <;> simp [State.locks]
    exact ⟨h.enter he ⟨rfl, rfl, rfl, rfl, rfl, rfl, rfl⟩ h.gprs.retain h.fprs
      (h.guarded.congr (hlocks _) rfl) rfl rfl rfl rfl rfl rfl rfl (by simp) (.of_gprFormat hf) hx hr.2
      (hown _), funext (hlocks _), hown _⟩
  · cases hy

lemma leads_bindFpr (h : Coherent env.graph cur before [] s) (he : Entry env.graph s n d i x)
    (hx : x.location = .none) (hf : s.Taken (.fpr f)) :
    Leads env s (bindFpr n f)
      (fun _ s' => Coherent env.graph cur before [] s' ∧ s'.locks = s.locks ∧
        ∀ q, s'.owner q = if q = .fpr f then some (.ofLocal i) else s.owner q)
      T (Fault env.graph) := by
  have hown : ∀ k q, ({ s with fprs := s.fprs.retain f (.ofLocal i) k } : State).owner q =
      if q = .fpr f then some (.ofLocal i) else s.owner q := by
    intro k q
    cases q <;> simp [State.owner, Bank.owner_retain (present_of_locked hf.1)]
  rw [bindFpr, leads_bind, leads_slotOf he.node he.slot, leads_bind,
    leads_info he.node he.slot he.index he.entry, leads_bind,
    leads_setInfo he.node he.slot he.index he.entry]
  have hlocks : ∀ k q, ({ s with fprs := s.fprs.retain f (.ofLocal i) k } : State).locks q =
      s.locks q := by
    intro k q
    cases q <;> simp [State.locks]
  exact ⟨h.enter he ⟨rfl, rfl, rfl, rfl, rfl, rfl, rfl⟩ h.gprs h.fprs.retain
    (h.guarded.congr (hlocks _) rfl) rfl rfl rfl rfl rfl rfl rfl (by simp) (.fpr f) hx hf.2 (hown _),
    funext (hlocks _), hown _⟩

/-- What a step that changes no lock and no owner leaves as it was. -/
structure Reformatted (s s' : State) : Prop where
  locks : s'.locks = s.locks
  owner : s'.owner = s.owner

lemma Reformatted.onward (h : Reformatted s s') : Onward s s' :=
  ⟨fun l => by rw [h.locks], fun _ => by rw [h.owner]⟩

lemma leads_refine (h : Coherent env.graph cur before [] s) (ho : Owned env.graph s n (.gpr r)) :
    Leads env s (refine n r format)
      (fun _ s' => Coherent env.graph cur before [] s' ∧ Reformatted s s')
      T (Fault env.graph) := by
  obtain ⟨d, i, x, he, hx, -, -⟩ := h.entry_of_owned ho
  rw [refine, leads_bind, leads_info he.node he.slot he.index he.entry, leads_ite]
  refine ⟨fun _ => ⟨h, rfl, rfl⟩, fun _ => ?_⟩
  rw [leads_bind, leads_assume]
  refine ⟨fun y hy => ?_, fun _ _ => ⟨noDisagreement_breach _, h.sighted⟩⟩
  unfold ValueInfo.fillGpr at hy
  split at hy
  · rename_i hf
    cases hy
    have hown : ∀ k q, ({ s with gprs := s.gprs.setOrder r k } : State).owner q = s.owner q := by
      intro k q
      cases q <;> simp [State.owner]
    rw [leads_bind, leads_setInfo he.node he.slot he.index he.entry]
    have hlocks : ∀ k q, ({ s with gprs := s.gprs.setOrder r k } : State).locks q = s.locks q := by
      intro k q
      cases q <;> simp [State.locks]
    exact ⟨h.reformat he ⟨rfl, rfl, rfl, rfl, rfl, rfl, rfl⟩ h.gprs.setOrder h.fprs
      (h.guarded.congr (hlocks _) rfl) rfl rfl rfl rfl rfl rfl rfl (by simp) (.of_gprFormat hf) hx rfl
      (hown _), funext (hlocks _), funext (hown _)⟩
  · cases hy

lemma Handed.filled_of_bound (h : Handed s s' l) (he : Entry g s n d i x)
    (hlocks : s''.locks = s'.locks)
    (hown : ∀ q, s''.owner q = if q = l then some (.ofLocal i) else s'.owner q) :
    Filled g s s'' n l where
  onward := by
    refine ⟨fun q => by rw [hlocks]; exact h.onward.locks q, fun {q} hq => ?_⟩
    have hql : q ≠ l := by
      rintro rfl
      rw [h.free] at hq
      exact absurd hq (Nat.lt_irrefl 0)
    rw [hown, if_neg hql, h.onward.owner hq]
  more := by
    rw [hlocks]
    exact h.more
  owner := .inr ⟨d, _, he.node, he.slot, by rw [hown, if_pos rfl]⟩

lemma leads_fillSpilledGpr (h : Coherent env.graph cur before [] s)
    (he : Entry env.graph s n d i x) (hx : x.location = .none) :
    Leads env s (fillSpilledGpr n format)
      (fun r s' => Coherent env.graph cur before [] s' ∧ Filled env.graph s s' n (.gpr r) ∧
        Owned env.graph s' n (.gpr r))
      T (Fault env.graph) := by
  refine (leads_allocGpr h).then fun r s₁ ⟨h₁, hs₁⟩ => ?_
  refine (Calm.slotOf n).then h₁ (Same.refl s₁) fun o s₂ h₂ hs₂ => ?_
  have hbind : ∀ s₃, Coherent env.graph cur before [] s₃ → Same s₁ s₃ →
      Leads env s₃ (bindGpr n r format >>= fun _ => pure r)
        (fun r s' => Coherent env.graph cur before [] s' ∧ Filled env.graph s s' n (.gpr r) ∧
          Owned env.graph s' n (.gpr r))
        T (Fault env.graph) := by
    intro s₃ h₃ hs₃
    have hh := hs₁.of_same hs₃
    have he₃ : Entry env.graph s₃ n d i x := { he with entry := hh.elsewhere he.entry hx }
    refine (leads_bindGpr h₃ he₃ hx hh.taken).then fun _ s₄ ⟨h₄, hl, ho⟩ => ?_
    exact ⟨h₄, hh.filled_of_bound he hl ho, d, _, he.node, he.slot, by rw [ho, if_pos rfl]⟩
  dsimp only
  split
  · exact (Calm.load _ _ _).then h₂ hs₂ fun _ s₃ h₃ hs₃ => hbind s₃ h₃ hs₃
  · exact (Calm.load _ _ _).then h₂ hs₂ fun _ s₃ h₃ hs₃ => hbind s₃ h₃ hs₃
  · exact (Calm.internal (f := .fillFormat _) nofun).then h₂ hs₂ fun _ s₃ h₃ hs₃ => hbind s₃ h₃ hs₃
  · exact (Calm.internal (f := .fillFormat _) nofun).then h₂ hs₂ fun _ s₃ h₃ hs₃ => hbind s₃ h₃ hs₃
  · exact (Calm.load64 _ _).then h₂ hs₂ fun _ s₃ h₃ hs₃ => hbind s₃ h₃ hs₃

lemma leads_fillSpilledFpr (h : Coherent env.graph cur before [] s)
    (he : Entry env.graph s n d i x) (hx : x.location = .none) :
    Leads env s (fillSpilledFpr n)
      (fun f s' => Coherent env.graph cur before [] s' ∧ Filled env.graph s s' n (.fpr f))
      T (Fault env.graph) := by
  refine (leads_allocFpr h).then fun f s₁ ⟨h₁, hs₁⟩ => ?_
  refine (Calm.slotOf n).then h₁ (Same.refl s₁) fun o s₂ h₂ hs₂ => ?_
  refine (Calm.emit' _).then h₂ hs₂ fun _ s₃ h₃ hs₃ => ?_
  have hh := hs₁.of_same hs₃
  have he₃ : Entry env.graph s₃ n d i x := { he with entry := hh.elsewhere he.entry hx }
  refine (leads_bindFpr h₃ he₃ hx hh.taken).then fun _ s₄ ⟨h₄, hl, ho⟩ => ?_
  exact ⟨h₄, hh.filled_of_bound he hl ho⟩

/-! ### Finding a value -/

def Located (g : Graph) (s : State) (n : NodeId) : Residence → Prop
  | .constant v => g.valueConstant n = .ok (some v)
  | .gpr r _ => Owned g s n (.gpr r)
  | .fpr r => Owned g s n (.fpr r)
  | .spilled _ => ∃ d i x, Entry g s n d i x ∧ x.location = .none

lemma op_of_valueConstant_eq_none (hd : g.nodes[n]? = some d) (hn : g.valueConstant n = .ok none) :
    d.op.isConstant = false := by
  rw [Graph.valueConstant_of_node hd] at hn
  exact Op.value?_eq_none.mp (Except.ok.inj hn)

def Found (g : Graph) (s : State) (n : NodeId) : Residence → Prop
  | .constant v => g.valueConstant n = .ok (some v)
  | .gpr r format => ∃ d i x, Entry g s n d i x ∧ x.location = .gpr r ∧ x.registerFormat = format
  | .fpr r => ∃ d i x, Entry g s n d i x ∧ x.location = .fpr r
  | .spilled format => ∃ d i x, Entry g s n d i x ∧ x.location = .none ∧ x.spillFormat = format ∧
      format ≠ .none

lemma Coherent.owned_of_entry (h : Coherent g cur before [] s) (he : Entry g s n d i x)
    (hx : x.location = l) (hl : l ≠ .none) : Owned g s n l := by
  subst hx
  obtain ⟨-, -, hown | ⟨_, hp, -⟩⟩ := h.agrees.resident he.entry hl
  · exact ⟨d, _, he.node, he.slot, hown⟩
  · cases hp

lemma Found.located {w : Residence} (h : Found g s n w) (hs : Coherent g cur before [] s) :
    Located g s n w := by
  cases w with
  | constant v => exact h
  | gpr r format =>
    obtain ⟨d, i, x, he, hx, -⟩ := h
    exact hs.owned_of_entry he hx nofun
  | fpr r =>
    obtain ⟨d, i, x, he, hx⟩ := h
    exact hs.owned_of_entry he hx nofun
  | spilled format =>
    obtain ⟨d, i, x, he, hx, -⟩ := h
    exact ⟨d, i, x, he, hx⟩

lemma leads_locate_found (h : Coherent env.graph cur before [] s) :
    Leads env s (locate n) (fun w s' => s' = s ∧ Found env.graph s n w) T (Fault env.graph) := by
  rw [locate, leads_bind, graph, leads_bind, leads_read, leads_pure, leads_bind, leads_assume]
  refine ⟨fun v hv => ?_, fun b _ => ⟨noDisagreement_breach b, h.sighted⟩⟩
  split
  · exact ⟨rfl, hv⟩
  · rw [leads_bind]
    refine leads_info_of h.sighted fun d o i x hd ho hi hx => ?_
    rw [leads_ite]
    refine ⟨fun _ => ⟨by simp [NoDisagreement], h.sighted⟩, fun ha => ?_⟩
    obtain ⟨m, hm⟩ := Option.ne_none_iff_exists'.mp (by simpa [ValueInfo.isAlive] using ha)
    obtain ⟨-, e, he, hes, hi', hec⟩ := h.agrees.named hx hm
    have ho' := h.formed.eq_ofLocal hd ho hi
    obtain rfl : m = n := h.formed.slot_inj he hd hes (ho' ▸ ho)
    rw [hd] at he
    cases he
    have hop := op_of_valueConstant_eq_none hd hv
    have hentry : Entry env.graph s m d i x := ⟨hd, hes, hi', hx, hm, hec ▸ hop, hop⟩
    split
    · rename_i q hq
      exact ⟨rfl, d, i, x, hentry, hq, rfl⟩
    · rename_i q hq
      exact ⟨rfl, d, i, x, hentry, hq⟩
    · rename_i hq
      rw [leads_ite]
      refine ⟨fun hs => ⟨rfl, d, i, x, hentry, hq, rfl, ?_⟩,
        fun _ => ⟨by simp [NoDisagreement], h.sighted⟩⟩
      simpa [ValueInfo.isSpilled] using hs

lemma leads_locate (h : Coherent env.graph cur before [] s) :
    Leads env s (locate n) (fun w s' => s' = s ∧ Located env.graph s n w) T (Fault env.graph) :=
  (leads_locate_found h).weaken fun _ _ ⟨hs, hf⟩ => ⟨hs, hf.located h⟩

/-- Nothing more is done for a node whose speculation can never succeed. -/
lemma leads_terminate {kind : ExitKind} {Q : α → State → Prop}
    (h : Coherent env.graph cur before [] s) (hk : kind ≠ .argumentTypeCheck) :
    Leads env s (terminate kind) Q (Coherent env.graph cur before []) (Fault env.graph) := by
  refine (Calm.newExit hk).then h (Same.refl s) fun x s₁ h₁ hs₁ => ?_
  refine Calm.get.then h₁ hs₁ fun _ s₂ h₂ hs₂ => ?_
  refine (Calm.assume _).then h₂ hs₂ fun _ s₃ h₃ hs₃ => ?_
  exact (Calm.jmp _).then h₃ hs₃ fun _ s₄ h₄ _ => h₄

/-- A speculation that may succeed goes on. -/
lemma leads_unless_terminate {kind : ExitKind} {c : Prop} [Decidable c] {x : Lower α}
    {Q : α → State → Prop} (h : Coherent env.graph cur before [] s)
    (hk : kind ≠ .argumentTypeCheck)
    (hx : c → Leads env s x Q (Coherent env.graph cur before []) (Fault env.graph)) :
    Leads env s (if c then x else (terminate kind : Lower Unit) >>= fun _ => x) Q
      (Coherent env.graph cur before []) (Fault env.graph) := by
  rw [leads_ite]
  exact ⟨hx, fun _ => (leads_terminate (Q := fun _ _ => False) h hk).then fun _ _ => False.elim⟩

/-- What is known of an operand may be asked, if there is such a node. -/
lemma leads_mayBe_then {t : TypeSet} {f : Bool → Lower α} {Q : α → State → Prop}
    (h : Coherent env.graph cur before [] s) (hf : ∀ b, Leads env s (f b) Q T (Fault env.graph)) :
    Leads env s (mayBe e t >>= f) Q T (Fault env.graph) :=
  leads_bind.mpr (leads_mayBe.mpr
    ⟨fun _ => hf _, fun _ => ⟨noDisagreement_breach _, h.sighted⟩⟩)

/-! ### Filling in place -/

abbrev InPlace (env : Env) (cur : NodeId) (before : List NodeId) (s : State) (r : Gpr)
    (x : Lower GprOperand) : Prop :=
  Leads env s x (fun op s' => Coherent env.graph cur before [] s' ∧ Onward s s' ∧ op.reg = r)
    (Coherent env.graph cur before []) (Fault env.graph)

lemma inPlace_pure (h : Coherent env.graph cur before [] s) :
    InPlace env cur before s r (pure ⟨r, format⟩) :=
  ⟨h, Onward.refl s, rfl⟩

lemma inPlace_refine (h : Coherent env.graph cur before [] s') (hs : Same s s')
    (ho : Owned env.graph s n (.gpr r)) :
    Leads env s' (refine n r format >>= fun _ => pure (⟨r, format⟩ : GprOperand))
      (fun op s' => Coherent env.graph cur before [] s' ∧ Onward s s' ∧ op.reg = r)
      (Coherent env.graph cur before []) (Fault env.graph) := by
  have ho' : Owned env.graph s' n (.gpr r) := ho.of_owner (by rw [hs.owner])
  refine (leads_refine h ho').then fun _ s'' ⟨h'', hs''⟩ => ?_
  exact ⟨h'', hs.onward.trans hs''.onward, rfl⟩

lemma leads_intFromGpr (h : Coherent env.graph cur before [] s)
    (ho : Owned env.graph s e.node (.gpr r)) :
    InPlace env cur before s r (intFromGpr e r format) := by
  unfold intFromGpr
  split
  · exact inPlace_pure h
  · exact inPlace_pure h
  · refine (Calm.provenIs _ _).then h (Same.refl s) fun p s₁ h₁ hs₁ => ?_
    rw [leads_ite]
    refine ⟨fun _ => inPlace_refine h₁ hs₁ ho, fun _ => ?_⟩
    refine (Calm.cmp64 _ _).then h₁ hs₁ fun _ s₂ h₂ hs₂ => ?_
    exact (Calm.guard' (by decide) _).then h₂ hs₂ fun _ s₃ h₃ hs₃ => inPlace_refine h₃ hs₃ ho
  · exact leads_terminate h (by decide)

lemma leads_cellFromGpr (h : Coherent env.graph cur before [] s)
    (ho : Owned env.graph s e.node (.gpr r)) :
    InPlace env cur before s r (cellFromGpr e r format) := by
  unfold cellFromGpr
  split
  · exact inPlace_pure h
  · exact inPlace_pure h
  · refine (Calm.provenIs _ _).then h (Same.refl s) fun p s₁ h₁ hs₁ => ?_
    rw [leads_ite]
    refine ⟨fun _ => inPlace_refine h₁ hs₁ ho, fun _ => ?_⟩
    refine (Calm.test64 _ _).then h₁ hs₁ fun _ s₂ h₂ hs₂ => ?_
    exact (Calm.guard' (by decide) _).then h₂ hs₂ fun _ s₃ h₃ hs₃ => inPlace_refine h₃ hs₃ ho
  · exact leads_terminate h (by decide)

lemma leads_booleanFromGpr {shared : Bool} (h : Coherent env.graph cur before [] s)
    (ho : Owned env.graph s e.node (.gpr r)) :
    InPlace env cur before s r (booleanFromGpr e r format shared) := by
  unfold booleanFromGpr
  split
  · exact inPlace_pure h
  · exact inPlace_pure h
  · refine (Calm.provenIs _ _).then h (Same.refl s) fun p s₁ h₁ hs₁ => ?_
    rw [leads_ite]
    refine ⟨fun _ => inPlace_refine h₁ hs₁ ho, fun _ => ?_⟩
    rw [leads_ite]
    refine ⟨fun _ => ?_, fun _ => ?_⟩
    · refine (Calm.mov _ _).then h₁ hs₁ fun _ s₂ h₂ hs₂ => ?_
      refine (Calm.alu64 _ _ _).then h₂ hs₂ fun _ s₃ h₃ hs₃ => ?_
      refine (Calm.test64 _ _).then h₃ hs₃ fun _ s₄ h₄ hs₄ => ?_
      exact (Calm.guard' (by decide) _).then h₄ hs₄ fun _ s₅ h₅ hs₅ => inPlace_refine h₅ hs₅ ho
    · refine (Calm.alu64 _ _ _).then h₁ hs₁ fun _ s₂ h₂ hs₂ => ?_
      refine (Calm.test64 _ _).then h₂ hs₂ fun _ s₃ h₃ hs₃ => ?_
      exact (Calm.guardUndo (by decide) _ _).then h₃ hs₃ fun _ s₄ h₄ hs₄ => inPlace_refine h₄ hs₄ ho
  · exact leads_terminate h (by decide)

/-! ### Fills -/

abbrev Fills (env : Env) (cur : NodeId) (before : List NodeId) (s : State) (n : NodeId)
    (x : Lower α) (loc : α → Location) : Prop :=
  Leads env s x
    (fun a s' => Coherent env.graph cur before [] s' ∧ Filled env.graph s s' n (loc a))
    (Coherent env.graph cur before []) (Fault env.graph)

def GprOperand.location (op : GprOperand) : Location := .gpr op.reg

/-- A constant is made in a fresh register. -/
lemma fills_fresh {k : Gpr → Lower β} {a : Gpr → α} {loc : α → Location}
    (h : Coherent env.graph cur before [] s) (hk : ∀ r, Calm (k r)) (ha : ∀ r, loc (a r) = .gpr r) :
    Fills env cur before s n (allocGpr >>= fun r => k r >>= fun _ => pure (a r)) loc := by
  refine (leads_allocGpr h).then fun r s₁ ⟨h₁, hs₁⟩ => ?_
  refine (hk r).then h₁ (Same.refl s₁) fun _ s₂ h₂ hs₂ => ?_
  exact ⟨h₂, ha r ▸ (hs₁.of_same hs₂).filled⟩

abbrev FillsOwn (env : Env) (cur : NodeId) (before : List NodeId) (s : State) (n : NodeId)
    (x : Lower GprOperand) : Prop :=
  Leads env s x
    (fun op s' => Coherent env.graph cur before [] s' ∧ Filled env.graph s s' n op.location ∧
      Owned env.graph s' n op.location)
    (Coherent env.graph cur before []) (Fault env.graph)

lemma FillsOwn.fills {x : Lower GprOperand} (h : FillsOwn env cur before s n x) :
    Fills env cur before s n x GprOperand.location :=
  h.weaken fun _ _ ⟨hc, hf, _⟩ => ⟨hc, hf⟩

/-- A value in a register is locked there, and then filled in place. -/
lemma fills_locked {k : Lower GprOperand} (h : Coherent env.graph cur before [] s)
    (ho : Owned env.graph s n (.gpr r))
    (hk : ∀ s', Coherent env.graph cur before [] s' → Owned env.graph s' n (.gpr r) →
      InPlace env cur before s' r k) :
    FillsOwn env cur before s n (lockGpr r >>= fun _ => k) := by
  refine (leads_lockGpr h).then fun _ s₁ ⟨h₁, hs₁⟩ => ?_
  have ho₁ := ho.of_owner (hs₁.owner _)
  refine (hk s₁ h₁ ho₁).weaken fun op s₂ ⟨h₂, hs₂, hop⟩ => ?_
  have hl : 0 < s₁.locks (.gpr r) := Nat.lt_of_le_of_lt (Nat.zero_le _) hs₁.more
  rw [GprOperand.location, hop]
  exact ⟨h₂, Filled.of_onward ⟨hs₁.onward, hs₁.more, .inr ho₁⟩ hs₂, ho₁.of_owner (hs₂.owner hl)⟩

/-- A value in its slot is loaded, and then filled in place. -/
lemma fills_spilled {k : Gpr → Lower GprOperand} (h : Coherent env.graph cur before [] s)
    (he : Entry env.graph s n d i x) (hx : x.location = .none)
    (hk : ∀ r s', Coherent env.graph cur before [] s' → Owned env.graph s' n (.gpr r) →
      InPlace env cur before s' r (k r)) :
    FillsOwn env cur before s n (fillSpilledGpr n format >>= k) := by
  refine (leads_fillSpilledGpr h he hx).then fun r s₁ ⟨h₁, hs₁, ho₁⟩ => ?_
  refine (hk r s₁ h₁ ho₁).weaken fun op s₂ ⟨h₂, hs₂, hop⟩ => ?_
  have hl : 0 < s₁.locks (.gpr r) := Nat.lt_of_le_of_lt (Nat.zero_le _) hs₁.more
  rw [GprOperand.location, hop]
  exact ⟨h₂, hs₁.of_onward hs₂, ho₁.of_owner (hs₂.owner hl)⟩

/-- What is not raw already is the operand's own register. -/
lemma leads_fillInt_own (h : Coherent env.graph cur before [] s) :
    Leads env s (fillInt e)
      (fun op s' => Coherent env.graph cur before [] s' ∧
        Filled env.graph s s' e.node op.location ∧
          (op.format = .int32 ∨ Owned env.graph s' e.node op.location))
      (Coherent env.graph cur before []) (Fault env.graph) := by
  refine leads_mayBe_then h fun _ => ?_
  refine leads_unless_terminate h (by decide) fun _ => ?_
  refine (leads_locate h).then ?_
  rintro w _ ⟨rfl, hw⟩
  split
  · split
    · refine (leads_allocGpr h).then fun r s₁ ⟨h₁, hs₁⟩ => ?_
      refine (Calm.discard (Calm.movImm _ _)).then h₁ (Same.refl s₁) fun _ s₂ h₂ hs₂ => ?_
      exact ⟨h₂, (hs₁.of_same hs₂).filled, .inl rfl⟩
    · exact leads_terminate h (by decide)
  · exact (fills_locked h hw fun _ h' ho => leads_intFromGpr h' ho).weaken
      fun _ _ ⟨h', hf, ho⟩ => ⟨h', hf, .inr ho⟩
  · exact leads_terminate h (by decide)
  · exact leads_terminate h (by decide)
  · obtain ⟨d, i, x, he, hx⟩ := hw
    exact (fills_spilled h he hx fun _ _ h' ho => leads_intFromGpr h' ho).weaken
      fun _ _ ⟨h', hf, ho⟩ => ⟨h', hf, .inr ho⟩

lemma leads_fillInt (h : Coherent env.graph cur before [] s) :
    Fills env cur before s e.node (fillInt e) GprOperand.location :=
  (leads_fillInt_own h).weaken fun _ _ ⟨h', hf, _⟩ => ⟨h', hf⟩

/-- The operand has been copied to a fresh register, and its own is not held any longer. -/
lemma leads_copied {q : Gpr} (h : Coherent env.graph cur before [] s'')
    (hf : Filled env.graph s s' n (.gpr r)) (hh : Handed s' s'' (.gpr q)) :
    Leads env s'' (unlockGpr r >>= fun _ => pure (⟨q, format⟩ : GprOperand))
      (fun op s' => Coherent env.graph cur before [] s' ∧ Filled env.graph s s' n op.location)
      (Coherent env.graph cur before []) (Fault env.graph) := by
  refine (leads_unlockGpr h).then fun _ s₁ ⟨h₁, hs₁⟩ => ?_
  have hqr : Location.gpr q ≠ .gpr r := by
    rintro heq
    have := hf.more
    rw [← heq, hh.free] at this
    exact Nat.not_lt_zero _ this
  have hfree : s.locks (.gpr q) = 0 := by
    have := hf.onward.locks (.gpr q)
    rw [hh.free] at this
    exact Nat.le_zero.mp this
  refine ⟨h₁, (hf.onward.trans hh.onward).unlock ?_ hs₁, ?_, .inl ?_⟩
  · exact Nat.lt_of_lt_of_le hf.more (hh.onward.locks _)
  · rw [GprOperand.location, hfree, hs₁.locks, if_neg hqr]
    exact hh.taken.1
  · rw [GprOperand.location, hs₁.owner]
    exact hh.taken.2

lemma leads_fillStrictInt (h : Coherent env.graph cur before [] s) :
    Fills env cur before s e.node (fillStrictInt e) GprOperand.location := by
  have hfill : ∀ shared : Bool, Fills env cur before s e.node
      (do let op ← fillInt e
          if op.format = .int32 then return op
          else if shared then
            let t ← allocGpr
            emit' (.zext32 t op.reg)
            unlockGpr op.reg
            return ⟨t, .int32⟩
          else
            emit' (.zext32 op.reg op.reg)
            refine e.node op.reg .int32
            return ⟨op.reg, .int32⟩) GprOperand.location := by
    intro shared
    refine (leads_fillInt_own h).then fun op s₁ ⟨h₁, hf, ho⟩ => ?_
    rw [leads_ite]
    refine ⟨fun _ => ⟨h₁, hf⟩, fun hop => ?_⟩
    replace ho := ho.resolve_left hop
    rw [leads_ite]
    refine ⟨fun _ => ?_, fun _ => ?_⟩
    · refine (leads_allocGpr h₁).then fun t s₂ ⟨h₂, hs₂⟩ => ?_
      refine (Calm.emit' _).then h₂ (Same.refl s₂) fun _ s₃ h₃ hs₃ => ?_
      exact leads_copied h₃ hf (hs₂.of_same hs₃)
    · refine (Calm.emit' _).then h₁ (Same.refl s₁) fun _ s₂ h₂ hs₂ => ?_
      exact (inPlace_refine h₂ hs₂ ho).weaken fun op' s₃ ⟨h₃, hs₃, hop'⟩ =>
        ⟨h₃, by rw [GprOperand.location, hop']; exact hf.of_onward hs₃⟩
  refine (leads_locate h).then ?_
  rintro w _ ⟨rfl, -⟩
  split
  · exact hfill _
  · exact hfill _

/-! Doubles -/

lemma leads_doubleFromGpr (h : Coherent env.graph cur before [] s) :
    Leads env s (doubleFromGpr e r format)
      (fun f s' => Coherent env.graph cur before [] s' ∧ Handed s s' (.fpr f))
      (Coherent env.graph cur before []) (Fault env.graph) := by
  have hconvert : ∀ f s₁, Coherent env.graph cur before [] s₁ → Handed s s₁ (.fpr f) →
      Leads env s₁ (emit' (.cvtIntToD f r) >>= fun _ => pure f)
        (fun f s' => Coherent env.graph cur before [] s' ∧ Handed s s' (.fpr f))
        (Coherent env.graph cur before []) (Fault env.graph) := fun f s₁ h₁ hs₁ =>
    (Calm.emit' _).then h₁ (Same.refl s₁) fun _ s₂ h₂ hs₂ => ⟨h₂, hs₁.of_same hs₂⟩
  unfold doubleFromGpr
  split
  · exact (leads_allocFpr h).then fun f s₁ ⟨h₁, hs₁⟩ => hconvert f s₁ h₁ hs₁
  · exact (leads_allocFpr h).then fun f s₁ ⟨h₁, hs₁⟩ => hconvert f s₁ h₁ hs₁
  · simp only [reduceIte]
    refine (leads_allocFpr h).then fun f s₁ ⟨h₁, hs₁⟩ => ?_
    have hs := Same.refl s₁
    repeat' with_reducible refine CalmIf.then (by simp) ‹_› ‹_› fun _ _ _ _ => ?_
    rw [leads_ite]
    constructor
    all_goals
      intro _
      repeat' with_reducible refine CalmIf.then (by simp) ‹_› ‹_› fun _ _ _ _ => ?_
      exact ⟨‹_›, hs₁.of_same ‹_›⟩
  · simp only [reduceIte, reduceCtorEq]
    refine (leads_allocFpr h).then fun f s₁ ⟨h₁, hs₁⟩ => ?_
    have hs := Same.refl s₁
    repeat' with_reducible refine CalmIf.then (by simp) ‹_› ‹_› fun _ _ _ _ => ?_
    exact ⟨‹_›, hs₁.of_same ‹_›⟩
  · exact leads_terminate h (by decide)

/-- A value in a general purpose register is converted, and its register is not held any longer. -/
lemma leads_converted (h : Coherent env.graph cur before [] s')
    (hf : Filled env.graph s s' n (.gpr r)) :
    Leads env s'
      (do let f ← doubleFromGpr e r format
          unlockGpr r
          return f)
      (fun f s' => Coherent env.graph cur before [] s' ∧ Filled env.graph s s' n (.fpr f))
      (Coherent env.graph cur before []) (Fault env.graph) := by
  refine (leads_doubleFromGpr h).then fun f s₁ ⟨h₁, hs₁⟩ => ?_
  refine (leads_unlockGpr h₁).then fun _ s₂ ⟨h₂, hs₂⟩ => ?_
  have hmore := Nat.lt_of_lt_of_le hf.more (hs₁.onward.locks _)
  have hfree : s.locks (.fpr f) = 0 := by
    have := hf.onward.locks (.fpr f)
    rw [hs₁.free] at this
    exact Nat.le_zero.mp this
  refine ⟨h₂, (hf.onward.trans hs₁.onward).unlock hmore hs₂, ?_, .inl ?_⟩
  · rw [hfree, hs₂.locks, if_neg nofun]
    exact hs₁.taken.1
  · rw [hs₂.owner]
    exact hs₁.taken.2

lemma leads_fillDouble (h : Coherent env.graph cur before [] s) :
    Fills env cur before s e.node (fillDouble e) .fpr := by
  refine leads_mayBe_then h fun _ => ?_
  refine leads_unless_terminate h (by decide) fun _ => ?_
  refine (leads_locate h).then ?_
  rintro w _ ⟨rfl, hw⟩
  split
  · split
    · refine (leads_allocFpr h).then fun f s₁ ⟨h₁, hs₁⟩ => ?_
      refine (Calm.loadDoubleConstant _ _).then h₁ (Same.refl s₁) fun _ s₂ h₂ hs₂ => ?_
      exact ⟨h₂, (hs₁.of_same hs₂).filled⟩
    · exact leads_terminate h (by decide)
  · refine (leads_lockFpr h).then fun _ s₁ ⟨h₁, hs₁⟩ => ?_
    exact ⟨h₁, hs₁.onward, hs₁.more, .inr (Owned.of_owner hw (hs₁.owner _))⟩
  · obtain ⟨d, i, x, he, hx⟩ := hw
    exact leads_fillSpilledFpr h he hx
  · refine (leads_lockGpr h).then fun _ s₁ ⟨h₁, hs₁⟩ => ?_
    exact leads_converted h₁ ⟨hs₁.onward, hs₁.more, .inr (Owned.of_owner hw (hs₁.owner _))⟩
  · obtain ⟨d, i, x, he, hx⟩ := hw
    exact (leads_fillSpilledGpr h he hx).then fun r s₁ ⟨h₁, hs₁, _⟩ => leads_converted h₁ hs₁

/-! Cells and booleans -/

lemma leads_fillCell (h : Coherent env.graph cur before [] s) :
    Fills env cur before s e.node (fillCell e) GprOperand.location := by
  refine leads_mayBe_then h fun _ => ?_
  refine leads_unless_terminate h (by decide) fun _ => ?_
  refine (leads_locate h).then ?_
  rintro w _ ⟨rfl, hw⟩
  split
  · split
    · exact fills_fresh h (fun _ => Calm.discard (Calm.movImm _ _)) fun _ => rfl
    · exact leads_terminate h (by decide)
  · exact (fills_locked h hw fun _ h' ho => leads_cellFromGpr h' ho).fills
  · exact leads_terminate h (by decide)
  · exact leads_terminate h (by decide)
  · obtain ⟨d, i, x, he, hx⟩ := hw
    exact (fills_spilled h he hx fun _ _ h' ho => leads_cellFromGpr h' ho).fills

@[simp] lemma Calm.guardCellType {cell : Gpr} {type : CellType} {want : Bool} {kind : ExitKind}
    (hk : kind ≠ .argumentTypeCheck) : Calm (guardCellType cell type want kind) :=
  bind (load64 _ _) fun _ => bind (load _ _ _) fun _ => bind (cmp32 _ _) fun _ => guard' hk _

/-- A cell is filled and, unless it is known to be, checked to be of a type. -/
lemma leads_fillChecked {k : GprOperand → Lower Unit} {t t' : TypeSet}
    (h : Coherent env.graph cur before [] s) (hk : ∀ op, Calm (k op)) :
    Fills env cur before s e.node
      (do unless ← mayBe e t do terminate .badType
          let c ← fillCell e
          unless ← provenIs e t' do k c
          return c) GprOperand.location := by
  refine leads_mayBe_then h fun _ => ?_
  refine leads_unless_terminate h (by decide) fun _ => ?_
  refine (leads_fillCell h).then fun c s₁ ⟨h₁, hs₁⟩ => ?_
  refine (Calm.provenIs _ _).then h₁ (Same.refl s₁) fun p s₂ h₂ hs₂ => ?_
  rw [leads_ite]
  refine ⟨fun _ => ⟨h₂, hs₁.of_same hs₂⟩, fun _ => ?_⟩
  exact (hk c).then h₂ hs₂ fun _ s₃ h₃ hs₃ => ⟨h₃, hs₁.of_same hs₃⟩

lemma leads_fillObject (h : Coherent env.graph cur before [] s) :
    Fills env cur before s e.node (fillObject e) GprOperand.location :=
  leads_fillChecked h fun _ => Calm.guardCellType (by decide)

lemma leads_fillString (h : Coherent env.graph cur before [] s) :
    Fills env cur before s e.node (fillString e) GprOperand.location :=
  leads_fillChecked h fun _ => Calm.guardCellType (by decide)

lemma leads_fillBoolean (h : Coherent env.graph cur before [] s) :
    Fills env cur before s e.node (fillBoolean e) GprOperand.location := by
  refine leads_mayBe_then h fun _ => ?_
  refine leads_unless_terminate h (by decide) fun _ => ?_
  refine (leads_locate h).then ?_
  rintro w _ ⟨rfl, hw⟩
  split
  · split
    · exact fills_fresh h (fun _ => Calm.discard (Calm.movImm _ _)) fun _ => rfl
    · exact leads_terminate h (by decide)
  · refine leads_bind.mpr ?_
    exact (fills_locked h hw fun _ h' ho => leads_booleanFromGpr h' ho).fills
  · exact leads_terminate h (by decide)
  · exact leads_terminate h (by decide)
  · obtain ⟨d, i, x, he, hx⟩ := hw
    exact (fills_spilled h he hx fun _ _ h' ho => leads_booleanFromGpr h' ho).fills

lemma leads_fillStorage (h : Coherent env.graph cur before [] s) :
    Fills env cur before s e.node (fillStorage e) .gpr := by
  refine (leads_locate h).then ?_
  rintro w _ ⟨rfl, hw⟩
  split
  · refine (leads_lockGpr h).then fun _ s₁ ⟨h₁, hs₁⟩ => ?_
    exact ⟨h₁, hs₁.onward, hs₁.more, .inr (Owned.of_owner hw (hs₁.owner _))⟩
  · obtain ⟨d, i, x, he, hx⟩ := hw
    exact (leads_fillSpilledGpr h he hx).weaken fun _ _ ⟨h', hf, _⟩ => ⟨h', hf⟩
  · exact ⟨nofun, h.sighted⟩

/-! Boxed values -/

section Box

variable (h : Coherent env.graph cur before [] s') (hf : Filled env.graph s s' n (.gpr r))
  (ho : Owned env.graph s' n (.gpr r))
include h hf ho

lemma leads_relabel :
    Leads env s' (refine n r format >>= fun _ => pure (⟨r, format⟩ : GprOperand))
      (fun op s' => Coherent env.graph cur before [] s' ∧ Filled env.graph s s' n op.location)
      (Coherent env.graph cur before []) (Fault env.graph) := by
  refine (inPlace_refine h (Same.refl s') ho).weaken fun op s₁ ⟨h₁, hs₁, hop⟩ => ⟨h₁, ?_⟩
  rw [GprOperand.location, hop]
  exact hf.of_onward hs₁

lemma leads_boxGpr {shared : Bool} {tag : Operand} :
    Leads env s' (boxGpr n r shared tag format)
      (fun op s' => Coherent env.graph cur before [] s' ∧ Filled env.graph s s' n op.location)
      (Coherent env.graph cur before []) (Fault env.graph) := by
  rw [boxGpr, leads_ite]
  refine ⟨fun _ => ?_, fun _ => ?_⟩
  · refine (leads_allocGpr h).then fun t s₁ ⟨h₁, hs₁⟩ => ?_
    refine (Calm.mov _ _).then h₁ (Same.refl s₁) fun _ s₂ h₂ hs₂ => ?_
    refine (Calm.alu64 _ _ _).then h₂ hs₂ fun _ s₃ h₃ hs₃ => ?_
    exact leads_copied h₃ hf (hs₁.of_same hs₃)
  · refine (Calm.alu64 _ _ _).then h (Same.refl s') fun _ s₁ h₁ hs₁ => ?_
    exact leads_relabel h₁ (hf.of_same hs₁) (ho.of_owner (by rw [hs₁.owner]))

end Box

lemma leads_fillValue (h : Coherent env.graph cur before [] s) :
    Fills env cur before s e.node (fillValue e) GprOperand.location := by
  refine (leads_locate h).then ?_
  rintro w _ ⟨rfl, hw⟩
  split
  · exact fills_fresh h (fun _ => Calm.discard (Calm.movImm _ _)) fun _ => rfl
  · refine leads_bind.mpr ?_
    refine (leads_lockGpr h).then fun _ s₁ ⟨h₁, hs₁⟩ => ?_
    have ho := Owned.of_owner hw (hs₁.owner _)
    have hf : Filled env.graph _ s₁ e.node _ := ⟨hs₁.onward, hs₁.more, .inr ho⟩
    split
    · exact ⟨h₁, hf⟩
    · exact ⟨h₁, hf⟩
    · exact ⟨h₁, hf⟩
    · exact ⟨h₁, hf⟩
    · exact ⟨h₁, hf⟩
    · exact leads_relabel h₁ hf ho
    · exact leads_boxGpr h₁ hf ho
    · exact leads_boxGpr h₁ hf ho
    · exact ⟨nofun, h₁.sighted⟩
    · exact ⟨nofun, h₁.sighted⟩
    · exact ⟨nofun, h₁.sighted⟩
  · refine (leads_lockFpr h).then fun _ s₁ ⟨h₁, hs₁⟩ => ?_
    refine (leads_allocGpr h₁).then fun t s₂ ⟨h₂, hs₂⟩ => ?_
    refine (Calm.emit' _).then h₂ (Same.refl s₂) fun _ s₃ h₃ hs₃ => ?_
    refine (Calm.alu64 _ _ _).then h₃ hs₃ fun _ s₄ h₄ hs₄ => ?_
    have hh := hs₂.of_same hs₄
    refine (leads_unlockFpr h₄).then fun _ s₅ ⟨h₅, hs₅⟩ => ?_
    refine ⟨h₅, (hs₁.onward.trans hh.onward).unlock ?_ hs₅, ?_, .inl ?_⟩
    · exact Nat.lt_of_lt_of_le hs₁.more (hh.onward.locks _)
    · have hfree := hh.free
      rw [hs₁.locks, if_neg nofun] at hfree
      rw [GprOperand.location, hfree, hs₅.locks, if_neg nofun]
      exact hh.taken.1
    · rw [GprOperand.location, hs₅.owner]
      exact hh.taken.2
  · refine (leads_allocGpr h).then fun t s₁ ⟨h₁, hs₁⟩ => ?_
    refine (Calm.slotOf _).then h₁ (Same.refl s₁) fun _ s₂ h₂ hs₂ => ?_
    refine (Calm.load64 _ _).then h₂ hs₂ fun _ s₃ h₃ hs₃ => ?_
    refine (Calm.alu64 _ _ _).then h₃ hs₃ fun _ s₄ h₄ hs₄ => ?_
    exact ⟨h₄, (hs₁.of_same hs₄).filled⟩
  · obtain ⟨d, i, x, he, hx⟩ := hw
    refine (leads_fillSpilledGpr h he hx).then fun r s₁ ⟨h₁, hf, ho⟩ => ?_
    split
    · exact leads_boxGpr h₁ hf ho
    · exact leads_boxGpr h₁ hf ho
    · exact leads_relabel h₁ hf ho
    · exact ⟨h₁, hf⟩

end Lowering
end Speculation
