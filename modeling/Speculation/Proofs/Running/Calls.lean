import Speculation.Proofs.Running.Boxed
import Speculation.Proofs.SlowPath.Transparent

/-!
Calls of helpers while code is running.

Before a helper is called on the main path, every value leaves its register for its slot. Then the
arguments are passed as if all at once, and the helper finds in its registers what the operands were
filled with. A slow path saves the registers that values are in and restores them after the call, so
that the values are where they were.
-/

namespace Speculation

open Lowering

lemma Assembler.Stands.next {a : Assembler} {o : Nat} {i : Inst} {t : Option RelocTarget}
    {ps : List Piece} (h : a.Stands o (.inst i t :: ps)) :
    a.Stands o [.inst i t] ∧ a.Stands (o + i.encode.length) ps :=
  let ⟨all, hm, hw⟩ := h
  ⟨⟨all, hm, hw.head⟩, ⟨all, hm, hw.tail⟩⟩

/-! ### Calls from slow paths -/

namespace Lowering

/-- What a slow path does that calls a helper for a word: it saves registers, passes the arguments, takes
the word and restores the registers. -/
structure SlowPath.Serves (p : SlowPath) (f : FrameLayout) (a : ArgumentMoves) (q : Gpr) (x : UInt64)
    (r : Registers) (mem : Memory) (r₁ : Registers) (mem₁ : Memory) (r' : Registers) : Prop where
  saves : Inst.effects (p.kept.map f.save) r mem = some (r, mem₁)
  passes : Inst.effects a.insts r mem₁ = some (r₁, mem₁)
  restores : Inst.effects (p.kept.map f.restore) ((r₁.setGpr .result x).setGpr q x) mem₁ =
    some (r', mem₁)

/-- A slow path has come back with a word. The registers that it keeps are as they were, and memory has
changed at most in the save area. -/
structure SlowPath.Returns (p : SlowPath) (f : FrameLayout) (q : Gpr) (x : UInt64) (r : Registers)
    (mem : Memory) (r' : Registers) (mem' : Memory) : Prop where
  result : r'.gpr q = x
  word {l : Location} (hl : l ∈ p.kept) : r'.word l = r.word l
  pinned {g : Gpr} (hg : g ∉ Gpr.allocatable) (hs : g ≠ .scratch) : r'.gpr g = r.gpr g
  byte {b : UInt64} (hb : f.Unsaved (r.gpr .frame) b) : mem'.byte? b = mem.byte? b
  mapped {b : UInt64} {n : Nat} (hb : mem.Mapped b n) : mem'.Mapped b n

variable {p : SlowPath} {f : FrameLayout} {args : List Argument} {a : ArgumentMoves} {q : Gpr}
  {x : UInt64} {r r' : Registers} {mem mem' : Memory}

/-- Where the save area is there, a slow path comes back. -/
lemma SlowPath.Guards.exists_serves (hg : p.Guards) (hq : p.work.result = some q)
    (ha : assignArguments args Gpr.arguments Fpr.arguments = .ok a)
    (hmap : f.Mapped (r.gpr .frame) mem) (x : UInt64) :
    ∃ r₁ mem₁ r', p.Serves f a q x r mem r₁ mem₁ r' ∧ Passed args r r₁ ∧
      p.Returns f q x r mem r' mem₁ := by
  have hholds : ∀ l ∈ p.kept, l.Holds := fun _ => hg.holds
  obtain ⟨mem₁, hsaves, hkept⟩ := exists_saves hholds hmap
  obtain ⟨-, hout, hsaved⟩ := effects_saves hholds hsaves
  obtain ⟨r₁, hargs, hpassed⟩ := effects_arguments (m := r) mem₁ ha
  obtain ⟨hmem, hfree⟩ := hg.result hq
  obtain ⟨r₂, hr₂⟩ : ∃ r₂, r₂ = (r₁.setGpr .result x).setGpr q x := ⟨_, rfl⟩
  have hsub : ∀ g ∈ Gpr.arguments, g ∈ Gpr.allocatable := by decide
  have hresult : Gpr.result ∈ Gpr.allocatable := by decide
  -- neither the helper nor the passing of arguments changes a register that no value is ever in
  have hpinned : ∀ {g}, g ∉ Gpr.allocatable → g ≠ .scratch → r₂.gpr g = r.gpr g := by
    intro g hg hs
    have hgq : g ≠ q := fun h => hg (h ▸ hmem)
    have hgr : g ≠ .result := fun h => hg (h ▸ hresult)
    rw [hr₂, Registers.gpr_setGpr, if_neg hgq, Registers.gpr_setGpr, if_neg hgr,
      hpassed.gpr (fun h => hg (hsub g (List.mem_of_mem_take h))) hs]
  have hframe : r₂.gpr .frame = r.gpr .frame := hpinned (by decide) (by decide)
  have hmap₂ : f.Mapped (r₂.gpr .frame) mem₁ := fun k hk => hframe ▸ hkept _ _ (hmap k hk)
  obtain ⟨r', hrestores⟩ := exists_restores hholds hmap₂
  obtain ⟨-, hother, hloads⟩ := effects_restores hholds hrestores
  refine ⟨r₁, mem₁, r', ⟨hsaves, hargs, hr₂ ▸ hrestores⟩, hpassed, ?_, fun {l} hl => ?_,
    fun {g} hg hs => ?_, fun hb => ?_, fun hb => hkept _ _ hb⟩
  · have hword : r'.gpr q = r₂.gpr q := hother (.gpr q) hfree
    rw [hword, hr₂, Registers.gpr_setGpr, if_pos rfl]
  · obtain ⟨y, hy, hword⟩ := hloads l hl
    rw [hframe] at hy
    rw [hword, hsaved l hl y hy, UInt64.ofNat_toNat]
  · have hword : r'.gpr g = r₂.gpr g := hother (.gpr g) fun h => hg (hholds _ h)
    exact hword.trans (hpinned hg hs)
  · exact hout _ fun l hl => hb _ (hholds l hl).saveIndex_lt

lemma effects_taking (q : Gpr) (r : Registers) (mem : Memory) :
    Inst.effects (taking (some q)) r mem = some (r.setGpr q (r.gpr .result), mem) := by
  unfold taking
  split
  · rename_i q' hq
    cases hq
    split
    · rename_i hq
      rw [hq, Registers.setGpr_gpr]
      rfl
    · rfl
  · cases ‹some q = none›

end Lowering

/-- A slow path has come back: the values are where they were. -/
lemma Stands.returned {val : NodeId → Value} {g : Graph} {cur : NodeId} {before : List NodeId}
    {s : State} {p : SlowPath} {f : FrameLayout} {q : Gpr} {x : UInt64} {r r' : Registers}
    {mem mem' : Memory} (h : Stands val s.ledger r mem) (hs : Coherent g cur before [] s)
    (hfits : f.Fits g) (hg : p.Guards) (hp : p.ledger = s.ledger)
    (hr : p.Returns f q x r mem r' mem') : Stands val s.ledger r' mem' := by
  have hframe : r'.gpr .frame = r.gpr .frame := hr.pinned (by decide) (by decide)
  refine ⟨(hr.pinned (by decide) (by decide)).trans h.numberTag,
    (hr.pinned (by decide) (by decide)).trans h.tagMask, h.small, fun hi => ?_,
    fun {i y n} hy hn hl => ?_, h.double, fun {i y n} hy hn hf => ?_⟩
  · rw [Registers.slot_eq hframe]
    exact hr.mapped (h.mapped hi)
  · rw [hr.word (hg.bound ⟨hl, i, y, hp ▸ hy, rfl⟩)]
    exact h.register hy hn hl
  · obtain ⟨-, d, hd, hslot, -⟩ := hs.agrees.named hy hn
    have hread : mem'.read? 8 (r.slot i) = mem.read? 8 (r.slot i) := by
      rw [Memory.read?, Memory.read?, Memory.readBytes?_congr fun j hj => hr.byte fun k hk =>
        (hfits.apart hk hd hslot hj).1]
    rw [Registers.slot_eq hframe, hread]
    exact h.slot hy hn hf

/-- Memory has changed at most in the slots of values, and the frame is where it was. -/
structure Since (g : Graph) (r : Registers) (mem : Memory) (r' : Registers) (mem' : Memory) : Prop where
  memory : Confined g r mem mem'
  frame : r'.gpr .frame = r.gpr .frame

namespace Since

variable {g : Graph} {s s' : State} {r r' r'' : Registers} {mem mem' mem'' : Memory}

lemma refl (g : Graph) (r : Registers) (mem : Memory) : Since g r mem r mem := ⟨.refl g r mem, rfl⟩

lemma trans (h : Since g r mem r' mem') (h' : Since g r' mem' r'' mem'') : Since g r mem r'' mem'' :=
  ⟨h.memory.trans h'.memory h.frame, h'.frame.trans h.frame⟩

lemma spared (h : Since g r mem r' mem') (hr : r'.Spared r'') : Since g r mem r'' mem' :=
  ⟨h.memory, (hr.gpr (by decide)).trans h.frame⟩

end Since

lemma Spares.since {g : Graph} {s s' : State} {r r' : Registers} {mem mem' : Memory}
    (h : Spares g s r mem s' r' mem') : Since g r mem r' mem' := ⟨h.memory, h.frame⟩

/-- What is left to lower of an equality with a value that may be no cell, once the flags decide what
becomes of cells. -/
def Lowering.otherEnd (target : CompareTarget) (notCell done : Label) (v : Gpr) : Lower Unit := do
  match target with
  | .branch t f =>
    let lt ← blockLabel t
    let lf ← blockLabel f
    jcc .e lt
    jmp lf
    attach notCell
    guardOther v
    jumpToBlock f
  | .value r =>
    emit' (.setCond .e r)
    jmp done
    attach notCell
    guardOther v
    discard (movImm r 0)
    attach done
    alu64 .or r falseImm
    gprResult r .jsBoolean

lemma Lowering.objectOrOtherEq_eq (a b : Edge) (target : CompareTarget) :
    objectOrOtherEq a b target = (do
      let o ← fillObject a
      let v ← fillValue b
      let notCell ← newLabel
      let done ← newLabel
      test64 v.reg (.reg .tagMask)
      jcc .ne notCell
      guardCellType v.reg .string false .badType
      masqueradeGuard [o.reg, v.reg]
      cmp64 o.reg (.reg v.reg)
      otherEnd target notCell done v.reg) := rfl

lemma Lowering.Extending.otherEnd {env : Env} {ls : List Label} {target : CompareTarget}
    {notCell done : Label} {v : Gpr} (hd : done ∈ ls) : Extending env ls (otherEnd target notCell done v) := by
  cases target with
  | branch t f =>
    exact .bindBlockLabel fun lt => .bindBlockLabel fun lf => .bind (.jcc _ (by simp)) fun _ =>
      .bind (.jmp (by simp)) fun _ => .bind (.attach _) fun _ => .bind (.guardOther _) fun _ =>
        .jumpToBlock _
  | value q =>
    exact .bind (.emit' rfl) fun _ => .bind (.jmp hd) fun _ => .bind (.attach _) fun _ =>
      .bind (.guardOther _) fun _ => .bind (.discard (.movImm _ _)) fun _ => .bind (.attach _) fun _ =>
        .bind (.alu64 _ _ _) fun _ => .gprResult _ _

namespace Course

variable {α β : Type} {k : Course} {ls : List Label} {s s' : State} {r r' : Registers}
  {mem mem' : Memory} {t : Moment} {l : Location} {o : Slot} {is : List Inst} {f : Helper}
  {args : List Argument} {a : ArgumentMoves} {T : State → Moment → Prop}

/-! ### Straight code -/

/-- Instructions that stand in the linked code have their effects, and what comes after them stands
behind them. -/
lemma Sound.goes_plain (hk : k.Sound) {o : Nat} {ps : List Piece}
    (hs : k.final.asm.Stands o (Piece.plain is ++ ps)) (he : Inst.effects is r mem = some (r', mem')) :
    let o' := o + ((Piece.plain is).flatMap Piece.bytes).length
    (∃ n, k.site.Goes n ⟨r, mem, o⟩ ⟨r', mem', o'⟩) ∧ k.final.asm.Stands o' ps := by
  induction is generalizing r mem o with
  | nil =>
    cases he
    exact ⟨⟨0, .refl _⟩, hs⟩
  | cons i is ih =>
    obtain ⟨⟨r₁, mem₁⟩, heff, heffs⟩ := Option.bind_eq_some_iff.mp he
    obtain ⟨hhead, htail⟩ := hs.next
    obtain ⟨⟨n, hgo⟩, hrest⟩ := ih htail heffs
    have hfirst := Inst.steps_of_effect heff k.site ⟨r, mem, o⟩ hk.loaded (hk.next hhead r mem) rfl rfl
    have hlen : o + ((Piece.plain (i :: is)).flatMap Piece.bytes).length =
        o + i.encode.length + ((Piece.plain is).flatMap Piece.bytes).length := by
      show o + (i.encode ++ (Piece.plain is).flatMap Piece.bytes).length = _
      rw [List.length_append, Nat.add_assoc]
    rw [hlen]
    exact ⟨⟨1 + n, hfirst.trans hgo⟩, hrest⟩

/-- Instructions were emitted. -/
lemma reaches_plain (hk : k.Sound) (hm : ∃ ps, s.asm.Made ps) (hl : Lain s s' (Piece.plain is))
    (he : Inst.effects is r mem = some (r', mem')) :
    k.Reaches s ⟨.next, r, mem⟩ s' ⟨.next, r', mem'⟩ := by
  rintro hext o rfl
  obtain ⟨ps, hm⟩ := hm
  have hfits : ∀ p ∈ Piece.plain is, p.Fits := by
    intro p hp
    obtain ⟨i, -, rfl⟩ := List.mem_map.mp hp
    trivial
  have hstands := hext.stands (hm.stands hl.adds hfits)
  rw [← List.append_nil (Piece.plain is)] at hstands
  obtain ⟨⟨n, hgo⟩, -⟩ := hk.goes_plain hstands he
  exact ⟨n, _, hgo, hl.adds.offset.symm⟩

namespace Wp

lemma forIn {γ : Type} {xs : List γ} {g : γ → PUnit → Lower (ForInStep PUnit)}
    (I : List γ → State → Moment → Prop) (h : I xs s t)
    (hg : ∀ x rest s t, I (x :: rest) s t →
      k.Wp ls s (g x ⟨⟩) t (fun a s' t' => a = .yield ⟨⟩ ∧ I rest s' t') T) :
    k.Wp ls s (forIn xs PUnit.unit g) t (fun _ => I []) T := by
  induction xs generalizing s t with
  | nil => exact .pure h
  | cons x xs ih =>
    rw [List.forIn_cons]
    refine .bind ((hg x xs s t h).weaken ?_)
    rintro _ s' t' ⟨rfl, h'⟩
    exact ih h'

/-! ### Saving values -/

/-- A register is released, and the value in it goes to its slot. -/
lemma vacate {Q : α → State → Moment → Prop} {x : Lower Unit} {y : α} {b : Bank Gpr} {c : Bank Fpr}
    (hk : k.Sound) (h : Stands k.val s.ledger r mem) (hx : Extending k.env ls x)
    (ho : s.owner l = some o) (hb : b.Sound) (hc : c.Sound)
    (hlocks : ∀ q, ({ s with gprs := b, fprs := c } : State).locks q = s.locks q)
    (hbc : ∀ q, ({ s with gprs := b, fprs := c } : State).owner q =
      if q = l then none else s.owner q)
    (hout : outcome x k.env s = (.ok (), { s with gprs := b, fprs := c }))
    (hQ : ∀ s' mem', (∀ q, s'.owner q = if q = l then none else s.owner q) →
      Stands k.val s'.ledger r mem' → Spares k.env.graph s r mem s' r mem' →
      Q y s' ⟨.next, r, mem'⟩) :
    k.Wp ls s (x >>= fun _ => spillSlot o l >>= fun _ => Pure.pure y) ⟨.next, r, mem⟩ Q T := by
  have hfirst : ∀ {P : α → State → Prop} {T' : State → Prop} {F : Failure → State → Prop},
      Leads k.env { s with gprs := b, fprs := c } (spillSlot o l >>= fun _ => Pure.pure y) P T' F →
      Leads k.env s (x >>= fun _ => spillSlot o l >>= fun _ => Pure.pure y) P T' F := by
    intro P T' F h
    rw [leads_bind, Leads, hout]
    exact h
  refine .of_leads (P := fun a s' => a = y ∧ s'.gprs = b ∧ s'.fprs = c)
    (F := Lowering.Fault k.env.graph) (fun hs => hfirst ?_)
    (.bind hx fun _ => .bind (.spillSlot _ _) fun _ => .pure _) fun hm hs => hfirst ?_
  · refine (hs.leads_spillSlot ho hb hc (hs.guarded.congr hlocks rfl) hbc).then fun _ s' hs' => ?_
    exact ⟨hs'.1, rfl, hs'.2.1, hs'.2.2.1⟩
  · refine leads_bind.mpr ((leads_spillSlot hk hm hs h.equipped ho).mono ?_ (fun _ _ => trivial)
      fun _ _ _ => trivial)
    rintro _ s' ⟨mem', hreach, hev⟩
    refine ⟨_, hreach, fun _ h' => h'.1 ▸ hQ s' mem' (fun q => ?_) (hev.stands h) hev.toSpares⟩
    rw [← hbc q]
    cases q <;> simp [State.owner, h'.2]

lemma flush {R : Type} (loc : R → Location) (release : R → Lower Unit)
    (hinj : Function.Injective loc) {xs : List (R × Slot)} (hk : k.Sound)
    (h : Stands k.val s.ledger r mem) (hnodup : (xs.map Prod.fst).Nodup)
    (hxs : ∀ q o, (q, o) ∈ xs ↔ s.owner (loc q) = some o)
    (hext : ∀ r, Extending k.env ls (release r))
    (hrelease : ∀ r s, Coherent k.env.graph k.cur k.before [] s → ∃ b c, Bank.Sound b ∧
      Bank.Sound c ∧ (∀ q, ({ s with gprs := b, fprs := c } : State).locks q = s.locks q) ∧
      (∀ q, ({ s with gprs := b, fprs := c } : State).owner q =
        if q = loc r then none else s.owner q) ∧
      outcome (release r) k.env s = (.ok (), { s with gprs := b, fprs := c })) :
    k.Wp ls s
      (ForIn.forIn xs PUnit.unit fun p _ =>
        match p with
        | (r, o) => do
          release r
          spillSlot o (loc r)
          Pure.pure (ForInStep.yield PUnit.unit)) ⟨.next, r, mem⟩
      (fun _ s' t' => (∀ q, s'.owner (loc q) = none) ∧ (∀ l, s.owner l = none → s'.owner l = none) ∧
        ∃ mem', t' = ⟨.next, r, mem'⟩ ∧ Stands k.val s'.ledger r mem' ∧
          Spares k.env.graph s r mem s' r mem') T := by
  refine (Wp.forIn (fun rest s' t' => (rest.map Prod.fst).Nodup ∧
    (∀ q o, (q, o) ∈ rest ↔ s'.owner (loc q) = some o) ∧
      (∀ l, s.owner l = none → s'.owner l = none) ∧ ∃ mem', t' = ⟨.next, r, mem'⟩ ∧
        Stands k.val s'.ledger r mem' ∧ Spares k.env.graph s r mem s' r mem')
    ⟨hnodup, hxs, fun _ => id, mem, rfl, h, .of_facts rfl id⟩ ?_).weaken
    fun _ s' t' ⟨_, hnone, hrest⟩ => ⟨fun q => ?_, hrest⟩
  case refine_2 =>
    exact Option.eq_none_iff_forall_ne_some.mpr fun o ho => List.not_mem_nil ((hnone q o).mpr ho)
  rintro ⟨q, o⟩ rest s₁ _ ⟨hnd, hown, hback, mem₁, rfl, h₁, hp₁⟩
  rw [List.map_cons, List.nodup_cons] at hnd
  refine .intro fun hs₁ _ => ?_
  obtain ⟨b, c, hb, hc, hlocks, hbc, hout⟩ := hrelease q s₁ hs₁
  refine .vacate hk h₁ (hext q) ((hown _ _).mp List.mem_cons_self) hb hc hlocks hbc hout
    fun s₂ mem₂ ho₂ h₂ hp₂ => ⟨rfl, hnd.2, fun q' o' => ?_, fun l hl => ?_, mem₂, rfl, h₂,
      hp₁.trans_self hp₂⟩
  · rw [ho₂]
    by_cases hq : q' = q
    · subst hq
      rw [if_pos rfl]
      exact ⟨fun hm => absurd (List.mem_map_of_mem hm) hnd.1, nofun⟩
    · rw [if_neg (hinj.ne hq), ← hown, List.mem_cons]
      exact ⟨.inr, fun hm => hm.resolve_left fun heq => hq (congrArg Prod.fst heq)⟩
  · rw [ho₂]
    split
    · rfl
    · exact hback l hl

/-- All values go to their slots. -/
lemma flushRegisters {Q : Unit → State → Moment → Prop} (hk : k.Sound)
    (h : Stands k.val s.ledger r mem)
    (hQ : ∀ s' mem', (∀ l, s'.owner l = none) → Stands k.val s'.ledger r mem' →
      Spares k.env.graph s r mem s' r mem' → Q () s' ⟨.next, r, mem'⟩) :
    k.Wp ls s flushRegisters ⟨.next, r, mem⟩ Q T := by
  refine .intro fun hs _ => .look (P := (· = s)) (F := fun _ _ => False) (fun _ => ⟨rfl, rfl⟩) ?_
  rintro _ rfl
  refine .bind ((Wp.flush .gpr (fun r => modifyGprs (·.release r)) (fun _ _ => Location.gpr.inj) hk h
    (bound_nodup hs.gprs) (fun _ _ => hs.gprs.mem_bound) (fun _ => .modifyGprs _)
    fun q s hs => ?_).weaken ?_)
  · refine ⟨s.gprs.release q, s.fprs, hs.gprs.release, hs.fprs, fun l => ?_, fun l => ?_, rfl⟩
    · cases l <;> simp [State.locks]
    · cases l <;> simp [State.owner, Bank.owner_release]
  rintro _ s₁ _ ⟨hg₁, -, mem₁, rfl, h₁, hp₁⟩
  refine .intro fun hs₁ _ => .look (P := (· = s₁)) (F := fun _ _ => False) (fun _ => ⟨rfl, rfl⟩) ?_
  rintro _ rfl
  refine .bind ((Wp.flush .fpr (fun r => modifyFprs (·.release r)) (fun _ _ => Location.fpr.inj) hk
    h₁ (bound_nodup hs₁.fprs) (fun _ _ => hs₁.fprs.mem_bound) (fun _ => .modifyFprs _)
    fun q s hs => ?_).weaken ?_)
  · refine ⟨s.gprs, s.fprs.release q, hs.gprs, hs.fprs.release, fun l => ?_, fun l => ?_, rfl⟩
    · cases l <;> simp [State.locks]
    · cases l <;> simp [State.owner, Bank.owner_release]
  rintro _ s₂ _ ⟨hf₂, hback, mem₂, rfl, h₂, hp₂⟩
  refine .pure (hQ s₂ mem₂ (fun l => ?_) h₂ (hp₁.trans_self hp₂))
  rcases l with _ | q | f
  · rfl
  · exact hback _ (hg₁ q)
  · exact hf₂ f

/-! ### Calls -/

lemma setupArguments {Q : Unit → State → Moment → Prop} (hk : k.Sound)
    (ha : assignArguments args Gpr.arguments Fpr.arguments = .ok a)
    (hQ : ∀ s' r', k.Follows s s' → Passed args r r' → Q () s' ⟨.next, r', mem⟩) :
    k.Wp ls s (setupArguments args) ⟨.next, r, mem⟩ Q T :=
  .of_calm (Calm.setupArguments args) (Extending.setupArguments args) fun hm _ => by
    obtain ⟨r', heff, hpassed⟩ := effects_arguments (m := r) mem ha
    refine (Lays.setupArguments ha s).mono ?_ (fun _ => False.elim) fun _ _ => False.elim
    rintro _ s' ⟨-, hl⟩
    exact ⟨_, reaches_plain hk hm hl heff, fun h => hQ s' r' h hpassed⟩

lemma called {Q : Unit → State → Moment → Prop} (hk : k.Sound) (hf : f.serves = true)
    (ht : f.mayThrow = false)
    (hx : ∀ o, World.runs (Execution.callHelper f r k.site.code) (k.site.around ⟨r, mem, o⟩) =
      (.ok r', { k.site.world with memory := mem' }))
    (hQ : ∀ s', k.Follows s s' → Q () s' ⟨.next, r', mem'⟩) :
    k.Wp ls s (do emitCall f; if f.mayThrow then exceptionCheck) ⟨.next, r, mem⟩ Q T := by
  refine .of_calm (Calm.bind (Calm.emitCall f) fun _ => Calm.ite Calm.exceptionCheck (Calm.pure _))
    (Extending.called hf) fun hm _ => ?_
  refine (Lays.called f s).mono ?_ (fun _ => False.elim) fun _ _ => False.elim
  rintro _ s' ⟨-, hl⟩
  refine ⟨⟨.next, r', mem'⟩, ?_, hQ s'⟩
  rintro hext o rfl
  obtain ⟨ps, hm⟩ := hm
  rw [exceptionPieces, if_neg (by simp [ht])] at hl
  have hstands := hext.stands (hm.stands hl.adds (by simp [Piece.Fits, Assembler.RelocTarget.fits,
    Inst.abs64Field?]))
  have hnext : k.site.Next ⟨r, mem, s.asm.offset⟩ (.call f.address) := hk.next hstands r mem
  refine ⟨1, _, k.site.goes_call hk.loaded hnext (hx _), ?_⟩
  exact hl.adds.offset.symm

/-- A helper is called on the main path. The registers that it gets are those that its arguments were
in, once all values have gone to their slots. No value is in a register then. -/
lemma callHelper {Q : Unit → State → Moment → Prop} (hk : k.Sound) (hf : f.serves = true)
    (ht : f.mayThrow = false) (h : Stands k.val s.ledger r mem)
    (ha : assignArguments args Gpr.arguments Fpr.arguments = .ok a)
    (hx : ∀ r₁ mem₁, Passed args r r₁ → Confined k.env.graph r mem mem₁ → ∃ r₂ mem₂, (∀ o,
      World.runs (Execution.callHelper f r₁ k.site.code) (k.site.around ⟨r₁, mem₁, o⟩) =
        (.ok r₂, { k.site.world with memory := mem₂ })) ∧
      ∀ s', (∀ l, s'.owner l = none) → Stands k.val s'.ledger r mem₁ → Q () s' ⟨.next, r₂, mem₂⟩) :
    k.Wp ls s (callHelper f args) ⟨.next, r, mem⟩ Q T := by
  refine .bind (.flushRegisters hk h fun s₁ mem₁ hnone h₁ hp₁ => .bind (.setupArguments hk ha ?_))
  intro s₂ r₁ h₂ hpassed
  obtain ⟨r₂, mem₂, hruns, hQ⟩ := hx r₁ mem₁ hpassed hp₁.memory
  refine .called hk hf ht hruns fun s' h₃ => hQ s' (fun l => ?_) ?_
  · rw [(h₂.trans h₃).toSame.owner]
    exact hnone l
  · rw [(h₂.trans h₃).ledger]
    exact h₁

/-- A helper is called that changes nothing and gives a word. -/
lemma callReading {Q : Unit → State → Moment → Prop} {f : Helper} {args : List Argument}
    {moves : ArgumentMoves} {x : UInt64} (hk : k.Sound) (hf : f.serves = true) (ht : f.mayThrow = false)
    (hmod : f ≠ .fmod) (hst : Stands k.val s.ledger r mem)
    (hargs : assignArguments args Gpr.arguments Fpr.arguments = .ok moves)
    (hserve : ∀ r₁ mem₁ o, Lowering.Passed args r r₁ → Confined k.env.graph r mem mem₁ →
      World.runs (Execution.serve f r₁ k.site.code) (k.site.around ⟨r₁, mem₁, o⟩) =
        (.ok x, k.site.around ⟨r₁, mem₁, o⟩))
    (hQ : ∀ s' r' mem', Stands k.val s'.ledger r' mem' → Since k.env.graph r mem r' mem' →
      r'.gpr .result = x → Q () s' ⟨.next, r', mem'⟩) :
    k.Wp ls s (Lowering.callHelper f args) ⟨.next, r, mem⟩ Q T := by
  have hcall : k.Wp ls s (Lowering.callHelper f args) ⟨.next, r, mem⟩ (fun _ s' t' => ∃ r' mem', t' = ⟨.next, r', mem'⟩ ∧
      (Coherent k.env.graph k.cur k.before [] s' → Stands k.val s'.ledger r' mem') ∧
      Since k.env.graph r mem r' mem' ∧ r'.gpr .result = x) T := by
    refine .callHelper hk hf ht hst hargs fun r₁ mem₁ hpassed hconf => ?_
    have hpins : ∀ q ∈ [Gpr.frame, .numberTag, .tagMask], (r₁.setGpr .result x).gpr q = r.gpr q := by
      intro q hq
      have hapart : q ∉ Gpr.arguments ∧ q ≠ .scratch ∧ q ≠ .result := by
        fin_cases hq <;> decide
      rw [Registers.gpr_setGpr, if_neg hapart.2.2]
      exact hpassed.gpr (fun hmem => hapart.1 (List.mem_of_mem_take hmem)) hapart.2.1
    refine ⟨r₁.setGpr .result x, mem₁, fun o => Execution.runs_callHelper_of_serve hmod
      (hserve r₁ mem₁ o hpassed hconf), fun s' hnone hst' => ⟨_, _, rfl, fun hs' => ?_,
        ⟨hconf, hpins _ (by simp)⟩, ?_⟩⟩
    · exact hst'.of_unowned hs' (hpins _ (by simp)) (hpins _ (by simp)) (hpins _ (by simp))
        fun l hl => absurd (hnone l) hl
    · rw [Registers.gpr_setGpr, if_pos rfl]
  intro hs ha hl
  refine (hcall hs ha hl).weaken ?_
  rintro _ s' ⟨hs', hp, _, hr, r', mem', rfl, hst', hsince, hx⟩
  exact ⟨hs', hp, _, hr, hQ s' r' mem' (hst' hs') hsince hx⟩

end Wp

/-! ### Slow paths -/

def Pathed (k : Course) : Prop := ∀ ⦃p⦄, p ∈ k.final.slowPaths → k.final.HasPath k.env p

/-- A helper that is called with these arguments gives the word and changes nothing, whatever a slow path
has saved before. -/
def Gives (k : Course) (f : Helper) (args : List Argument) (x : UInt64) (r : Registers) (mem : Memory) :
    Prop :=
  ∀ ⦃r₁ mem₁⦄, Passed args r r₁ →
    (∀ b, k.env.frame.Unsaved (r.gpr .frame) b → mem₁.byte? b = mem.byte? b) →
    World.runs (Execution.serve f r₁ k.site.code) { k.site.world with memory := mem₁ } =
      (.ok x, { k.site.world with memory := mem₁ })

/-- The code of a slow path leads from its entry to where it is done. -/
lemma Sound.goes_slow (hk : k.Sound) {p : SlowPath} {q : Gpr} {x : UInt64} {r₁ : Registers}
    {mem₁ : Memory} (hp : k.final.HasPath k.env p) (hw : p.work = .call f args (some q))
    (hf : f ≠ .fmod) (ht : f.mayThrow = false)
    (ha : assignArguments args Gpr.arguments Fpr.arguments = .ok a)
    (hs : p.Serves k.env.frame a q x r mem r₁ mem₁ r')
    (hx : World.runs (Execution.serve f r₁ k.site.code) { k.site.world with memory := mem₁ } =
      (.ok x, { k.site.world with memory := mem₁ })) :
    ∃ n o o', k.final.asm.labels[p.entry]? = some (some o) ∧
      k.final.asm.labels[p.done]? = some (some o') ∧ k.site.Goes n ⟨r, mem, o⟩ ⟨r', mem₁, o'⟩ := by
  obtain ⟨o, a', l, l', ho, ha', hstands, -⟩ := hp
  rw [hw] at ha'
  obtain rfl := Except.ok.inj (ha.symm.trans ha')
  have hpieces : p.pieces k.env a l l' = Piece.plain (p.kept.map k.env.frame.save) ++
      (Piece.plain a.insts ++ (.inst (.call 0) (some (.external (.helper f))) ::
        (Piece.plain (taking (some q)) ++ (Piece.plain (p.kept.map k.env.frame.restore) ++
          [.inst (.jmp 0) (some (.label p.done))])))) := by
    simp [SlowPath.pieces, SlowPath.callPieces, hw, SlowWork.before, SlowWork.after, SlowWork.guard,
      SlowWork.target, exceptionPieces, ht, Piece.plain]
  rw [hpieces] at hstands
  obtain ⟨⟨n₁, hgo₁⟩, h₁⟩ := hk.goes_plain hstands hs.saves
  obtain ⟨⟨n₂, hgo₂⟩, h₂⟩ := hk.goes_plain h₁ hs.passes
  obtain ⟨hcall, h₃⟩ := h₂.next
  have hgo₃ := k.site.goes_call hk.loaded (hk.next hcall r₁ mem₁) (Execution.runs_callHelper_of_serve hf hx)
  have htaken : (r₁.setGpr .result x).setGpr q ((r₁.setGpr .result x).gpr .result) =
      (r₁.setGpr .result x).setGpr q x := by rw [Registers.gpr_setGpr, if_pos rfl]
  obtain ⟨⟨n₄, hgo₄⟩, h₄⟩ := hk.goes_plain h₃ (effects_taking q (r₁.setGpr .result x) mem₁)
  rw [htaken] at hgo₄
  obtain ⟨⟨n₅, hgo₅⟩, h₅⟩ := hk.goes_plain h₄ hs.restores
  obtain ⟨e, he, hgo₆⟩ := hk.goes_jmp h₅ r' mem₁
  exact ⟨_, o, e, ho, he, ((((hgo₁.trans hgo₂).trans hgo₃).trans hgo₄).trans hgo₅).trans hgo₆⟩

/-- The label is attached that a slow path goes back to. A machine at the end of the code has the word
already; one that is on its way to the slow path comes back with what its helper gives. -/
lemma Wp.attachSlow {Q : Unit → State → Moment → Prop} {entry done : Label} {q : Gpr} {x : UInt64}
    {σ : Spot} (hk : k.Sound) (hfits : k.env.frame.Fits k.env.graph) (hpaths : k.Pathed)
    (hdone : done ∈ ls) (hw : (SlowWork.call f args (some q)).Formed [q]) (ht : f.mayThrow = false)
    (hq : s.Taken (.gpr q)) (h : Stands k.val s.ledger r mem)
    (hσ : σ = .next ∧ r.gpr q = x ∨
      σ = .label entry ∧ k.env.frame.Mapped (r.gpr .frame) mem ∧ k.Gives f args x r mem)
    (hQ : ∀ s' r' mem', Stands k.val s'.ledger r' mem' → r'.gpr q = x → Q () s' ⟨.next, r', mem'⟩) :
    k.Wp ls s (Lowering.attach done >>= fun _ =>
      Lowering.addSlowPath entry done [q] (.call f args (some q))) ⟨σ, r, mem⟩ Q T := by
  have hfree : ∀ {s' : State}, Same s s' → ∀ g ∈ [q], s'.Taken (.gpr g) := fun hs =>
    List.forall_mem_singleton.mpr (hs.taken.mpr hq)
  refine .of_leads (P := fun _ _ => True) (F := Lowering.Fault k.env.graph) (fun hs => ?_)
    (.bindAttach (.addSlowPath entry hdone [q] hw.serves)) fun _ hs => ?_
  · refine (Calm.attach done).then hs (Same.refl s) fun _ s₁ h₁ hs₁ => ?_
    exact (leads_addSlowPath h₁ (hfree hs₁) hw).weaken fun _ _ h => ⟨h.1, trivial⟩
  · refine leads_bind.mpr (leads_attach.mono ?_ (fun _ => False.elim) fun _ _ _ => trivial)
    rintro _ _ ⟨rfl, hnone⟩
    rcases hσ with ⟨rfl, hx⟩ | ⟨rfl, hmap, hgives⟩
    · exact ⟨_, .of_offset rfl, fun _ _ => hQ _ r mem h hx⟩
    · have hguards : (slowPath s entry done [q] (.call f args (some q))).Guards :=
        guards_slowPath hs (hfree (.refl s)) hw
      obtain ⟨a, ha⟩ := hw.assigns
      obtain ⟨r₁, mem₁, r', hserves, hpassed, hret⟩ := hguards.exists_serves rfl ha hmap x
      refine ⟨⟨.next, r', mem₁⟩, fun he o ho => ?_, fun _ _ =>
        hQ _ r' mem₁ (h.returned hs hfits hguards rfl hret) hret.result⟩
      obtain ⟨n, o₁, o₂, ho₁, ho₂, hgo⟩ := hk.goes_slow (hpaths (he.paths Array.mem_push_self)) rfl
        hw.helper_ne ht ha hserves (hgives hpassed fun _ => hret.byte)
      obtain rfl : o = o₁ := Option.some.inj (Option.some.inj (ho.symm.trans ho₁))
      have hlabel : (s.attached done).asm.labels[done]? = some (some s.asm.offset) := by
        simp [State.attached, (Array.getElem?_eq_some_iff.mp hnone).1]
      exact ⟨n, o₂, hgo, Option.some.inj (Option.some.inj (ho₂.symm.trans (he.labels hlabel)))⟩

end Course
end Speculation
