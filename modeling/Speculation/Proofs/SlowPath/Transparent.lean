import Speculation.Proofs.SlowPath.Code

/-!
Slow paths are transparent.

A slow path that goes back to the fast path has called its helper with the arguments that were in
registers at its entry. It has written to the save area only, what the helper returned is in the
register of the result, and a register that a value was in when the slow path was registered holds
what it held at the entry, unless the helper has written to the slot in which it was saved.
-/

namespace Speculation

/-- Only the scratch register and the flags may have changed. -/
structure Registers.Spared (m m' : Registers) : Prop where
  gpr {r : Gpr} (h : r ≠ .scratch) : m'.gpr r = m.gpr r
  fpr : m'.fpr = m.fpr

namespace Registers.Spared

variable {m m' m'' : Registers}

lemma refl (m : Registers) : m.Spared m := ⟨fun _ => rfl, rfl⟩

lemma trans (h : m.Spared m') (h' : m'.Spared m'') : m.Spared m'' :=
  ⟨fun hr => (h'.gpr hr).trans (h.gpr hr), h'.fpr.trans h.fpr⟩

lemma word (h : m.Spared m') {l : Location} (hl : l.Holds) : m'.word l = m.word l := by
  rcases l with _ | r | f
  · exact hl.elim
  · refine h.gpr ?_
    rintro rfl
    revert hl
    simp only [Location.Holds]
    decide
  · exact congrArg (fun g => (g f).bits) h.fpr

end Registers.Spared

def Inst.spares : Inst → Bool
  | .movImm dst _ | .load _ _ dst _ | .alu _ _ dst _ => dst = .scratch
  | .cmp .. | .test .. => true
  | _ => false

namespace Inst

variable {i : Inst} {is : List Inst} {m m' : Registers} {mem mem' : Memory}

lemma computes_of_spares (h : i.spares = true) : i.computes = true := by
  cases i <;> first | rfl | cases h

lemma effect_spares (h : i.spares = true) (heff : i.effect m mem = some (m', mem')) :
    mem' = mem ∧ m.Spared m' := by
  have hset : ∀ {d : Gpr} {x : UInt64} {m : Registers}, d = .scratch → m.Spared (m.setGpr d x) := by
    rintro d x m rfl
    exact ⟨fun hr => by simp [hr], rfl⟩
  cases i <;> try cases h
  case movImm d x =>
    cases heff
    exact ⟨rfl, hset (of_decide_eq_true h)⟩
  case load width signed d a =>
    obtain ⟨x, -, he⟩ := Option.map_eq_some_iff.mp heff
    cases he
    exact ⟨rfl, hset (of_decide_eq_true h)⟩
  case alu size op d src =>
    cases heff
    refine ⟨rfl, .trans ?_ (hset (of_decide_eq_true h))⟩
    exact ⟨fun _ => rfl, rfl⟩
  case cmp size lhs rhs =>
    cases heff
    exact ⟨rfl, fun _ => rfl, rfl⟩
  case test size lhs rhs =>
    cases heff
    exact ⟨rfl, fun _ => rfl, rfl⟩

lemma effects_spares (h : ∀ i ∈ is, i.spares = true) (heff : effects is m mem = some (m', mem')) :
    mem' = mem ∧ m.Spared m' := by
  induction is generalizing m mem with
  | nil =>
    cases heff
    exact ⟨rfl, .refl _⟩
  | cons i is ih =>
    obtain ⟨hi, his⟩ := List.forall_mem_cons.mp h
    obtain ⟨⟨m₁, mem₁⟩, heff₁, hrest⟩ := Option.bind_eq_some_iff.mp heff
    obtain ⟨rfl, hs⟩ := effect_spares hi heff₁
    obtain ⟨rfl, hs'⟩ := ih his hrest
    exact ⟨rfl, hs.trans hs'⟩

end Inst

namespace Lowering

open Execution World
open Piece (plain)

lemma spares_before (w : SlowWork) : ∀ i ∈ w.before, i.spares = true := by
  cases w <;> simp [SlowWork.before, Inst.spares]

lemma spares_after (w : SlowWork) : ∀ i ∈ w.after, i.spares = true := by
  cases w <;> simp [SlowWork.after, Inst.spares]

lemma spares_exceptionLoads (env : Env) : ∀ i ∈ exceptionLoads env, i.spares = true := by
  simp [exceptionLoads, Inst.spares]

/-- The result of the helper depends on nothing of the registers but the arguments. -/
lemma SlowWork.Formed.serve_eq {w : SlowWork} {free : List Gpr} {m₀ m m' : Registers} {code : Nat}
    (h : w.Formed free) (hm : Passes w.args m₀ m) (hm' : Passes w.args m₀ m') :
    serve w.helper m code = serve w.helper m' code := by
  cases h <;> simp only [Passes, passes, SlowWork.args, Gpr.arguments, Fpr.arguments] at hm hm'
  case toInt32 f r =>
    have hfirst : m.fpr .first = m'.fpr .first := hm.1.trans hm'.1.symm
    simp only [SlowWork.helper, serve, hfirst]
  case getById q name r =>
    have hfirst : m.gpr .first = m'.gpr .first := hm.1.trans hm'.1.symm
    have hsecond : m.gpr .second = m'.gpr .second := hm.2.1.trans hm'.2.1.symm
    simp only [SlowWork.helper, serve, hfirst, hsecond]
  case putById q name v =>
    have hfirst : m.gpr .first = m'.gpr .first := hm.1.trans hm'.1.symm
    have hsecond : m.gpr .second = m'.gpr .second := hm.2.1.trans hm'.2.1.symm
    have hthird : m.gpr .third = m'.gpr .third := hm.2.2.1.trans hm'.2.2.1.symm
    simp only [SlowWork.helper, serve, hfirst, hsecond, hthird]
  all_goals
    have hfirst : m.gpr .first = m'.gpr .first := hm.1.trans hm'.1.symm
    simp only [SlowWork.helper, serve, hfirst]

lemma SlowWork.Formed.helper_ne {w : SlowWork} {free : List Gpr} (h : w.Formed free) :
    w.helper ≠ .fmod := by
  cases h <;> exact nofun

/-- What is looked at first leaves the arguments as they are. -/
lemma SlowWork.Formed.passes_before {w : SlowWork} {free : List Gpr} {m m' n : Registers}
    {mem mem' : Memory} (h : w.Formed free)
    (heff : Inst.effects w.before m mem = some (m', mem')) (hs : m.Spared m')
    (hp : Passes w.args m' n) : Passes w.args m n := by
  have hconvert : ∀ q ∈ Gpr.allocatable, Passes [.gpr q] m' n → Passes [.gpr q] m n := by
    intro q hq hp
    refine ⟨hp.1.trans (hs.gpr ?_), trivial⟩
    rintro rfl
    revert hq
    decide
  cases h
  case ensureContiguous q hq shape => exact hconvert q hq hp
  case ensureDouble q hq shape => exact hconvert q hq hp
  all_goals
    cases heff
    exact hp

lemma SlowWork.target_eq {w : SlowWork} {r : Gpr} (h : w.result = some r) : w.target = some r := by
  cases w
  · exact h
  · cases h

/-- The result of the helper goes to a register that nothing else is in. -/
lemma SlowPath.Guards.target {p : SlowPath} {q : Gpr} (h : p.Guards) (hq : p.work.target = some q) :
    .gpr q ∉ p.kept ∧ q ≠ .frame ∧ q ≠ .tagMask ∧ q ≠ .numberTag := by
  have hfree : ∀ q ∈ Gpr.allocatable, q ≠ .frame ∧ q ≠ .tagMask ∧ q ≠ .numberTag := by decide
  rcases hw : p.work with ⟨f, args, r⟩ | ⟨f, c, shape⟩ <;> rw [hw] at hq
  · obtain ⟨hmem, hkept⟩ := h.result (r := q) (by rw [hw]; exact hq)
    exact ⟨hkept, hfree q hmem⟩
  · cases hq
    refine ⟨fun hmem => ?_, by decide⟩
    have := h.holds hmem
    revert this
    simp only [Location.Holds]
    decide

/-- Between two moments the bytes of a save slot have stayed. -/
def FrameLayout.Untouched (f : FrameLayout) (frame : UInt64) (l : Location) (mem mem' : Memory) :
    Prop :=
  ∀ b, (b - f.saveAt frame l.saveIndex).toNat < 8 → mem'.byte? b = mem.byte? b

/-- From `m` to `m'` a helper has been called in code at `w`, which leads to `w'`: its arguments
were those in `m`, memory was changed in save slots only before the call and not at all afterwards,
and the registers in the list are restored from their slots. -/
structure Called (env : Env) (f : Helper) (args : List Argument) (r : Option Gpr)
    (kept : List Location) (code : Nat) (m : Registers) (w : World) (m' : Registers) (w' : World) :
    Prop where
  frame : m'.gpr .frame = m.gpr .frame
  tagMask : m'.gpr .tagMask = m.gpr .tagMask
  numberTag : m'.gpr .numberTag = m.gpr .numberTag
  served : ∃ mem x n,
    (∀ b, env.frame.Unsaved (m.gpr .frame) b → mem.byte? b = w.memory.byte? b) ∧
    Passes args m n ∧ runs (serve f n code) { w with memory := mem } = (.ok x, w') ∧
    (∀ q, r = some q → m'.gpr q = x) ∧
    ∀ l ∈ kept, env.frame.Untouched (m.gpr .frame) l mem w'.memory → m'.word l = m.word l

/-- From `t₀` to `t` the slow path was transparent. The helper was called with the arguments as they
were at `t₀`, and in a world where memory had changed in save slots only; its result is in the
register of the result, and what it has made of the world has stayed. A register that a value was in
at the registration is as it was at `t₀`, if the helper has left its save slot alone. -/
structure SlowPath.Transparent (p : SlowPath) (f : FrameLayout) (t₀ : Thread) (w₀ : World)
    (t : Thread) (w : World) : Prop where
  code : t.code = t₀.code
  callers : t.callers = t₀.callers
  frame : t.registers.gpr .frame = t₀.registers.gpr .frame
  tagMask : t.registers.gpr .tagMask = t₀.registers.gpr .tagMask
  numberTag : t.registers.gpr .numberTag = t₀.registers.gpr .numberTag
  served : ∃ mem x,
    (∀ b, f.Unsaved (t₀.registers.gpr .frame) b → mem.byte? b = w₀.memory.byte? b) ∧
    (∀ m, Passes p.work.args t₀.registers m →
      runs (serve p.work.helper m t₀.code) { w₀ with memory := mem } = (.ok x, w)) ∧
    (∀ r, p.work.result = some r → t.registers.gpr r = x) ∧
    ∀ l, p.Bound l → f.Untouched (t₀.registers.gpr .frame) l mem w.memory →
      t.registers.word l = t₀.registers.word l

end Lowering

namespace Execution

open Lowering World
open Piece (plain)

variable {asm : Assembler} {base : UInt64} {o k : Nat} {ps : List Piece} {env : Env}
  {p : SlowPath} {a : ArgumentMoves} {args : List Argument} {f : Helper} {r : Option Gpr}
  {t t' : Thread} {w w' : World} {l l' : Label}

/-- A helper other than that of remainders returns a word. -/
lemma callHelper_eq (hf : f ≠ .fmod) (m : Registers) (code : Nat) : Execution.callHelper f m code =
    serve f m code >>= fun x => pure (m.setGpr .result x) := by
  cases f <;> first | rfl | exact absurd rfl hf

lemma runs_callHelper (hf : f ≠ .fmod) {m n : Registers} {code : Nat}
    (h : runs (Execution.callHelper f m code) w = (.ok n, w')) :
    ∃ x, runs (serve f m code) w = (.ok x, w') ∧ n = m.setGpr .result x := by
  rw [callHelper_eq hf, runs_bind] at h
  rcases hs : runs (serve f m code) w with ⟨e | x, w₁⟩ <;> rw [hs] at h <;> cases h
  exact ⟨x, rfl, rfl⟩

lemma runs_callHelper_of_serve (hf : f ≠ .fmod) {m : Registers} {code : Nat} {x : UInt64}
    (h : runs (serve f m code) w = (.ok x, w')) :
    runs (Execution.callHelper f m code) w = (.ok (m.setGpr .result x), w') := by
  rw [callHelper_eq hf, runs_bind_of_ok h]
  rfl

/-- The exception of a helper is handled, or there is none. -/
lemma Ends.exception (h : Ends t w t' w')
    (hon : t.On asm base o w k (exceptionPieces env f ++ ps)) :
    HeadsFor asm base t' w' env.exceptionLabel ∨ ∃ m pc k', t.registers.Spared m ∧
      Ends { t with registers := m, pc } w t' w' ∧
      Thread.On asm base o { t with registers := m, pc } w k' ps := by
  unfold exceptionPieces at hon
  split at hon
  · rw [checkPieces, List.append_assoc] at hon
    obtain ⟨m, mem, pc, k', heff, he, hon⟩ := h.computes hon fun i hi =>
      Inst.computes_of_spares (spares_exceptionLoads env i hi)
    obtain ⟨rfl, hs⟩ := Inst.effects_spares (spares_exceptionLoads env) heff
    obtain hl | ⟨pc, k', he, hon⟩ := he.branch hon
    · exact .inl hl
    · exact .inr ⟨m, pc, k', hs, he, hon⟩
  · exact .inr ⟨_, _, _, .refl _, h, hon⟩

/-- The result is taken, and nothing else changes. -/
lemma Ends.taking (h : Ends t w t' w') (hon : t.On asm base o w k (plain (taking r) ++ ps)) :
    ∃ m pc k', (∀ q, r = some q → m.gpr q = t.registers.gpr .result) ∧
      (∀ l, l ≠ .none → (∀ q, r = some q → l ≠ .gpr q) → m.word l = t.registers.word l) ∧
      Ends { t with registers := m, pc } w t' w' ∧
      Thread.On asm base o { t with registers := m, pc } w k' ps := by
  have hcomputes : ∀ i ∈ Lowering.taking r, i.computes = true := by
    intro i hi
    unfold Lowering.taking at hi
    split at hi
    · split at hi
      · cases hi
      · obtain rfl := List.mem_singleton.mp hi
        rfl
    · cases hi
  obtain ⟨m, mem, pc, k', heff, he, hon⟩ := h.computes hon hcomputes
  unfold Lowering.taking at heff
  split at heff
  · rename_i q
    split at heff
    · rename_i hq
      cases heff
      exact ⟨_, _, _, fun _ h => Option.some.inj h ▸ hq ▸ rfl, fun _ _ _ => rfl, he, hon⟩
    · cases heff
      refine ⟨_, _, _, fun p hp => ?_, fun l hl hne => ?_, he, hon⟩
      · cases hp
        simp
      · rcases l with _ | p | g
        · exact absurd rfl hl
        · have hpq : p ≠ q := fun h => hne q rfl (congrArg _ h)
          simp [Registers.word, hpq]
        · rfl
  · cases heff
    exact ⟨_, _, _, by simp, fun _ _ _ => rfl, he, hon⟩

/-- The call of a helper from a slow path has called it, or its exception is handled. -/
lemma Ends.slowCall (h : Ends t w t' w') (hkept : ∀ l ∈ p.kept, l.Holds)
    (ha : assignArguments args Gpr.arguments Fpr.arguments = .ok a)
    (hon : t.On asm base o w k (p.callPieces env f a r ++ ps)) (hf : f ≠ .fmod)
    (hr : ∀ q, r = some q → .gpr q ∉ p.kept ∧ q ≠ .frame ∧ q ≠ .tagMask ∧ q ≠ .numberTag) :
    HeadsFor asm base t' w' env.exceptionLabel ∨ ∃ m w₁ pc k',
      Called env f args r p.kept t.code t.registers w m w₁ ∧
      Ends { t with registers := m, pc } w₁ t' w' ∧
      Thread.On asm base o { t with registers := m, pc } w₁ k' ps := by
  simp only [SlowPath.callPieces, List.append_assoc, List.cons_append] at hon
  have hsaves : ∀ i ∈ p.kept.map env.frame.save, i.computes = true := by
    intro i hi
    obtain ⟨l, hl, rfl⟩ := List.mem_map.mp hi
    exact computes_save (hkept l hl)
  have hrestores : ∀ i ∈ p.kept.map env.frame.restore, i.computes = true := by
    intro i hi
    obtain ⟨l, hl, rfl⟩ := List.mem_map.mp hi
    exact computes_restore (hkept l hl)
  obtain ⟨m₁, mem₁, pc₁, k₁, heff₁, h₁, hon₁⟩ := h.computes hon hsaves
  obtain ⟨rfl, hout, hsaved⟩ := effects_saves hkept heff₁
  obtain ⟨m₂, mem₂, pc₂, k₂, heff₂, h₂, hon₂⟩ := h₁.computes hon₁ computes_arguments
  obtain ⟨m₃, heff₃, hpassed⟩ := effects_arguments (m := t.registers) mem₁ ha
  cases heff₂.symm.trans heff₃
  obtain ⟨m₄, m₅, w₁, pc₅, k₅, hcall, hleaves, h₅, hon₅⟩ := h₂.call hon₂
  obtain ⟨x, hserve, rfl⟩ := runs_callHelper hf hcall
  obtain hl | ⟨m₆, pc₆, k₆, hs₆, h₆, hon₆⟩ := h₅.exception hon₅
  · exact .inl hl
  obtain ⟨m₇, pc₇, k₇, hresult, hother, h₇, hon₇⟩ := h₆.taking hon₆
  obtain ⟨m₈, mem₈, pc₈, k₈, heff₈, h₈, hon₈⟩ := h₇.computes hon₇ hrestores
  obtain ⟨rfl, hrest, hloads⟩ := effects_restores hkept heff₈
  refine .inr ⟨m₈, w₁, pc₈, k₈, ?_, h₈, hon₈⟩
  have hm₇ : ∀ l, l ≠ .none → (∀ q, r = some q → l ≠ .gpr q) → l ∉ p.kept →
      m₈.word l = m₆.word l := fun l hl hne hmem => (hrest l hmem).trans (hother l hl hne)
  -- three registers are neither clobbered by the helper nor saved
  have hpinned : ∀ q : Gpr, q ∉ Gpr.allocatable → q ≠ .scratch → (∀ p, r = some p → p ≠ q) →
      m₅.gpr q = (m₂.setGpr .result x).gpr q →
        m₇.gpr q = t.registers.gpr q ∧ m₈.gpr q = t.registers.gpr q := by
    intro q hq hs hp hm
    have hresult : q ≠ .result := fun he => hq (he ▸ by decide)
    have hsub : ∀ q ∈ Gpr.arguments, q ∈ Gpr.allocatable := by decide
    have hne : ∀ p, r = some p → Location.gpr q ≠ .gpr p :=
      fun p hr he => hp p hr (Location.gpr.inj he).symm
    have hmem : Location.gpr q ∉ p.kept := fun h => hq (hkept _ h)
    have hq₆ : m₆.gpr q = t.registers.gpr q := by
      rw [hs₆.gpr hs]
      show m₅.gpr q = _
      rw [hm, Registers.gpr_setGpr, if_neg hresult,
      hpassed.gpr (fun h => hq (hsub q (List.mem_of_mem_take h))) hs]
    have hnone : Location.gpr q ≠ .none := by simp
    exact ⟨(hother (.gpr q) hnone hne).trans hq₆, (hm₇ (.gpr q) hnone hne hmem).trans hq₆⟩
  have hframe := hpinned .frame (by decide) (by decide) (fun p h => (hr p h).2.1) hleaves.frame
  refine ⟨hframe.2,
    (hpinned .tagMask (by decide) (by decide) (fun p h => (hr p h).2.2.1) hleaves.tagMask).2,
    (hpinned .numberTag (by decide) (by decide) (fun p h => (hr p h).2.2.2) hleaves.numberTag).2,
    mem₁, x, m₂, fun b hb => hout b fun l hl => hb _ (hkept l hl).saveIndex_lt, hpassed.passes, hserve,
    fun q hq => ?_, fun l hl hstay => ?_⟩
  · have hq₈ : m₈.gpr q = m₇.gpr q := hrest (.gpr q) (hr q hq).1
    rw [hq₈, hresult q hq]
    show m₆.gpr .result = x
    rw [hs₆.gpr (by decide)]
    show m₅.gpr .result = x
    rw [hleaves.result hf, Registers.gpr_setGpr, if_pos rfl]
  · obtain ⟨y, hy, hword⟩ := hloads l hl
    have hslot : (m₇.gpr .frame) = t.registers.gpr .frame := hframe.1
    rw [hslot, Memory.read?, Memory.readBytes?_congr fun j hj => hstay _ ?_] at hy
    · rw [hword, hsaved l hl y hy, UInt64.ofNat_toNat]
    · rw [UInt64.add_comm, UInt64.add_sub_cancel,
        UInt64.toNat_ofNat_of_lt' (Nat.lt_trans hj (by decide))]
      exact hj

/-- A guard of a slow path leaves, or it is passed. -/
lemma Ends.guard (h : Ends t w t' w') (hon : t.On asm base o w k (p.work.guard l ++ ps)) :
    p.work.guard l ≠ [] ∧ HeadsFor asm base t' w' l ∨ ∃ pc k', Ends { t with pc } w t' w' ∧
      Thread.On asm base o { t with pc } w k' ps := by
  unfold SlowWork.guard at hon ⊢
  split at hon
  · exact .inr ⟨_, _, h, hon⟩
  · exact (h.branch hon).imp_left fun hl => ⟨by simp, hl⟩

/-- Every way out of a slow path: to the handler of exceptions, to an exit, or back, and then the
slow path was transparent. -/
lemma Ends.slowPath (h : Ends t w t' w') (hg : p.Guards)
    (ha : assignArguments p.work.args Gpr.arguments Fpr.arguments = .ok a)
    (hon : t.On asm base o w k (p.pieces env a l l')) :
    HeadsFor asm base t' w' env.exceptionLabel ∨
    (p.work.guard l ≠ [] ∧ HeadsFor asm base t' w' l ∨
      p.work.guard l' ≠ [] ∧ HeadsFor asm base t' w' l') ∨
    ∃ e, asm.labels[p.done]? = some (some e) ∧ ∀ t₁ w₁, Advances t' w' t₁ w₁ →
      t₁.pc = base + UInt64.ofNat e ∧ p.Transparent env.frame t w t₁ w₁ := by
  unfold SlowPath.pieces at hon
  obtain ⟨m₁, mem₁, pc₁, k₁, heff₁, h₁, hon₁⟩ := h.computes hon fun i hi =>
    Inst.computes_of_spares (spares_before _ i hi)
  obtain ⟨rfl, hs₁⟩ := Inst.effects_spares (spares_before _) heff₁
  obtain hl | ⟨pc₂, k₂, h₂, hon₂⟩ := h₁.guard hon₁
  · exact .inr (.inl (.inl hl))
  obtain ⟨free, hformed⟩ := hg.formed
  obtain hl | ⟨m₃, w₃, pc₃, k₃, hcalled, h₃, hon₃⟩ := h₂.slowCall (fun _ => hg.holds) ha hon₂
    hformed.helper_ne fun _ => hg.target
  · exact .inl hl
  obtain ⟨m₄, mem₄, pc₄, k₄, heff₄, h₄, hon₄⟩ := h₃.computes hon₃ fun i hi =>
    Inst.computes_of_spares (spares_after _ i hi)
  obtain ⟨rfl, hs₄⟩ := Inst.effects_spares (spares_after _) heff₄
  obtain hl | ⟨pc₅, k₅, h₅, hon₅⟩ := h₄.guard hon₄
  · exact .inr (.inl (.inr hl))
  obtain ⟨e, he, hdone⟩ := h₅.jump hon₅
  refine .inr (.inr ⟨e, he, fun t₁ w₁ hadv => ?_⟩)
  obtain ⟨rfl, rfl⟩ := hdone t₁ w₁ hadv
  obtain ⟨mem, x, n, hmem, hpasses, hserve, hresult, hkept⟩ := hcalled.served
  have hframe₁ : m₁.gpr .frame = t.registers.gpr .frame := hs₁.gpr (by decide)
  refine ⟨rfl, rfl, rfl, (hs₄.gpr (by decide)).trans (hcalled.frame.trans hframe₁),
    (hs₄.gpr (by decide)).trans (hcalled.tagMask.trans (hs₁.gpr (by decide))),
    (hs₄.gpr (by decide)).trans (hcalled.numberTag.trans (hs₁.gpr (by decide))), mem, x,
    fun b hb => hmem b (hframe₁ ▸ hb), fun q hq => ?_, fun q hq => ?_, fun q hq hstay => ?_⟩
  · rw [hformed.serve_eq hq (hformed.passes_before heff₁ hs₁ hpasses)]
    exact hserve
  · have hscratch : ∀ q ∈ Gpr.allocatable, q ≠ .scratch := by decide
    exact (hs₄.gpr (hscratch q (hg.result hq).1)).trans (hresult q (SlowWork.target_eq hq))
  · have hmem := hg.bound hq
    have hholds := hg.holds hmem
    exact (hs₄.word hholds).trans ((hkept q hmem (hframe₁ ▸ hstay)).trans (hs₁.word hholds))

end Execution
end Speculation
