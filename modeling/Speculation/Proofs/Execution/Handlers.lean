import Speculation.Proofs.Execution.Linked
import Speculation.Proofs.Execution.Flags
import Speculation.Proofs.Integer.Layout

/-!
Handlers of exceptions.

Generated code that finds an exception pending, or raises one itself, goes to a handler, which goes on
to the thunk that unwinds. In the outermost frame this ends the run, and not through an exit.
-/

namespace Speculation
namespace Execution

open World Lowering

variable {asm : Assembler} {base : UInt64} {o k : Nat} {t t' : Thread} {w w' : World} {i : Inst}
  {target : Option RelocTarget} {ps : List Piece}

/-- However long it runs, the thread does not leave through an exit. -/
def Remains (t : Thread) (w : World) : Prop := ∀ fuel s, (runs (run fuel t) w).1 ≠ .ok (.exited s)

lemma Remains.of_step (h : ∀ t' w', runs (step t) w = (.ok (.running t'), w') → Remains t' w')
    (hx : ∀ s w', runs (step t) w ≠ (.ok (.finished (.exited s)), w')) : Remains t w := by
  rintro (_ | fuel) s hs
  · cases hs
  rw [run, runs_bind] at hs
  rcases hstep : runs (step t) w with ⟨e | t' | o, w'⟩
  · rw [hstep] at hs
    cases hs
  · rw [hstep] at hs
    exact h t' w' hstep fuel s hs
  · rw [hstep] at hs
    cases hs
    exact hx s w' hstep

/-- A run that has ended does not go on. -/
lemma run_add {n j : Nat} {r : Outcome} (h : runs (run n t) w = (.ok r, w')) :
    runs (run (n + j) t) w = (.ok r, w') := by
  induction n generalizing t w with
  | zero => cases h
  | succ n ih =>
    rw [run, runs_bind] at h
    rw [Nat.succ_add, run, runs_bind]
    rcases hstep : runs (step t) w with ⟨e | t' | o, w₁⟩
    · rw [hstep] at h
      cases h
    · rw [hstep] at h
      exact ih h
    · rw [hstep] at h
      exact h

/-- The next piece is executed. -/
lemma runs_step_on (hon : t.On asm base o w k (.inst i target :: ps)) : runs (step t) w =
    runs (execute { t with pc := t.pc + UInt64.ofNat i.encode.length } t.pc
      (Piece.resolve asm.labels base (k + i.encode.length) i target)) w := by
  obtain ⟨b, hb, hd⟩ := at_of_on hon
  exact runs_step hb hd

lemma Remains.compute (hon : t.On asm base o w k (.inst i none :: ps)) (hi : i.computes = true)
    (h : ∀ m mem t' k', i.effect t.registers w.memory = some (m, mem) → t'.callers = t.callers →
      t'.code = t.code → t'.registers = m → t'.On asm base o { w with memory := mem } k' ps →
      Remains t' { w with memory := mem }) : Remains t w := by
  have hstep := runs_step_on hon
  obtain ⟨m, mem, heff, hex⟩ | ⟨f, w₁, hex⟩ := runs_execute (w := w)
    (t := { t with pc := t.pc + UInt64.ofNat i.encode.length }) t.pc hi
  all_goals
    replace hstep := hstep.trans hex
    refine .of_step (fun t' w' hs => ?_) fun s w' hs => ?_ <;> rw [hstep] at hs <;> cases hs
  exact h m mem _ _ heff rfl rfl rfl (on_next hon rfl rfl (.of_eq rfl rfl rfl))

lemma Remains.call {f : Helper}
    (hon : t.On asm base o w k (.inst (.call 0) (some (.external (.helper f))) :: ps))
    (h : ∀ m w' t' k', runs (callHelper f t.registers t.code) w = (.ok m, w') →
      t'.callers = t.callers → t'.registers = m → t'.On asm base o w' k' ps → Remains t' w') :
    Remains t w := by
  have hf := f.at?_address
  have hstep : runs (step t) w =
      runs (execute { t with pc := t.pc + UInt64.ofNat (Inst.call 0).encode.length } t.pc
        (.call f.address)) w := runs_step_on hon
  simp only [execute_call, Execution.call, hf] at hstep
  rw [runs_bind, runs_bind] at hstep
  have hstays := Still.callHelper (q := False) f t.registers t.code w
  rcases hc : runs (callHelper f t.registers t.code) w with ⟨e | m, w₁⟩
  · refine .of_step (fun t' w' hs => ?_) fun s w' hs => ?_ <;> rw [hstep, hc] at hs <;> cases hs
  · refine .of_step (fun t' w' hs => ?_) fun s w' hs => ?_ <;> rw [hstep, hc] at hs <;> cases hs
    have hw : w.Stays False w₁ := by
      have : w.Stays False (runs (callHelper f t.registers t.code) w).2 := hstays
      rwa [hc] at this
    exact h m w₁ _ _ hc rfl rfl (on_next hon rfl rfl hw)

lemma Remains.branch {c : Cond} {l : Label}
    (hon : t.On asm base o w k (.inst (.jcc c 0) (some (.label l)) :: ps))
    (ht : c.holds t.registers.flags t.registers.order = true → ∀ t' e,
      asm.labels[l]? = some (some e) → t'.callers = t.callers → t'.code = t.code →
      t'.pc = base + UInt64.ofNat e → Remains t' w)
    (hf : c.holds t.registers.flags t.registers.order = false → ∀ t' k', t'.callers = t.callers →
      t'.registers = t.registers → t'.On asm base o w k' ps → Remains t' w) : Remains t w := by
  obtain ⟨e, rel, he, hres, hpc⟩ := jump_target hon.stands
    (let ⟨_, _, hl⟩ := hon.code; let ⟨code, hcode, _⟩ := hl.code; ⟨code, hcode⟩)
  have hstep := runs_step_on hon
  rw [hres] at hstep
  rcases hc : c.holds t.registers.flags t.registers.order <;>
    simp only [Inst.setRel, execute_jcc, hc] at hstep <;>
    refine .of_step (fun t' w' hs => ?_) fun s w' hs => ?_ <;> rw [hstep] at hs <;> cases hs
  · exact hf hc _ _ rfl rfl (on_next hon rfl rfl (.refl w))
  · refine ht hc _ e he rfl rfl ?_
    rw [← hpc, ← hon.pc]

/-- A jump goes to its label. -/
lemma Remains.jmp {l : Label} (hon : t.On asm base o w k (.inst (.jmp 0) (some (.label l)) :: ps))
    (h : ∀ t' e, asm.labels[l]? = some (some e) → t'.callers = t.callers → t'.code = t.code →
      t'.pc = base + UInt64.ofNat e → Remains t' w) : Remains t w := by
  obtain ⟨e, rel, he, hres, hpc⟩ := jump_target hon.stands
    (let ⟨_, _, hl⟩ := hon.code; let ⟨code, hcode, _⟩ := hl.code; ⟨code, hcode⟩)
  have hstep := runs_step_on hon
  rw [hres] at hstep
  refine .of_step (fun t' w' hs => ?_) fun s w' hs => ?_ <;> rw [hstep] at hs <;> cases hs
  refine h _ e he rfl rfl ?_
  rw [← hpc, ← hon.pc]

/-- The handler unwinds, and in the outermost frame this ends the run. -/
lemma Remains.handler {f : Helper}
    (hf : f = .lookupExceptionHandler ∨ f = .lookupExceptionHandlerFromCaller)
    (hon : t.On asm base o w k (handlerPieces f)) (hcallers : t.callers = []) : Remains t w := by
  refine .compute hon rfl fun _ _ t₁ k₁ heff h₁ _ _ hon₁ => ?_
  cases heff
  refine .call hon₁ fun m w₂ t₂ k₂ hm h₂ hreg hon₂ => ?_
  have hresult : t₂.registers.gpr .result = Thunk.throw.address := by
    rw [hreg]
    rcases hf with rfl | rfl <;> cases hm <;> rw [Registers.gpr_setGpr, if_pos rfl]
  have hstep : runs (step t₂) w₂ = runs (unwind { t₂ with
      pc := t₂.pc + UInt64.ofNat (Inst.jmpReg .result).encode.length }) w₂ := by
    have hthunk : Thunk.at? Thunk.throw.address = some .throw := by decide
    refine (runs_step_on hon₂).trans ?_
    simp only [Piece.resolve, execute_jmpReg, jump, hresult, hthunk]
  have hnone : t₂.callers = [] := h₂.trans (h₁.trans hcallers)
  simp only [unwind, hnone] at hstep
  have hends : ∀ p w', runs (step t₂) w₂ = (.ok p, w') → ∃ v, p = .finished (.threw v) := by
    intro p w' hs
    rw [hstep, runs_bind] at hs
    split at hs
    · rw [runs_bind] at hs
      split at hs
      · cases hs
        exact ⟨_, rfl⟩
      · cases hs
    · cases hs
  refine .of_step (fun t' w' hs => ?_) fun s w' hs => ?_ <;>
    obtain ⟨v, hv⟩ := hends _ _ hs <;> cases hv

/-- On stack overflow an exception is made pending, and the handler unwinds. -/
lemma Remains.overflow {l : Label}
    (hon : t.On asm base 0 w k (overflowPieces l)) (hcallers : t.callers = [])
    (hl : ∃ e, asm.labels[l]? = some (some e) ∧
      asm.Stands e (handlerPieces .lookupExceptionHandlerFromCaller)) : Remains t w := by
  refine .compute hon rfl fun _ _ t₁ k₁ heff h₁ _ _ hon₁ => ?_
  cases heff
  refine .call hon₁ fun m w₂ t₂ k₂ _ h₂ _ hon₂ => .jmp hon₂ ?_
  intro t₃ e he h₃ hcode hpc
  obtain ⟨e', he', hs⟩ := hl
  cases he.symm.trans he'
  have hon₃ : t₃.On asm base 0 w₂ e (handlerPieces .lookupExceptionHandlerFromCaller) :=
    ⟨hcode ▸ hon₂.code, hpc, Nat.zero_le _, hs⟩
  exact .handler (.inr rfl) hon₃ (h₃.trans (h₂.trans (h₁.trans hcallers)))

end Execution
end Speculation
