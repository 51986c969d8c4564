import Speculation.Proofs.Compile.WellFormed
import Speculation.Proofs.Execution.Straight
import Speculation.Proofs.World.Still

/-!
Running linked code.

`Thread.On` says that a thread is about to run pieces that were assembled, in code that is linked at
least from there on. A run up to a jump goes through such pieces one after the other: instructions
that compute have their effect, a branch ends the run or is passed, and a helper that is called has
served its arguments.
-/

namespace Speculation

/-- From the offset on the code is what was assembled, with all fields filled in. What comes before
may have been patched. -/
structure Artifact.Linked (asm : Assembler) (base : UInt64) (o : Nat) (b : Artifact) : Prop where
  at_base : b.base = base
  room : base.toNat + b.code.size < UInt64.size
  code : ∃ code, Link.fillFields asm base = .ok code ∧ b.code.size = code.size ∧
    b.code.data.toList.drop o = code.data.toList.drop o

variable {asm : Assembler} {base : UInt64} {o k : Nat} {ps : List Piece} {i : Inst}
  {target : Option RelocTarget} {b : Artifact}

/-- The instruction that was assembled at an offset is found at its address. -/
lemma Artifact.Linked.decodeAt (h : b.Linked asm base o) (hs : asm.Stands k (.inst i target :: ps))
    (hk : o ≤ k) : b.decodeAt (base + UInt64.ofNat k) = .ok (.ok
      (Piece.resolve asm.labels base (k + i.encode.length) i target, i.encode.length)) := by
  obtain ⟨code, hcode, hsize, hdrop⟩ := h.code
  obtain ⟨all, hm, pre, post, rfl, rfl⟩ := hs
  have hfill := Link.fillFields_ok base hm.code hm.relocs hm.fits hcode
  obtain ⟨front, back, hfront, hbytes⟩ := Link.bytes_linked base hfill hm.fits (Nat.zero_add _)
  have hlen := Piece.length_resolve asm.labels base (hm.fits (.inst i target) (by simp))
  -- the front of the code is another one, and as long
  have hbytes' : b.code.data.toList = (b.code.data.toList.take o ++ front.drop o) ++
      ((Piece.resolve asm.labels base (0 + (pre.flatMap Piece.bytes).length + i.encode.length) i
        target).encode ++ back) := by
    rw [List.append_assoc, ← List.drop_append_of_le_length (by omega), ← hbytes, ← hdrop,
      List.take_append_drop]
  have ho : o ≤ b.code.size := by
    have := congrArg List.length hbytes
    rw [Array.length_toList, ByteArray.size_data, ← hsize, List.length_append] at this
    omega
  have hfront' : (b.code.data.toList.take o ++ front.drop o).length =
      0 + (pre.flatMap Piece.bytes).length := by
    rw [List.length_append, List.length_take, List.length_drop, Array.length_toList,
      ByteArray.size_data]
    omega
  have hdecode := Inst.decodeAt_of_bytes hbytes'
  rw [hfront', Nat.zero_add, hlen] at hdecode
  have hlt : b.base.toNat + (pre.flatMap Piece.bytes).length < UInt64.size := by
    have hroom := h.room
    have hle := congrArg List.length hbytes'
    rw [Array.length_toList, ByteArray.size_data, List.length_append, hfront'] at hle
    rw [h.at_base]
    omega
  have hat := Site.decodeAt_addressOf hlt
  rw [hdecode, Artifact.addressOf, h.at_base] at hat
  rw [Nat.zero_add]
  exact hat

lemma Artifact.Linked.same {b' : Artifact} (h : b.Linked asm base o) (hs : b.SameCode b') :
    b'.Linked asm base o where
  at_base := hs.base.trans h.at_base
  room := hs.code ▸ h.room
  code := hs.code ▸ h.code

/-- The thread is about to run the pieces, which stand at `k`. -/
structure Thread.On (asm : Assembler) (base : UInt64) (o : Nat) (t : Thread) (w : World) (k : Nat)
    (ps : List Piece) : Prop where
  code : ∃ b, w.artifacts[t.code]? = some b ∧ b.Linked asm base o
  pc : t.pc = base + UInt64.ofNat k
  le : o ≤ k
  stands : asm.Stands k ps

namespace Execution

open World

variable {t t' t₁ : Thread} {w w' w₁ : World} {is : List Inst}

lemma at_of_on (h : t.On asm base o w k (.inst i target :: ps)) :
    ∃ b, w.artifacts[t.code]? = some b ∧ b.decodeAt t.pc = .ok (.ok
      (Piece.resolve asm.labels base (k + i.encode.length) i target, i.encode.length)) := by
  obtain ⟨b, hb, hl⟩ := h.code
  exact ⟨b, hb, h.pc ▸ hl.decodeAt h.stands h.le⟩

/-- After an instruction the thread is on what follows it. -/
lemma on_next (h : t.On asm base o w k (.inst i target :: ps)) (hcode : t₁.code = t.code)
    (hpc : t₁.pc = t.pc + UInt64.ofNat i.encode.length) (hw : w.Stays False w₁) :
    t₁.On asm base o w₁ (k + i.encode.length) ps where
  code := by
    obtain ⟨b, hb, hl⟩ := h.code
    obtain ⟨b', hb', hs⟩ := hw.code hb
    exact ⟨b', hcode ▸ hb', hl.same hs⟩
  pc := by rw [hpc, h.pc, UInt64.ofNat_add, UInt64.add_assoc]
  le := Nat.le_trans h.le (Nat.le_add_right _ _)
  stands := by
    obtain ⟨all, hm, hw⟩ := h.stands
    exact ⟨all, hm, hw.tail⟩

lemma Ends.compute (h : Ends t w t' w') (hon : t.On asm base o w k (.inst i none :: ps))
    (hi : i.computes = true) : ∃ m mem pc k', i.effect t.registers w.memory = some (m, mem) ∧
      Ends { t with registers := m, pc } { w with memory := mem } t' w' ∧
      Thread.On asm base o { t with registers := m, pc } { w with memory := mem } k' ps := by
  obtain ⟨b, hb, hd⟩ := at_of_on hon
  have hat : t.At w i := ⟨b, _, hb, hd⟩
  obtain ⟨t₁, w₁, ha, he⟩ := h.cases hat (Inst.jumps_eq_false hi _)
  have hx := ha.exact hat fun target k hc => by
    rw [hc] at hi
    cases hi
  rw [runs_step hb hd] at hx
  obtain ⟨m, mem, heff, hex⟩ | ⟨f, w₂, hex⟩ := runs_execute (w := w)
    (t := { t with pc := t.pc + UInt64.ofNat i.encode.length }) t.pc hi
  · have hstep := hex.symm.trans hx
    cases hstep
    exact ⟨m, mem, _, _, heff, he, on_next hon rfl rfl (.of_eq rfl rfl rfl)⟩
  · have hstep := hex.symm.trans hx
    cases hstep

lemma Ends.computes (h : Ends t w t' w') (hon : t.On asm base o w k (Piece.plain is ++ ps))
    (his : ∀ i ∈ is, i.computes = true) :
    ∃ m mem pc k', Inst.effects is t.registers w.memory = some (m, mem) ∧
      Ends { t with registers := m, pc } { w with memory := mem } t' w' ∧
      Thread.On asm base o { t with registers := m, pc } { w with memory := mem } k' ps := by
  induction is generalizing t w k with
  | nil => exact ⟨_, _, _, _, rfl, h, hon⟩
  | cons i is ih =>
    obtain ⟨hi, his⟩ := List.forall_mem_cons.mp his
    obtain ⟨m, mem, pc, k', heff, he, hon'⟩ := h.compute hon hi
    obtain ⟨m', mem', pc', k'', heffs, he', hon''⟩ := ih he hon' his
    exact ⟨m', mem', pc', k'', by rw [Inst.effects, heff]; exact heffs, he', hon''⟩

lemma jump_target {l : Label} (hs : asm.Stands k (.inst i (some (.label l)) :: ps))
    (h : ∃ code, Link.fillFields asm base = .ok code) : ∃ e rel, asm.labels[l]? = some (some e) ∧
      Piece.resolve asm.labels base (k + i.encode.length) i (some (.label l)) = i.setRel rel ∧
      base + UInt64.ofNat k + UInt64.ofNat i.encode.length + rel.toInt64.toUInt64 =
        base + UInt64.ofNat e := by
  obtain ⟨code, hcode⟩ := h
  obtain ⟨all, hm, hw⟩ := hs
  obtain ⟨e, rel, he, hres, hreach⟩ := Assembler.Stands.near ⟨all, hm, hw.head⟩ hcode
  refine ⟨e, rel, he, hres, ?_⟩
  have hrel := toNat_extend rel
  unfold Inst.reach at hreach
  rw [UInt64.add_assoc, UInt64.add_assoc]
  congr 1
  apply UInt64.toNat_inj.mp
  simp only [UInt64.toNat_add, UInt64.toNat_ofNat']
  omega

def HeadsFor (asm : Assembler) (base : UInt64) (t : Thread) (w : World) (l : Label) : Prop :=
  ∃ e, asm.labels[l]? = some (some e) ∧
    ∀ t' w', Advances t w t' w' → t'.pc = base + UInt64.ofNat e

lemma Ends.branch {c : Cond} {l : Label} (h : Ends t w t' w')
    (hon : t.On asm base o w k (.inst (.jcc c 0) (some (.label l)) :: ps)) :
    HeadsFor asm base t' w' l ∨
    ∃ pc k', Ends { t with pc } w t' w' ∧ Thread.On asm base o { t with pc } w k' ps := by
  obtain ⟨b, hb, hd⟩ := at_of_on hon
  obtain ⟨e, rel, he, hres, hpc⟩ := jump_target hon.stands
    (let ⟨_, _, hl⟩ := hon.code; let ⟨code, hcode, _⟩ := hl.code; ⟨code, hcode⟩)
  rw [hres] at hd
  replace hd : b.decodeAt t.pc = .ok (.ok (.jcc c rel, (Inst.jcc c 0).encode.length)) := hd
  have hat : t.At w (.jcc c rel) := ⟨b, _, hb, hd⟩
  by_cases hc : c.holds t.registers.flags t.registers.order
  · obtain ⟨rfl, rfl⟩ := h.over hat hc
    refine .inl ⟨e, he, fun t₁ w₁ ha => ?_⟩
    have hx := ha.exact hat nofun
    rw [runs_step hb hd] at hx
    simp only [execute_jcc, hc, if_true] at hx
    cases hx
    rw [← hpc, ← hon.pc]
  · have hj : (Inst.jcc c rel).jumps t.registers = false := Bool.eq_false_iff.mpr hc
    obtain ⟨t₁, w₁, ha, he⟩ := h.cases hat hj
    have hx := ha.exact hat nofun
    rw [runs_step hb hd] at hx
    simp only [execute_jcc, hc] at hx
    cases hx
    exact .inr ⟨_, _, he, on_next hon rfl rfl (.refl w)⟩

/-- At a jump the run is over, and it leads to its label. -/
lemma Ends.jump {l : Label} (h : Ends t w t' w')
    (hon : t.On asm base o w k (.inst (.jmp 0) (some (.label l)) :: ps)) :
    ∃ e, asm.labels[l]? = some (some e) ∧ ∀ t₁ w₁, Advances t' w' t₁ w₁ →
      t₁ = { t with pc := base + UInt64.ofNat e } ∧ w₁ = w := by
  obtain ⟨b, hb, hd⟩ := at_of_on hon
  obtain ⟨e, rel, he, hres, hpc⟩ := jump_target hon.stands
    (let ⟨_, _, hl⟩ := hon.code; let ⟨code, hcode, _⟩ := hl.code; ⟨code, hcode⟩)
  rw [hres] at hd
  replace hd : b.decodeAt t.pc = .ok (.ok (.jmp rel, (Inst.jmp 0).encode.length)) := hd
  have hat : t.At w (.jmp rel) := ⟨b, _, hb, hd⟩
  obtain ⟨rfl, rfl⟩ := h.over hat rfl
  refine ⟨e, he, fun t₁ w₁ ha => ?_⟩
  have hx := ha.exact hat nofun
  rw [runs_step hb hd] at hx
  simp only [execute_jmp] at hx
  cases hx
  rw [← hpc, ← hon.pc]
  exact ⟨rfl, rfl⟩

/-- A helper was called, and has clobbered what it likes. -/
lemma Ends.call {f : Helper} (h : Ends t w t' w')
    (hon : t.On asm base o w k (.inst (.call 0) (some (.external (.helper f))) :: ps)) :
    ∃ m m' w₁ pc k', runs (callHelper f t.registers t.code) w = (.ok m, w₁) ∧ f.Leaves m m' ∧
      Ends { t with registers := m', pc } w₁ t' w' ∧
      Thread.On asm base o { t with registers := m', pc } w₁ k' ps := by
  obtain ⟨b, hb, hd⟩ := at_of_on hon
  replace hd : b.decodeAt t.pc = .ok (.ok (.call f.address, (Inst.call 0).encode.length)) := hd
  have hat : t.At w (.call f.address) := ⟨b, _, hb, hd⟩
  obtain ⟨t₁, w₁, ha, he⟩ := h.cases hat rfl
  have hf := f.at?_address
  have hstep : ∀ t₂ w₂, runs (Execution.step t) w = (.ok (.running t₂), w₂) →
      ∃ m, runs (callHelper f t.registers t.code) w = (.ok m, w₂) ∧ t₂ = { t with
        registers := m, pc := t.pc + UInt64.ofNat (Inst.call 0).encode.length } := by
    intro t₂ w₂ hx
    rw [runs_step hb hd] at hx
    simp only [execute_call, Execution.call, hf] at hx
    rw [runs_bind, runs_bind] at hx
    rcases hc : runs (callHelper f t.registers t.code) w with ⟨f | m, w₃⟩
    · rw [hc] at hx
      cases hx
    · rw [hc] at hx
      cases hx
      exact ⟨m, rfl, rfl⟩
  have hstays : ∀ m w₂, runs (callHelper f t.registers t.code) w = (.ok m, w₂) →
      w.Stays False w₂ := by
    intro m w₂ hc
    have hs : w.Stays False (runs (callHelper f t.registers t.code) w).2 :=
      Still.callHelper f t.registers t.code w
    rw [hc] at hs
    exact hs
  cases ha with
  | step hx =>
    obtain ⟨m, hc, rfl⟩ := hstep _ _ hx
    exact ⟨m, m, _, _, _, hc, ⟨rfl, rfl, rfl, fun _ => rfl, fun _ => rfl⟩, he,
      on_next hon rfl rfl (hstays _ _ hc)⟩
  | call hat' hh hx hm =>
    obtain ⟨m, hc, rfl⟩ := hstep _ _ hx
    cases hat.unique hat'
    obtain rfl : f = _ := Option.some.inj (hf.symm.trans hh)
    exact ⟨m, _, _, _, _, hc, hm, he, on_next hon rfl rfl (hstays _ _ hc)⟩

end Execution
end Speculation
