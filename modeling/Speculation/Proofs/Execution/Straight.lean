import Speculation.Proofs.Execution.Steps
import Speculation.Proofs.Machine.Encoding

/-!
Code that is run from one instruction to the next.

`Advances` is a step of the machine in which a helper that is called may leave what it likes in the
registers that calls clobber. A run is `Straight` as long as no jump is taken. Of code that only
computes `Inst.effect` says what it does, so a straight run through known code is known as well:
`Ends` takes one instruction after the other off such a run.

A thread faces instructions if their bytes come next in its code, whatever surrounds them. If they
only compute, running them has their effect on registers and memory, and nothing else happens.
-/

namespace Speculation

def Inst.jumps (i : Inst) (m : Registers) : Bool :=
  match i with
  | .jcc c _ => c.holds m.flags m.order
  | .jmp _ | .jmpAbs _ | .jmpReg _ | .jmpTable _ _ | .ret => true
  | _ => false

/-- From `m` to `m'` a helper has clobbered all registers but those of its result, of the frame and
of the tags. -/
structure Helper.Leaves (h : Helper) (m m' : Registers) : Prop where
  frame : m'.gpr .frame = m.gpr .frame
  tagMask : m'.gpr .tagMask = m.gpr .tagMask
  numberTag : m'.gpr .numberTag = m.gpr .numberTag
  result (hh : h ≠ .fmod) : m'.gpr .result = m.gpr .result
  double (hh : h = .fmod) : m'.fpr .result = m.fpr .result

def Thread.At (t : Thread) (w : World) (i : Inst) : Prop :=
  ∃ a n, w.artifacts[t.code]? = some a ∧ a.decodeAt t.pc = .ok (.ok (i, n))

/-- There is one instruction at the program counter. -/
lemma Thread.At.unique {t : Thread} {w : World} {i j : Inst} (h : t.At w i) (h' : t.At w j) : i = j := by
  obtain ⟨a, n, ha, hd⟩ := h
  obtain ⟨b, k, hb, hd'⟩ := h'
  rw [ha] at hb
  cases hb
  rw [hd] at hd'
  exact congrArg Prod.fst (Except.ok.inj (Except.ok.inj hd'))

namespace Execution

open World

/-- One instruction is executed, and a helper that it calls clobbers what it likes. -/
inductive Advances (t : Thread) (w : World) : Thread → World → Prop
  | step {t' : Thread} {w' : World} (h : runs (step t) w = (.ok (.running t'), w')) :
    Advances t w t' w'
  | call {target : UInt64} {h : Helper} {t' : Thread} {w' : World} {m : Registers}
    (hat : t.At w (.call target)) (hh : Helper.at? target = some h)
    (hs : runs (step t) w = (.ok (.running t'), w')) (hm : h.Leaves t'.registers m) :
    Advances t w { t' with registers := m } w'

/-- A run in which no jump is taken. -/
inductive Straight : Thread → World → Thread → World → Prop
  | refl (t : Thread) (w : World) : Straight t w t w
  | step {t t' t'' : Thread} {w w' w'' : World} {i : Inst} (hat : t.At w i)
    (hi : i.jumps t.registers = false) (h : Advances t w t' w') (hs : Straight t' w' t'' w'') :
    Straight t w t'' w''

lemma Straight.trans {t t' t'' : Thread} {w w' w'' : World} (h : Straight t w t' w')
    (h' : Straight t' w' t'' w'') : Straight t w t'' w'' := by
  induction h with
  | refl => exact h'
  | step hat hi ha _ ih => exact .step hat hi ha (ih h')

structure Ends (t : Thread) (w : World) (t' : Thread) (w' : World) : Prop where
  straight : Straight t w t' w'
  jumps : ∃ i, t'.At w' i ∧ i.jumps t'.registers = true

end Execution

/-- What an instruction that only computes does to registers and memory. There is no result where
memory is not mapped, and none for any other instruction. -/
def Inst.effect (i : Inst) (m : Registers) (mem : Memory) : Option (Registers × Memory) :=
  match i with
  | .mov dst src => some (m.setGpr dst (m.gpr src), mem)
  | .dmov dst src => some (m.setFpr dst (m.fpr src), mem)
  | .movImm dst x => some (m.setGpr dst x, mem)
  | .movDToG dst src => some (m.setGpr dst (m.fpr src).bits, mem)
  | .load width signed dst a =>
    (mem.read? width.bytes (m.address a)).map fun x => (m.setGpr dst (width.extend signed x), mem)
  | .loadD dst a =>
    (mem.read? 8 (m.address a)).map fun x => (m.setFpr dst ⟨UInt64.ofNat x⟩, mem)
  | .store width src a =>
    let (all, mem') := mem.write width.bytes (m.address a) (m.gpr src).toNat
    if all then some (m, mem') else none
  | .storeD src a =>
    let (all, mem') := mem.write 8 (m.address a) (m.fpr src).bits.toNat
    if all then some (m, mem') else none
  | .alu size op dst src =>
    let (x, flags) := size.run op (m.gpr dst) (m.operand src)
    some ({ m with flags }.setGpr dst x, mem)
  | .cmp size lhs rhs => some ({ m with flags := (size.run .sub (m.gpr lhs) (m.operand rhs)).2 }, mem)
  | .test size lhs rhs =>
    some ({ m with flags := (size.run .and (m.gpr lhs) (m.operand rhs)).2 }, mem)
  | _ => none

def Inst.computes : Inst → Bool
  | .mov .. | .dmov .. | .movImm .. | .movDToG .. | .load .. | .loadD .. | .store .. | .storeD ..
  | .alu .. | .cmp .. | .test .. => true
  | _ => false

def Inst.effects : List Inst → Registers → Memory → Option (Registers × Memory)
  | [], m, mem => some (m, mem)
  | i :: is, m, mem => (i.effect m mem).bind fun x => effects is x.1 x.2

lemma Inst.effects_append (is js : List Inst) (m : Registers) (mem : Memory) :
    effects (is ++ js) m mem = (effects is m mem).bind fun x => effects js x.1 x.2 := by
  induction is generalizing m mem with
  | nil => rfl
  | cons i is ih => simp [effects, ih, Option.bind_assoc]

lemma Inst.jumps_eq_false {i : Inst} (h : i.computes = true) (m : Registers) :
    i.jumps m = false := by
  cases i <;> first | rfl | cases h

namespace World

variable {t : Thread} {w : World} {i : Inst} {pc : UInt64}

open Execution

lemma runs_writeWord_not {n x : Nat} {a : UInt64} (h : ¬(w.memory.write n a x).1 = true) :
    runs (writeWord n a x) w =
      (.error (.badAccess a), { w with memory := (w.memory.write n a x).2 }) := by
  rw [writeWord, runs_bind_of_ok (runs_modifyGet _)]
  dsimp only
  rw [if_neg h]
  rfl

lemma runs_execute (pc : UInt64) (h : i.computes = true) :
    (∃ m mem, i.effect t.registers w.memory = some (m, mem) ∧
      runs (execute t pc i) w = (.ok (.running { t with registers := m }), { w with memory := mem })) ∨
    ∃ f w', runs (execute t pc i) w = (.error f, w') := by
  cases i with
  | load width signed dst a =>
    rcases hx : w.memory.read? width.bytes (t.registers.address a) with _ | x
    · refine .inr ⟨.badAccess (t.registers.address a), w, ?_⟩
      show runs (readWord width.bytes (t.registers.address a) >>= _) w = _
      rw [runs_bind, runs_readWord_none hx]
    · refine .inl ⟨_, _, ?_, runs_bind_of_ok (runs_readWord hx)⟩
      simp only [Inst.effect, hx]
      rfl
  | loadD dst a =>
    rcases hx : w.memory.read? 8 (t.registers.address a) with _ | x
    · refine .inr ⟨.badAccess (t.registers.address a), w, ?_⟩
      show runs (read64 (t.registers.address a) >>= _) w = _
      simp only [read64]
      rw [runs_bind, runs_bind, runs_readWord_none hx]
    · refine .inl ⟨_, _, ?_, runs_bind_of_ok (runs_read64 hx)⟩
      simp only [Inst.effect, hx]
      rfl
  | store width src a =>
    by_cases hx : (w.memory.write width.bytes (t.registers.address a)
        (t.registers.gpr src).toNat).1 = true
    · exact .inl ⟨_, _, by simp [Inst.effect, hx], runs_bind_of_ok (runs_writeWord hx)⟩
    · refine .inr ⟨.badAccess (t.registers.address a), { w with memory := (w.memory.write width.bytes
        (t.registers.address a) (t.registers.gpr src).toNat).2 }, ?_⟩
      show runs (writeWord width.bytes (t.registers.address a) (t.registers.gpr src).toNat >>= _) w = _
      rw [runs_bind, runs_writeWord_not hx]
  | storeD src a =>
    by_cases hx : (w.memory.write 8 (t.registers.address a)
        (t.registers.fpr src).bits.toNat).1 = true
    · exact .inl ⟨_, _, by simp [Inst.effect, hx], runs_bind_of_ok (runs_writeWord hx)⟩
    · refine .inr ⟨.badAccess (t.registers.address a), { w with memory := (w.memory.write 8
        (t.registers.address a) (t.registers.fpr src).bits.toNat).2 }, ?_⟩
      show runs (write64 (t.registers.address a) (t.registers.fpr src).bits >>= _) w = _
      simp only [write64]
      rw [runs_bind, runs_writeWord_not hx]
  | _ => first | exact .inl ⟨_, _, rfl, rfl⟩ | cases h

lemma runs_step {a : Artifact} {n : Nat} (ha : w.artifacts[t.code]? = some a)
    (hd : a.decodeAt t.pc = .ok (.ok (i, n))) :
    runs (step t) w = runs (execute { t with pc := t.pc + UInt64.ofNat n } t.pc i) w := by
  rw [step, runs_bind_of_ok (runs_artifact ha), hd]

end World

namespace Execution

open World

variable {t t' : Thread} {w w' : World} {i : Inst}

lemma Advances.exact (h : Advances t w t' w') (hat : t.At w i)
    (hi : ∀ target k, i = .call target → Helper.at? target ≠ some k) :
    runs (Execution.step t) w = (.ok (.running t'), w') := by
  cases h with
  | step h => exact h
  | call hat' hh => exact absurd hh (hi _ _ (hat.unique hat'))

/-- At an instruction that does not jump, a run up to a jump has to go on. -/
lemma Ends.cases (h : Ends t w t' w') (hat : t.At w i) (hi : i.jumps t.registers = false) :
    ∃ t₁ w₁, Advances t w t₁ w₁ ∧ Ends t₁ w₁ t' w' := by
  obtain ⟨hs, hj⟩ := h
  cases hs with
  | refl =>
    obtain ⟨j, hat', hjumps⟩ := hj
    rw [← hat.unique hat', hi] at hjumps
    cases hjumps
  | step _ _ ha hs => exact ⟨_, _, ha, hs, hj⟩

lemma Ends.over (h : Ends t w t' w') (hat : t.At w i) (hi : i.jumps t.registers = true) :
    t' = t ∧ w' = w := by
  obtain ⟨hs, -⟩ := h
  cases hs with
  | refl => exact ⟨rfl, rfl⟩
  | step hat' hi' =>
    rw [hat.unique hat', hi'] at hi
    cases hi

end Execution
/-! ### Instructions at the program counter -/

/-- The bytes of the instructions start at the program counter, in code that ends within the address
space. -/
def Thread.Faces (t : Thread) (w : World) (is : List Inst) : Prop :=
  ∃ a pre post, w.artifacts[t.code]? = some a ∧ a.base.toNat + a.code.size < UInt64.size ∧
    a.code.data.toList = pre ++ (is.flatMap Inst.encode ++ post) ∧ t.pc = a.addressOf pre.length

def Thread.past (t : Thread) (is : List Inst) (m : Registers) : Thread :=
  { t with registers := m, pc := t.pc + UInt64.ofNat (is.flatMap Inst.encode).length }

namespace World

variable {t : Thread} {w : World} {i : Inst} {m : Registers} {mem : Memory}

/-- An instruction that has an effect does not fault. -/
lemma runs_execute_of_effect (pc : UInt64) (h : i.effect t.registers w.memory = some (m, mem)) :
    runs (Execution.execute t pc i) w =
      (.ok (.running { t with registers := m }), { w with memory := mem }) := by
  cases i with
  | load width signed dst a =>
    obtain ⟨x, hx, he⟩ := Option.map_eq_some_iff.mp h
    cases he
    exact runs_bind_of_ok (runs_readWord hx)
  | loadD dst a =>
    obtain ⟨x, hx, he⟩ := Option.map_eq_some_iff.mp h
    cases he
    exact runs_bind_of_ok (runs_read64 hx)
  | store width src a =>
    simp only [Inst.effect, Option.ite_none_right_eq_some] at h
    obtain ⟨hx, he⟩ := h
    cases he
    exact runs_bind_of_ok (runs_writeWord hx)
  | storeD src a =>
    simp only [Inst.effect, Option.ite_none_right_eq_some] at h
    obtain ⟨hx, he⟩ := h
    cases he
    exact runs_bind_of_ok (runs_writeWord hx)
  | _ => cases h <;> rfl

end World

namespace Thread.Faces

open World Execution

variable {t : Thread} {w : World} {i : Inst} {is : List Inst} {m : Registers} {mem : Memory}

/-- The first instruction is decoded, and then the thread faces the others. -/
lemma cons (h : t.Faces w (i :: is)) :
    (∃ a, w.artifacts[t.code]? = some a ∧ a.decodeAt t.pc = .ok (.ok (i, i.encode.length))) ∧
      ∀ m mem, (t.past [i] m).Faces { w with memory := mem } is := by
  obtain ⟨a, pre, post, ha, hroom, hbytes, hpc⟩ := h
  rw [List.flatMap_cons, List.append_assoc] at hbytes
  refine ⟨⟨a, ha, ?_⟩, fun m mem => ⟨a, pre ++ i.encode, post, ha, hroom, ?_, ?_⟩⟩
  · have hlen := congrArg List.length hbytes
    rw [Array.length_toList, ByteArray.size_data, List.length_append] at hlen
    rw [hpc, Site.decodeAt_addressOf (by omega), Inst.decodeAt_of_bytes hbytes]
  · rw [hbytes, List.append_assoc]
  · show t.pc + UInt64.ofNat ([i].flatMap Inst.encode).length = _
    rw [hpc, Site.addressOf_add, List.length_append, List.flatMap_singleton]

lemma run (h : t.Faces w is) (he : Inst.effects is t.registers w.memory = some (m, mem))
    (fuel : Nat) : runs (Execution.run (is.length + fuel) t) w =
      runs (Execution.run fuel (t.past is m)) { w with memory := mem } := by
  induction is generalizing t w with
  | nil =>
    cases he
    rw [List.length_nil, Nat.zero_add]
    show _ = runs (Execution.run fuel { t with pc := t.pc + 0 }) w
    rw [UInt64.add_zero]
  | cons i is ih =>
    obtain ⟨⟨a, ha, hd⟩, hrest⟩ := h.cons
    obtain ⟨⟨m₁, mem₁⟩, heff, heffs⟩ := Option.bind_eq_some_iff.mp he
    have hstep := runs_step ha hd
    rw [runs_execute_of_effect (t := { t with pc := t.pc + UInt64.ofNat i.encode.length }) t.pc heff]
      at hstep
    have hnext : t.past [i] m₁ =
        { t with pc := t.pc + UInt64.ofNat i.encode.length, registers := m₁ } := by
      simp [past]
    have hpast : (t.past [i] m₁).past is m = t.past (i :: is) m := by
      simp [past, UInt64.add_assoc, UInt64.ofNat_add]
    rw [List.length_cons, Nat.add_right_comm, Execution.run, runs_bind_of_ok hstep, ← hpast,
      ← ih (t := t.past [i] m₁) (hrest m₁ mem₁) heffs, hnext]

end Thread.Faces
end Speculation
