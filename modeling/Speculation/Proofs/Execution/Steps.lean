import Speculation.Execution.Step
import Speculation.Proofs.Memory

/-!
Running code instruction by instruction.

A `Machine` is what changes while one piece of code runs: the registers, the memory, and the offset
of the next instruction. `Goes c n m m'` says that `n` steps of the code `c` lead from `m` to `m'`;
there is one lemma for each instruction that says where it leads.
-/

namespace Speculation

namespace World

variable {α β : Type} {w : World}

/-- What a step of the run-time system ends in. -/
def runs (x : Run α) (w : World) : Except Fault α × World := (x.run).run w

@[simp] lemma runs_pure (a : α) : runs (pure a) w = (.ok a, w) := rfl

lemma runs_bind (x : Run β) (f : β → Run α) :
    runs (x >>= f) w =
      match runs x w with
      | (.ok a, w') => runs (f a) w'
      | (.error e, w') => (.error e, w') := by
  simp only [runs, ExceptT.run_bind, StateT.run_bind]
  rcases (x.run).run w with ⟨e | a, w'⟩ <;> rfl

/-- Go on after a step whose result is known. -/
lemma runs_bind_of_ok {x : Run β} {f : β → Run α} {b : β} {w' : World} (h : runs x w = (.ok b, w')) :
    runs (x >>= f) w = runs (f b) w' := by
  rw [runs_bind, h]

lemma runs_get : runs get w = (.ok w, w) := rfl

lemma runs_modify (f : World → World) : runs (modify f) w = (.ok (), f w) := rfl

lemma runs_modifyGet (f : World → α × World) : runs (modifyGet f) w = (.ok (f w).1, (f w).2) := rfl

lemma runs_artifact {code : Nat} {a : Artifact} (h : w.artifacts[code]? = some a) :
    runs (artifact code) w = (.ok a, w) := by
  rw [artifact, runs_bind_of_ok runs_get, h]
  rfl

lemma runs_readWord {n x : Nat} {a : UInt64} (h : w.memory.read? n a = some x) :
    runs (readWord n a) w = (.ok x, w) := by
  rw [readWord, runs_bind_of_ok runs_get, h]
  rfl

lemma runs_readWord_none {n : Nat} {a : UInt64} (h : w.memory.read? n a = none) :
    runs (readWord n a) w = (.error (.badAccess a), w) := by
  rw [readWord, runs_bind_of_ok runs_get, h]
  rfl

lemma runs_read64 {x : Nat} {a : UInt64} (h : w.memory.read? 8 a = some x) :
    runs (read64 a) w = (.ok (UInt64.ofNat x), w) := by
  rw [read64, runs_bind_of_ok (runs_readWord h)]
  rfl

lemma runs_writeWord {n x : Nat} {a : UInt64} (h : (w.memory.write n a x).1 = true) :
    runs (writeWord n a x) w = (.ok (), { w with memory := (w.memory.write n a x).2 }) := by
  rw [writeWord, runs_bind_of_ok (runs_modifyGet _)]
  dsimp only
  rw [if_pos h]
  rfl

end World

namespace Execution

variable {t : Thread} {pc : UInt64}

lemma execute_jcc {c : Cond} {rel : Int32} : execute t pc (.jcc c rel) =
    if c.holds t.registers.flags t.registers.order then
      return .running { t with pc := t.pc + rel.toInt64.toUInt64 }
    else return .running { t with registers := t.registers } := rfl

lemma execute_jmp {rel : Int32} : execute t pc (.jmp rel) =
    return .running { t with pc := t.pc + rel.toInt64.toUInt64 } := rfl

lemma execute_jmpAbs {target : UInt64} : execute t pc (.jmpAbs target) = jump t target := rfl

lemma execute_jmpReg {src : Gpr} : execute t pc (.jmpReg src) = jump t (t.registers.gpr src) := rfl

lemma execute_call {target : UInt64} :
    execute t pc (.call target) = do return .running (← call t target t.pc) := rfl

lemma execute_div32 {rem : Bool} {dst src : Gpr} : execute t pc (.div32 rem dst src) =
    match divide? rem (t.registers.gpr dst).toUInt32.toInt32
      (t.registers.gpr src).toUInt32.toInt32 with
    | some r => return .running { t with registers := t.registers.setGpr dst r.toUInt32.toUInt64 }
    | none => throw (.division pc) := rfl

end Execution

lemma Helper.at?_address (h : Helper) : Helper.at? h.address = some h := by
  cases h <;> decide

/-- A displacement is extended with its sign. -/
lemma toNat_extend (k : Int32) :
    ((k.toInt64.toUInt64).toNat : Int) = k.toInt % 18446744073709551616 := by
  have hb : (k.toInt64.toUInt64).toBitVec = BitVec.ofInt 64 k.toInt := rfl
  have hk : (k.toInt64.toUInt64).toBitVec.toNat = (k.toInt % 18446744073709551616).toNat := by
    rw [hb, BitVec.toNat_ofInt]
    rfl
  rw [← UInt64.toNat_toBitVec, hk]
  omega

/-- A displacement is added as the integer it is. -/
lemma toNat_add_extend {a : UInt64} {k : Int32} (h₀ : 0 ≤ (a.toNat : Int) + k.toInt)
    (h₁ : (a.toNat : Int) + k.toInt < 18446744073709551616) :
    ((a + k.toInt64.toUInt64).toNat : Int) = a.toNat + k.toInt := by
  have hk := toNat_extend k
  rw [UInt64.toNat_add]
  have := a.toNat_lt
  omega

/-- Where code in execution is. -/
structure Machine where
  registers : Registers
  memory : Memory
  /-- The offset of the next instruction. -/
  place : Nat

/-- The machine after an instruction that goes on with the next one. -/
def Machine.next (m : Machine) (i : Inst) (r : Registers) : Machine :=
  { m with registers := r, place := m.place + i.encode.length }

/-- Compiled code in a world. -/
structure Site where
  world : World
  code : Nat
  artifact : Artifact

namespace Site

open Execution World

variable {c : Site} {m m' m'' : Machine} {n k : Nat}

def thread (c : Site) (m : Machine) : Thread :=
  { registers := m.registers, code := c.code, pc := c.artifact.addressOf m.place, callers := [] }

def around (c : Site) (m : Machine) : World := { c.world with memory := m.memory }

/-- The code is where the world has it, and its addresses do not leave the address space. -/
structure Loaded (c : Site) : Prop where
  artifact : c.world.artifacts[c.code]? = some c.artifact
  room : c.artifact.base.toNat + c.artifact.code.size < UInt64.size

/-- What a run from a machine ends in. -/
def runFrom (c : Site) (fuel : Nat) (m : Machine) : Except Fault Outcome × World :=
  ((run fuel (c.thread m)).run).run (c.around m)

/-- So many steps lead from one machine to another. -/
def Goes (c : Site) (n : Nat) (m m' : Machine) : Prop :=
  ∀ fuel, c.runFrom (n + fuel) m = c.runFrom fuel m'

def Finishes (c : Site) (n : Nat) (m : Machine) (o : Outcome) (w : World) : Prop :=
  ∀ fuel, c.runFrom (n + fuel) m = (.ok o, w)

def Fails (c : Site) (m : Machine) : Prop := ∀ fuel, ∃ f, (c.runFrom fuel m).1 = .error f

lemma Goes.refl (m : Machine) : c.Goes 0 m m := fun fuel => by rw [Nat.zero_add]

lemma Goes.trans (h : c.Goes n m m') (h' : c.Goes k m' m'') : c.Goes (n + k) m m'' := by
  intro fuel
  rw [Nat.add_assoc, h, h']

lemma Goes.finishes {o : Outcome} {w : World} (h : c.Goes n m m') (h' : c.Finishes k m' o w) :
    c.Finishes (n + k) m o w := by
  intro fuel
  rw [Nat.add_assoc, h, h']

def Next (c : Site) (m : Machine) (i : Inst) : Prop :=
  Inst.decodeAt c.artifact.code m.place = .ok (i, i.encode.length) ∧
    m.place ≤ c.artifact.code.size

lemma addressOf_add (a : Artifact) (o n : Nat) :
    a.addressOf o + UInt64.ofNat n = a.addressOf (o + n) := by
  simp only [Artifact.addressOf, UInt64.ofNat_add, UInt64.add_assoc]

/-- What is decoded at the address of an offset is what is there. -/
lemma decodeAt_addressOf {a : Artifact} {o : Nat} (h : a.base.toNat + o < UInt64.size) :
    a.decodeAt (a.addressOf o) = .ok (Inst.decodeAt a.code o) := by
  have hbase : (a.addressOf o).toNat = a.base.toNat + o := Memory.toNat_add_ofNat h
  have hge : ¬a.addressOf o < a.base := by
    rw [UInt64.lt_iff_toNat_lt, hbase]
    omega
  have hsub : (a.addressOf o - a.base).toNat = o := by
    rw [UInt64.toNat_sub_of_le _ _ (UInt64.not_lt.mp hge), hbase]
    omega
  rw [Artifact.decodeAt, if_neg hge, hsub]

def past (c : Site) (m : Machine) (i : Inst) : Thread :=
  { c.thread m with pc := c.artifact.addressOf (m.place + i.encode.length) }

lemma step_eq (hc : c.Loaded) {i : Inst} (h : c.Next m i) :
    runs (step (c.thread m)) (c.around m) =
      runs (execute (c.past m i) (c.artifact.addressOf m.place) i) (c.around m) := by
  have hlt : c.artifact.base.toNat + m.place < UInt64.size := by
    have := hc.room
    have := h.2
    omega
  have hdecode : c.artifact.decodeAt (c.artifact.addressOf m.place) =
      .ok (.ok (i, i.encode.length)) := by
    rw [decodeAt_addressOf hlt, h.1]
  have hart : runs (World.artifact (c.thread m).code) (c.around m) = (.ok c.artifact, c.around m) :=
    runs_artifact hc.artifact
  rw [step, runs_bind_of_ok hart, show (c.thread m).pc = c.artifact.addressOf m.place from rfl,
    hdecode]
  dsimp only
  rw [past, ← addressOf_add]

/-- One step, if the instruction does not end the run. -/
lemma goes_of_execute (hc : c.Loaded) {i : Inst} (h : c.Next m i)
    (he : runs (execute (c.past m i) (c.artifact.addressOf m.place) i) (c.around m) =
      (.ok (.running (c.thread m')), c.around m')) : c.Goes 1 m m' := by
  intro fuel
  rw [Nat.add_comm]
  show runs (run (fuel + 1) (c.thread m)) (c.around m) = runs (run fuel (c.thread m')) (c.around m')
  rw [run, runs_bind_of_ok ((step_eq hc h).trans he)]

/-- One step, if the instruction ends the run. -/
lemma finishes_of_execute (hc : c.Loaded) {i : Inst} {o : Outcome} {w : World} (h : c.Next m i)
    (he : runs (execute (c.past m i) (c.artifact.addressOf m.place) i) (c.around m) =
      (.ok (.finished o), w)) : c.Finishes 1 m o w := by
  intro fuel
  rw [Nat.add_comm]
  show runs (run (fuel + 1) (c.thread m)) (c.around m) = _
  rw [run, runs_bind_of_ok ((step_eq hc h).trans he)]
  rfl

lemma fails_of_execute (hc : c.Loaded) {i : Inst} {f : Fault} (h : c.Next m i)
    (he : (runs (execute (c.past m i) (c.artifact.addressOf m.place) i) (c.around m)).1 =
      .error f) : c.Fails m := by
  intro fuel
  rcases fuel with _ | fuel
  · exact ⟨_, rfl⟩
  refine ⟨f, ?_⟩
  show (runs (run (fuel + 1) (c.thread m)) (c.around m)).1 = _
  rw [run, runs_bind, step_eq hc h]
  rcases hx : runs (execute (c.past m i) (c.artifact.addressOf m.place) i) (c.around m) with ⟨e | p, w⟩
  · rw [hx] at he
    obtain rfl : e = f := Except.error.inj he
    rfl
  · rw [hx] at he
    cases he

variable {dst src : Gpr}

lemma goes_mov (hc : c.Loaded) (h : c.Next m (.mov dst src)) :
    c.Goes 1 m (m.next (.mov dst src) (m.registers.setGpr dst (m.registers.gpr src))) :=
  goes_of_execute hc h rfl

lemma goes_zext32 (hc : c.Loaded) (h : c.Next m (.zext32 dst src)) :
    c.Goes 1 m (m.next (.zext32 dst src)
      (m.registers.setGpr dst (m.registers.gpr src).toUInt32.toUInt64)) :=
  goes_of_execute hc h rfl

lemma goes_movImm (hc : c.Loaded) {x : UInt64} (h : c.Next m (.movImm dst x)) :
    c.Goes 1 m (m.next (.movImm dst x) (m.registers.setGpr dst x)) :=
  goes_of_execute hc h rfl

lemma goes_load (hc : c.Loaded) {width : Width} {a : Address} {x : Nat}
    (h : c.Next m (.load width false dst a))
    (hx : m.memory.read? width.bytes (m.registers.address a) = some x) :
    c.Goes 1 m (m.next (.load width false dst a) (m.registers.setGpr dst (UInt64.ofNat x))) := by
  refine goes_of_execute hc h ?_
  have hread : runs (readWord width.bytes (m.registers.address a)) (c.around m) =
    (.ok x, c.around m) := runs_readWord hx
  exact runs_bind_of_ok hread

lemma fails_load (hc : c.Loaded) {width : Width} {a : Address}
    (h : c.Next m (.load width false dst a))
    (hx : m.memory.read? width.bytes (m.registers.address a) = none) : c.Fails m := by
  refine fails_of_execute (f := .badAccess (m.registers.address a)) hc h ?_
  have hread : runs (readWord width.bytes (m.registers.address a)) (c.around m) =
      (.error (.badAccess (m.registers.address a)), c.around m) := runs_readWord_none hx
  show (runs (readWord width.bytes (m.registers.address a) >>= _) (c.around m)).1 = _
  rw [runs_bind, hread]

lemma goes_store (hc : c.Loaded) {width : Width} {a : Address}
    (h : c.Next m (.store width src a))
    (hx : (m.memory.write width.bytes (m.registers.address a) (m.registers.gpr src).toNat).1 =
      true) :
    c.Goes 1 m { m.next (.store width src a) m.registers with
      memory :=
        (m.memory.write width.bytes (m.registers.address a) (m.registers.gpr src).toNat).2 } := by
  refine goes_of_execute hc h ?_
  exact runs_bind_of_ok (runs_writeWord (w := c.around m) hx)

lemma goes_alu (hc : c.Loaded) {size : Size} {op : AluOp} {o : Operand}
    (h : c.Next m (.alu size op dst o)) :
    c.Goes 1 m (m.next (.alu size op dst o)
      ({ m.registers with
          flags := (size.run op (m.registers.gpr dst) (m.registers.operand o)).2 }.setGpr dst
        (size.run op (m.registers.gpr dst) (m.registers.operand o)).1)) :=
  goes_of_execute hc h rfl

lemma goes_cmp (hc : c.Loaded) {size : Size} {o : Operand} (h : c.Next m (.cmp size src o)) :
    c.Goes 1 m (m.next (.cmp size src o)
      { m.registers with
        flags := (size.run .sub (m.registers.gpr src) (m.registers.operand o)).2 }) :=
  goes_of_execute hc h rfl

lemma goes_test (hc : c.Loaded) {size : Size} {o : Operand} (h : c.Next m (.test size src o)) :
    c.Goes 1 m (m.next (.test size src o)
      { m.registers with
        flags := (size.run .and (m.registers.gpr src) (m.registers.operand o)).2 }) :=
  goes_of_execute hc h rfl

lemma goes_setExit (hc : c.Loaded) {x : UInt32} (h : c.Next m (.setExit x)) :
    c.Goes 1 m (m.next (.setExit x) { m.registers with exitIndex := x }) :=
  goes_of_execute hc h rfl

/-- A branch goes to the offset that its distance was taken to. -/
lemma addressOf_branch (a : Artifact) {stop target : Nat} (hs : stop < 2147483648)
    (ht : target < 2147483648) :
    a.addressOf stop + (Int32.ofInt ((target : Int) - stop)).toInt64.toUInt64 =
      a.addressOf target := by
  have hr : (Int32.ofInt ((target : Int) - stop)).toInt = (target : Int) - stop := by
    exact Int32.toInt_ofInt_of_le (by omega) (by omega)
  have h := toNat_add_extend (a := UInt64.ofNat stop) (k := Int32.ofInt ((target : Int) - stop))
  have hstop : (UInt64.ofNat stop).toNat = stop :=
    UInt64.toNat_ofNat_of_lt' (Nat.lt_trans hs (by decide))
  rw [hr, hstop] at h
  have hsum : UInt64.ofNat stop + (Int32.ofInt ((target : Int) - stop)).toInt64.toUInt64 =
      UInt64.ofNat target := by
    apply UInt64.toNat_inj.mp
    rw [UInt64.toNat_ofNat_of_lt' (Nat.lt_trans ht (by decide))]
    have := h (by omega) (by omega)
    omega
  rw [Artifact.addressOf, Artifact.addressOf, UInt64.add_assoc, hsum]

lemma goes_jcc (hc : c.Loaded) {cond : Cond} {target : Nat}
    (h : c.Next m (.jcc cond (Int32.ofInt ((target : Int) - (m.place + 6 : Nat)))))
    (hs : m.place + 6 < 2147483648) (ht : target < 2147483648) :
    c.Goes 1 m { m with
      place := if cond.holds m.registers.flags m.registers.order then target else m.place + 6 } := by
  refine goes_of_execute hc h ?_
  by_cases hcond : cond.holds m.registers.flags m.registers.order
  · have hpc := addressOf_branch c.artifact hs ht
    simp only [execute_jcc, past, thread, hcond, if_true]
    show (_, _) = _
    rw [show m.place + (Inst.jcc cond (Int32.ofInt ((target : Int) - (m.place + 6 : Nat)))).encode.length
      = m.place + 6 from rfl, hpc]
    rfl
  · simp only [execute_jcc, past, thread, hcond]
    rfl

lemma goes_jmp (hc : c.Loaded) {target : Nat}
    (h : c.Next m (.jmp (Int32.ofInt ((target : Int) - (m.place + 5 : Nat)))))
    (hs : m.place + 5 < 2147483648) (ht : target < 2147483648) :
    c.Goes 1 m { m with place := target } := by
  refine goes_of_execute hc h ?_
  have hpc := addressOf_branch c.artifact hs ht
  simp only [execute_jmp, past, thread]
  show (_, _) = _
  rw [show m.place + (Inst.jmp (Int32.ofInt ((target : Int) - (m.place + 5 : Nat)))).encode.length
    = m.place + 5 from rfl, hpc]
  rfl

lemma finishes_ret (hc : c.Loaded) (h : c.Next m .ret) :
    c.Finishes 1 m (.returned ⟨m.registers.gpr .result⟩) (c.around m) :=
  finishes_of_execute hc h rfl

lemma finishes_leave (hc : c.Loaded) {x : ExitState} {w : World}
    (h : c.Next m (.jmpAbs Thunk.osrExit.address))
    (hx : runs (leave m.registers c.code) (c.around m) = (.ok x, w)) :
    c.Finishes 1 m (.exited x) w := by
  refine finishes_of_execute hc h ?_
  have hthunk : Thunk.at? Thunk.osrExit.address = some .osrExit := by decide
  simp only [execute_jmpAbs, jump, hthunk]
  exact runs_bind_of_ok hx

/-- If leaving fails, so does the jump. -/
lemma fails_leave (hc : c.Loaded) {f : Fault} {w : World}
    (h : c.Next m (.jmpAbs Thunk.osrExit.address))
    (hx : runs (leave m.registers c.code) (c.around m) = (.error f, w)) : c.Fails m := by
  refine fails_of_execute (f := f) hc h ?_
  have hthunk : Thunk.at? Thunk.osrExit.address = some .osrExit := by decide
  simp only [execute_jmpAbs, jump, hthunk]
  show (runs (leave m.registers c.code >>= _) (c.around m)).1 = _
  rw [runs_bind, hx]

lemma goes_call (hc : c.Loaded) {f : Helper} {r : Registers} {mem : Memory}
    (h : c.Next m (.call f.address))
    (hx : runs (callHelper f m.registers c.code) (c.around m) =
      (.ok r, { c.world with memory := mem })) :
    c.Goes 1 m ⟨r, mem, m.place + (Inst.call f.address).encode.length⟩ := by
  refine goes_of_execute hc h ?_
  have hcall : runs (call (c.past m (.call f.address)) f.address (c.past m (.call f.address)).pc)
      (c.around m) = (.ok { c.past m (.call f.address) with registers := r },
        { c.world with memory := mem }) := by
    rw [call, f.at?_address]
    exact (runs_bind_of_ok hx).trans rfl
  exact (runs_bind_of_ok hcall).trans rfl

end Site

/-- The instruction leads from some registers and memory to others, and goes on with the next one. -/
def Inst.Steps (i : Inst) (r : Registers) (mem : Memory) (r' : Registers) (mem' : Memory) : Prop :=
  ∀ (c : Site) (m : Machine), c.Loaded → c.Next m i → m.registers = r → m.memory = mem →
    c.Goes 1 m ⟨r', mem', m.place + i.encode.length⟩

namespace Inst

variable {r : Registers} {mem : Memory} {dst src : Gpr} {size : Size} {op : AluOp} {o : Operand}

lemma steps_mov : Steps (.mov dst src) r mem (r.setGpr dst (r.gpr src)) mem := by
  rintro c m hc hn rfl rfl
  exact c.goes_mov hc hn

lemma steps_movImm {x : UInt64} : Steps (.movImm dst x) r mem (r.setGpr dst x) mem := by
  rintro c m hc hn rfl rfl
  exact c.goes_movImm hc hn

lemma steps_load {width : Width} {a : Address} {x : Nat}
    (hx : mem.read? width.bytes (r.address a) = some x) :
    Steps (.load width false dst a) r mem (r.setGpr dst (UInt64.ofNat x)) mem := by
  rintro c m hc hn rfl rfl
  exact c.goes_load hc hn hx

lemma steps_store {width : Width} {a : Address}
    (hx : (mem.write width.bytes (r.address a) (r.gpr src).toNat).1 = true) :
    Steps (.store width src a) r mem r
      (mem.write width.bytes (r.address a) (r.gpr src).toNat).2 := by
  rintro c m hc hn rfl rfl
  exact c.goes_store hc hn hx

lemma steps_alu : Steps (.alu size op dst o) r mem
    ({ r with flags := (size.run op (r.gpr dst) (r.operand o)).2 }.setGpr dst
      (size.run op (r.gpr dst) (r.operand o)).1) mem := by
  rintro c m hc hn rfl rfl
  exact c.goes_alu hc hn

lemma steps_cmp : Steps (.cmp size src o) r mem
    { r with flags := (size.run .sub (r.gpr src) (r.operand o)).2 } mem := by
  rintro c m hc hn rfl rfl
  exact c.goes_cmp hc hn

lemma steps_test : Steps (.test size src o) r mem
    { r with flags := (size.run .and (r.gpr src) (r.operand o)).2 } mem := by
  rintro c m hc hn rfl rfl
  exact c.goes_test hc hn

lemma steps_zext32 : Steps (.zext32 dst src) r mem
    (r.setGpr dst (r.gpr src).toUInt32.toUInt64) mem := by
  rintro c m hc hn rfl rfl
  exact c.goes_zext32 hc hn

lemma steps_neg32 : Steps (.neg32 dst) r mem
    ({ r with flags := (Size.s32.run .sub 0 (r.gpr dst)).2 }.setGpr dst
      (Size.s32.run .sub 0 (r.gpr dst)).1) mem := by
  rintro c m hc hn rfl rfl
  exact Site.goes_of_execute hc hn rfl

lemma steps_dcmp {f g : Fpr} : Steps (.dcmp f g) r mem
    { r with order := (r.fpr f).compare? (r.fpr g) } mem := by
  rintro c m hc hn rfl rfl
  exact Site.goes_of_execute hc hn rfl

lemma steps_setCond {cond : Cond} : Steps (.setCond cond dst) r mem
    (r.setGpr dst (Execution.boolWord (cond.holds r.flags r.order))) mem := by
  rintro c m hc hn rfl rfl
  exact Site.goes_of_execute hc hn rfl

/-- A watchpoint that has not fired does nothing. -/
lemma steps_watchpoint {x : UInt32} : Steps (.watchpoint x) r mem r mem := by
  rintro c m hc hn rfl rfl
  exact Site.goes_of_execute hc hn rfl

lemma steps_cvtIntToD {f : Fpr} : Steps (.cvtIntToD f src) r mem
    (r.setFpr f (.ofInt32 (r.gpr src).toUInt32.toInt32)) mem := by
  rintro c m hc hn rfl rfl
  exact Site.goes_of_execute hc hn rfl

lemma steps_cvtDToInt {f : Fpr} : Steps (.cvtDToInt dst f) r mem
    (r.setGpr dst (r.fpr f).truncateInt32.toUInt32.toUInt64) mem := by
  rintro c m hc hn rfl rfl
  exact Site.goes_of_execute hc hn rfl

lemma steps_movGToD {f : Fpr} : Steps (.movGToD f src) r mem (r.setFpr f ⟨r.gpr src⟩) mem := by
  rintro c m hc hn rfl rfl
  exact Site.goes_of_execute hc hn rfl

/-- A division that has a result does not fault. -/
lemma steps_div32 {rem : Bool} {q : Int32}
    (h : divide? rem (r.gpr dst).toUInt32.toInt32 (r.gpr src).toUInt32.toInt32 = some q) :
    Steps (.div32 rem dst src) r mem (r.setGpr dst q.toUInt32.toUInt64) mem := by
  rintro c m hc hn rfl rfl
  refine Site.goes_of_execute hc hn ?_
  simp only [Execution.execute_div32, Site.past, Site.thread, h]
  rfl

/-- A double is stored as its pattern. -/
lemma steps_storeD {f : Fpr} {a : Address}
    (hx : (mem.write 8 (r.address a) (r.fpr f).bits.toNat).1 = true) :
    Steps (.storeD f a) r mem r (mem.write 8 (r.address a) (r.fpr f).bits.toNat).2 := by
  rintro c m hc hn rfl rfl
  refine Site.goes_of_execute hc hn ?_
  exact World.runs_bind_of_ok (World.runs_writeWord (w := c.around m) hx)

end Inst
end Speculation
