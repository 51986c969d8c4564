import Speculation.Proofs.Execution.Flags
import Speculation.Proofs.Execution.Straight
import Speculation.Proofs.Memory
import Speculation.Proofs.SlowPath.Guards

/-!
Saving registers and restoring them.

Each register that is saved has a slot of its own, and the slots have no byte in common wherever the
frame is, even where addresses wrap around. So what is restored is what was saved, as long as nobody
else has written to the slot.
-/

namespace Speculation

namespace Memory

variable {m m' : Memory} {a b : UInt64}

lemma sub_add_one (a b : UInt64) (h : b ≠ a) : (b - (a + 1)).toNat + 1 = (b - a).toNat := by
  have hne : b.toNat ≠ a.toNat := fun he => h (UInt64.toNat_inj.mp he)
  have ha := a.toNat_lt
  have hb := b.toNat_lt
  simp only [UInt64.toNat_sub, UInt64.toNat_add]
  have h1 : (1 : UInt64).toNat = 1 := rfl
  omega

/-- Bytes that are not among those written are as before, and those that were written are read back,
also where the addresses wrap around. -/
lemma writeBytes_wraps {bs : List UInt8} (h : m.writeBytes a bs = (true, m'))
    (hlen : bs.length < UInt64.size) :
    (∀ b, bs.length ≤ (b - a).toNat → m'.byte? b = m.byte? b) ∧
      ∀ cs, m'.readBytes? a bs.length = some cs → cs = bs := by
  induction bs generalizing m a with
  | nil =>
    cases h
    exact ⟨fun _ _ => rfl, fun cs hcs => (Option.some.inj hcs).symm⟩
  | cons x bs ih =>
    rw [writeBytes] at h
    split at h
    case isFalse => cases h
    rw [List.length_cons] at hlen
    obtain ⟨hkept, hread⟩ := ih h (by omega)
    have hhere : m'.byte? a = (m.byte? a).map fun _ => x := by
      have hfar : bs.length ≤ (a - (a + 1)).toNat := by
        have ha := a.toNat_lt
        have h1 : (1 : UInt64).toNat = 1 := rfl
        simp only [UInt64.toNat_sub, UInt64.toNat_add, UInt64.size] at hlen ⊢
        omega
      rw [hkept a hfar, byte?_setByte, if_pos rfl]
    refine ⟨fun b hb => ?_, fun cs hcs => ?_⟩
    · have hne : b ≠ a := by
        rintro rfl
        simp at hb
      have := sub_add_one a b hne
      rw [List.length_cons] at hb
      rw [hkept b (by omega), byte?_setByte, if_neg hne]
    · rw [List.length_cons, readBytes?, hhere] at hcs
      rcases hx : m.byte? a with _ | y
      · rw [hx] at hcs
        cases hcs
      · rcases hr : m'.readBytes? (a + 1) bs.length with _ | ds
        · rw [hx, hr] at hcs
          cases hcs
        · rw [hx, hr] at hcs
          cases hcs
          rw [hread ds hr]

/-- A word that was written is read back, and the bytes of no other change. -/
lemma write_wraps {x : UInt64} (h : m.write 8 a x.toNat = (true, m')) :
    (∀ b, 8 ≤ (b - a).toNat → m'.byte? b = m.byte? b) ∧ ∀ y, m'.read? 8 a = some y → y = x.toNat := by
  obtain ⟨hkept, hread⟩ := writeBytes_wraps h (by simp [UInt64.size])
  rw [Bytes.length_ofNat] at hkept hread
  refine ⟨hkept, fun y hy => ?_⟩
  obtain ⟨bs, hbs, rfl⟩ := Option.map_eq_some_iff.mp hy
  have hx := x.toNat_lt
  rw [hread bs hbs, Bytes.toNat_ofNat]
  exact Nat.mod_eq_of_lt hx

lemma writeBytes_of_mapped {bs : List UInt8} (h : Mapped m a bs.length) :
    (m.writeBytes a bs).1 = true ∧ ∀ {b n}, Mapped m b n → Mapped (m.writeBytes a bs).2 b n := by
  induction bs generalizing m a with
  | nil => exact ⟨rfl, id⟩
  | cons x bs ih =>
    have htail : Mapped (m.setByte a x) (a + 1) bs.length := h.tail.setByte
    rw [writeBytes, if_pos (isMapped_of_byte? h.head)]
    exact ⟨(ih htail).1, fun hb => (ih htail).2 hb.setByte⟩

/-- A word that can be read can be written. -/
lemma write_of_mapped {n : Nat} (h : Mapped m a n) (x : Nat) :
    (m.write n a x).1 = true ∧ ∀ {b j}, Mapped m b j → Mapped (m.write n a x).2 b j :=
  writeBytes_of_mapped (by rwa [Bytes.length_ofNat])

end Memory

def Location.saveIndex : Location → Nat
  | .none => 0
  | .gpr r => r.val
  | .fpr f => 12 + f.val

namespace Location

variable {l l' : Location}

lemma Holds.saveIndex_lt (h : l.Holds) : l.saveIndex < Lowering.saveAreaSlots := by
  cases l with
  | none => exact h.elim
  | gpr r =>
    have hg : ∀ r : Gpr, r ∈ Gpr.allocatable → r.val < 12 := by decide
    have := hg r h
    simp only [saveIndex, Lowering.saveAreaSlots]
    omega
  | fpr f =>
    have hf : ∀ f : Fpr, f ∈ Fpr.allocatable → f.val < 8 := by decide
    have := hf f h
    simp only [saveIndex, Lowering.saveAreaSlots]
    omega

lemma Holds.saveIndex_inj (h : l.Holds) (h' : l'.Holds) (he : l.saveIndex = l'.saveIndex) : l = l' := by
  have hg : ∀ r : Gpr, r ∈ Gpr.allocatable → r.val < 12 := by decide
  have hf : ∀ f : Fpr, f.val < 9 := fun f => f.isLt
  rcases l with _ | r | f <;> rcases l' with _ | q | g <;> try first | exact h.elim | exact h'.elim
  · exact congrArg _ (Fin.ext he)
  · have := hg r h
    simp only [saveIndex] at he
    omega
  · have := hg q h'
    simp only [saveIndex] at he
    omega
  · exact congrArg _ (Fin.ext (Nat.add_left_cancel he))

lemma Holds.ne_frame (h : l.Holds) : l ≠ .gpr .frame := by
  rintro rfl
  revert h
  simp only [Holds]
  decide

end Location

namespace Lowering

def FrameLayout.saveSlot (f : FrameLayout) (k : Nat) : Slot := .ofLocal (f.numLocals + k)

def FrameLayout.saveAt (f : FrameLayout) (frame : UInt64) (k : Nat) : UInt64 :=
  frame + (f.saveSlot k).offset.toInt64.toUInt64

/-- The byte at `b` is in none of the save slots. -/
def FrameLayout.Unsaved (f : FrameLayout) (frame b : UInt64) : Prop :=
  ∀ k, k < saveAreaSlots → 8 ≤ (b - f.saveAt frame k).toNat

def FrameLayout.save (f : FrameLayout) : Location → Inst
  | .none => .breakpoint
  | .gpr r => .store .w64 r (f.gprSave r.val)
  | .fpr r => .storeD r (f.fprSave r.val)

def FrameLayout.restore (f : FrameLayout) : Location → Inst
  | .none => .breakpoint
  | .gpr r => .load .w64 false r (f.gprSave r.val)
  | .fpr r => .loadD r (f.fprSave r.val)

variable {f : FrameLayout} {l : Location} {ls : List Location} {m m' : Registers} {mem mem' : Memory}
  {frame : UInt64} {i j k : Nat}

lemma toInt_offset_ofLocal (i : Nat) : ∃ q : Int,
    (Slot.ofLocal i).offset.toInt = -8 * (i + 1) + 4294967296 * q ∧
      -2147483648 ≤ (Slot.ofLocal i).offset.toInt ∧ (Slot.ofLocal i).offset.toInt < 2147483648 := by
  have hle := Int32.minValue_le_toInt (Slot.ofLocal i).offset
  have hlt := Int32.toInt_le (Slot.ofLocal i).offset
  have hi : ∃ q : Int, Slot.signed i = i + 4294967296 * q := by
    obtain ⟨q, hq⟩ := Int.dvd_self_sub_bmod (x := i) (m := 4294967296)
    exact ⟨-q, by unfold Slot.signed; omega⟩
  obtain ⟨q, hq⟩ := hi
  have ho : (Slot.ofLocal i).offset.toInt = ((-Slot.signed i - 1) * 8).bmod 4294967296 :=
    Int32.toInt_ofInt
  obtain ⟨p, hp⟩ := Int.dvd_self_sub_bmod (x := (-Slot.signed i - 1) * 8) (m := 4294967296)
  refine ⟨-8 * q - p, ?_, ?_, ?_⟩
  · rw [ho]
    omega
  · simpa using hle
  · have : (Int32.maxValue.toInt) = 2147483647 := rfl
    omega

/-- Two slots have no byte in common, wherever the frame is. -/
lemma slots_apart (frame : UInt64) (hi : i < k + 536870912) (hk : k < i + 536870912) (hne : i ≠ k)
    (hj : j < 8) : 8 ≤ (frame + (Slot.ofLocal i).offset.toInt64.toUInt64 + UInt64.ofNat j -
      (frame + (Slot.ofLocal k).offset.toInt64.toUInt64)).toNat := by
  obtain ⟨p, hp, hp₀, hp₁⟩ := toInt_offset_ofLocal i
  obtain ⟨q, hq, hq₀, hq₁⟩ := toInt_offset_ofLocal k
  have hi' := toNat_extend (Slot.ofLocal i).offset
  have hk' := toNat_extend (Slot.ofLocal k).offset
  have hj' : (UInt64.ofNat j).toNat = j := UInt64.toNat_ofNat_of_lt' (Nat.lt_trans hj (by decide))
  simp only [UInt64.toNat_sub, UInt64.toNat_add, hj']
  have := frame.toNat_lt
  generalize (Slot.ofLocal i).offset.toInt = x at *
  generalize (Slot.ofLocal k).offset.toInt = y at *
  generalize UInt64.toNat (Int64.toUInt64 (Int32.toInt64 (Slot.ofLocal i).offset)) = x' at *
  generalize UInt64.toNat (Int64.toUInt64 (Int32.toInt64 (Slot.ofLocal k).offset)) = y' at *
  omega

lemma saveAt_apart (hi : i < saveAreaSlots) (hk : k < saveAreaSlots) (hne : i ≠ k) (hj : j < 8) :
    8 ≤ (f.saveAt frame i + UInt64.ofNat j - f.saveAt frame k).toNat := by
  simp only [saveAreaSlots] at hi hk
  exact slots_apart frame (by omega) (by omega) (by omega) hj

/-- Where a double register is saved. -/
lemma saveAt_fpr (g : Fpr) :
    f.saveAt (m.gpr .frame) (Location.fpr g).saveIndex = m.address (f.fprSave g.val) := by
  simp only [FrameLayout.saveAt, FrameLayout.saveSlot, Location.saveIndex, ← Nat.add_assoc]
  rfl

lemma effect_save (hl : l.Holds) (h : (f.save l).effect m mem = some (m', mem')) :
    m' = m ∧
      mem.write 8 (f.saveAt (m.gpr .frame) l.saveIndex) (m.word l).toNat = (true, mem') := by
  have hstore : ∀ a x, (if (mem.write 8 a x).1 then some (m, (mem.write 8 a x).2) else none) =
      some (m', mem') → m' = m ∧ mem.write 8 a x = (true, mem') := by
    intro a x h
    rcases hw : mem.write 8 a x with ⟨_ | _, mem''⟩ <;> rw [hw] at h <;> cases h
    exact ⟨rfl, rfl⟩
  rcases l with _ | r | g
  · exact hl.elim
  · exact hstore _ _ h
  · rw [saveAt_fpr]
    exact hstore _ _ h

lemma effect_restore (hl : l.Holds) (h : (f.restore l).effect m mem = some (m', mem')) :
    mem' = mem ∧ (∀ q, q ≠ l → m'.word q = m.word q) ∧
      ∃ x, mem.read? 8 (f.saveAt (m.gpr .frame) l.saveIndex) = some x ∧
        m'.word l = UInt64.ofNat x := by
  rcases l with _ | r | g
  · exact hl.elim
  · obtain ⟨x, hx, he⟩ := Option.map_eq_some_iff.mp h
    cases he
    refine ⟨rfl, fun q hq => ?_, x, hx, ?_⟩
    · rcases q with _ | q | g
      · rfl
      · have hne : q ≠ r := fun he => hq (congrArg _ he)
        simp [Registers.word, hne]
      · rfl
    · simp [Registers.word, Width.extend]
  · rw [saveAt_fpr]
    obtain ⟨x, hx, he⟩ := Option.map_eq_some_iff.mp h
    cases he
    refine ⟨rfl, fun q hq => ?_, x, hx, ?_⟩
    · rcases q with _ | q | k
      · rfl
      · rfl
      · have hne : k ≠ g := fun he => hq (congrArg _ he)
        simp [Registers.word, hne]
    · simp [Registers.word]

/-- Saving registers writes to their slots only, and there what they hold. -/
lemma effects_saves (hls : ∀ l ∈ ls, l.Holds)
    (h : Inst.effects (ls.map f.save) m mem = some (m', mem')) :
    m' = m ∧
      (∀ b, (∀ l ∈ ls, 8 ≤ (b - f.saveAt (m.gpr .frame) l.saveIndex).toNat) →
        mem'.byte? b = mem.byte? b) ∧
      ∀ l ∈ ls, ∀ y, mem'.read? 8 (f.saveAt (m.gpr .frame) l.saveIndex) = some y →
        y = (m.word l).toNat := by
  induction ls generalizing mem with
  | nil =>
    cases h
    exact ⟨rfl, fun _ _ => rfl, nofun⟩
  | cons l ls ih =>
    obtain ⟨hl, hls'⟩ := List.forall_mem_cons.mp hls
    obtain ⟨⟨m₁, mem₁⟩, heff, hrest⟩ := Option.bind_eq_some_iff.mp h
    obtain ⟨rfl, hw⟩ := effect_save hl heff
    obtain ⟨rfl, hkept, hread⟩ := ih hls' hrest
    obtain ⟨hkept₁, hread₁⟩ := Memory.write_wraps hw
    refine ⟨rfl, fun b hb => ?_, fun q hq y hy => ?_⟩
    · obtain ⟨hb₁, hb⟩ := List.forall_mem_cons.mp hb
      rw [hkept b hb, hkept₁ b hb₁]
    · by_cases hmem : q ∈ ls
      · exact hread q hmem y hy
      -- its slot was written first, and the other slots are apart from it
      obtain rfl := (List.mem_cons.mp hq).resolve_right hmem
      refine hread₁ y ?_
      rw [← hy, Memory.read?, Memory.read?, Memory.readBytes?_congr fun j hj => ?_]
      refine (hkept _ fun k hk => ?_).symm
      refine saveAt_apart hl.saveIndex_lt (hls' k hk).saveIndex_lt (fun he => ?_) hj
      exact hmem (hl.saveIndex_inj (hls' k hk) he ▸ hk)

/-- Restoring registers loads them from their slots, and no other ones. -/
lemma effects_restores (hls : ∀ l ∈ ls, l.Holds)
    (h : Inst.effects (ls.map f.restore) m mem = some (m', mem')) :
    mem' = mem ∧ (∀ q, q ∉ ls → m'.word q = m.word q) ∧
      ∀ l ∈ ls, ∃ x, mem.read? 8 (f.saveAt (m.gpr .frame) l.saveIndex) = some x ∧
        m'.word l = UInt64.ofNat x := by
  induction ls generalizing m with
  | nil =>
    cases h
    exact ⟨rfl, fun _ _ => rfl, nofun⟩
  | cons l ls ih =>
    obtain ⟨hl, hls'⟩ := List.forall_mem_cons.mp hls
    obtain ⟨⟨m₁, mem₁⟩, heff, hrest⟩ := Option.bind_eq_some_iff.mp h
    obtain ⟨rfl, hother, x, hx, hword⟩ := effect_restore hl heff
    obtain ⟨rfl, hother', hloads⟩ := ih hls' hrest
    have hframe : m₁.gpr .frame = m.gpr .frame := hother (.gpr .frame) hl.ne_frame.symm
    rw [hframe] at hloads
    refine ⟨rfl, fun q hq => ?_, fun q hq => ?_⟩
    · rw [List.mem_cons, not_or] at hq
      rw [hother' q hq.2, hother q hq.1]
    · by_cases hmem : q ∈ ls
      · exact hloads q hmem
      · obtain rfl := (List.mem_cons.mp hq).resolve_right hmem
        exact ⟨x, hx, (hother' q hmem).trans hword⟩

def FrameLayout.Mapped (f : FrameLayout) (frame : UInt64) (mem : Memory) : Prop :=
  ∀ k < saveAreaSlots, mem.Mapped (f.saveAt frame k) 8

/-- A register can be saved where the save area is. -/
lemma exists_save (hl : l.Holds) (hmap : f.Mapped (m.gpr .frame) mem) :
    ∃ mem', (f.save l).effect m mem = some (m, mem') ∧ ∀ a n, mem.Mapped a n → mem'.Mapped a n := by
  obtain ⟨hfst, hkept⟩ := Memory.write_of_mapped (hmap _ hl.saveIndex_lt) (m.word l).toNat
  refine ⟨_, ?_, fun _ _ => hkept⟩
  rcases l with _ | r | g
  · exact hl.elim
  · exact if_pos hfst
  · rw [saveAt_fpr] at hfst ⊢
    exact if_pos hfst

lemma exists_saves (hls : ∀ l ∈ ls, l.Holds) (hmap : f.Mapped (m.gpr .frame) mem) :
    ∃ mem', Inst.effects (ls.map f.save) m mem = some (m, mem') ∧
      ∀ a n, mem.Mapped a n → mem'.Mapped a n := by
  induction ls generalizing mem with
  | nil => exact ⟨mem, rfl, fun _ _ => id⟩
  | cons l ls ih =>
    obtain ⟨hl, hls⟩ := List.forall_mem_cons.mp hls
    obtain ⟨mem₁, heff, hkept⟩ := exists_save hl hmap
    obtain ⟨mem₂, heffs, hkept'⟩ := ih hls fun k hk => hkept _ _ (hmap k hk)
    refine ⟨mem₂, ?_, fun a n h => hkept' a n (hkept a n h)⟩
    rw [List.map_cons, Inst.effects, heff]
    exact heffs

/-- A register can be restored from where the save area is. -/
lemma exists_restore (hl : l.Holds) (hmap : f.Mapped (m.gpr .frame) mem) :
    ∃ m', (f.restore l).effect m mem = some (m', mem) := by
  obtain ⟨x, hx, -⟩ := Memory.read?_of_mapped (hmap _ hl.saveIndex_lt)
  rcases l with _ | r | g
  · exact hl.elim
  · exact ⟨_, congrArg (Option.map _) hx⟩
  · rw [saveAt_fpr] at hx
    exact ⟨_, congrArg (Option.map _) hx⟩

lemma exists_restores (hls : ∀ l ∈ ls, l.Holds) (hmap : f.Mapped (m.gpr .frame) mem) :
    ∃ m', Inst.effects (ls.map f.restore) m mem = some (m', mem) := by
  induction ls generalizing m with
  | nil => exact ⟨m, rfl⟩
  | cons l ls ih =>
    obtain ⟨hl, hls⟩ := List.forall_mem_cons.mp hls
    obtain ⟨m₁, heff⟩ := exists_restore hl hmap
    have hframe : m₁.gpr .frame = m.gpr .frame :=
      (effect_restore hl heff).2.1 (.gpr .frame) hl.ne_frame.symm
    obtain ⟨m₂, heffs⟩ := ih (m := m₁) hls (hframe ▸ hmap)
    refine ⟨m₂, ?_⟩
    rw [List.map_cons, Inst.effects, heff]
    exact heffs

lemma computes_save (hl : l.Holds) : (f.save l).computes = true := by
  rcases l with _ | r | g
  · exact hl.elim
  · rfl
  · rfl

lemma computes_restore (hl : l.Holds) : (f.restore l).computes = true := by
  rcases l with _ | r | g
  · exact hl.elim
  · rfl
  · rfl

end Lowering
end Speculation
