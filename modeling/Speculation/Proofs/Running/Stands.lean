import Speculation.Proofs.Running.Course
import Speculation.Proofs.SlowPath.Saving
import Speculation.Proofs.Values

/-!
Where values are while code is running.

`Represents` says that a word represents a value in a format. `Stands` says that every value which a
ledger knows of is, in the formats that the ledger gives, in its register and in its slot: it is what
makes a machine consistent with the ledger. The frame may be anywhere, also where addresses wrap
around.
-/

namespace Speculation

open Lowering

/-! ### Slots -/

namespace Registers

variable {r r' : Registers} {i j k : Nat} {mem : Memory} {w : UInt64}

def slot (r : Registers) (i : Nat) : UInt64 := r.address (FrameLayout.address (.ofLocal i))

lemma slot_eq (h : r'.gpr .frame = r.gpr .frame) (i : Nat) : r'.slot i = r.slot i := by
  show r'.gpr .frame + _ = r.gpr .frame + _
  rw [h]

/-- Two slots have no byte in common. -/
lemma slot_apart (hi : i < 268435456) (hk : k < 268435456) (hne : i ≠ k) (hj : j < 8) :
    8 ≤ (r.slot i + UInt64.ofNat j - r.slot k).toNat :=
  slots_apart (r.gpr .frame) (by omega) (by omega) hne hj

def stored (r : Registers) (mem : Memory) (i : Nat) (w : UInt64) : Memory :=
  (mem.write 8 (r.slot i) w.toNat).2

section Store

variable (hm : mem.Mapped (r.slot i) 8)
include hm

lemma write_slot : mem.write 8 (r.slot i) w.toNat = (true, r.stored mem i w) :=
  Prod.ext (Memory.write_of_mapped hm _).1 rfl

lemma mapped_stored {a : UInt64} {n : Nat} (ha : mem.Mapped a n) : (r.stored mem i w).Mapped a n :=
  (Memory.write_of_mapped hm _).2 ha

lemma read?_stored_self : (r.stored mem i w).read? 8 (r.slot i) = some w.toNat := by
  obtain ⟨y, hy, -⟩ := Memory.read?_of_mapped (mapped_stored (w := w) hm hm)
  rw [hy, (Memory.write_wraps (write_slot hm)).2 y hy]

lemma read?_stored_of_ne (hi : i < 268435456) (hk : k < 268435456) (hne : k ≠ i) :
    (r.stored mem i w).read? 8 (r.slot k) = mem.read? 8 (r.slot k) := by
  rw [Memory.read?, Memory.read?, Memory.readBytes?_congr fun j hj => ?_]
  exact (Memory.write_wraps (write_slot hm)).1 _ (slot_apart hk hi hne hj)

end Store

end Registers

def Registers.Beyond (r : Registers) (g : Graph) (a : UInt64) : Prop :=
  ∀ ⦃n : NodeId⦄ ⦃d : Node⦄ ⦃i : Nat⦄, g.nodes[n]? = some d → d.slot = some (.ofLocal i) →
    8 ≤ (a - r.slot i).toNat

/-- Memory has changed at most in the slots of values. -/
def Confined (g : Graph) (r : Registers) (mem mem' : Memory) : Prop :=
  ∀ ⦃a⦄, r.Beyond g a → mem'.byte? a = mem.byte? a

namespace Confined

variable {g : Graph} {r r' : Registers} {mem mem' mem'' : Memory} {n : NodeId} {d : Node} {i : Nat}

lemma refl (g : Graph) (r : Registers) (mem : Memory) : Confined g r mem mem := fun _ _ => rfl

lemma trans (h : Confined g r mem mem') (h' : Confined g r' mem' mem'')
    (hf : r'.gpr .frame = r.gpr .frame) : Confined g r mem mem'' := by
  intro a ha
  refine (h' fun n d i hd hi => ?_).trans (h ha)
  rw [Registers.slot_eq hf]
  exact ha hd hi

lemma stored (hm : mem.Mapped (r.slot i) 8) (hd : g.nodes[n]? = some d)
    (hi : d.slot = some (.ofLocal i)) (w : UInt64) : Confined g r mem (r.stored mem i w) :=
  fun _ ha => (Memory.write_wraps (Registers.write_slot hm)).1 _ (ha hd hi)

end Confined

/-! ### The save area -/

namespace Lowering.FrameLayout

/-- The slots of values come before the save area, and they are not too many for their addresses. -/
structure Fits (f : FrameLayout) (g : Graph) : Prop where
  numbered {n : NodeId} {d : Node} {o : Slot} (hd : g.nodes[n]? = some d) (ho : d.slot = some o) :
    ∃ i, o = .ofLocal i ∧ i < f.numLocals
  small : f.numLocals ≤ 268435456

/-- Memory has changed at most in the slots of values and in the save area. -/
def Confined (f : FrameLayout) (g : Graph) (r : Registers) (mem mem' : Memory) : Prop :=
  ∀ ⦃a⦄, r.Beyond g a → f.Unsaved (r.gpr .frame) a → mem'.byte? a = mem.byte? a

namespace Fits

variable {f : FrameLayout} {g : Graph} {r : Registers} {mem mem' : Memory} {n : NodeId} {d : Node}
  {i j k : Nat} (h : f.Fits g)
include h

lemma apart (hk : k < saveAreaSlots) (hd : g.nodes[n]? = some d) (hi : d.slot = some (.ofLocal i))
    (hj : j < 8) : 8 ≤ (r.slot i + UInt64.ofNat j - f.saveAt (r.gpr .frame) k).toNat ∧
      8 ≤ (f.saveAt (r.gpr .frame) k + UInt64.ofNat j - r.slot i).toNat := by
  obtain ⟨i', hi', hlt⟩ := h.numbered hd hi
  have hslot : r.slot i = r.slot i' := by rw [Registers.slot, hi', Registers.slot]
  have hsmall := h.small
  simp only [saveAreaSlots] at hk
  rw [hslot]
  exact ⟨slots_apart (r.gpr .frame) (by omega) (by omega) (by omega) hj,
    slots_apart (r.gpr .frame) (by omega) (by omega) (by omega) hj⟩

/-- The save area is still there when slots of values have changed. -/
lemma mapped (hm : f.Mapped (r.gpr .frame) mem) (hc : Speculation.Confined g r mem mem') :
    f.Mapped (r.gpr .frame) mem' := by
  intro k hk j hj
  rw [hc fun n d i hd hi => (h.apart hk hd hi hj).2]
  exact hm k hk j hj

end Fits

end Lowering.FrameLayout

/-! ### Values -/

def Represents (format : DataFormat) (w : UInt64) (v : Value) : Prop :=
  match format with
  | .none => False
  | .int32 => ∃ i, v = .ofInt32 i ∧ w = i.toUInt32.toUInt64
  | .double => v.double? = some ⟨w⟩
  | .boolean => ∃ b, v = .ofBool b ∧ w = if b then 1 else 0
  | .storage => w = v.bits ∧ v.isNumber = false
  | .js => w = v.bits
  | .jsInt32 => w = v.bits ∧ ∃ i, v = .ofInt32 i
  | .jsDouble => w = v.bits ∧ v.isDouble = true
  | .cell | .jsCell => w = v.bits ∧ v.isCell = true
  | .jsBoolean => w = v.bits ∧ v.isBoolean = true

lemma Location.ne_of_mem {q : Gpr} (h : q ∈ Gpr.allocatable) :
    q ≠ .frame ∧ q ≠ .numberTag ∧ q ≠ .tagMask ∧ q ≠ .scratch := by
  revert q
  decide

/-- The tags are in their registers, and there is a slot for every value. -/
structure Equipped (ledger : Array ValueInfo) (r : Registers) (mem : Memory) : Prop where
  numberTag : r.gpr .numberTag = Value.numberTag
  tagMask : r.gpr .tagMask = Value.cellMask
  small : ledger.size ≤ 268435456
  mapped {i : Nat} (hi : i < ledger.size) : mem.Mapped (r.slot i) 8

/-- A register that values may be in gets a word. -/
lemma Equipped.setGpr {ledger : Array ValueInfo} {r : Registers} {mem : Memory} {q : Gpr}
    (h : Equipped ledger r mem) (hq : q ∈ Gpr.allocatable) (w : UInt64) :
    Equipped ledger (r.setGpr q w) mem := by
  obtain ⟨hf, hn, hm, -⟩ := Location.ne_of_mem hq
  have hframe : (r.setGpr q w).gpr .frame = r.gpr .frame := by
    rw [Registers.gpr_setGpr, if_neg hf.symm]
  refine ⟨?_, ?_, h.small, fun hi => ?_⟩
  · rw [Registers.gpr_setGpr, if_neg hn.symm, h.numberTag]
  · rw [Registers.gpr_setGpr, if_neg hm.symm, h.tagMask]
  · rw [Registers.slot_eq hframe]
    exact h.mapped hi

/-- Every value that the ledger has in a register is there, and every value that it has in a slot is
in that. -/
structure Stands (val : NodeId → Value) (ledger : Array ValueInfo) (r : Registers) (mem : Memory) :
    Prop where
  numberTag : r.gpr .numberTag = Value.numberTag
  tagMask : r.gpr .tagMask = Value.cellMask
  small : ledger.size ≤ 268435456
  mapped {i : Nat} (hi : i < ledger.size) : mem.Mapped (r.slot i) 8
  register {i : Nat} {x : ValueInfo} {n : NodeId} (hx : ledger[i]? = some x)
    (hn : x.node = some n) (hl : x.location ≠ .none) :
    Represents x.registerFormat (r.word x.location) (val n)
  double {i : Nat} {x : ValueInfo} {f : Fpr} (hx : ledger[i]? = some x)
    (hl : x.location = .fpr f) : x.registerFormat = .double
  slot {i : Nat} {x : ValueInfo} {n : NodeId} (hx : ledger[i]? = some x)
    (hn : x.node = some n) (hf : x.spillFormat ≠ .none) :
    ∃ w : UInt64, mem.read? 8 (r.slot i) = some w.toNat ∧ Represents x.spillFormat w (val n)

namespace Stands

variable {val : NodeId → Value} {ledger : Array ValueInfo} {r r' : Registers} {mem : Memory}
  {i : Nat} {x y : ValueInfo} {n cur : NodeId} {v : Value} {s : State} {q : Gpr} {w : UInt64}
  {g : Graph} {before : List NodeId} {d : Node} {format : DataFormat}

lemma equipped (h : Stands val ledger r mem) : Equipped ledger r mem :=
  ⟨h.numberTag, h.tagMask, h.small, h.mapped⟩

/-- Registers have changed that no value is in. -/
lemma of_words (h : Stands val ledger r mem) (hf : r'.gpr .frame = r.gpr .frame)
    (hn : r'.gpr .numberTag = r.gpr .numberTag) (ht : r'.gpr .tagMask = r.gpr .tagMask)
    (hw : ∀ (i : Nat) (x : ValueInfo), ledger[i]? = some x → x.location ≠ .none →
      r'.word x.location = r.word x.location) : Stands val ledger r' mem where
  numberTag := hn.trans h.numberTag
  tagMask := ht.trans h.tagMask
  small := h.small
  mapped hi := by
    rw [Registers.slot_eq hf]
    exact h.mapped hi
  register hx hn hl := by
    rw [hw _ _ hx hl]
    exact h.register hx hn hl
  double := h.double
  slot hx hn hs := by
    rw [Registers.slot_eq hf]
    exact h.slot hx hn hs

/-- The entry of a value has changed. -/
lemma set (h : Stands val ledger r mem)
    (hq : ∀ n, y.node = some n → y.location ≠ .none →
      Represents y.registerFormat (r.word y.location) (val n))
    (hd : ∀ f, y.location = .fpr f → y.registerFormat = .double)
    (hs : ∀ n, y.node = some n → y.spillFormat ≠ .none →
      ∃ w : UInt64, mem.read? 8 (r.slot i) = some w.toNat ∧ Represents y.spillFormat w (val n)) :
    Stands val (ledger.setIfInBounds i y) r mem where
  numberTag := h.numberTag
  tagMask := h.tagMask
  small := by
    rw [Array.size_setIfInBounds]
    exact h.small
  mapped hi := h.mapped (by rwa [Array.size_setIfInBounds] at hi)
  register {j x n} hx hn hl := by
    rcases Agrees.set_cases hx with ⟨-, rfl⟩ | ⟨-, hx⟩
    · exact hq n hn hl
    · exact h.register hx hn hl
  double hx hl := by
    rcases Agrees.set_cases hx with ⟨-, rfl⟩ | ⟨-, hx⟩
    · exact hd _ hl
    · exact h.double hx hl
  slot {j x n} hx hn hf := by
    rcases Agrees.set_cases hx with ⟨rfl, rfl⟩ | ⟨-, hx⟩
    · exact hs n hn hf
    · exact h.slot hx hn hf

/-- A word is stored in the slot of a value that the ledger does not have there. -/
lemma store (h : Stands val ledger r mem) (hx : ledger[i]? = some x) (hs : x.spillFormat = .none) :
    Stands val ledger r (r.stored mem i w) := by
  have hlt : ∀ {j : Nat} {z : ValueInfo}, ledger[j]? = some z → j < ledger.size :=
    fun hz => (Array.getElem?_eq_some_iff.mp hz).1
  have hsmall : ∀ {j : Nat} {z : ValueInfo}, ledger[j]? = some z → j < 268435456 :=
    fun hz => Nat.lt_of_lt_of_le (hlt hz) h.small
  have hm := h.mapped (hlt hx)
  refine { h with mapped := fun hi => Registers.mapped_stored hm (h.mapped hi), slot := ?_ }
  intro j z n hz hn hf
  have hij : j ≠ i := by
    rintro rfl
    rw [hx] at hz
    cases hz
    exact hf hs
  rw [Registers.read?_stored_of_ne hm (hsmall hx) (hsmall hz) hij]
  exact h.slot hz hn hf

/-- No value is in a register that is not bound. -/
lemma of_unowned (h : Stands val s.ledger r mem)
    (hs : Coherent g cur before [] s) (hf : r'.gpr .frame = r.gpr .frame)
    (hn : r'.gpr .numberTag = r.gpr .numberTag) (ht : r'.gpr .tagMask = r.gpr .tagMask)
    (hw : ∀ l, s.owner l ≠ none → r'.word l = r.word l) : Stands val s.ledger r' mem := by
  refine h.of_words hf hn ht fun i x hx hl => hw _ ?_
  obtain ⟨-, -, ho | ⟨n, hn, -⟩⟩ := hs.agrees.resident hx hl
  · rw [ho]
    exact Option.some_ne_none _
  · cases hn

/-- A register that was taken gets a word. -/
lemma setGpr (h : Stands val s.ledger r mem)
    (hs : Coherent g cur before [] s) (ht : s.Taken (.gpr q)) (w : UInt64) :
    Stands val s.ledger (r.setGpr q w) mem := by
  obtain ⟨hf, hn, hm, -⟩ := Location.ne_of_mem (Bank.mem_allocatable_of_locksOf ht.1)
  refine h.of_unowned hs ?_ ?_ ?_ fun l hl => ?_
  · rw [Registers.gpr_setGpr, if_neg hf.symm]
  · rw [Registers.gpr_setGpr, if_neg hn.symm]
  · rw [Registers.gpr_setGpr, if_neg hm.symm]
  · rcases l with _ | p | f
    · rfl
    · have hpq : p ≠ q := by
        rintro rfl
        exact hl ht.2
      show (r.setGpr q w).gpr p = r.gpr p
      rw [Registers.gpr_setGpr, if_neg hpq]
    · rfl

lemma setFlags (h : Stands val s.ledger r mem) (f : Flags) :
    Stands val s.ledger { r with flags := f } mem :=
  h.of_words rfl rfl rfl fun _ x _ _ => by cases x.location <;> rfl

lemma fill (h : Stands val s.ledger r mem) (he : Entry g s n d i x)
    (hrep : Represents format (r.gpr q) (val n)) :
    Stands val (s.ledger.setIfInBounds i { x with registerFormat := format, location := .gpr q })
      r mem := by
  refine h.set (fun m hm _ => ?_) nofun fun m hm hf => h.slot (x := x) he.entry hm hf
  have hmn : m = n := Option.some.inj (hm.symm.trans he.named)
  exact hmn ▸ hrep

/-- The current node gets a value. The values of other nodes are where they were. -/
lemma update (h : Stands val ledger r mem)
    (hfresh : ∀ (i : Nat) (x : ValueInfo), ledger[i]? = some x → x.node ≠ some cur) :
    Stands (Function.update val cur v) ledger r mem := by
  have hval : ∀ (i : Nat) (x : ValueInfo) (n : NodeId), ledger[i]? = some x → x.node = some n →
      Function.update val cur v n = val n := by
    intro i x n hx hn
    refine Function.update_of_ne ?_ v val
    rintro rfl
    exact hfresh i x hx hn
  refine { h with register := fun hx hn hl => ?_, slot := fun hx hn hf => ?_ }
  · rw [hval _ _ _ hx hn]
    exact h.register hx hn hl
  · rw [hval _ _ _ hx hn]
    exact h.slot hx hn hf

end Stands

/-- The value is one of the language: nowhere is it kept as the storage of an object. -/
def Plain (ledger : Array ValueInfo) (n : NodeId) : Prop :=
  ∀ ⦃i : Nat⦄ ⦃x : ValueInfo⦄, ledger[i]? = some x → x.node = some n →
    x.registerFormat ≠ .storage ∧ x.spillFormat ≠ .storage

lemma Plain.set {ledger : Array ValueInfo} {n : NodeId} {i : Nat} {y : ValueInfo}
    (h : Plain ledger n)
    (hy : y.node = some n → y.registerFormat ≠ .storage ∧ y.spillFormat ≠ .storage) :
    Plain (ledger.setIfInBounds i y) n := by
  intro j x hx hn
  rcases Agrees.set_cases hx with ⟨-, rfl⟩ | ⟨-, hx⟩
  · exact hy hn
  · exact h hx hn

end Speculation
