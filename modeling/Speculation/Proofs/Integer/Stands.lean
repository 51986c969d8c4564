import Speculation.Proofs.Execution.Flags
import Speculation.Proofs.Integer.Runs
import Speculation.Proofs.Values

/-!
Where values are while integer dataflow is running.

`Holds` says that a word represents a value in a format. `Stands` says that every value which a
ledger knows of is, in the formats that the ledger gives, in its register and in its slot. It is the
relation between the state of the lowering and the machine.
-/

namespace Speculation

namespace Value

variable {v : Value} {i : Int32}

@[simp] lemma payload_ofInt32 (i : Int32) : (ofInt32 i).payload = i := toInt32_bits_ofInt32 i

lemma isInteger_ofInt32 (i : Int32) : (ofInt32 i).IsInteger := by
  rw [IsInteger, payload_ofInt32]

lemma IsInteger.isInt32 (h : v.IsInteger) : v.isInt32 = true := by
  rw [h]
  exact isInt32_ofInt32 _

lemma IsInteger.int32? (h : v.IsInteger) : v.int32? = some v.payload := by
  simp [Value.int32?, h.isInt32, payload]

end Value

/-! ### Slots of the frame -/

namespace Slot

lemma signed_of_lt {i : Nat} (h : i < 2147483648) : signed i = i := by
  unfold signed
  exact Int.bmod_eq_of_le (by omega) (by omega)

lemma toInt_offset {o : Slot} (h₀ : -268435456 ≤ o.index) (h₁ : o.index < 268435456) :
    o.offset.toInt = o.index * 8 :=
  Int32.toInt_ofInt_of_le (by omega) (by omega)

end Slot

namespace Scene

/-- There is room for the frame below the middle of the first four gigabytes. -/
structure Roomy (sc : Scene) : Prop where
  locals : 8 * sc.graph.numLocals ≤ sc.frame.toNat
  arguments : sc.frame.toNat + 8 * (Frame.headerSize + sc.graph.arguments.size) < 2147483648
  vars : sc.graph.numVars ≤ sc.graph.numLocals

variable {sc : Scene} {i j k : Nat} {mem : Memory} {w : UInt64}

lemma toNat_address (h : sc.Roomy) {o : Slot} (h₀ : -(sc.graph.numLocals : Int) ≤ o.index)
    (h₁ : o.index < Frame.headerSize + sc.graph.arguments.size) :
    ((sc.address o).toNat : Int) = sc.frame.toNat + o.index * 8 := by
  have hl := h.locals
  have ha := h.arguments
  have hh : Frame.headerSize = 5 := rfl
  rw [hh] at h₁ ha
  have ho := Slot.toInt_offset (o := o) (by omega) (by omega)
  rw [address, toNat_add_extend (by rw [ho]; omega) (by rw [ho]; omega), ho]

lemma toNat_address_local (h : sc.Roomy) (hj : j < sc.graph.numLocals) :
    (sc.address (.ofLocal j)).toNat + 8 * (j + 1) = sc.frame.toNat := by
  have hl := h.locals
  have ha := h.arguments
  have hindex : (Slot.ofLocal j).index = -(j : Int) - 1 := by
    rw [Slot.ofLocal, Slot.signed_of_lt (by omega)]
  have := toNat_address h (o := .ofLocal j) (by omega) (by omega)
  omega

lemma toNat_address_argument (h : sc.Roomy) (hk : k < sc.graph.arguments.size) :
    (sc.address (.ofArgument k)).toNat = sc.frame.toNat + 8 * (Frame.headerSize + k) := by
  have ha := h.arguments
  have hindex : (Slot.ofArgument k).index = (Frame.headerSize : Int) + k := by
    rw [Slot.ofArgument, Slot.signed_of_lt (by omega)]
  have := toNat_address h (o := .ofArgument k) (by omega) (by omega)
  omega

lemma word_of_mapped {o : Slot} (h : mem.Mapped (sc.address o) 8) : ∃ w, sc.word mem o = some w := by
  obtain ⟨x, hx, -⟩ := Memory.read?_of_mapped h
  exact ⟨_, by rw [word, hx]; rfl⟩

def store (sc : Scene) (mem : Memory) (j : Nat) (w : UInt64) : Memory :=
  (mem.write 8 (sc.address (.ofLocal j)) w.toNat).2

section Store

variable (h : sc.Roomy) (hj : j < sc.graph.numLocals)
  (hm : mem.Mapped (sc.address (.ofLocal j)) 8)

include h hj in
lemma room_local : (sc.address (.ofLocal j)).toNat + 8 ≤ UInt64.size := by
  have ha := toNat_address_local h hj
  have := h.arguments
  have hs : UInt64.size = 18446744073709551616 := rfl
  omega

include h hj hm

lemma word_store_self : sc.word (sc.store mem j w) (.ofLocal j) = some w := by
  have hw := w.toNat_lt
  rw [word, store, Memory.read?_write_self hm (room_local h hj), Option.map_some]
  rw [Nat.mod_eq_of_lt (by norm_num; exact hw), UInt64.ofNat_toNat]

lemma word_store_local (hi : i < sc.graph.numLocals) (hij : i ≠ j) :
    sc.word (sc.store mem j w) (.ofLocal i) = sc.word mem (.ofLocal i) := by
  have hi' := toNat_address_local h hi
  have hj' := toNat_address_local h hj
  rw [word, word, store, Memory.read?_write_of_apart hm (room_local h hj) (room_local h hi)]
  unfold Memory.Apart
  omega

lemma word_store_argument (hk : k < sc.graph.arguments.size) :
    sc.word (sc.store mem j w) (.ofArgument k) = sc.word mem (.ofArgument k) := by
  have hk' := toNat_address_argument h hk
  have hj' := toNat_address_local h hj
  have ha := h.arguments
  have hs : UInt64.size = 18446744073709551616 := rfl
  rw [word, word, store, Memory.read?_write_of_apart hm (room_local h hj) (by omega)]
  unfold Memory.Apart
  omega

lemma mapped_store {a : UInt64} {n : Nat} (ha : mem.Mapped a n) : (sc.store mem j w).Mapped a n :=
  ha.write hm (room_local h hj)

end Store

end Scene

/-! ### Values in registers and slots -/

def Holds (format : DataFormat) (w : UInt64) (v : Value) : Prop :=
  match format with
  | .js => w = v.bits
  | .jsInt32 => w = v.bits ∧ v.IsInteger
  | .int32 => w = v.payload.toUInt32.toUInt64 ∧ v.IsInteger
  | _ => False

namespace Holds

variable {format : DataFormat} {w : UInt64} {v : Value}

lemma box (h : Holds format w v) : Execution.box format w = v := by
  cases format <;> simp only [Holds] at h
  case js => rw [h]; rfl
  case jsInt32 =>
    rw [h.1]
    exact h.2.symm
  case int32 =>
    have hw : Execution.box .int32 w = .ofInt32 v.payload := by
      rw [h.1, Execution.box, UInt32.toUInt32_toUInt64]
      rfl
    rw [hw]
    exact h.2.symm

lemma low (h : Holds format w v) (hf : format ≠ .js) : v.IsInteger ∧ w.toUInt32.toInt32 = v.payload := by
  cases format <;> simp only [Holds] at h
  case js => exact absurd rfl hf
  case jsInt32 => exact ⟨h.2, by rw [h.1]; rfl⟩
  case int32 =>
    refine ⟨h.2, ?_⟩
    rw [h.1, UInt32.toUInt32_toUInt64]
    rfl

end Holds

def DataFormat.Plain (format : DataFormat) : Prop :=
  format = .js ∨ format = .jsInt32 ∨ format = .int32

lemma Holds.plain {format : DataFormat} {w : UInt64} {v : Value} (h : Holds format w v) :
    format.Plain := by
  cases format <;> simp_all [Holds, DataFormat.Plain]

namespace Scene

variable {sc : Scene} {done : List NodeId} {ledger ledger' : Array ValueInfo}
  {owner owner' : Location → Option Slot} {r r' : Registers} {mem mem' : Memory} {i : Nat}
  {y : ValueInfo}

/-- Every value that owns a register is in it, every value with a spill slot is in that, and the
speculation of all nodes so far has succeeded. -/
structure Stands (sc : Scene) (done : List NodeId) (ledger : Array ValueInfo)
    (owner : Location → Option Slot) (r : Registers) (mem : Memory) : Prop where
  passes : sc.Passes done
  framed : sc.Framed done r mem
  tag : r.gpr .numberTag = Value.numberTag
  register {i : Nat} {x : ValueInfo} {n : NodeId} {q : Gpr} (hx : ledger[i]? = some x)
    (hn : x.node = some n) (hq : x.location = .gpr q) (ho : owner (.gpr q) = some (.ofLocal i)) :
    Holds x.registerFormat (r.gpr q) (sc.val n)
  slot {i : Nat} {x : ValueInfo} {n : NodeId} (hx : ledger[i]? = some x)
    (hn : x.node = some n) (hf : x.spillFormat ≠ .none) :
    ∃ w, sc.word mem (.ofLocal i) = some w ∧ Holds x.spillFormat w (sc.val n)

lemma Framed.of_frame (h : sc.Framed done r mem) (hf : r'.gpr .frame = r.gpr .frame) :
    sc.Framed done r' mem :=
  ⟨hf.trans h.frame, h.argument, h.stored, h.mapped⟩

/-- The slot of a value is none of those of the locals. -/
lemma Framed.store (h : sc.Framed done r mem) (hr : sc.Roomy) (hv : sc.graph.numVars ≤ i)
    (hi : i < sc.graph.numLocals) (w : UInt64) : sc.Framed done r (sc.store mem i w) where
  frame := h.frame
  argument hk := by rw [word_store_argument hr hi (h.mapped hi) hk, h.argument hk]
  stored {j n} hj hs := by
    rw [word_store_local hr hi (h.mapped hi) (Nat.lt_of_lt_of_le hj hr.vars) (by omega),
      h.stored hj hs]
  mapped hj := mapped_store hr hi (h.mapped hi) (h.mapped hj)

namespace Stands

/-- Registers that hold nothing have changed. -/
lemma of_gprs (h : sc.Stands done ledger owner r mem) (hf : r'.gpr .frame = r.gpr .frame)
    (ht : r'.gpr .numberTag = r.gpr .numberTag)
    (hq : ∀ q, owner (.gpr q) ≠ none → r'.gpr q = r.gpr q) : sc.Stands done ledger owner r' mem where
  passes := h.passes
  framed := h.framed.of_frame hf
  tag := ht.trans h.tag
  register {i x n q} hx hn hl ho := by
    rw [hq q (by simp [ho])]
    exact h.register hx hn hl ho
  slot := h.slot

/-- A register that holds nothing is set. -/
lemma setGpr (h : sc.Stands done ledger owner r mem) {q : Gpr} (hq : owner (.gpr q) = none)
    (hlt : q.val < 12) (w : UInt64) : sc.Stands done ledger owner (r.setGpr q w) mem := by
  refine h.of_gprs ?_ ?_ fun p hp => ?_
  · rw [Registers.gpr_setGpr, if_neg]
    rintro rfl
    exact absurd hlt (by decide)
  · rw [Registers.gpr_setGpr, if_neg]
    rintro rfl
    exact absurd hlt (by decide)
  · rw [Registers.gpr_setGpr, if_neg]
    rintro rfl
    exact hp hq

lemma setFlags (h : sc.Stands done ledger owner r mem) (f : Flags) :
    sc.Stands done ledger owner { r with flags := f } mem :=
  h.of_gprs rfl rfl fun _ _ => rfl

/-- Fewer registers are bound. -/
lemma of_owner (h : sc.Stands done ledger owner r mem)
    (ho : ∀ q o, owner' (.gpr q) = some o → owner (.gpr q) = some o) :
    sc.Stands done ledger owner' r mem :=
  { h with register := fun hx hn hl hq => h.register hx hn hl (ho _ _ hq) }

/-- The entry of a value changes. -/
lemma set (h : sc.Stands done ledger owner r mem)
    (ho : ∀ (j : Nat) (z : ValueInfo) (q : Gpr), j ≠ i → ledger[j]? = some z → z.location = .gpr q →
      owner' (.gpr q) = some (.ofLocal j) → owner (.gpr q) = some (.ofLocal j))
    (hq : ∀ n q, y.node = some n → y.location = .gpr q → owner' (.gpr q) = some (.ofLocal i) →
      Holds y.registerFormat (r.gpr q) (sc.val n))
    (hs : ∀ n, y.node = some n → y.spillFormat ≠ .none →
      ∃ w, sc.word mem (.ofLocal i) = some w ∧ Holds y.spillFormat w (sc.val n)) :
    sc.Stands done (ledger.setIfInBounds i y) owner' r mem where
  passes := h.passes
  framed := h.framed
  tag := h.tag
  register {j x n q} hx hn hl hown := by
    rcases Lowering.Agrees.set_cases hx with ⟨rfl, rfl⟩ | ⟨hij, hx⟩
    · exact hq n q hn hl hown
    · exact h.register hx hn hl (ho j x q hij.symm hx hl hown)
  slot {j x n} hx hn hf := by
    rcases Lowering.Agrees.set_cases hx with ⟨rfl, rfl⟩ | ⟨-, hx⟩
    · exact hs n hn hf
    · exact h.slot hx hn hf

/-- A word is stored in the slot of a value that the ledger does not have there. -/
lemma store (h : sc.Stands done ledger owner r mem) (hr : sc.Roomy)
    (hsize : ledger.size = sc.graph.numLocals) (hv : sc.graph.numVars ≤ i) {x : ValueInfo}
    (hx : ledger[i]? = some x) (hs : x.spillFormat = .none) (w : UInt64) :
    sc.Stands done ledger owner r (sc.store mem i w) := by
  have hlt : ∀ {j : Nat} {z : ValueInfo}, ledger[j]? = some z → j < sc.graph.numLocals :=
    fun hz => hsize ▸ (Array.getElem?_eq_some_iff.mp hz).1
  refine { h with framed := h.framed.store hr hv (hlt hx) w, slot := fun {j z n} hz hn hf => ?_ }
  have hij : j ≠ i := by
    rintro rfl
    rw [hx] at hz
    cases hz
    exact hf hs
  rw [word_store_local hr (hlt hx) (h.framed.mapped (hlt hx)) (hlt hz) hij]
  exact h.slot hz hn hf

lemma restores (h : sc.Stands done ledger owner r mem)
    (hd : ∀ (i : Nat) (x : ValueInfo) (q : Fpr), ledger[i]? = some x → x.location ≠ .fpr q)
    (ho : ∀ (i : Nat) (x : ValueInfo) (q : Gpr), ledger[i]? = some x → x.location = .gpr q →
      owner (.gpr q) = some (.ofLocal i)) : sc.Restores ledger r mem where
  register hx hn hq := (h.register hx hn hq (ho _ _ _ hx hq)).box
  double hx := hd _ _ _ hx
  slot hx hn hf := by
    obtain ⟨w, hw, hh⟩ := h.slot hx hn hf
    exact ⟨w, hw, hh.box⟩

end Stands

end Scene
end Speculation
