import Speculation.Value
import Mathlib.Tactic.Lemma
import Mathlib.Tactic.NormNum

/-!
What the bits of boxed values say.
-/

namespace Speculation
namespace Value

variable {v : Value} {i : Int32}

lemma isInt32_ofInt32 (i : Int32) : (ofInt32 i).isInt32 = true := by
  have h : (numberTag ||| i.toUInt32.toUInt64) &&& numberTag = numberTag := by
    apply UInt64.toBitVec_inj.mp
    simp only [UInt64.toBitVec_or, UInt64.toBitVec_and]
    ext k hk
    simp only [BitVec.getElem_and, BitVec.getElem_or]
    cases numberTag.toBitVec[k] <;> simp
  simp [isInt32, ofInt32, h]

@[simp] lemma toInt32_bits_ofInt32 (i : Int32) : (ofInt32 i).bits.toUInt32.toInt32 = i := by
  have h : (0xffff000000000000 ||| i.toUInt32.toUInt64 : UInt64).toUInt32 = i.toUInt32 := by
    apply UInt32.toNat_inj.mp
    have hlt := i.toUInt32.toNat_lt
    rw [UInt64.toNat_toUInt32, UInt64.toNat_or, Nat.or_mod_two_pow]
    have htag : (0xffff000000000000 : UInt64).toNat % 2 ^ 32 = 0 := rfl
    rw [htag, Nat.zero_or, UInt32.toNat_toUInt64, Nat.mod_eq_of_lt hlt]
  show (numberTag ||| i.toUInt32.toUInt64 : UInt64).toUInt32.toInt32 = i
  rw [numberTag, h]
  rfl

lemma ofInt32_injective : Function.Injective ofInt32 := fun i j h => by
  rw [← toInt32_bits_ofInt32 i, h, toInt32_bits_ofInt32]

lemma int32?_ofInt32 (i : Int32) : (ofInt32 i).int32? = some i := by
  simp [int32?, isInt32_ofInt32]

lemma isInt32_of_int32?_eq_some (h : v.int32? = some i) : v.isInt32 = true := by
  unfold int32? at h
  split at h
  · assumption
  · cases h

lemma isInt32_of_int32?_eq_none (h : v.int32? = none) : v.isInt32 = false := by
  unfold int32? at h
  split at h
  · cases h
  · exact Bool.eq_false_iff.mpr ‹_›

/-- Integers are the values from the tag on. -/
lemma isInt32_iff_le : v.isInt32 = true ↔ numberTag ≤ v.bits := by
  unfold isInt32
  rw [beq_iff_eq]
  constructor
  · intro h
    rw [UInt64.le_iff_toNat_le, ← h, UInt64.toNat_and]
    exact Nat.and_le_left
  · intro h
    rw [UInt64.le_iff_toNat_le] at h
    apply UInt64.toNat_inj.mp
    rw [UInt64.toNat_and]
    have hlt := v.bits.toNat_lt
    have htag : numberTag.toNat = 65535 * 2 ^ 48 := rfl
    rw [htag] at h ⊢
    -- the high part is all ones, and the tag keeps just that part
    obtain ⟨low, hlow, hv⟩ : ∃ low, low < 2 ^ 48 ∧ v.bits.toNat = 2 ^ 48 * 65535 + low :=
      ⟨v.bits.toNat - 65535 * 2 ^ 48, by omega, by omega⟩
    rw [hv, Nat.mul_comm 65535]
    apply Nat.eq_of_testBit_eq
    intro k
    simp only [Nat.testBit_and, Nat.testBit_two_pow_mul_add _ hlow, Nat.testBit_two_pow_mul]
    by_cases hk : k < 48
    · simp [hk, Nat.not_le.mpr hk]
    · simp [hk, Nat.le_of_not_lt hk]

/-! ### The kinds of values exclude each other -/

lemma isInt32_of_isNumber_eq_false (h : v.isNumber = false) : v.isInt32 = false := by
  simp only [isNumber, bne_eq_false_iff_eq] at h
  rw [isInt32, h]
  rfl

lemma isInt32_of_isDouble (h : v.isDouble = true) : v.isInt32 = false := by
  simp only [isDouble, Bool.and_eq_true, Bool.not_eq_true'] at h
  exact h.2

lemma isInt32_of_double? {x : Double} (h : v.double? = some x) : v.isInt32 = false := by
  unfold double? at h
  split at h
  · exact isInt32_of_isDouble ‹_›
  · cases h

lemma isInt32_of_isCell (h : v.isCell = true) : v.isInt32 = false := by
  simp only [isCell, Bool.and_eq_true, beq_iff_eq] at h
  refine isInt32_of_isNumber_eq_false ?_
  have hmask : v.bits &&& numberTag = v.bits &&& cellMask &&& numberTag := by
    rw [UInt64.and_assoc]
    rfl
  simp [isNumber, hmask, h.2]

lemma isInt32_of_isBoolean (h : v.isBoolean = true) : v.isInt32 = false := by
  simp only [isBoolean, beq_iff_eq] at h
  refine isInt32_of_isNumber_eq_false ?_
  have hmask : v.bits &&& numberTag = v.bits &&& ~~~1 &&& numberTag := by
    rw [UInt64.and_assoc]
    rfl
  rw [isNumber, hmask, h]
  rfl

lemma isNumber_of_isCell (h : v.isCell = true) : v.isNumber = false := by
  simp only [isCell, Bool.and_eq_true, beq_iff_eq] at h
  have hmask : v.bits &&& numberTag = v.bits &&& cellMask &&& numberTag := by
    rw [UInt64.and_assoc]
    rfl
  simp [isNumber, hmask, h.2]

lemma isCell_of_isInt32 (h : v.isInt32 = true) : v.isCell = false := by
  by_contra hc
  rw [isInt32_of_isCell (by simpa using hc)] at h
  cases h

lemma isCell_of_isDouble (h : v.isDouble = true) : v.isCell = false := by
  by_contra hc
  rw [isDouble, isNumber_of_isCell (by simpa using hc)] at h
  cases h

lemma isCell_of_double? {x : Double} (h : v.double? = some x) : v.isCell = false := by
  unfold double? at h
  split at h
  · exact isCell_of_isDouble ‹_›
  · cases h

lemma isCell_of_isBoolean (h : v.isBoolean = true) : v.isCell = false := by
  simp only [isBoolean, beq_iff_eq] at h
  have hmask : v.bits &&& cellMask = v.bits &&& ~~~1 &&& cellMask := by
    rw [UInt64.and_assoc]
    rfl
  rw [isCell, hmask, h]
  simp only [show (falseBits &&& cellMask == 0) = false from rfl, Bool.and_false]

lemma int32?_of_isCell (h : v.isCell = true) : v.int32? = none := by
  rw [int32?, if_neg (by rw [isInt32_of_isCell h]; decide)]

lemma double?_of_isCell (h : v.isCell = true) : v.double? = none := by
  rw [double?, isDouble, isNumber_of_isCell h]
  rfl

lemma number?_of_isCell (h : v.isCell = true) : v.number? = none := by
  rw [number?, int32?_of_isCell h]
  exact double?_of_isCell h

lemma boolean?_of_isCell (h : v.isCell = true) : v.boolean? = none := by
  refine if_neg fun hb => ?_
  rw [isCell_of_isBoolean hb] at h
  cases h

lemma isBoolean_ofBool (b : Bool) : (ofBool b).isBoolean = true := by
  cases b <;> rfl

lemma isCell_of_isUndefinedOrNull (h : v.isUndefinedOrNull = true) : v.isCell = false := by
  rw [isUndefinedOrNull, beq_iff_eq] at h
  have hmask : v.bits &&& cellMask &&& 2 = v.bits &&& ~~~undefinedBit &&& 2 := by
    rw [UInt64.and_assoc, UInt64.and_assoc]
    rfl
  have hne : v.bits &&& cellMask ≠ 0 := by
    intro hzero
    rw [hzero, h] at hmask
    cases hmask
  rw [isCell, beq_eq_false_iff_ne.mpr hne, Bool.and_false]

lemma isNumber_of_isUndefinedOrNull (h : v.isUndefinedOrNull = true) : v.isNumber = false := by
  rw [isUndefinedOrNull, beq_iff_eq] at h
  have hmask : v.bits &&& numberTag = v.bits &&& ~~~undefinedBit &&& numberTag := by
    rw [UInt64.and_assoc]
    rfl
  rw [isNumber, hmask, h]
  rfl

lemma isBoolean_of_isUndefinedOrNull (h : v.isUndefinedOrNull = true) : v.isBoolean = false := by
  rw [isUndefinedOrNull, beq_iff_eq] at h
  have hmask : v.bits &&& ~~~1 &&& 4 = v.bits &&& ~~~undefinedBit &&& 4 := by
    rw [UInt64.and_assoc, UInt64.and_assoc]
    rfl
  refine beq_eq_false_iff_ne.mpr fun hbits => ?_
  rw [hbits, h] at hmask
  cases hmask

end Value
end Speculation
