import Speculation.Semantics.Convert
import Mathlib.Data.Nat.Bitwise
import Mathlib.Tactic.Linarith
import Mathlib.Tactic.Lemma

/-!
Integers as doubles.

The double of a 32-bit integer is that integer: truncating it gives the integer back, and no other
integer has a double that is equal to it. So the key that a value has in a switch is the integer that
it is numerically equal to.
-/

namespace Speculation
namespace Double

variable {x y : Double} {i : Int32}

/-! ### Fields -/

lemma toNat_magnitude (x : Double) : x.magnitude.toNat = x.bits.toNat % 2 ^ 63 := by
  rw [magnitude, UInt64.toNat_and, show (~~~signMask).toNat = 2 ^ 63 - 1 from rfl,
    Nat.and_two_pow_sub_one_eq_mod]

lemma isNegative_eq (x : Double) : x.isNegative = decide (2 ^ 63 ≤ x.bits.toNat) := by
  have hlt : x.bits.toNat < 2 ^ 64 := x.bits.toNat_lt
  have hand : (x.bits &&& signMask).toNat = (x.bits.toNat.testBit 63).toNat * 2 ^ 63 := by
    rw [UInt64.toNat_and, ← Nat.and_two_pow]
    rfl
  have hbit : x.bits.toNat.testBit 63 = decide (2 ^ 63 ≤ x.bits.toNat) := by
    rw [Nat.testBit_eq_decide_div_mod_eq, decide_eq_decide]
    omega
  rw [hbit] at hand
  rw [isNegative, Bool.eq_iff_iff, bne_iff_ne, ← UInt64.toNat_inj.ne, hand]
  by_cases h : 2 ^ 63 ≤ x.bits.toNat <;> simp

lemma toNat_bits_withSign {b : Bool} {p : UInt64} (h : p.toNat < 2 ^ 63) :
    (withSign b p).bits.toNat = (if b then 2 ^ 63 else 0) + p.toNat := by
  cases b with
  | false => simp [withSign]
  | true =>
    have hor := Nat.two_pow_add_eq_or_of_lt h 1
    rw [Nat.mul_one] at hor
    show (p ||| signMask).toNat = _
    rw [UInt64.toNat_or, Nat.or_comm, if_pos rfl, hor]
    rfl

lemma biasedExponent_eq (x : Double) : x.biasedExponent = x.bits.toNat % 2 ^ 63 / 2 ^ 52 := by
  rw [biasedExponent, UInt64.toNat_shiftRight, toNat_magnitude, Nat.shiftRight_eq_div_pow]
  rfl

lemma fraction_eq (x : Double) : x.fraction = x.bits.toNat % 2 ^ 52 := by
  rw [fraction, UInt64.toNat_and, show (0x000fffffffffffff : UInt64).toNat = 2 ^ 52 - 1 from rfl,
    Nat.and_two_pow_sub_one_eq_mod]

lemma isNaN_of_isFinite (h : x.isFinite = true) : x.isNaN = false := by
  rw [isFinite, decide_eq_true_eq] at h
  rw [isNaN, decide_eq_false_iff_not]
  exact UInt64.lt_asymm h

/-! ### Integers of a significand -/

lemma twoTo_of_nonpos {e : Int} (h : e ≤ 0) : twoTo e = 1 := by
  rw [twoTo, Int.toNat_of_nonpos h]
  rfl

lemma twoTo_natCast (n : Nat) : twoTo n = 2 ^ n := by
  rw [twoTo, Int.toNat_natCast, Nat.one_shiftLeft]

lemma roundDiv_one (n : Nat) : roundDiv n 1 = n := by
  simp [roundDiv, Nat.mod_one]

variable {b : Bool} {m L : Nat}

/-- Shifted up, a small integer is a significand. -/
lemma shifted_bounds (hL : m.log2 = L) (hm : m ≠ 0) (h : L ≤ 52) :
    2 ^ 52 ≤ m * 2 ^ (52 - L) ∧ m * 2 ^ (52 - L) < 2 ^ 53 := by
  have hle : 2 ^ L ≤ m := hL ▸ Nat.log2_self_le hm
  have hlt : m < 2 ^ (L + 1) := hL ▸ Nat.lt_log2_self
  constructor
  · calc 2 ^ 52 = 2 ^ L * 2 ^ (52 - L) := by rw [← Nat.pow_add]; congr 1; omega
      _ ≤ m * 2 ^ (52 - L) := by gcongr
  · calc m * 2 ^ (52 - L) < 2 ^ (L + 1) * 2 ^ (52 - L) := by gcongr
      _ = 2 ^ 53 := by rw [← Nat.pow_add]; congr 1; omega

lemma twoTo_shift (h : L ≤ 52) : twoTo (-((L : Int) - 52)) = 2 ^ (52 - L) := by
  rw [show -((L : Int) - 52) = ((52 - L : Nat) : Int) by omega, twoTo_natCast]

/-- The double of a small integer: the integer is shifted up until it is a significand. -/
lemma ofRatio_one (hL : m.log2 = L) (hm : m ≠ 0) (h : L ≤ 52) :
    ofRatio b m 1 = withSign b (UInt64.ofNat ((L + 1022) * 2 ^ 52 + m * 2 ^ (52 - L))) := by
  have hratio : ratioLog2 m 1 = L := by
    have h1 : (1 : Nat).log2 = 0 := by decide
    rw [ratioLog2, hL, h1]
    simp only [Int.natCast_zero, Int.sub_zero]
    rw [twoTo_natCast, twoTo_of_nonpos (by omega), Nat.one_mul, Nat.mul_one, ← hL,
      if_pos (Nat.log2_self_le hm)]
  have he : max ((L : Int) - 52) (-1074) = (L : Int) - 52 := by omega
  have hq := (shifted_bounds hL hm h).2
  have hplace : ((L : Int) - 52 + 1074).toNat = L + 1022 := by omega
  have h52 : twoTo 52 = 2 ^ 52 := twoTo_natCast 52
  simp only [ofRatio, if_neg hm, hratio, he, twoTo_of_nonpos (show (L : Int) - 52 ≤ 0 by omega),
    twoTo_shift h,
    hplace, h52, Nat.mul_one, roundDiv_one]
  have hinf : infinityBits.toNat = 2047 * 2 ^ 52 := rfl
  rw [if_neg (by omega)]

/-- The fields of the double of a small integer. -/
lemma fields_ofRatio_one (hm : m ≠ 0) (h : m.log2 ≤ 52) :
    (ofRatio b m 1).isFinite = true ∧ (ofRatio b m 1).isNegative = b ∧
      (ofRatio b m 1).significand = m * 2 ^ (52 - m.log2) ∧
      (ofRatio b m 1).exponent = (m.log2 : Int) - 52 := by
  generalize hL : m.log2 = L at h
  obtain ⟨hlow, hhigh⟩ := shifted_bounds hL hm h
  rw [ofRatio_one hL hm h]
  generalize hx : withSign b (UInt64.ofNat ((L + 1022) * 2 ^ 52 + m * 2 ^ (52 - L))) = x
  have hbits : x.bits.toNat = (if b then 2 ^ 63 else 0) +
      ((L + 1022) * 2 ^ 52 + m * 2 ^ (52 - L)) := by
    have hp : (UInt64.ofNat ((L + 1022) * 2 ^ 52 + m * 2 ^ (52 - L))).toNat =
        (L + 1022) * 2 ^ 52 + m * 2 ^ (52 - L) :=
      UInt64.toNat_ofNat_of_lt' (by rw [UInt64.size]; omega)
    rw [← hx, toNat_bits_withSign (by omega), hp]
  have hexp : x.biasedExponent = L + 1023 := by
    rw [biasedExponent_eq, hbits]
    split <;> omega
  refine ⟨?_, ?_, ?_, ?_⟩
  · have hinf : infinityBits.toNat = 2047 * 2 ^ 52 := rfl
    rw [isFinite, decide_eq_true_eq, UInt64.lt_iff_toNat_lt, toNat_magnitude, hbits, hinf]
    split <;> omega
  · rw [isNegative_eq, hbits]
    split <;> simp_all
    omega
  · rw [significand, hexp, if_neg (by omega), fraction_eq, hbits]
    split <;> omega
  · rw [exponent, hexp, if_neg (by omega)]
    omega

/-- Truncation takes the shift back. -/
lemma truncate_ofRatio_one (hm : m ≠ 0) (h : m.log2 ≤ 52) :
    (ofRatio b m 1).isFinite = true ∧ (ofRatio b m 1).truncate = if b then -(m : Int) else m := by
  obtain ⟨hfinite, hneg, hsig, hscale⟩ := fields_ofRatio_one (b := b) hm h
  refine ⟨hfinite, ?_⟩
  rw [truncate, hsig, hscale, twoTo_of_nonpos (by omega), twoTo_shift h, Nat.mul_one,
    Nat.mul_div_cancel _ (Nat.two_pow_pos _), hneg]

/-! ### Integers -/

lemma truncate_ofInt32 (i : Int32) : (ofInt32 i).isFinite = true ∧ (ofInt32 i).truncate = i.toInt := by
  by_cases hi : i.toInt = 0
  · rw [ofInt32, hi]
    decide
  · have hlt := i.toInt_lt
    have hle := i.le_toInt
    have hm : i.toInt.natAbs ≠ 0 := Int.natAbs_ne_zero.mpr hi
    have hlog : i.toInt.natAbs.log2 < 32 := (Nat.log2_lt hm).mpr (by omega)
    obtain ⟨hfinite, htruncate⟩ := truncate_ofRatio_one (b := decide (i.toInt < 0)) hm
      (Nat.le_of_lt (Nat.lt_of_lt_of_le hlog (by decide)))
    refine ⟨hfinite, htruncate.trans ?_⟩
    split
    · rename_i hneg
      have := of_decide_eq_true hneg
      omega
    · rename_i hneg
      have := of_decide_eq_false (Bool.eq_false_iff.mpr hneg)
      omega

lemma truncateInt32_ofInt32 (i : Int32) : (ofInt32 i).truncateInt32 = i := by
  have hlt := i.toInt_lt
  have hle := i.le_toInt
  obtain ⟨hfinite, htruncate⟩ := truncate_ofInt32 i
  rw [truncateInt32, hfinite, htruncate, if_pos, Int32.ofInt_toInt]
  simp
  omega

lemma truncate_of_magnitude (h : x.magnitude = 0) : x.isFinite = true ∧ x.truncate = 0 := by
  have hmod : x.bits.toNat % 2 ^ 63 = 0 := by rw [← toNat_magnitude, h]; rfl
  have hexp : x.biasedExponent = 0 := by rw [biasedExponent_eq, hmod, Nat.zero_div]
  have hsig : x.significand = 0 := by
    rw [significand, hexp, if_pos rfl, fraction_eq]
    omega
  refine ⟨by rw [isFinite, h]; decide, ?_⟩
  rw [truncate, hsig]
  simp

/-- Equal doubles are the same, or both are zero. -/
lemma eq_cases (h : x.eq y = true) : x = y ∨ (x.magnitude = 0 ∧ y.magnitude = 0) := by
  have hkey : x.orderKey = y.orderKey := by
    rw [Double.eq, compare?] at h
    split at h
    · cases h
    · simpa using h
  have hx := isNegative_eq x
  have hy := isNegative_eq y
  have hmx := toNat_magnitude x
  have hmy := toNat_magnitude y
  have hbx : x.bits.toNat < 2 ^ 64 := x.bits.toNat_lt
  have hby : y.bits.toNat < 2 ^ 64 := y.bits.toNat_lt
  have hbits : x.bits.toNat = y.bits.toNat ∨ (x.magnitude.toNat = 0 ∧ y.magnitude.toNat = 0) := by
    simp only [orderKey, hx, hy, decide_eq_true_eq] at hkey
    split at hkey <;> split at hkey <;> omega
  rcases hbits with hbits | ⟨hzx, hzy⟩
  · exact .inl (congrArg Double.mk (UInt64.toNat_inj.mp hbits))
  · exact .inr ⟨UInt64.toNat_inj.mp hzx, UInt64.toNat_inj.mp hzy⟩

lemma truncateInt32_congr (h : x.eq y = true) : x.truncateInt32 = y.truncateInt32 := by
  obtain rfl | ⟨hx, hy⟩ := eq_cases h
  · rfl
  · rw [truncateInt32, truncateInt32, (truncate_of_magnitude hx).1, (truncate_of_magnitude hx).2,
      (truncate_of_magnitude hy).1, (truncate_of_magnitude hy).2]

lemma eq_self_ofInt32 (i : Int32) : (ofInt32 i).eq (ofInt32 i) = true := by
  simp [Double.eq, compare?, isNaN_of_isFinite (truncate_ofInt32 i).1]

end Double

namespace Semantics

/-- The key that a value has in a switch is the integer that it is numerically equal to. -/
lemma switchKey?_eq_some_iff {v : Value} {i : Int32} :
    switchKey? v = some i ↔ ∃ d, v.number? = some d ∧ (Double.ofInt32 i).eq d = true := by
  have hkey : ∀ {d}, (Double.ofInt32 i).eq d = true → d.truncateInt32 = i := fun h =>
    (Double.truncateInt32_congr h).symm.trans (Double.truncateInt32_ofInt32 i)
  unfold switchKey? Value.number?
  rcases v.int32? with _ | j
  · rcases v.double? with _ | d
    · simp
    · constructor
      · intro h
        dsimp only at h
        split at h
        · cases h
          exact ⟨d, rfl, ‹_›⟩
        · cases h
      · rintro ⟨_, ⟨⟩, h⟩
        dsimp only
        rw [hkey h, if_pos h]
  · constructor
    · rintro ⟨⟩
      exact ⟨_, rfl, Double.eq_self_ofInt32 _⟩
    · rintro ⟨_, ⟨⟩, h⟩
      exact congrArg some ((Double.truncateInt32_ofInt32 j).symm.trans (hkey h))

end Semantics
end Speculation
