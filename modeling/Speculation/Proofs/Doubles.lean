import Speculation.Proofs.Switch.Keys
import Mathlib.Data.Rat.Floor
import Mathlib.Order.WithBot
import Mathlib.Tactic.Positivity
import Mathlib.Tactic.Ring

/-!
The numbers that doubles are.

Every finite double is a whole multiple of the least subnormal one. In these units its magnitude grows
with its pattern, so the order of the keys is that of the exact values. A double without a fraction stays
one under the operations by which a number is reduced modulo `2 ^ 32`, and these do not round.
-/

namespace Speculation
namespace Double

variable {x y : Double} {b : Bool} {m n c k : Nat}

/-! ### Exact values -/

def exact (x : Double) : ℚ := x.signedSignificand * 2 ^ x.exponent

/-- The magnitude with this pattern, in units of the least subnormal double. -/
def unitsOf (n : Nat) : Nat :=
  if n / 2 ^ 52 = 0 then n % 2 ^ 52 else (2 ^ 52 + n % 2 ^ 52) * 2 ^ (n / 2 ^ 52 - 1)

/-- A larger exponent outweighs every fraction. -/
lemma unitsOf_strictMono : StrictMono unitsOf := by
  refine strictMono_nat_of_lt_succ fun n => ?_
  have hn := Nat.div_add_mod n (2 ^ 52)
  have hlt := Nat.mod_lt n (Nat.two_pow_pos 52)
  unfold unitsOf
  by_cases hf : n % 2 ^ 52 + 1 < 2 ^ 52
  · have hdiv : (n + 1) / 2 ^ 52 = n / 2 ^ 52 := by omega
    have hmod : (n + 1) % 2 ^ 52 = n % 2 ^ 52 + 1 := by omega
    rw [hdiv, hmod]
    split
    · exact Nat.lt_succ_self _
    · exact Nat.mul_lt_mul_of_pos_right (by omega) (Nat.two_pow_pos _)
  · -- the fraction is full, and the exponent is the next one
    have hdiv : (n + 1) / 2 ^ 52 = n / 2 ^ 52 + 1 := by omega
    have hmod : (n + 1) % 2 ^ 52 = 0 := by omega
    rw [hdiv, hmod, if_neg (Nat.succ_ne_zero _), Nat.add_zero, Nat.add_sub_cancel]
    split
    · rename_i he
      rwa [he, Nat.pow_zero, Nat.mul_one]
    · have he : 2 ^ (n / 2 ^ 52) = 2 * 2 ^ (n / 2 ^ 52 - 1) := by
        rw [← Nat.pow_succ']
        congr 1
        omega
      calc (2 ^ 52 + n % 2 ^ 52) * 2 ^ (n / 2 ^ 52 - 1) < 2 ^ 53 * 2 ^ (n / 2 ^ 52 - 1) :=
            Nat.mul_lt_mul_of_pos_right (by omega) (Nat.two_pow_pos _)
        _ = 2 ^ 52 * 2 ^ (n / 2 ^ 52) := by
            rw [he]
            ring

/-- The number with this key, in units. -/
def unitsOfKey (k : Int) : Int := if k < 0 then -(unitsOf k.natAbs : Int) else unitsOf k.natAbs

lemma unitsOfKey_lt {j k : Int} (hjk : j < k) : unitsOfKey j < unitsOfKey k := by
  have hpos : ∀ {n : Nat}, 0 < n → 0 < unitsOf n := fun h => unitsOf_strictMono h
  unfold unitsOfKey
  split <;> split
  · have := unitsOf_strictMono (show k.natAbs < j.natAbs by omega)
    omega
  · have := hpos (show 0 < j.natAbs by omega)
    omega
  · omega
  · have := unitsOf_strictMono (show j.natAbs < k.natAbs by omega)
    omega

lemma natAbs_orderKey (x : Double) : x.orderKey.natAbs = x.magnitude.toNat := by
  rw [orderKey]
  split <;> simp

lemma unitsOf_magnitude (x : Double) :
    (unitsOf x.magnitude.toNat : ℚ) = x.significand * 2 ^ (x.exponent + 1074) := by
  have hexp : x.magnitude.toNat / 2 ^ 52 = x.biasedExponent := by
    rw [biasedExponent_eq, toNat_magnitude]
  have hfrac : x.magnitude.toNat % 2 ^ 52 = x.fraction := by
    rw [fraction_eq, toNat_magnitude]
    omega
  rw [unitsOf, hexp, hfrac, significand, exponent]
  split
  · simp
  · have he : (x.biasedExponent : Int) - 1075 + 1074 = (x.biasedExponent - 1 : Nat) := by omega
    rw [he, zpow_natCast]
    norm_num

lemma exact_eq (x : Double) : x.exact = unitsOfKey x.orderKey / 2 ^ 1074 := by
  have hscale : x.significand * (2 : ℚ) ^ x.exponent = unitsOf x.magnitude.toNat / 2 ^ 1074 := by
    rw [unitsOf_magnitude, zpow_add₀ two_ne_zero, ← mul_assoc,
      show (2 : ℚ) ^ (1074 : Int) = 2 ^ 1074 from zpow_natCast ..,
      mul_div_cancel_right₀ _ (by positivity)]
  have hkey : unitsOfKey x.orderKey =
      if x.isNegative then -(unitsOf x.magnitude.toNat : Int) else unitsOf x.magnitude.toNat := by
    rw [unitsOfKey, natAbs_orderKey, orderKey]
    split <;> split
    · rfl
    · have hzero : x.magnitude.toNat = 0 := by omega
      rw [hzero]
      rfl
    · omega
    · rfl
  rw [exact, signedSignificand, hkey]
  split
  · push_cast
    rw [neg_mul, hscale, neg_div]
  · push_cast
    rw [hscale]

/-! ### The order -/

/-- The number that a double stands for, infinity included. -/
def extended (x : Double) : WithBot (WithTop ℚ) :=
  if x.isInfinite then if x.isNegative then ⊥ else (⊤ : WithTop ℚ) else (x.exact : WithTop ℚ)

def Ordered (x y : Double) : Prop := x.isNaN = false ∧ y.isNaN = false

instance : Decidable (Ordered x y) := inferInstanceAs (Decidable (_ ∧ _))

lemma toNat_magnitude_le (h : x.isNaN = false) : x.magnitude.toNat ≤ 2047 * 2 ^ 52 := by
  rw [isNaN, decide_eq_false_iff_not, UInt64.not_lt, UInt64.le_iff_toNat_le] at h
  exact h

lemma isInfinite_iff : x.isInfinite = true ↔ x.magnitude.toNat = 2047 * 2 ^ 52 := by
  rw [isInfinite, beq_iff_eq, ← UInt64.toNat_inj]
  rfl

lemma orderKey_bounds (h : x.isNaN = false) :
    -(2047 * 2 ^ 52) ≤ x.orderKey ∧ x.orderKey ≤ 2047 * 2 ^ 52 := by
  have hle := toNat_magnitude_le h
  have hkey := natAbs_orderKey x
  omega

/-- The infinities have the outermost keys. -/
lemma extended_eq (x : Double) : x.extended =
    if x.orderKey = -(2047 * 2 ^ 52) then ⊥
    else if x.orderKey = 2047 * 2 ^ 52 then ((⊤ : WithTop ℚ) : WithBot (WithTop ℚ))
    else ((unitsOfKey x.orderKey / 2 ^ 1074 : ℚ) : WithTop ℚ) := by
  have hkey : x.orderKey = if x.isNegative then -(x.magnitude.toNat : Int) else x.magnitude.toNat := rfl
  rw [extended, exact_eq]
  simp only [isInfinite_iff]
  split <;> split at hkey <;> split_ifs <;> first | rfl | omega

/-- Numbers are in the order of their keys. -/
lemma extended_lt_of_key (hx : x.isNaN = false) (hy : y.isNaN = false) (h : x.orderKey < y.orderKey) :
    x.extended < y.extended := by
  obtain ⟨hlow, -⟩ := orderKey_bounds hx
  obtain ⟨-, hhigh⟩ := orderKey_bounds hy
  have hunits : (unitsOfKey x.orderKey / 2 ^ 1074 : ℚ) < unitsOfKey y.orderKey / 2 ^ 1074 := by
    gcongr
    exact unitsOfKey_lt h
  rw [extended_eq x, extended_eq y, if_neg (show y.orderKey ≠ _ by omega),
    if_neg (show ¬x.orderKey = 2047 * 2 ^ 52 by omega)]
  split <;> split
  · exact WithBot.bot_lt_coe _
  · exact WithBot.bot_lt_coe _
  · exact WithBot.coe_lt_coe.mpr (WithTop.coe_lt_top _)
  · exact WithBot.coe_lt_coe.mpr (WithTop.coe_lt_coe.mpr hunits)

lemma extended_lt_iff (hx : x.isNaN = false) (hy : y.isNaN = false) :
    x.extended < y.extended ↔ x.orderKey < y.orderKey := by
  refine ⟨fun h => ?_, extended_lt_of_key hx hy⟩
  rcases lt_trichotomy x.orderKey y.orderKey with hlt | heq | hgt
  · exact hlt
  · rw [extended_eq x, extended_eq y, heq] at h
    exact absurd h (lt_irrefl _)
  · exact absurd h (extended_lt_of_key hy hx hgt).not_gt

/-- Doubles compare as the numbers do that they stand for, unless one is no number. -/
lemma compare?_eq_some_iff {o : Ordering} : x.compare? y = some o ↔
    Ordered x y ∧ o.Compares x.extended y.extended := by
  rw [compare?]
  split
  · rename_i hnan
    have hno : ¬Ordered x y := fun h => by simp [h.1, h.2] at hnan
    exact iff_of_false (by simp) fun h => hno h.1
  · rename_i hnan
    simp only [Bool.or_eq_true, not_or, Bool.not_eq_true] at hnan
    obtain ⟨hx, hy⟩ := hnan
    have hlt := extended_lt_iff hx hy
    have hgt := extended_lt_iff hy hx
    rw [Option.some_inj, and_iff_right ⟨hx, hy⟩]
    cases o with
    | lt => exact compare_lt_iff_lt.trans hlt.symm
    | eq =>
      refine compare_eq_iff_eq.trans ⟨fun h => ?_, fun h => ?_⟩
      · show x.extended = y.extended
        rw [extended_eq x, extended_eq y, h]
      · have h : x.extended = y.extended := h
        rw [h, lt_self_iff_false, false_iff] at hlt
        rw [h, lt_self_iff_false, false_iff] at hgt
        omega
    | gt => exact compare_gt_iff_gt.trans hgt.symm

/-! ### Scales -/

lemma twoTo_pos (e : Int) : 0 < twoTo e := by
  rw [twoTo, Nat.one_shiftLeft]
  exact Nat.two_pow_pos _

lemma roundDiv_mul (hc : 0 < c) : roundDiv (n * c) (m * c) = roundDiv n m := by
  have hlt : ∀ {a d : Nat}, a * c < d * c ↔ a < d := Nat.mul_lt_mul_right hc
  unfold roundDiv
  simp only [Nat.mul_div_mul_right _ _ hc, Nat.mul_mod_mul_right, ← Nat.mul_assoc, hlt]

lemma log2_mul_two_pow (hm : m ≠ 0) (k : Nat) : (m * 2 ^ k).log2 = m.log2 + k := by
  have hpos := Nat.two_pow_pos k
  rw [Nat.log2_eq_iff (Nat.mul_ne_zero hm hpos.ne')]
  constructor
  · rw [Nat.pow_add]
    exact Nat.mul_le_mul_right _ (Nat.log2_self_le hm)
  · rw [Nat.add_right_comm, Nat.pow_add]
    exact Nat.mul_lt_mul_of_pos_right Nat.lt_log2_self hpos

/-- A common scale of both sides of a fraction makes no difference. -/
lemma ofRatio_mul (b : Bool) (m k : Nat) : ofRatio b (m * 2 ^ k) (2 ^ k) = ofRatio b m 1 := by
  by_cases hm : m = 0
  · rw [hm, Nat.zero_mul, ofRatio, if_pos rfl, ofRatio, if_pos rfl]
  have hpos := Nat.two_pow_pos k
  have hratio : ratioLog2 (m * 2 ^ k) (2 ^ k) = ratioLog2 m 1 := by
    have hk : (2 ^ k).log2 = k := Nat.log2_two_pow
    have h1 : (1 : Nat).log2 = 0 := by decide
    have hlog : ((m * 2 ^ k).log2 : Int) - (2 ^ k : Nat).log2 = m.log2 - (1 : Nat).log2 := by
      rw [log2_mul_two_pow hm, hk, h1]
      omega
    have hle : ∀ u v : Nat, 2 ^ k * u ≤ m * 2 ^ k * v ↔ 1 * u ≤ m * v := fun u v => by
      rw [Nat.one_mul, Nat.mul_right_comm, Nat.mul_comm (2 ^ k)]
      exact Nat.mul_le_mul_right_iff hpos
    unfold ratioLog2
    simp only [hlog, hle]
  have hround : ∀ e, roundDiv (m * 2 ^ k * twoTo (-e)) (2 ^ k * twoTo e) =
      roundDiv (m * twoTo (-e)) (1 * twoTo e) := fun e => by
    rw [Nat.mul_right_comm, Nat.mul_comm (2 ^ k), Nat.one_mul]
    exact roundDiv_mul hpos
  unfold ofRatio
  simp only [hm, Nat.mul_ne_zero hm hpos.ne', if_false, hratio, hround]

/-- The magnitude as a fraction. -/
lemma significand_mul (x : Double) : (x.significand : ℚ) * 2 ^ x.exponent =
    (x.significand * twoTo x.exponent : Nat) / (twoTo (-x.exponent) : Nat) := by
  rcases le_total 0 x.exponent with he | he
  · obtain ⟨k, hk⟩ := Int.eq_ofNat_of_zero_le he
    rw [twoTo_of_nonpos (show -x.exponent ≤ 0 by omega), hk, twoTo_natCast]
    simp
  · obtain ⟨k, hk⟩ := Int.eq_ofNat_of_zero_le (show 0 ≤ -x.exponent by omega)
    rw [twoTo_of_nonpos he, hk, twoTo_natCast, show x.exponent = -(k : Int) by omega, zpow_neg,
      zpow_natCast, ← div_eq_mul_inv]
    simp

/-- The integer part is the exact value rounded toward zero. -/
lemma truncate_eq_exact (x : Double) :
    x.truncate = if x.exact < 0 then ⌈x.exact⌉ else ⌊x.exact⌋ := by
  have hpos : 0 ≤ (x.significand : ℚ) * 2 ^ x.exponent := by
    rw [significand_mul]
    positivity
  have hfloor : ⌊(x.significand : ℚ) * 2 ^ x.exponent⌋ =
      (x.significand * twoTo x.exponent / twoTo (-x.exponent) : Nat) := by
    rw [significand_mul, Rat.floor_natCast_div_natCast]
    rfl
  rw [exact, signedSignificand, truncate]
  generalize x.significand * twoTo x.exponent / twoTo (-x.exponent) = t at hfloor ⊢
  split
  · rw [Int.cast_neg, Int.cast_natCast, neg_mul, Int.ceil_neg, hfloor]
    split
    · rfl
    · -- only zero is not below zero
      have hzero : (x.significand : ℚ) * 2 ^ x.exponent = 0 := by linarith
      rw [hzero, Int.floor_zero] at hfloor
      rw [hzero, neg_zero, Int.floor_zero, ← hfloor]
      rfl
  · rw [Int.cast_natCast, if_neg (not_lt.mpr hpos), hfloor]

/-! ### Whole numbers -/

/-- A finite double that is a whole number, by its sign and its absolute value. -/
structure Whole (x : Double) (b : Bool) (m : Nat) : Prop where
  finite : x.isFinite = true
  negative : x.isNegative = b
  scaled : x.significand * twoTo x.exponent = m * twoTo (-x.exponent)

lemma whole_zero : (zero b).Whole b 0 := by
  cases b
  · exact ⟨by decide, by decide, by decide +kernel⟩
  · exact ⟨by decide, by decide, by decide +kernel⟩

lemma whole_ofRatio (h : m < 2 ^ 53) : (ofRatio b m 1).Whole b m := by
  by_cases hm : m = 0
  · rw [hm, ofRatio, if_pos rfl]
    exact whole_zero
  have hlog : m.log2 ≤ 52 := Nat.le_of_lt_succ ((Nat.log2_lt hm).mpr h)
  obtain ⟨hfinite, hneg, hsig, hexp⟩ := fields_ofRatio_one (b := b) hm hlog
  refine ⟨hfinite, hneg, ?_⟩
  rw [hsig, hexp, twoTo_of_nonpos (by omega), twoTo_shift hlog, Nat.mul_one]

namespace Whole

lemma truncate_eq (h : x.Whole b m) : x.truncate = if b then -(m : Int) else m := by
  rw [truncate, h.scaled, Nat.mul_div_cancel _ (twoTo_pos _), h.negative]

lemma scale (h : x.Whole b m) {e : Int} (he : e ≤ x.exponent) (h0 : e ≤ 0) :
    x.significand * twoTo (x.exponent - e) = m * 2 ^ (-e).toNat := by
  have hs := h.scaled
  rcases le_total 0 x.exponent with hx | hx
  · obtain ⟨u, hu⟩ := Int.eq_ofNat_of_zero_le hx
    obtain ⟨v, hv⟩ := Int.eq_ofNat_of_zero_le (show 0 ≤ -e by omega)
    rw [twoTo_of_nonpos (show -x.exponent ≤ 0 by omega), hu, twoTo_natCast, Nat.mul_one] at hs
    rw [← hs, hu, hv, show (u : Int) - e = (u + v : Nat) by omega, twoTo_natCast, Int.toNat_natCast,
      Nat.pow_add, Nat.mul_assoc]
  · obtain ⟨u, hu⟩ := Int.eq_ofNat_of_zero_le (show 0 ≤ -x.exponent by omega)
    obtain ⟨v, hv⟩ := Int.eq_ofNat_of_zero_le (show 0 ≤ x.exponent - e by omega)
    rw [twoTo_of_nonpos hx, hu, twoTo_natCast, Nat.mul_one] at hs
    rw [hs, hv, twoTo_natCast, Nat.mul_assoc, ← Nat.pow_add]
    congr 2
    omega

end Whole

/-- The double of a whole number that is given at some scale. -/
lemma ofScaled_eq {s : Nat} {e : Int} (b : Bool) (he : e ≤ 0) (h : s = m * 2 ^ (-e).toNat) :
    ofScaled b s e = ofRatio b m 1 := by
  obtain ⟨k, hk⟩ := Int.eq_ofNat_of_zero_le (show 0 ≤ -e by omega)
  rw [ofScaled, twoTo_of_nonpos he, Nat.mul_one, h, hk, twoTo_natCast, Int.toNat_natCast, ofRatio_mul]

lemma isInfinite_of_isFinite (h : x.isFinite = true) : x.isInfinite = false := by
  rw [isFinite, decide_eq_true_eq] at h
  rw [isInfinite, beq_eq_false_iff_ne]
  exact UInt64.ne_of_lt h

lemma whole_modulus : (ofInt 4294967296).Whole false (2 ^ 32) ∧ (ofInt 4294967296).exponent = -20 ∧
    (ofInt 4294967296).isZero = false :=
  ⟨whole_ofRatio (by decide), by decide +kernel, by decide +kernel⟩

namespace Whole

lemma rem (h : x.Whole b m) : x.rem (ofInt 4294967296) = ofRatio b (m % 2 ^ 32) 1 := by
  obtain ⟨hy, hexp, hzero⟩ := whole_modulus
  generalize ofInt 4294967296 = y at hy hexp hzero
  have he : min x.exponent y.exponent ≤ 0 := by omega
  rw [Double.rem, propagate, isNaN_of_isFinite h.finite, isNaN_of_isFinite hy.finite,
    isInfinite_of_isFinite h.finite, hzero, isInfinite_of_isFinite hy.finite, h.negative]
  simp only [Bool.or_self, Bool.false_eq_true, if_false]
  refine ofScaled_eq b he ?_
  rw [h.scale (min_le_left ..) he, hy.scale (min_le_right ..) he, Nat.mul_mod_mul_right]

/-- The sum with the modulus of what is left below zero. -/
lemma add (h : x.Whole true m) (hm : m < 2 ^ 32) :
    x.add (ofInt 4294967296) = ofRatio false (2 ^ 32 - m) 1 := by
  obtain ⟨hy, hexp, -⟩ := whole_modulus
  generalize ofInt 4294967296 = y at hy hexp
  have he : min x.exponent y.exponent ≤ 0 := by omega
  have hx := h.scale (min_le_left ..) he
  have hs := hy.scale (min_le_right ..) he
  have hsum : x.signedSignificand * (twoTo (x.exponent - min x.exponent y.exponent) : Int) +
      y.signedSignificand * (twoTo (y.exponent - min x.exponent y.exponent) : Int) =
      ((2 ^ 32 - m) * 2 ^ (-min x.exponent y.exponent).toNat : Nat) := by
    rw [signedSignificand, h.negative, signedSignificand, hy.negative]
    simp only [if_true, Bool.false_eq_true, if_false]
    rw [neg_mul, ← Nat.cast_mul, hx, ← Nat.cast_mul, hs, Nat.sub_mul]
    have := Nat.mul_le_mul_right (2 ^ (-min x.exponent y.exponent).toNat) hm.le
    omega
  have hpos : 0 < (2 ^ 32 - m) * 2 ^ (-min x.exponent y.exponent).toNat :=
    Nat.mul_pos (by omega) (Nat.two_pow_pos _)
  rw [Double.add, propagate, isNaN_of_isFinite h.finite, isNaN_of_isFinite hy.finite, addNumbers,
    isInfinite_of_isFinite h.finite, isInfinite_of_isFinite hy.finite]
  simp only [Bool.false_eq_true, if_false, addFinite]
  rw [hsum, if_neg (by omega), decide_eq_false (by omega), Int.natAbs_natCast]
  exact ofScaled_eq false he rfl

lemma exact_eq (h : x.Whole b m) : x.exact = if b then -(m : ℚ) else m := by
  have hcast : (x.significand : ℚ) * 2 ^ x.exponent = m := by
    rw [significand_mul, h.scaled, Nat.cast_mul, mul_div_cancel_right₀]
    exact Nat.cast_ne_zero.mpr (twoTo_pos _).ne'
  rw [exact, signedSignificand, h.negative]
  split
  · push_cast
    rw [neg_mul, hcast]
  · push_cast
    exact hcast

lemma lt_zero (h : x.Whole b m) : x.lt (zero false) = (b && m != 0) := by
  have hzero : (zero false).Whole false 0 := whole_zero
  have hord : Ordered x (zero false) := ⟨isNaN_of_isFinite h.finite, isNaN_of_isFinite hzero.finite⟩
  have hextended : ∀ {y : Double}, y.isFinite = true → y.extended = (y.exact : WithTop ℚ) := fun hy => by
    rw [extended, isInfinite_of_isFinite hy]
    rfl
  rw [Bool.eq_iff_iff, Double.lt, beq_iff_eq, compare?_eq_some_iff, and_iff_right hord,
    Ordering.Compares, hextended h.finite, hextended hzero.finite, WithBot.coe_lt_coe, WithTop.coe_lt_coe, h.exact_eq,
    hzero.exact_eq]
  cases b <;> simp [Nat.pos_iff_ne_zero]

end Whole

/-! ### The conversion to 32 bits -/

lemma significand_lt (x : Double) : x.significand < 2 ^ 53 := by
  have hfrac := fraction_eq x
  rw [significand]
  split <;> omega

/-- The pattern without the bits that are below the unit. -/
lemma toNat_cleared {w : UInt64} (hk : k ≤ 52) :
    (w >>> UInt64.ofNat k <<< UInt64.ofNat k).toNat = w.toNat / 2 ^ k * 2 ^ k := by
  have hlt : w.toNat < 2 ^ 64 := w.toNat_lt
  have hshift : (UInt64.ofNat k).toNat % 64 = k := by
    rw [UInt64.toNat_ofNat_of_lt' (by rw [UInt64.size]; omega)]
    omega
  rw [UInt64.toNat_shiftLeft, UInt64.toNat_shiftRight, hshift, Nat.shiftRight_eq_div_pow,
    Nat.shiftLeft_eq, Nat.mod_eq_of_lt (lt_of_le_of_lt (Nat.div_mul_le_self ..) hlt)]

lemma whole_cleared (hlow : 1023 ≤ x.biasedExponent) (hk : x.biasedExponent + k = 1075) (hpos : 0 < k) :
    Whole ⟨x.bits >>> UInt64.ofNat k <<< UInt64.ofNat k⟩ x.isNegative
      (x.significand * twoTo x.exponent / twoTo (-x.exponent)) := by
  have hbits := toNat_cleared (w := x.bits) (show k ≤ 52 by omega)
  generalize hy : (⟨x.bits >>> UInt64.ofNat k <<< UInt64.ofNat k⟩ : Double) = y
  replace hbits : y.bits.toNat = x.bits.toNat / 2 ^ k * 2 ^ k := by rw [← hy]; exact hbits
  -- the bits to be cleared are all of the fraction
  obtain ⟨c, hc⟩ : ∃ c, 2 ^ 52 = c * 2 ^ k := ⟨2 ^ (52 - k), by rw [← Nat.pow_add]; congr 1; omega⟩
  have hupper : y.bits.toNat / 2 ^ 52 = x.bits.toNat / 2 ^ 52 := by
    rw [hbits, hc, Nat.mul_div_mul_right _ _ (Nat.two_pow_pos k), Nat.div_div_eq_div_mul, Nat.mul_comm]
  have hlower : y.bits.toNat % 2 ^ 52 = x.bits.toNat % 2 ^ 52 / 2 ^ k * 2 ^ k := by
    rw [hbits, hc, Nat.mul_mod_mul_right, Nat.mod_mul_left_div_self]
  have hexp : y.biasedExponent = x.biasedExponent := by
    rw [biasedExponent_eq, biasedExponent_eq]
    omega
  have hsig : y.significand = x.significand / 2 ^ k * 2 ^ k := by
    rw [significand, significand, hexp, if_neg (by omega), if_neg (by omega), fraction_eq, fraction_eq,
      hlower, show (0x0010000000000000 : Nat) = 2 ^ 52 from rfl, hc, Nat.add_comm (c * 2 ^ k),
      Nat.add_comm (c * 2 ^ k), Nat.add_mul_div_right _ _ (Nat.two_pow_pos k), Nat.add_mul]
  have hscale : y.exponent = -k ∧ x.exponent = -k := by
    rw [exponent, exponent, hexp, if_neg (by omega)]
    omega
  refine ⟨?_, ?_, ?_⟩
  · rw [isFinite, decide_eq_true_eq, UInt64.lt_iff_toNat_lt, toNat_magnitude,
      show infinityBits.toNat = 2047 * 2 ^ 52 from rfl]
    rw [biasedExponent_eq] at hexp hk
    omega
  · rw [isNegative_eq, isNegative_eq, decide_eq_decide]
    omega
  · rw [hsig, hscale.1, hscale.2, twoTo_of_nonpos (by omega), Int.neg_neg, twoTo_natCast, Nat.mul_one,
      Nat.mul_one]

/-- Clearing the bits below the unit leaves the integer part. -/
lemma whole_trunc (h : x.isFinite = true) :
    ∃ m, x.trunc.Whole x.isNegative m ∧ x.truncate = if x.isNegative then -(m : Int) else m := by
  refine ⟨x.significand * twoTo x.exponent / twoTo (-x.exponent), ?_, rfl⟩
  rw [trunc]
  split
  · -- all of the number is below the unit
    rename_i hsmall
    have hexp : x.exponent ≤ -53 := by
      rw [exponent]
      split <;> omega
    obtain ⟨k, hk⟩ := Int.eq_ofNat_of_zero_le (show 0 ≤ -x.exponent - 53 by omega)
    have hlt : x.significand < twoTo (-x.exponent) := by
      rw [show -x.exponent = (53 + k : Nat) by omega, twoTo_natCast, Nat.pow_add]
      exact lt_of_lt_of_le x.significand_lt (Nat.le_mul_of_pos_right _ (Nat.two_pow_pos k))
    rw [twoTo_of_nonpos (by omega), Nat.mul_one, Nat.div_eq_of_lt hlt]
    exact whole_zero
  split
  · rename_i hlow hhigh
    obtain ⟨k, hk⟩ : ∃ k, x.biasedExponent + k = 1075 := ⟨1075 - x.biasedExponent, by omega⟩
    rw [show 1075 - x.biasedExponent = k by omega]
    exact whole_cleared (by omega) hk (by omega)
  · rename_i hlow hhigh
    have hexp : 0 ≤ x.exponent := by
      rw [exponent]
      split <;> omega
    refine ⟨h, rfl, ?_⟩
    rw [twoTo_of_nonpos (show -x.exponent ≤ 0 by omega), Nat.div_one, Nat.mul_one]

/-- Only the lower half of what is left is kept. -/
lemma toInt32_toUInt64 {i : Int} (h : x.isFinite = true) (ht : x.truncate = n) (hlt : n < 2 ^ 32)
    (hmod : (n : Int) % 2 ^ 32 = i % 2 ^ 32) : x.toUInt64.toUInt32.toInt32 = Int32.ofInt i := by
  have hnat : x.toUInt64.toNat = n := by
    rw [toUInt64, if_pos h, ht, Int.toNat_natCast, UInt64.toNat_ofNat_of_lt'] <;>
      rw [UInt64.size] <;> omega
  have hbits : x.toUInt64.toUInt32.toInt32.toInt = (n : Int).bmod (2 ^ 32) := by
    rw [← Int32.toInt_toBitVec, UInt32.toBitVec_toInt32, BitVec.toInt_eq_toNat_bmod,
      UInt32.toNat_toBitVec, UInt64.toNat_toUInt32, hnat, Nat.mod_eq_of_lt hlt]
  rw [← Int32.toInt_inj, hbits, Int32.toInt_ofInt]
  exact (Int.emod_bmod ..).symm.trans ((congrArg (Int.bmod · _) hmod).trans (Int.emod_bmod ..))

/-- Of a finite number the conversion leaves the integer part modulo `2 ^ 32`. -/
lemma toInt32_of_isFinite (h : x.isFinite = true) : x.toInt32 = Int32.ofInt x.truncate := by
  obtain ⟨m, hwhole, htrunc⟩ := whole_trunc h
  have hlt : m % 2 ^ 32 < 2 ^ 32 := Nat.mod_lt _ (Nat.two_pow_pos 32)
  have hrem : (x.trunc.rem (ofInt 4294967296)).Whole x.isNegative (m % 2 ^ 32) := by
    rw [hwhole.rem]
    exact whole_ofRatio (by omega)
  rw [toInt32, if_pos h]
  generalize x.trunc.rem (ofInt 4294967296) = r at hrem
  dsimp only
  rw [hrem.lt_zero]
  split
  · rename_i hneg
    obtain ⟨hb, hne⟩ : x.isNegative = true ∧ m % 2 ^ 32 ≠ 0 := by simpa using hneg
    rw [hb] at hrem htrunc
    have hsum := whole_ofRatio (b := false) (show 2 ^ 32 - m % 2 ^ 32 < 2 ^ 53 by omega)
    rw [← hrem.add hlt] at hsum
    refine toInt32_toUInt64 hsum.finite hsum.truncate_eq (by omega) ?_
    rw [if_pos rfl] at htrunc
    omega
  · rename_i hneg
    have hor : x.isNegative = true → m % 2 ^ 32 = 0 := by simpa using hneg
    refine toInt32_toUInt64 (n := m % 2 ^ 32) hrem.finite (hrem.truncate_eq.trans ?_) hlt ?_
    · split
      · rw [hor ‹_›]
        rfl
      · rfl
    · split at htrunc
      · have := hor ‹_›
        omega
      · omega

lemma toInt32_eq (x : Double) : x.toInt32 = if x.isFinite then Int32.ofInt x.truncate else 0 := by
  split
  · exact toInt32_of_isFinite ‹_›
  · rw [toInt32, if_neg ‹_›]

/-- The exact value truncated toward zero, modulo `2 ^ 32` and with a sign. What is not finite counts as
zero. -/
def wrapped (x : Double) : Int32 :=
  if x.isFinite then Int32.ofInt (if x.exact < 0 then ⌈x.exact⌉ else ⌊x.exact⌋) else 0

lemma toInt32_eq_wrapped (x : Double) : x.toInt32 = x.wrapped := by
  rw [wrapped, ← truncate_eq_exact, toInt32_eq]

lemma toInt32_ofInt32 (i : Int32) : (ofInt32 i).toInt32 = i := by
  rw [toInt32_of_isFinite (truncate_ofInt32 i).1, (truncate_ofInt32 i).2, Int32.ofInt_toInt]

/-- The least integer apart, what truncation yields is the number modulo `2 ^ 32`. -/
lemma toInt32_of_truncateInt32 (h : x.truncateInt32 ≠ Int32.minValue) : x.toInt32 = x.truncateInt32 := by
  rw [truncateInt32] at h ⊢
  split at h
  · rename_i hrange
    rw [if_pos hrange]
    simp only [Bool.and_eq_true] at hrange
    exact toInt32_of_isFinite hrange.1.1
  · exact absurd rfl h

end Double
end Speculation
