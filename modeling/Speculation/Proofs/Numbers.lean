import Speculation.Proofs.Switch.Keys
import Speculation.Proofs.Values

/-!
Numbers as values.

A boxed double is a number unless its pattern is one that boxing takes out of the doubles: then the
offset leads to an integer or around to the cells. Only NaNs have such patterns.
-/

namespace Speculation

namespace Double

variable {x : Double} {i : Int32}

lemma isNaN_eq (x : Double) : x.isNaN = decide (2047 * 2 ^ 52 < x.bits.toNat % 2 ^ 63) := by
  rw [isNaN, decide_eq_decide, UInt64.lt_iff_toNat_lt, toNat_magnitude]
  rfl

/-- What is no NaN can be boxed. -/
lemma toNat_bits_lt (h : x.isNaN = false) : x.bits.toNat < 65534 * 2 ^ 48 := by
  rw [isNaN_eq, decide_eq_false_iff_not] at h
  have hlt := x.bits.toNat_lt
  omega

/-- An integer that stands for a number is that number. -/
lemma ofInt32_of_exactInt32? (h : x.exactInt32? = some i) : ofInt32 i = x := by
  unfold exactInt32? at h
  dsimp only at h
  split at h
  · rename_i hexact
    obtain rfl := Option.some.inj h
    simp only [Bool.and_eq_true, Bool.not_eq_true', Bool.and_eq_false_iff] at hexact
    obtain ⟨heq, hzero⟩ := hexact
    obtain heq | ⟨hi, hx⟩ := eq_cases heq
    · exact heq
    · -- both are zero, and the number is not the negative one
      have htruncate := (truncate_ofInt32 x.truncateInt32).2
      rw [(truncate_of_magnitude hi).2] at htruncate
      have hi0 : x.truncateInt32 = 0 := Int32.toInt_inj.mp htruncate.symm
      rw [hi0] at hzero ⊢
      have hpos : x.isNegative = false := hzero.resolve_left (by decide)
      rw [isNegative_eq, decide_eq_false_iff_not] at hpos
      have hmod := congrArg UInt64.toNat hx
      rw [toNat_magnitude] at hmod
      have hbits : x.bits = 0 := UInt64.toNat_inj.mp (by
        show _ = 0
        have : (0 : UInt64).toNat = 0 := rfl
        omega)
      obtain ⟨b⟩ := x
      dsimp only at hbits
      subst hbits
      decide
  · cases h

end Double

namespace Value

variable {v : Value} {x : Double} {i : Int32}

/-- A mask of all bits from a place on cuts off what is below it. -/
lemma toNat_and_high {a mask : UInt64} {k : Nat} (h : mask.toNat = (2 ^ (64 - k) - 1) <<< k)
    (hk : k ≤ 64) : (a &&& mask).toNat = a.toNat / 2 ^ k * 2 ^ k := by
  have hlt : a.toNat / 2 ^ k < 2 ^ (64 - k) := by
    rw [Nat.div_lt_iff_lt_mul (Nat.two_pow_pos k), ← Nat.pow_add, Nat.sub_add_cancel hk]
    exact a.toNat_lt
  have hlow : (a.toNat &&& mask.toNat) % 2 ^ k = 0 := by
    rw [Nat.and_mod_two_pow, h, Nat.shiftLeft_eq, Nat.mul_mod_left, Nat.and_zero]
  have hhigh : (a.toNat &&& mask.toNat) / 2 ^ k = a.toNat / 2 ^ k := by
    rw [Nat.and_div_two_pow, h, Nat.shiftLeft_eq, Nat.mul_div_cancel _ (Nat.two_pow_pos k),
      Nat.and_two_pow_sub_one_eq_mod, Nat.mod_eq_of_lt hlt]
  calc (a &&& mask).toNat = a.toNat &&& mask.toNat := UInt64.toNat_and ..
    _ = 2 ^ k * ((a.toNat &&& mask.toNat) / 2 ^ k) + (a.toNat &&& mask.toNat) % 2 ^ k :=
      (Nat.div_add_mod _ _).symm
    _ = a.toNat / 2 ^ k * 2 ^ k := by rw [hlow, hhigh, Nat.add_zero, Nat.mul_comm]

/-- Numbers are the values that have anything in their high part. -/
lemma isNumber_iff_le : v.isNumber = true ↔ 2 ^ 48 ≤ v.bits.toNat := by
  have hhigh : (v.bits &&& numberTag).toNat = v.bits.toNat / 2 ^ 48 * 2 ^ 48 :=
    toNat_and_high rfl (by decide)
  rw [isNumber, bne_iff_ne, ← UInt64.toNat_inj.ne, hhigh, show (0 : UInt64).toNat = 0 from rfl]
  omega

lemma isInt32_iff_toNat : v.isInt32 = true ↔ 65535 * 2 ^ 48 ≤ v.bits.toNat := by
  rw [isInt32_iff_le, UInt64.le_iff_toNat_le]
  rfl

lemma isDouble_iff : v.isDouble = true ↔
    2 ^ 48 ≤ v.bits.toNat ∧ v.bits.toNat < 65535 * 2 ^ 48 := by
  rw [isDouble, Bool.and_eq_true, Bool.not_eq_true', isNumber_iff_le, ← Bool.not_eq_true,
    isInt32_iff_toNat, Nat.not_le]

lemma toNat_bits_ofDouble (x : Double) :
    (ofDouble x).bits.toNat = (x.bits.toNat + 2 ^ 48) % 2 ^ 64 := by
  rw [ofDouble, UInt64.toNat_add]
  rfl

lemma exists_number? (h : v.isNumber = true) : ∃ x, v.number? = some x := by
  unfold number? int32? double? isDouble
  split
  · exact ⟨_, rfl⟩
  · rename_i hi
    split at hi
    · cases hi
    · rename_i hno
      rw [h, Bool.eq_false_iff.mpr hno]
      exact ⟨_, rfl⟩

lemma number?_eq_none (h : v.isNumber = false) : v.number? = none := by
  rw [number?, int32?, if_neg (by simp [isInt32_of_isNumber_eq_false h])]
  simp only [double?, isDouble, h, Bool.false_and, Bool.false_eq_true, if_false]

lemma isNumber_of_number? (h : v.number? = some x) : v.isNumber = true := by
  by_contra hno
  rw [number?_eq_none (by simpa using hno)] at h
  cases h

lemma isNumber_of_number?_eq_none (h : v.number? = none) : v.isNumber = false := by
  by_contra hno
  obtain ⟨x, hx⟩ := exists_number? (Bool.of_not_eq_false hno)
  cases h.symm.trans hx

/-- Boxing takes a double to a double exactly if the offset does not lead out of them. -/
lemma double?_ofDouble (h : x.bits.toNat < 65534 * 2 ^ 48) : (ofDouble x).double? = some x := by
  have hbits := toNat_bits_ofDouble x
  rw [double?, if_pos (isDouble_iff.mpr (by omega))]
  show some (⟨x.bits + doubleOffset - doubleOffset⟩ : Double) = _
  rw [UInt64.add_sub_cancel]

lemma number?_of_double? (h : v.double? = some x) : v.number? = some x := by
  rw [number?, int32?, if_neg (by rw [isInt32_of_double? h]; exact Bool.false_ne_true)]
  exact h

lemma number?_ofInt32 (i : Int32) : (ofInt32 i).number? = some (.ofInt32 i) := by
  rw [number?, int32?_ofInt32]

lemma number?_ofNumber (h : x.bits.toNat < 65534 * 2 ^ 48) : (ofNumber x).number? = some x := by
  unfold ofNumber
  split
  · rename_i i hi
    rw [number?_ofInt32, Double.ofInt32_of_exactInt32? hi]
  · exact number?_of_double? (double?_ofDouble h)

lemma isNumber_of_isInt32 (h : v.isInt32 = true) : v.isNumber = true := by
  by_contra hno
  rw [isInt32_of_isNumber_eq_false (by simpa using hno)] at h
  cases h

lemma isNumber_of_isBoolean (h : v.isBoolean = true) : v.isNumber = false := by
  simp only [isBoolean, beq_iff_eq] at h
  have hmask : v.bits &&& numberTag = v.bits &&& ~~~1 &&& numberTag := by
    rw [UInt64.and_assoc]
    rfl
  rw [isNumber, hmask, h]
  rfl

lemma isDouble_of_isNumber (h : v.isNumber = true) (hi : v.isInt32 = false) : v.isDouble = true := by
  rw [isDouble, h, hi]
  rfl

/-! ### The classes of words

Each test accepts a range of words, or a few of them. -/

/-- A word that stands for nothing: it has no high part, and bit 1 as no cell has it, but it is none of
the four values that are written so. -/
def isInvalid (v : Value) : Bool :=
  v.bits &&& numberTag == 0 && v.bits &&& otherBit != 0 &&
    !(v.isBoolean || v.isNull || v.isUndefined)

inductive Class where
  | empty | int32 | double | boolean | null | undefined | cell | invalid
deriving DecidableEq, Repr

def Class.accepts (c : Class) (v : Value) : Bool :=
  match c with
  | empty => v.isEmpty
  | int32 => v.isInt32
  | double => v.isDouble
  | boolean => v.isBoolean
  | null => v.isNull
  | undefined => v.isUndefined
  | cell => v.isCell
  | invalid => v.isInvalid

lemma and_numberTag_eq_zero_iff : v.bits &&& numberTag = 0 ↔ v.bits.toNat < 2 ^ 48 := by
  rw [← Nat.not_le, ← isNumber_iff_le, isNumber, bne_iff_ne, not_not]

lemma and_otherBit_eq_zero_iff : v.bits &&& otherBit = 0 ↔ v.bits.toNat / 2 % 2 = 0 := by
  have hbit : (v.bits &&& otherBit).toNat = (v.bits.toNat.testBit 1).toNat * 2 ^ 1 := by
    rw [UInt64.toNat_and, ← Nat.and_two_pow]
    rfl
  rw [← UInt64.toNat_inj, hbit, Nat.testBit_eq_decide_div_mod_eq, show (0 : UInt64).toNat = 0 from rfl]
  rcases Nat.mod_two_eq_zero_or_one (v.bits.toNat / 2) with h | h <;> simp [h]

lemma isEmpty_iff : v.isEmpty = true ↔ v.bits.toNat = 0 := by
  rw [isEmpty, beq_iff_eq, ← UInt64.toNat_inj]
  rfl

lemma isBoolean_iff : v.isBoolean = true ↔ v.bits.toNat = 6 ∨ v.bits.toNat = 7 := by
  have hhigh : (v.bits &&& ~~~1).toNat = v.bits.toNat / 2 ^ 1 * 2 ^ 1 :=
    toNat_and_high rfl (by decide)
  rw [isBoolean, beq_iff_eq, ← UInt64.toNat_inj, hhigh, show falseBits.toNat = 6 from rfl]
  omega

lemma isNull_iff : v.isNull = true ↔ v.bits.toNat = 2 := by
  obtain ⟨b⟩ := v
  simp [isNull, null, ← UInt64.toNat_inj]

lemma isUndefined_iff : v.isUndefined = true ↔ v.bits.toNat = 10 := by
  obtain ⟨b⟩ := v
  simp [isUndefined, undefined, ← UInt64.toNat_inj]

lemma isCell_iff : v.isCell = true ↔
    v.bits.toNat ≠ 0 ∧ v.bits.toNat < 2 ^ 48 ∧ v.bits.toNat / 2 % 2 = 0 := by
  have hmask : v.bits &&& cellMask = v.bits &&& numberTag ||| v.bits &&& otherBit := by
    apply UInt64.toBitVec_inj.mp
    exact BitVec.and_or_distrib_left
  rw [isCell, Bool.and_eq_true, bne_iff_ne, beq_iff_eq, hmask, UInt64.or_eq_zero_iff,
    and_numberTag_eq_zero_iff, and_otherBit_eq_zero_iff, ← UInt64.toNat_inj.ne]
  rfl

lemma isInvalid_iff : v.isInvalid = true ↔ v.bits.toNat < 2 ^ 48 ∧ v.bits.toNat / 2 % 2 = 1 ∧
    v.bits.toNat ≠ 6 ∧ v.bits.toNat ≠ 7 ∧ v.bits.toNat ≠ 2 ∧ v.bits.toNat ≠ 10 := by
  simp only [isInvalid, Bool.and_eq_true, beq_iff_eq, bne_iff_ne, ne_eq, Bool.not_eq_true',
    ← Bool.not_eq_true, Bool.or_eq_true, and_numberTag_eq_zero_iff, and_otherBit_eq_zero_iff,
    isBoolean_iff, isNull_iff, isUndefined_iff]
  omega

lemma Class.accepts_iff (c : Class) : c.accepts v = true ↔
    match c with
    | empty => v.bits.toNat = 0
    | int32 => 65535 * 2 ^ 48 ≤ v.bits.toNat
    | double => 2 ^ 48 ≤ v.bits.toNat ∧ v.bits.toNat < 65535 * 2 ^ 48
    | boolean => v.bits.toNat = 6 ∨ v.bits.toNat = 7
    | null => v.bits.toNat = 2
    | undefined => v.bits.toNat = 10
    | cell => v.bits.toNat ≠ 0 ∧ v.bits.toNat < 2 ^ 48 ∧ v.bits.toNat / 2 % 2 = 0
    | invalid => v.bits.toNat < 2 ^ 48 ∧ v.bits.toNat / 2 % 2 = 1 ∧
      v.bits.toNat ≠ 6 ∧ v.bits.toNat ≠ 7 ∧ v.bits.toNat ≠ 2 ∧ v.bits.toNat ≠ 10 := by
  cases c with
  | empty => exact isEmpty_iff
  | int32 => exact isInt32_iff_toNat
  | double => exact isDouble_iff
  | boolean => exact isBoolean_iff
  | null => exact isNull_iff
  | undefined => exact isUndefined_iff
  | cell => exact isCell_iff
  | invalid => exact isInvalid_iff

/-- No word is of two classes. -/
lemma Class.eq_of_accepts {c c' : Class} (h : c.accepts v = true) (h' : c'.accepts v = true) :
    c' = c := by
  rw [accepts_iff] at h h'
  cases c <;> cases c' <;> first | rfl | (exfalso; dsimp only at h h'; omega)

lemma Class.exists_accepts (v : Value) : ∃ c : Class, c.accepts v = true := by
  by_contra hno
  have hnone : ∀ c : Class, ¬c.accepts v = true := fun c h => hno ⟨c, h⟩
  have hempty := hnone empty
  have hint32 := hnone int32
  have hdouble := hnone double
  have hboolean := hnone boolean
  have hnull := hnone null
  have hundefined := hnone undefined
  have hcell := hnone cell
  have hinvalid := hnone invalid
  rw [accepts_iff] at hempty hint32 hdouble hboolean hnull hundefined hcell hinvalid
  dsimp only at hempty hint32 hdouble hboolean hnull hundefined hcell hinvalid
  omega

lemma boolean?_ofBool (b : Bool) : (ofBool b).boolean? = some b := by
  cases b <;> rfl

/-- A word is read back as a cell exactly if it is the address of one. -/
lemma cell?_ofCell_iff {a : UInt64} : (ofCell a).cell? = some a ↔ a ≠ 0 ∧ a &&& cellMask = 0 := by
  have hcell : (ofCell a).isCell = true ↔ a ≠ 0 ∧ a &&& cellMask = 0 := by
    rw [isCell, Bool.and_eq_true, bne_iff_ne, beq_iff_eq]
    rfl
  rw [← hcell, cell?]
  cases (ofCell a).isCell with
  | true => exact iff_of_true rfl rfl
  | false => exact iff_of_false (by simp) Bool.false_ne_true

lemma ofDouble_injective : Function.Injective ofDouble := by
  rintro ⟨x⟩ ⟨y⟩ h
  have hbits : x + doubleOffset = y + doubleOffset := congrArg bits h
  exact congrArg Double.mk ((UInt64.add_left_inj _).mp hbits)

/-- The offset leads the patterns from here on out of the doubles. -/
lemma isDouble_ofDouble_iff : (ofDouble x).isDouble = true ↔ x.bits.toNat < 65534 * 2 ^ 48 := by
  have hlt := x.bits.toNat_lt
  rw [isDouble_iff, toNat_bits_ofDouble]
  omega

/-- Boxing only adds an offset, so every word is boxed from a single pattern. -/
lemma existsUnique_ofDouble (v : Value) : ∃! x : Double, ofDouble x = v := by
  obtain ⟨b⟩ := v
  have hb : ofDouble ⟨b - doubleOffset⟩ = ⟨b⟩ := congrArg mk (UInt64.sub_add_cancel ..)
  exact ⟨_, hb, fun x hx => ofDouble_injective (hx.trans hb.symm)⟩

/-- **The boxing partitions the words.** Every word is of one class. Integers, booleans and addresses of
cells are read back as what they were boxed from, and so are the doubles whose patterns are below the
limit, which all numbers and the NaNs of arithmetic are, while no other pattern gives a double. Every
double value is boxed from such a pattern, and from no other pattern at all. -/
theorem boxing_partitions :
    (∀ v : Value, ∃! c : Class, c.accepts v = true) ∧
    (∀ i : Int32, (ofInt32 i).int32? = some i) ∧
    (∀ b : Bool, (ofBool b).boolean? = some b) ∧
    (∀ a : UInt64, (ofCell a).cell? = some a ↔ a ≠ 0 ∧ a &&& cellMask = 0) ∧
    (∀ x : Double, (ofDouble x).isDouble = true ∧ (ofDouble x).double? = some x ↔
      x.bits < 0xfffe000000000000) ∧
    (∀ x : Double, x.isNaN = true ∨ x.bits < 0xfffe000000000000) ∧
    (Double.nan.bits < 0xfffe000000000000 ∧ Double.indefinite.bits < 0xfffe000000000000) ∧
    ∀ v : Value,
      (v.isDouble = true ↔ ∃ x : Double, x.bits < 0xfffe000000000000 ∧ ofDouble x = v) ∧
        ∃! x : Double, ofDouble x = v := by
  have hlimit : ∀ {x : Double}, x.bits < 0xfffe000000000000 ↔ x.bits.toNat < 65534 * 2 ^ 48 :=
    UInt64.lt_iff_toNat_lt
  refine ⟨fun v => ?_, int32?_ofInt32, boolean?_ofBool, fun a => cell?_ofCell_iff, fun x => ?_,
    fun x => ?_, by decide, fun v => ?_⟩
  · obtain ⟨c, hc⟩ := Class.exists_accepts v
    exact ⟨c, hc, fun c' hc' => Class.eq_of_accepts hc hc'⟩
  · rw [hlimit, ← isDouble_ofDouble_iff]
    exact ⟨And.left, fun h => ⟨h, double?_ofDouble (isDouble_ofDouble_iff.mp h)⟩⟩
  · cases hx : x.isNaN with
    | true => exact .inl rfl
    | false => exact .inr (hlimit.mpr (Double.toNat_bits_lt hx))
  · refine ⟨⟨fun h => ?_, ?_⟩, existsUnique_ofDouble v⟩
    · obtain ⟨x, rfl, -⟩ := existsUnique_ofDouble v
      exact ⟨x, hlimit.mpr (isDouble_ofDouble_iff.mp h), rfl⟩
    · rintro ⟨x, hx, rfl⟩
      exact isDouble_ofDouble_iff.mpr (hlimit.mp hx)

end Value

end Speculation
