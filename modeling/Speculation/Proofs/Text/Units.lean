import Speculation.Text.Utf16
import Mathlib.Tactic.Lemma

/-!
What is left of units that are read as text and written as units again.

Each surrogate without its partner has become the replacement character, which is one unit as
well; all other units are as they were.
-/

namespace Speculation

namespace Utf16

variable {c : Char} {s t : String} {u v : UInt16} {us vs : List UInt16}

/-- The units with each surrogate that has no partner replaced. -/
def mend : List UInt16 → List UInt16
  | [] => []
  | [u] => [if isHigh u || isLow u then 0xfffd else u]
  | u :: v :: us =>
    if isHigh u && isLow v then u :: v :: mend us
    else (if isHigh u || isLow u then 0xfffd else u) :: mend (v :: us)

/-- No surrogate is without its partner. -/
inductive Paired : List UInt16 → Prop where
  | nil : Paired []
  | single {u : UInt16} {us : List UInt16} (hu : (isHigh u || isLow u) = false) (h : Paired us) :
    Paired (u :: us)
  | pair {u v : UInt16} {us : List UInt16} (hu : isHigh u = true) (hv : isLow v = true)
    (h : Paired us) : Paired (u :: v :: us)

lemma isHigh_iff : isHigh u = true ↔ 55296 ≤ u.toNat ∧ u.toNat < 56320 := by
  simp only [isHigh, Bool.and_eq_true, decide_eq_true_eq, UInt16.le_iff_toNat_le,
    UInt16.lt_iff_toNat_lt]
  rfl

lemma isLow_iff : isLow u = true ↔ 56320 ≤ u.toNat ∧ u.toNat < 57344 := by
  simp only [isLow, Bool.and_eq_true, decide_eq_true_eq, UInt16.le_iff_toNat_le,
    UInt16.lt_iff_toNat_lt]
  rfl

lemma not_surrogate_iff : (isHigh u || isLow u) = false ↔ u.toNat < 55296 ∨ 57344 ≤ u.toNat := by
  rw [← Bool.not_eq_true, Bool.or_eq_true, isHigh_iff, isLow_iff]
  omega

/-! ### Characters and units -/

lemma toNat_ofNat_of_valid {n : Nat} (h : n.isValidChar) : (Char.ofNat n).toNat = n := by
  rw [Char.ofNat, dif_pos h]
  rfl

lemma encodeChar_replacement : encodeChar replacement = [0xfffd] := by decide

lemma encodeChar_ofNat (hu : (isHigh u || isLow u) = false) :
    encodeChar (Char.ofNat u.toNat) = [u] := by
  have hlt := u.toNat_lt
  have hvalid : u.toNat.isValidChar := by
    rw [not_surrogate_iff] at hu
    unfold Nat.isValidChar
    omega
  rw [encodeChar, toNat_ofNat_of_valid hvalid, if_pos hlt, UInt16.ofNat_toNat]

lemma encodeChar_pair (hu : isHigh u = true) (hv : isLow v = true) :
    encodeChar (pair u v) = [u, v] := by
  obtain ⟨hu₁, hu₂⟩ := isHigh_iff.mp hu
  obtain ⟨hv₁, hv₂⟩ := isLow_iff.mp hv
  have hvalid : (0x10000 + (u.toNat - 0xd800) * 0x400 + (v.toNat - 0xdc00)).isValidChar := by
    unfold Nat.isValidChar
    omega
  rw [encodeChar, pair, toNat_ofNat_of_valid hvalid, if_neg (by omega)]
  have hhigh : 0xd800 + (0x10000 + (u.toNat - 0xd800) * 0x400 + (v.toNat - 0xdc00) - 0x10000) / 0x400 =
      u.toNat := by omega
  have hlow : 0xdc00 + (0x10000 + (u.toNat - 0xd800) * 0x400 + (v.toNat - 0xdc00) - 0x10000) % 0x400 =
      v.toNat := by omega
  rw [hhigh, hlow, UInt16.ofNat_toNat, UInt16.ofNat_toNat]

/-- The units of a character are read as that character, whatever follows. -/
lemma decodeChars_encodeChar_append (c : Char) (us : List UInt16) :
    decodeChars (encodeChar c ++ us) = c :: decodeChars us := by
  have hvalid : c.toNat < 55296 ∨ 57343 < c.toNat ∧ c.toNat < 1114112 := c.valid
  by_cases hlt : c.toNat < 0x10000
  · have hnat : (UInt16.ofNat c.toNat).toNat = c.toNat := UInt16.toNat_ofNat_of_lt' hlt
    have hu : (isHigh (UInt16.ofNat c.toNat) || isLow (UInt16.ofNat c.toNat)) = false :=
      not_surrogate_iff.mpr (by omega)
    have hone : encodeChar c = [UInt16.ofNat c.toNat] := if_pos hlt
    rw [hone]
    obtain ⟨hhigh, hlow⟩ := Bool.or_eq_false_iff.mp hu
    cases us with
    | nil => simp [decodeChars, hhigh, hlow, hnat, Char.ofNat_toNat]
    | cons v us => simp [decodeChars, hhigh, hlow, hnat, Char.ofNat_toNat]
  · have htwo : encodeChar c = [UInt16.ofNat (0xd800 + (c.toNat - 0x10000) / 0x400),
        UInt16.ofNat (0xdc00 + (c.toNat - 0x10000) % 0x400)] := if_neg hlt
    have hhigh : (UInt16.ofNat (0xd800 + (c.toNat - 0x10000) / 0x400)).toNat =
        0xd800 + (c.toNat - 0x10000) / 0x400 := UInt16.toNat_ofNat_of_lt' (by
      have : UInt16.size = 65536 := rfl
      omega)
    have hlow : (UInt16.ofNat (0xdc00 + (c.toNat - 0x10000) % 0x400)).toNat =
        0xdc00 + (c.toNat - 0x10000) % 0x400 := UInt16.toNat_ofNat_of_lt' (by
      have : UInt16.size = 65536 := rfl
      omega)
    have hpair : pair (UInt16.ofNat (0xd800 + (c.toNat - 0x10000) / 0x400))
        (UInt16.ofNat (0xdc00 + (c.toNat - 0x10000) % 0x400)) = c := by
      rw [pair, hhigh, hlow, show 0x10000 + (0xd800 + (c.toNat - 0x10000) / 0x400 - 0xd800) * 0x400 +
        (0xdc00 + (c.toNat - 0x10000) % 0x400 - 0xdc00) = c.toNat by omega, Char.ofNat_toNat]
    rw [htwo]
    show decodeChars (_ :: _ :: us) = _
    rw [decodeChars, if_pos (isHigh_iff.mpr (by omega)), if_pos (isLow_iff.mpr (by omega)), hpair]

/-! ### Texts and units -/

lemma decodeChars_flatMap_encodeChar (cs : List Char) : decodeChars (cs.flatMap encodeChar) = cs := by
  induction cs with
  | nil => rfl
  | cons c cs ih => rw [List.flatMap_cons, decodeChars_encodeChar_append, ih]

/-- A text can be written as units and read again. -/
lemma decode_encode (s : String) : decode (encode s) = s := by
  rw [decode, encode, decodeChars_flatMap_encodeChar, String.ofList_toList]

lemma encode_append (s t : String) : encode (s ++ t) = encode s ++ encode t := by
  rw [encode, String.toList_append, List.flatMap_append, encode, encode]

lemma flatMap_encodeChar_decodeChars (us : List UInt16) :
    (decodeChars us).flatMap encodeChar = mend us := by
  fun_induction decodeChars us with
  | case1 => rfl
  | case2 u =>
    by_cases hu : (isHigh u || isLow u) = true
    · simp [mend, hu, encodeChar_replacement]
    · rw [if_neg hu, mend, if_neg hu, List.flatMap_singleton,
        encodeChar_ofNat (Bool.not_eq_true _ ▸ hu)]
  | case3 u v us hu hv ih => rw [List.flatMap_cons, ih, encodeChar_pair hu hv, mend, hu, hv]; rfl
  | case4 u v us hu hv ih =>
    rw [List.flatMap_cons, ih, encodeChar_replacement, mend, hu, Bool.eq_false_iff.mpr hv]; rfl
  | case5 u v us hhigh hlow ih =>
    rw [List.flatMap_cons, ih, encodeChar_replacement, mend, Bool.eq_false_iff.mpr hhigh, hlow]; rfl
  | case6 u v us hhigh hlow ih =>
    have hu : (isHigh u || isLow u) = false :=
      Bool.or_eq_false_iff.mpr ⟨Bool.eq_false_iff.mpr hhigh, Bool.eq_false_iff.mpr hlow⟩
    rw [List.flatMap_cons, ih, encodeChar_ofNat hu, mend, Bool.eq_false_iff.mpr hhigh,
      Bool.eq_false_iff.mpr hlow]
    rfl

/-- **Units that are read as text and written again are mended.** -/
lemma encode_decode (us : List UInt16) : encode (decode us) = mend us := by
  rw [encode, decode, String.toList_ofList, flatMap_encodeChar_decodeChars]

lemma encode_injective (h : encode s = encode t) : s = t := by
  rw [← decode_encode s, h, decode_encode]

lemma mend_encode (s : String) : mend (encode s) = encode s := by rw [← encode_decode, decode_encode]

/-- The units of two joined texts are those of the two, mended. -/
lemma encode_decode_append (us vs : List UInt16) :
    encode (decode us ++ decode vs) = mend us ++ mend vs := by
  rw [encode_append, encode_decode, encode_decode]

lemma mend_mend_append (us vs : List UInt16) : mend (mend us ++ mend vs) = mend us ++ mend vs := by
  rw [← encode_decode_append, mend_encode]

lemma length_mend (us : List UInt16) : (mend us).length = us.length := by
  fun_induction mend us <;> simp_all

/-! ### Units that are not changed -/

lemma Paired.mend_eq (h : Paired us) : mend us = us := by
  induction h with
  | nil => rfl
  | @single u us hu h ih =>
    cases us with
    | nil => rw [mend, if_neg (by rw [hu]; decide)]
    | cons v us =>
      have hhigh := (Bool.or_eq_false_iff.mp hu).1
      rw [mend, hhigh, Bool.false_and, if_neg (by decide), ih, ← hhigh, if_neg (by rw [hu]; decide)]
  | pair hu hv h ih => rw [mend, hu, hv, ih]; rfl

lemma paired_of_mend_eq (h : mend us = us) : Paired us := by
  have hsurrogate : (isHigh 0xfffd || isLow 0xfffd) = false := by decide
  fun_induction mend us with
  | case1 => exact .nil
  | case2 u =>
    rw [List.singleton_inj] at h
    refine .single ?_ .nil
    split at h
    · exact h ▸ hsurrogate
    · exact Bool.eq_false_iff.mpr ‹_›
  | case3 u v us huv ih =>
    obtain ⟨hu, hv⟩ := Bool.and_eq_true_iff.mp huv
    rw [List.cons_inj_right, List.cons_inj_right] at h
    exact .pair hu hv (ih h)
  | case4 u v us huv ih =>
    obtain ⟨hhead, htail⟩ := List.cons_eq_cons.mp h
    refine .single ?_ (ih htail)
    split at hhead
    · exact hhead ▸ hsurrogate
    · exact Bool.eq_false_iff.mpr ‹_›

/-- What is mended are surrogates without a partner. -/
lemma mend_eq_iff : mend us = us ↔ Paired us := ⟨paired_of_mend_eq, Paired.mend_eq⟩

lemma paired_encode (s : String) : Paired (encode s) := paired_of_mend_eq (mend_encode s)

/-- Two sequences are mended to themselves if both have no surrogate without a partner. -/
lemma mend_append_mend_iff : mend us ++ mend vs = us ++ vs ↔ Paired us ∧ Paired vs := by
  rw [← mend_eq_iff, ← mend_eq_iff]
  exact ⟨fun h => List.append_inj h (length_mend us), fun h => by rw [h.1, h.2]⟩

end Utf16

end Speculation
