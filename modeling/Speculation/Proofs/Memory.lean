import Speculation.Memory
import Speculation.Proofs.Machine.Encoding
import Mathlib.Algebra.Group.Nat.Defs

/-!
Reading back what was written to memory.

Everything follows from what `setByte` does to one byte. A word is read back as it was written, and a
write leaves the words alone that it does not overlap.
-/

namespace Speculation

namespace Bytes

lemma getElem?_eq_data (code : ByteArray) (k : Nat) : code[k]? = code.data[k]? := by
  by_cases hk : k < code.size
  · rw [getElem?_pos code k hk, Array.getElem?_eq_getElem hk]
    rfl
  · rw [getElem?_neg code k hk, Array.getElem?_eq_none (Nat.le_of_not_lt hk)]

lemma getElem?_overwrite_singleton (code : ByteArray) (i k : Nat) (b : UInt8) :
    (overwrite code i [b])[k]? = if k = i then code[k]?.map fun _ => b else code[k]? := by
  unfold overwrite overwrite
  simp only [getElem?_eq_data]
  by_cases hi : i < code.size
  · rw [dif_pos hi, ByteArray.data_set]
    by_cases hk : k = i
    · subst hk
      have hk : code.data[k]? = some code.data[k] := Array.getElem?_eq_getElem hi
      simp [hk]
    · simp [hk, Ne.symm hk]
  · rw [dif_neg hi]
    by_cases hk : k = i
    · subst hk
      have hk : code.data[k]? = none := Array.getElem?_eq_none (Nat.le_of_not_lt hi)
      simp [hk]
    · simp [hk]

end Bytes

namespace Memory

variable {m : Memory} {a b : UInt64}

lemma page_place_inj (hp : pageOf a = pageOf b) (hq : placeOf a = placeOf b) : a = b := by
  have ha := congrArg UInt64.toNat hp
  have hsize : (UInt64.ofNat pageSize).toNat = 4096 := rfl
  simp only [pageOf, placeOf, UInt64.toNat_div, UInt64.toNat_mod, hsize] at ha hq
  apply UInt64.toNat_inj.mp
  omega

lemma byte?_setByte (m : Memory) (a b : UInt64) (x : UInt8) :
    (m.setByte a x).byte? b = if b = a then (m.byte? b).map fun _ => x else m.byte? b := by
  unfold byte? setByte
  simp only [Std.TreeMap.getElem?_modify, Std.LawfulEqOrd.compare_eq_iff_eq]
  by_cases hp : pageOf a = pageOf b
  · rw [if_pos hp, hp]
    rcases m.pages[pageOf b]? with _ | page
    · simp
    · simp only [Option.map_some, Option.bind_eq_bind, Option.bind_some,
        Bytes.getElem?_overwrite_singleton]
      by_cases hb : b = a
      · subst hb
        simp
      · have hq : placeOf b ≠ placeOf a := fun hq => hb (page_place_inj hp.symm hq)
        rw [if_neg hb, if_neg hq]
  · have hb : b ≠ a := by
      rintro rfl
      exact hp rfl
    rw [if_neg hp, if_neg hb]

lemma isMapped_of_byte? (h : (m.byte? a).isSome) : m.isMapped a = true := by
  unfold isMapped
  rw [Std.TreeMap.contains_eq_isSome_getElem?]
  unfold byte? at h
  rcases hp : m.pages[pageOf a]? with _ | page
  · rw [hp] at h
    cases h
  · rfl

def Mapped (m : Memory) (a : UInt64) (n : Nat) : Prop :=
  ∀ k, k < n → (m.byte? (a + UInt64.ofNat k)).isSome

lemma add_ofNat_succ (a : UInt64) (k : Nat) : a + UInt64.ofNat (k + 1) = a + 1 + UInt64.ofNat k := by
  rw [UInt64.ofNat_add, UInt64.add_comm (UInt64.ofNat k), UInt64.add_assoc]
  rfl

lemma toNat_add_ofNat {k : Nat} (h : a.toNat + k < UInt64.size) :
    (a + UInt64.ofNat k).toNat = a.toNat + k := by
  have hk : k < UInt64.size := Nat.lt_of_le_of_lt (Nat.le_add_left _ _) h
  rw [UInt64.toNat_add, UInt64.toNat_ofNat_of_lt' hk]
  exact Nat.mod_eq_of_lt h

lemma Mapped.tail {n : Nat} (h : Mapped m a (n + 1)) : Mapped m (a + 1) n := by
  intro k hk
  rw [← add_ofNat_succ]
  exact h (k + 1) (by omega)

lemma Mapped.head {n : Nat} (h : Mapped m a (n + 1)) : (m.byte? a).isSome := by
  have h := h 0 (by omega)
  rwa [show UInt64.ofNat 0 = 0 from rfl, UInt64.add_zero] at h

lemma Mapped.setByte {n : Nat} {x : UInt8} (h : Mapped m b n) : Mapped (m.setByte a x) b n := by
  intro k hk
  rw [byte?_setByte]
  split
  · rw [Option.isSome_map]
    exact h k hk
  · exact h k hk

lemma next_writeBytes (m : Memory) (a : UInt64) (bs : List UInt8) :
    (m.writeBytes a bs).2.next = m.next := by
  induction bs generalizing m a with
  | nil => rfl
  | cons b bs ih =>
    rw [writeBytes]
    split
    · exact ih _ _
    · rfl

/-- Bytes are written where there are any, and nothing else changes. -/
lemma writeBytes_spec {bs : List UInt8} (h : Mapped m a bs.length)
    (hlt : a.toNat + bs.length ≤ UInt64.size) :
    (m.writeBytes a bs).1 = true ∧
      (∀ {b n}, Mapped m b n → Mapped (m.writeBytes a bs).2 b n) ∧
      (∀ b : UInt64, b.toNat < a.toNat ∨ a.toNat + bs.length ≤ b.toNat →
        (m.writeBytes a bs).2.byte? b = m.byte? b) ∧
      (m.writeBytes a bs).2.readBytes? a bs.length = some bs := by
  induction bs generalizing m a with
  | nil => exact ⟨rfl, fun h => h, fun _ _ => rfl, rfl⟩
  | cons x bs ih =>
    have hmapped := isMapped_of_byte? h.head
    have hw : m.writeBytes a (x :: bs) = (m.setByte a x).writeBytes (a + 1) bs := by
      rw [writeBytes, if_pos hmapped]
    have hlt' : a.toNat + (bs.length + 1) ≤ UInt64.size := hlt
    rw [hw]
    rcases bs with _ | ⟨y, bs⟩
    · -- the last byte may be that of the highest address
      refine ⟨rfl, fun h => h.setByte, fun b hb => ?_, ?_⟩
      · rw [writeBytes, byte?_setByte, if_neg]
        rintro rfl
        simp only [List.length_cons] at hb
        omega
      · have hb := byte?_setByte m a a x
        rw [if_pos rfl] at hb
        obtain ⟨z, hz⟩ := Option.isSome_iff_exists.mp h.head
        simp [writeBytes, readBytes?, hb, hz]
    · have h1 : (a + 1).toNat = a.toNat + 1 := by
        have := toNat_add_ofNat (a := a) (k := 1) (by simp at hlt'; omega)
        simpa using this
      obtain ⟨h₁, h₂, h₃, h₄⟩ := ih (m := m.setByte a x) (a := a + 1) h.tail.setByte
        (by rw [h1]; simp at hlt' ⊢; omega)
      refine ⟨h₁, fun h => h₂ h.setByte, fun b hb => ?_, ?_⟩
      · rw [h₃ b (by rw [h1]; simp at hb ⊢; omega), byte?_setByte, if_neg]
        rintro rfl
        simp only [List.length_cons] at hb
        omega
      · have hb : ((m.setByte a x).writeBytes (a + 1) (y :: bs)).2.byte? a = some x := by
          rw [h₃ a (.inl (by rw [h1]; omega)), byte?_setByte, if_pos rfl]
          obtain ⟨z, hz⟩ := Option.isSome_iff_exists.mp h.head
          rw [hz]
          rfl
        rw [List.length_cons, readBytes?, hb, h₄]
        rfl

lemma readBytes?_congr {m m' : Memory} {n : Nat}
    (h : ∀ k, k < n → m'.byte? (a + UInt64.ofNat k) = m.byte? (a + UInt64.ofNat k)) :
    m'.readBytes? a n = m.readBytes? a n := by
  induction n generalizing a with
  | zero => rfl
  | succ n ih =>
    have h0 := h 0 (by omega)
    rw [show UInt64.ofNat 0 = 0 from rfl, UInt64.add_zero] at h0
    rw [readBytes?, readBytes?, h0, ih fun k hk => ?_]
    rw [← add_ofNat_succ]
    exact h (k + 1) (by omega)

def Apart (a : UInt64) (n : Nat) (b : UInt64) (k : Nat) : Prop :=
  a.toNat + n ≤ b.toNat ∨ b.toNat + k ≤ a.toNat

variable {n k x : Nat}

lemma write_fst (h : Mapped m a n) (hlt : a.toNat + n ≤ UInt64.size) :
    (m.write n a x).1 = true :=
  (writeBytes_spec (by simpa using h) (by simpa using hlt)).1

lemma Mapped.write (hb : Mapped m b k) (h : Mapped m a n) (hlt : a.toNat + n ≤ UInt64.size) :
    Mapped (m.write n a x).2 b k :=
  (writeBytes_spec (by simpa using h) (by simpa using hlt)).2.1 hb

lemma read?_write_self (h : Mapped m a n) (hlt : a.toNat + n ≤ UInt64.size) :
    (m.write n a x).2.read? n a = some (x % Nat.pow 256 n) := by
  have hs : (m.writeBytes a (Bytes.ofNat n x)).2.readBytes? a (Bytes.ofNat n x).length =
      some (Bytes.ofNat n x) :=
    (writeBytes_spec (by simpa using h) (by simpa using hlt)).2.2.2
  rw [Bytes.length_ofNat] at hs
  rw [read?, Memory.write, hs, Option.map_some, Bytes.toNat_ofNat]

lemma read?_write_of_apart (h : Mapped m a n) (hlt : a.toNat + n ≤ UInt64.size)
    (hb : b.toNat + k ≤ UInt64.size) (hab : Apart a n b k) :
    (m.write n a x).2.read? k b = m.read? k b := by
  rw [read?, read?, readBytes?_congr fun j hj => ?_]
  have hj' : (b + UInt64.ofNat j).toNat = b.toNat + j := toNat_add_ofNat (by omega)
  refine (writeBytes_spec (by simpa using h) (by simpa using hlt)).2.2.1 _ ?_
  rw [hj', Bytes.length_ofNat]
  rcases hab with hab | hab
  · exact .inr (by omega)
  · exact .inl (by omega)

lemma readBytes?_of_mapped (h : Mapped m a n) :
    ∃ bs, m.readBytes? a n = some bs ∧ bs.length = n := by
  induction n generalizing a with
  | zero => exact ⟨[], rfl, rfl⟩
  | succ n ih =>
    obtain ⟨x, hx⟩ := Option.isSome_iff_exists.mp h.head
    obtain ⟨bs, hbs, hlen⟩ := ih h.tail
    refine ⟨x :: bs, ?_, by simp [hlen]⟩
    rw [readBytes?, hx, hbs]
    rfl

lemma mapped_of_readBytes? {bs : List UInt8} (h : m.readBytes? a n = some bs) : Mapped m a n := by
  induction n generalizing a bs with
  | zero => exact fun k hk => absurd hk (Nat.not_lt_zero k)
  | succ n ih =>
    obtain ⟨x, hx, h⟩ := Option.bind_eq_some_iff.mp h
    obtain ⟨xs, hxs, -⟩ := Option.bind_eq_some_iff.mp h
    intro k hk
    cases k with
    | zero =>
      rw [show UInt64.ofNat 0 = 0 from rfl, UInt64.add_zero, hx]
      rfl
    | succ k =>
      rw [add_ofNat_succ]
      exact ih hxs k (by omega)

lemma mapped_of_read? (h : m.read? n a = some x) : Mapped m a n := by
  obtain ⟨bs, hbs, -⟩ := Option.map_eq_some_iff.mp h
  exact mapped_of_readBytes? hbs

lemma toNat_bytes_lt (bs : List UInt8) : Bytes.toNat bs < 256 ^ bs.length := by
  induction bs with
  | nil => simp [Bytes.toNat]
  | cons b bs ih =>
    have := b.toNat_lt
    rw [Bytes.toNat, List.length_cons, Nat.pow_succ]
    omega

lemma read?_of_mapped (h : Mapped m a n) : ∃ x, m.read? n a = some x ∧ x < 256 ^ n := by
  obtain ⟨bs, hbs, hlen⟩ := readBytes?_of_mapped h
  refine ⟨Bytes.toNat bs, by rw [read?, hbs]; rfl, ?_⟩
  rw [← hlen]
  exact toNat_bytes_lt bs

lemma readBytes?_add {j : Nat} {bs : List UInt8} (h : m.readBytes? a (n + j) = some bs) :
    m.readBytes? a n = some (bs.take n) := by
  induction n generalizing a bs with
  | zero => rfl
  | succ n ih =>
    rw [Nat.add_right_comm, readBytes?] at h
    rw [readBytes?]
    rcases hx : m.byte? a with _ | x
    · rw [hx] at h
      cases h
    · rcases hr : m.readBytes? (a + 1) (n + j) with _ | cs
      · rw [hx, hr] at h
        cases h
      · rw [hx, hr] at h
        cases h
        rw [ih hr]
        rfl

lemma toNat_bytes_take (bs : List UInt8) (n : Nat) :
    Bytes.toNat (bs.take n) = Bytes.toNat bs % 256 ^ n := by
  induction bs generalizing n with
  | nil => simp [Bytes.toNat]
  | cons b bs ih =>
    cases n with
    | zero => simp [Bytes.toNat, Nat.mod_one]
    | succ n =>
      have hb := b.toNat_lt
      rw [List.take_succ_cons, Bytes.toNat, Bytes.toNat, ih, Nat.pow_succ, Nat.mul_comm _ 256,
        Nat.mod_mul]
      have h₁ : (b.toNat + 256 * Bytes.toNat bs) % 256 = b.toNat := by omega
      have h₂ : (b.toNat + 256 * Bytes.toNat bs) / 256 = Bytes.toNat bs := by omega
      rw [h₁, h₂]

/-- The low half of a word is the half word at its address. -/
lemma read?_half (h : m.read? 8 a = some x) : m.read? 4 a = some (x % 4294967296) := by
  obtain ⟨bs, hbs, rfl⟩ := Option.map_eq_some_iff.mp h
  have hword : (256 : Nat) ^ 4 = 4294967296 := rfl
  rw [read?, readBytes?_add (n := 4) (j := 4) hbs, Option.map_some, toNat_bytes_take, hword]

end Memory
end Speculation
