import Speculation.Proofs.Heap.Cells
import Speculation.World.Elements

/-!
Elements of arrays.

The elements of an array lie behind their number. Writing elements one after the other changes those,
and nothing else; it stops at the first value that has no encoding.
-/

namespace Speculation

/-- What an element reads as where the indexing byte is `index`. -/
def Value.ofElement (index : UInt8) (bits : UInt64) : Value :=
  if index &&& Indexing.shapeMask = Indexing.double then
    if (⟨bits⟩ : Double).isNaN then .empty else .ofNumber ⟨bits⟩
  else ⟨bits⟩

def ArrayShape.encode? (shape : ArrayShape) (v : Value) : Option UInt64 :=
  match shape with
  | .contiguous => some v.bits
  | .double => if v.isEmpty then some Double.nan.bits else v.number?.map Double.bits

namespace World

variable {w : World} {shape : ArrayShape} {v : Value} {bits : UInt64} {n : Nat}

lemma runs_count32 (hn : n < 4294967296) (what : Counted) :
    runs (count32 n what) w = (.ok (UInt32.ofNat n), w) := by
  rw [count32, if_pos (by exact hn)]
  rfl

lemma runs_count32_huge (hn : 4294967296 ≤ n) (what : Counted) :
    runs (count32 n what) w = (.error (.unsupported (.tooMany what)), w) := by
  rw [count32, if_neg (by exact Nat.not_lt.mpr hn)]
  rfl

lemma runs_elementBits (h : shape.encode? v = some bits) :
    runs (elementBits shape v) w = (.ok bits, w) := by
  cases shape with
  | contiguous =>
    obtain rfl := Option.some.inj h
    rfl
  | double =>
    unfold ArrayShape.encode? at h
    dsimp only at h
    unfold elementBits
    dsimp only
    split at h
    · rename_i hv
      obtain rfl := Option.some.inj h
      rw [if_pos hv]
      rfl
    · rename_i hv
      obtain ⟨d, hd, rfl⟩ := Option.map_eq_some_iff.mp h
      rw [if_neg hv, hd]
      rfl

lemma runs_elementBits_none (h : shape.encode? v = none) :
    runs (elementBits shape v) w = (.error (.wrongType v .number), w) := by
  cases shape with
  | contiguous => cases h
  | double =>
    unfold ArrayShape.encode? at h
    dsimp only at h
    unfold elementBits
    dsimp only
    split at h
    · cases h
    · rename_i hv
      rw [if_neg hv, Option.map_eq_none_iff.mp h]
      rfl

end World

namespace Memory.Houses

open World

variable {w : World} {h : Heap} {limit : Nat} {a : UInt64} {v : Value} {x : Cell} {ws : List UInt64}
  {n k : Nat}

lemma toNat_element {m : Memory} (hm : m.Houses limit h) (ha : h a = some (.elements ws))
    (hk : k ≤ ws.length) :
    (a + UInt64.ofNat (8 + 8 * k)).toNat = a.toNat + (8 + 8 * k) :=
  hm.toNat_add ha (by simp only [Item.extent]; omega)

lemma runs_newElements (hm : w.memory.Houses limit h) (hn : n < 4294967296)
    (hroom : w.memory.next + (8 + 8 * n) ≤ limit) : ∃ a m',
    runs (newElements n) w = (.ok (a + 8), w.withMemory m') ∧ h a = none ∧
    m'.next = w.memory.next + (8 + 8 * n) ∧
    m'.Houses limit (h.set a (.elements (List.replicate n 0))) := by
  have hround : roundUp (8 + 8 * n) = 8 + 8 * n := by unfold roundUp; omega
  obtain ⟨a, m₁, halloc, hnone, hnext, hm₁⟩ := hm.runs_alloc_zeros (n := 8 + 8 * n) (by rwa [hround])
  rw [hround] at hnext
  have hextent : (Item.zeros (8 + 8 * n)).extent = 8 + 8 * n := by
    rw [Item.extent_zeros, hround]
  have harea : m₁.Area a (8 + 8 * n) := hextent ▸ hm₁.area Heap.set_self
  have hzeros := hm₁.item (a := a) Heap.set_self
  have hzero : ∀ k < n, m₁.read? 8 (a + UInt64.ofNat (8 + 8 * k)) = some 0 := by
    intro k hk
    have hword := hzeros (k + 1) 0 (List.getElem?_replicate_of_lt (by rw [hround]; omega))
    rwa [show 8 * (k + 1) = 8 + 8 * k by omega] at hword
  -- the lengths are written in front of the zeros
  let fs : List (Nat × Nat × Nat) := (List.range n).map fun k => (8 + 8 * k, 8, 0)
  have hfs : ∀ {f : Nat × Nat × Nat}, f ∈ fs → ∃ k < n, f = (8 + 8 * k, 8, 0) := by
    intro f hf
    obtain ⟨k, hk, rfl⟩ := List.mem_map.mp hf
    exact ⟨k, List.mem_range.mp hk, rfl⟩
  have hl₁ : m₁.Laid a (8 + 8 * n) fs m₁ := ⟨harea, .refl a _ m₁, fun {o b y} hf => by
    obtain ⟨k, hk, heq⟩ := hfs hf
    cases heq
    exact hzero k hk⟩
  have hlength : (UInt32.ofNat n).toNat = n := UInt32.toNat_ofNat_of_lt' hn
  obtain ⟨m₂, hrun₂, hl₂⟩ := hl₁.runs_store (o := 0) (n := 4) (UInt32.ofNat n).toNat_lt (by omega)
    (by
      intro f hf
      obtain ⟨f', hf', rfl⟩ := List.mem_map.mp hf
      obtain ⟨k, hk, rfl⟩ := hfs hf'
      exact ⟨by show 8 + 8 * k + 8 ≤ _; omega, .inr (by show 0 + 4 ≤ 8 + 8 * k; omega)⟩)
  obtain ⟨m₃, hrun₃, hl₃⟩ := hl₂.runs_store (o := 4) (n := 4) (UInt32.ofNat n).toNat_lt (by omega)
    (by
      intro f hf
      obtain ⟨f', hf', rfl⟩ := List.mem_map.mp hf
      rcases List.mem_cons.mp hf' with rfl | hf'
      · exact ⟨by show 0 + 4 ≤ _; omega, .inl (Nat.le_refl 4)⟩
      · obtain ⟨k, hk, rfl⟩ := hfs hf'
        exact ⟨by show 8 + 8 * k + 8 ≤ _; omega, .inr (by show 4 + 4 ≤ 8 + 8 * k; omega)⟩)
  have hat : (Item.elements (List.replicate n 0)).At m₃ a := by
    have hfirst := hl₃.read (List.mem_cons_of_mem _ List.mem_cons_self)
    have hsecond := hl₃.read List.mem_cons_self
    rw [hlength] at hfirst hsecond
    rw [show UInt64.ofNat 0 = 0 from rfl, UInt64.add_zero] at hfirst
    refine ⟨by rwa [List.length_replicate], by rwa [List.length_replicate],
      by rwa [List.length_replicate], fun k y hk => ?_⟩
    obtain ⟨hkn, rfl⟩ : k < n ∧ 0 = y := by simpa [List.getElem?_replicate] using hk
    exact hl₃.read (List.mem_cons_of_mem _ (List.mem_cons_of_mem _
      (List.mem_map.mpr ⟨k, List.mem_range.mpr hkn, rfl⟩)))
  have hwithin : Within a (Item.zeros (8 + 8 * n)).extent m₁ m₃ := by
    rw [hextent]
    exact hl₃.within
  have hm₃ := hm₁.change Heap.set_self hwithin hat
    (by rw [hextent, Item.extent, List.length_replicate])
  rw [Heap.set_set] at hm₃
  have hpublic : a + 8 + Layout.publicLength.toInt64.toUInt64 = a + UInt64.ofNat 0 := by
    rw [UInt64.add_assoc]
    rfl
  have hvector : a + 8 + Layout.vectorLength.toInt64.toUInt64 = a + UInt64.ofNat 4 := by
    rw [UInt64.add_assoc]
    rfl
  refine ⟨a, m₃, ?_, hnone, hl₃.within.next.trans hnext, hm₃⟩
  rw [newElements, runs_bind_of_ok halloc]
  dsimp only
  rw [hpublic, hvector, runs_bind_of_ok (World.runs_count32 hn .array), write32,
    runs_bind_of_ok (hrun₂ w), write32, runs_bind_of_ok (hrun₃ w)]
  rfl

lemma runs_newElements_huge (hm : w.memory.Houses limit h) (hn : 4294967296 ≤ n)
    (hroom : w.memory.next + (8 + 8 * n) ≤ limit) : ∃ a m',
    runs (newElements n) w = (.error (.unsupported (.tooMany .array)), w.withMemory m') ∧
    h a = none ∧ m'.next = w.memory.next + (8 + 8 * n) ∧
    m'.Houses limit (h.set a (.zeros (8 + 8 * n))) := by
  have hround : roundUp (8 + 8 * n) = 8 + 8 * n := by unfold roundUp; omega
  obtain ⟨a, m₁, halloc, hnone, hnext, hm₁⟩ := hm.runs_alloc_zeros (n := 8 + 8 * n) (by rwa [hround])
  refine ⟨a, m₁, ?_, hnone, hround ▸ hnext, hm₁⟩
  rw [newElements, runs_bind_of_ok halloc]
  dsimp only
  rw [runs_bind, World.runs_count32_huge hn .array]

section Elements

variable (hm : w.memory.Houses limit h) (ha : h a = some (.elements ws))
include hm ha

lemma runs_setElement (hk : k < ws.length) (y : UInt64) : ∃ m',
    runs (write64 (a + UInt64.ofNat (8 + 8 * k)) y) w = (.ok (), w.withMemory m') ∧
    m'.Houses limit (h.set a (.elements (ws.set k y))) ∧ m'.next = w.memory.next := by
  obtain ⟨hlen, h₁, h₂, h₃⟩ := hm.item ha
  refine hm.store ha (by simp only [Item.extent]; omega) y.toNat_lt
    (by simp only [Item.extent, List.length_set]) fun m' hread hkeep => ?_
  have hzero : a + UInt64.ofNat 0 = a := UInt64.add_zero a
  refine ⟨by rwa [List.length_set], ?_, ?_, fun j z hj => ?_⟩
  · have hkept := hkeep 0 4 (by simp only [Item.extent]; omega) (by omega)
    rw [hzero] at hkept
    rw [List.length_set, hkept, h₁]
  · rw [List.length_set, hkeep 4 4 (by simp only [Item.extent]; omega) (by omega), h₂]
  · by_cases hjk : j = k
    · subst hjk
      rw [List.getElem?_set_self hk, Option.some.injEq] at hj
      rw [hread, hj]
    · rw [List.getElem?_set_ne (Ne.symm hjk)] at hj
      have hjlt := (List.getElem?_eq_some_iff.mp hj).1
      rw [hkeep _ _ (by simp only [Item.extent]; omega) (by omega)]
      exact h₃ j z hj

/-- Writing elements changes them up to the first value that has no encoding. -/
lemma runs_writeElements (shape : ArrayShape) (vs : List Value) (hk : k + vs.length = ws.length) :
    ∃ r m' us, runs (writeElements shape (a + UInt64.ofNat (8 + 8 * k)) vs) w =
        (r, w.withMemory m') ∧
      m'.Houses limit (h.set a (.elements us)) ∧ m'.next = w.memory.next ∧
      us.length = ws.length ∧
      (∀ bits, vs.mapM shape.encode? = some bits → r = .ok () ∧ us = ws.take k ++ bits) ∧
      (vs.mapM shape.encode? = none → ∃ v ∈ vs, r = .error (.wrongType v .number)) := by
  induction vs generalizing w h ws k with
  | nil =>
    have hws : ws.take k = ws := by
      rw [List.length_nil, Nat.add_zero] at hk
      rw [hk, List.take_length]
    refine ⟨.ok (), w.memory, ws, rfl, ?_, rfl, rfl, fun bits hbits => ?_, nofun⟩
    · rwa [Heap.set_eq ha]
    · obtain rfl : [] = bits := by simpa using hbits
      rw [hws, List.append_nil]
      exact ⟨rfl, rfl⟩
  | cons v vs ih =>
    rw [List.length_cons] at hk
    rcases hv : shape.encode? v with _ | bits
    · refine ⟨.error (.wrongType v .number), w.memory, ws, ?_, ?_, rfl, rfl, fun bits hbits => ?_,
        fun _ => ⟨v, List.mem_cons_self, rfl⟩⟩
      · unfold writeElements
        rw [runs_bind, runs_elementBits_none hv]
        rfl
      · rwa [Heap.set_eq ha]
      · rw [List.mapM_cons, hv] at hbits
        cases hbits
    · obtain ⟨m₁, hrun₁, hm₁, hnext₁⟩ := hm.runs_setElement ha (k := k) (by omega) bits
      have hself : h.set a (.elements (ws.set k bits)) a = some (.elements (ws.set k bits)) :=
        Heap.set_self
      obtain ⟨r, m₂, us, hrun₂, hm₂, hnext₂, hlen, hok, hbad⟩ := ih (w := w.withMemory m₁) hm₁ hself
        (k := k + 1) (by rw [List.length_set]; omega)
      rw [Heap.set_set] at hm₂
      rw [List.length_set] at hlen
      have hstep : a + UInt64.ofNat (8 + 8 * k) + 8 = a + UInt64.ofNat (8 + 8 * (k + 1)) := by
        rw [UInt64.add_assoc, show (8 : UInt64) = UInt64.ofNat 8 from rfl, ← UInt64.ofNat_add]
        congr 2
      refine ⟨r, m₂, us, ?_, hm₂, hnext₂.trans hnext₁, hlen, fun bs hbs => ?_, fun hnone => ?_⟩
      · unfold writeElements
        rw [runs_bind_of_ok (runs_elementBits hv), runs_bind_of_ok hrun₁]
        rcases vs with _ | ⟨v', vs⟩
        · exact hrun₂
        · have hroom := hm.toNat_element ha (k := k) (by omega)
          have hlt := hm.lt ha
          have hsize : UInt64.size = 18446744073709551616 := rfl
          simp only [Item.extent] at hlt
          dsimp only
          rw [runs_bind_of_ok (World.runs_offset (by omega)), show UInt64.ofNat 8 = 8 from rfl, hstep]
          exact hrun₂
      · rcases hvs : vs.mapM shape.encode? with _ | bs'
        · rw [List.mapM_cons, hv, hvs] at hbs
          cases hbs
        · rw [List.mapM_cons, hv, hvs] at hbs
          obtain rfl : bits :: bs' = bs := Option.some.inj hbs
          obtain ⟨hr, hus⟩ := hok bs' hvs
          refine ⟨hr, hus.trans ?_⟩
          rw [List.take_add_one, List.getElem?_set_self (by omega), List.take_set_of_le (Nat.le_refl k),
            List.append_assoc]
          rfl
      · have hvs : vs.mapM shape.encode? = none := by
          rcases hvs : vs.mapM shape.encode? with _ | bs'
          · rfl
          · rw [List.mapM_cons, hv, hvs] at hnone
            cases hnone
        obtain ⟨v', hv', hr⟩ := hbad hvs
        exact ⟨v', List.mem_cons_of_mem _ hv', hr⟩

end Elements

section Reading

variable {d : Structure} (hm : w.memory.Houses limit h)
include hm

/-- Elements are not at the start of the address space, which stands for there being none. -/
lemma storage_ne_zero (ha : h a = some (.elements ws)) (hx : x.storage = a + 8) : x.storage ≠ 0 := by
  have ha' := hm.toNat_element ha (k := 0) (Nat.zero_le _)
  intro hzero
  have hnat := congrArg UInt64.toNat (hx.symm.trans hzero)
  rw [show a + 8 = a + UInt64.ofNat (8 + 8 * 0) from rfl, ha'] at hnat
  change _ = 0 at hnat
  omega

variable (hv : h.cell? v.bits = some x)
include hv

lemma runs_arrayLength_none (hx : x.storage = 0) : runs (arrayLength v) w = (.ok 0, w) := by
  rw [arrayLength, runs_bind_of_ok (hm.runs_storage hv), hx]
  rfl

variable (ha : h a = some (.elements ws)) (hx : x.storage = a + 8)
include ha hx

lemma runs_arrayLength : runs (arrayLength v) w = (.ok (UInt32.ofNat ws.length), w) := by
  obtain ⟨-, hlen, -⟩ := hm.item ha
  have haddress : x.storage + Layout.publicLength.toInt64.toUInt64 = a := by
    rw [hx, UInt64.add_assoc]
    exact UInt64.add_zero a
  rw [arrayLength, runs_bind_of_ok (hm.runs_storage hv), if_neg (hm.storage_ne_zero ha hx),
    haddress, read32, runs_bind_of_ok (runs_readWord hlen)]
  rfl

variable (hs : h.structure? x.kind = some d)
include hs

lemma runs_arrayGet {bits : UInt64} (hk : ws[k]? = some bits) :
    runs (arrayGet v k) w = (.ok (.ofElement d.indexing bits), w) := by
  obtain ⟨-, -, -, hword⟩ := hm.item ha
  have hlt := (List.getElem?_eq_some_iff.mp hk).1
  have hbase := hm.toNat_element ha (k := 0) (Nat.zero_le _)
  have hroom := hm.lt ha
  have hsize : UInt64.size = 18446744073709551616 := rfl
  have haddress : a + 8 + UInt64.ofNat (8 * k) = a + UInt64.ofNat (8 + 8 * k) := by
    rw [UInt64.add_assoc, UInt64.ofNat_add]
    rfl
  simp only [Item.extent] at hroom
  rw [arrayGet, runs_bind_of_ok (hm.runs_storage hv), hx,
    runs_bind_of_ok (World.runs_offset (by
      rw [show a + 8 = a + UInt64.ofNat (8 + 8 * 0) from rfl, hbase]
      omega)),
    haddress, runs_bind_of_ok (runs_read64 (hword k bits hk)), runs_bind_of_ok (hm.runs_indexing hv hs),
    UInt64.ofNat_toNat]
  unfold Value.ofElement
  split <;> rfl

lemma runs_arrayElements (hk : k + n = ws.length) :
    runs (arrayElements v k n) w = (.ok ((ws.drop k).map (.ofElement d.indexing)), w) := by
  induction n generalizing k with
  | zero => rw [show k = ws.length by omega, List.drop_length]; rfl
  | succ n ih =>
    have hlt : k < ws.length := by omega
    rw [arrayElements, runs_bind_of_ok (hm.runs_arrayGet hv ha hx hs (List.getElem?_eq_getElem hlt)),
      runs_bind_of_ok (ih (by omega)), List.drop_eq_getElem_cons hlt]
    rfl

end Reading

end Memory.Houses

end Speculation
