import Speculation.Lowering.Heap
import Speculation.Proofs.Heap.Conversion
import Speculation.Proofs.Heap.Prototypes

/-!
Elements by the mode of an access.

A mode fixes where the elements of a cell are, how many bytes each of them has, and what it reads as.
In a heap that was made by operations on objects every cell that suits a mode has elements for it: they
are within one item of the heap, in one piece, and their number is where the mode has it.
-/

namespace Speculation

namespace ArrayMode

def elementSize : ArrayMode → Nat
  | contiguous | double | float64Array => 8
  | int32Array => 4
  | string => 2

def element (mode : ArrayMode) (y : Nat) : Value :=
  match mode with
  | contiguous => ⟨.ofNat y⟩
  | double => if (⟨.ofNat y⟩ : Double).isNaN then .empty else .ofNumber ⟨.ofNat y⟩
  | int32Array => .ofInt32 (UInt32.ofNat y).toInt32
  | float64Array => .ofNumber ⟨.ofNat y⟩
  | string => .ofInt32 (UInt16.ofNat y).toUInt32.toInt32

/-- The bytes of an element that is to read as the value, unless the mode has none for it. A NaN would be
a hole among doubles. -/
def encode? (mode : ArrayMode) (v : Value) : Option Nat :=
  match mode with
  | contiguous => some v.bits.toNat
  | double => (v.number?.filter fun d => !d.isNaN).map fun d => d.bits.toNat
  | int32Array => v.int32?.map fun i => i.toUInt32.toNat
  | float64Array => v.number?.map fun d => d.bits.toNat
  | string => none

def fetch (mode : ArrayMode) (ws : List Nat) (i : Int32) : Except ExitKind Value :=
  if 0 ≤ i.toInt then
    match ws[i.toInt.toNat]? with
    | some y => if mode.element y = .empty then .error .loadFromHole else .ok (mode.element y)
    | none => .error .outOfBounds
  else .error .outOfBounds

/-- What a store comes to where there are `n` elements: the bytes that are stored. -/
def assign (mode : ArrayMode) (n : Nat) (i : Int32) (v : Value) : Except ExitKind Nat :=
  match mode.encode? v with
  | some bits => if 0 ≤ i.toInt ∧ i.toInt < n then .ok bits else .error .outOfBounds
  | none => .error .badType

lemma mem_of_fetch_eq_error {mode : ArrayMode} {ws : List Nat} {i : Int32} {kind : ExitKind}
    (h : mode.fetch ws i = .error kind) : kind ∈ [ExitKind.outOfBounds, .loadFromHole] := by
  unfold fetch at h
  split at h
  · split at h
    · split at h
      · cases h
        decide
      · cases h
    · cases h
      decide
  · cases h
    decide

lemma assign_eq_ok_iff {mode : ArrayMode} {n bits : Nat} {i : Int32} {v : Value} :
    mode.assign n i v = .ok bits ↔ mode.encode? v = some bits ∧ 0 ≤ i.toInt ∧ i.toInt < n := by
  unfold assign
  cases mode.encode? v with
  | none => exact ⟨nofun, fun h => absurd h.1 nofun⟩
  | some bits' =>
    dsimp only
    split
    · rename_i hin
      exact ⟨fun h => ⟨congrArg some (Except.ok.inj h), hin⟩, fun h => congrArg _ (Option.some.inj h.1)⟩
    · rename_i hout
      exact ⟨nofun, fun h => absurd h.2 hout⟩

/-- A store that fails has no element, or no bytes for it. -/
lemma mem_of_assign_eq_error {mode : ArrayMode} {n : Nat} {i : Int32} {v : Value} {kind : ExitKind}
    (h : mode.assign n i v = .error kind) : kind ∈ [ExitKind.badType, .outOfBounds] := by
  unfold assign at h
  split at h
  · split at h
    · cases h
    · cases h
      decide
  · cases h
    decide

/-- It is the same value; where elements are numbers, the same number. -/
def Same (mode : ArrayMode) (v u : Value) : Prop :=
  v = u ∨ mode ≠ .contiguous ∧ ∃ z, v.number? = some z ∧ u.number? = some z

lemma same_ofDouble {mode : ArrayMode} {y : Nat} (hmode : mode = .double ∨ mode = .float64Array)
    (hnan : (⟨.ofNat y⟩ : Double).isNaN = false) :
    mode.element y = .ofNumber ⟨.ofNat y⟩ ∧ mode.element y ≠ .empty ∧
    mode.Same (.ofDouble ⟨.ofNat y⟩) (mode.element y) := by
  have hlt := Double.toNat_bits_lt hnan
  have helement : mode.element y = .ofNumber ⟨.ofNat y⟩ := by
    rcases hmode with rfl | rfl
    · exact if_neg (by simp [hnan])
    · rfl
  have hnumber := Value.number?_ofNumber hlt
  refine ⟨helement, ?_, .inr ⟨?_, ⟨.ofNat y⟩, Value.number?_of_double? (Value.double?_ofDouble hlt), ?_⟩⟩
  · rw [helement]
    intro hempty
    rw [hempty] at hnumber
    cases hnumber
  · rcases hmode with rfl | rfl <;> decide
  · rw [helement, hnumber]

end ArrayMode

def Cell.element (x : Cell) (mode : ArrayMode) (k : Nat) : UInt64 :=
  x.storage + UInt64.ofNat (mode.elementSize * k)

/-- A cell with the structure has elements for the mode. -/
def Structure.Suits (d : Structure) : ArrayMode → Prop
  | .contiguous => d.indexing &&& Indexing.shapeMask = Indexing.contiguous
  | .double => d.indexing &&& Indexing.shapeMask = Indexing.double
  | .int32Array => d.type = .int32Array
  | .float64Array => d.type = .float64Array
  | .string => d.type = .string

namespace World

def elementCount (mode : ArrayMode) (v : Value) : Run UInt32 :=
  if Lowering.inArrayStorage mode then arrayLength v else cellLength v

def elementAt (mode : ArrayMode) (v : Value) (i : Nat) : Run Value :=
  if Lowering.inArrayStorage mode then arrayGet v i else typedArrayGet v i

def elementAddress (mode : ArrayMode) (v : Value) (i : Nat) : Run UInt64 := do
  offset (← storage v) (mode.elementSize * i)

/-- The value is a cell that has elements for the mode. -/
def Suits (w : World) (mode : ArrayMode) (v : Value) : Prop :=
  v.isCell = true ∧
    match mode with
    | .contiguous | .double => ∃ b, runs (indexing v) w = (.ok b, w) ∧
        Lowering.indexingShape? mode = some (b &&& Indexing.shapeMask)
    | mode => ∃ t, runs (cellType v) w = (.ok t, w) ∧ Lowering.cellType? mode = some t

def InBounds (w : World) (mode : ArrayMode) (v : Value) (i : Int32) : Prop :=
  w.Suits mode v ∧ 0 ≤ i.toInt ∧ ∃ n, runs (elementCount mode v) w = (.ok n, w) ∧ i.toInt < n.toNat

/-- What the value has for the mode at the index, which is no hole. -/
def Has (w : World) (mode : ArrayMode) (v : Value) (i : Int32) (u : Value) : Prop :=
  w.InBounds mode v i ∧ runs (elementAt mode v i.toInt.toNat) w = (.ok u, w) ∧ u ≠ .empty

end World

namespace Heap

variable {h : Heap} {mode : ArrayMode} {x : Cell} {d : Structure} {ws : List Nat} {c : UInt64}

/-- The elements of the cell for the mode are these words. -/
def Backs (h : Heap) (mode : ArrayMode) (x : Cell) (ws : List Nat) : Prop :=
  match mode with
  | .contiguous | .double => ∃ a us, h a = some (.elements us) ∧ x.storage = a + 8 ∧
      ws = us.map UInt64.toNat
  | mode => h x.storage = some (.words mode.elementSize ws) ∧ x.length.toNat = ws.length

/-- What suits a mode has elements for it. -/
lemma Formed.backs (hf : h.Formed) (hc : h.cell? c = some x) (hs : h.structure? x.kind = some d)
    (hstock : x.Stocked d) (hd : d.Suits mode) : ∃ ws, h.Backs mode x ws := by
  obtain ⟨e, he, hnone, hst⟩ := hf.kind hc
  obtain rfl : e = d := Option.some.inj (he.symm.trans hs)
  -- elements with a shape are those of an object
  have hshaped : e.indexing &&& Indexing.shapeMask ≠ Indexing.none → ∃ a us,
      h a = some (.elements us) ∧ x.storage = a + 8 := by
    intro hne
    have htype : e.type = .object := by
      by_contra hno
      rw [hnone hno] at hne
      exact hne rfl
    rw [Stored, htype] at hst
    obtain ⟨-, a, us, ha, hx⟩ := hst.resolve_left (hstock hne)
    exact ⟨a, us, ha, hx⟩
  unfold Stored at hst
  cases mode with
  | contiguous =>
    obtain ⟨a, us, ha, hx⟩ := hshaped (by rw [show _ = _ from hd]; decide)
    exact ⟨_, a, us, ha, hx, rfl⟩
  | double =>
    obtain ⟨a, us, ha, hx⟩ := hshaped (by rw [show _ = _ from hd]; decide)
    exact ⟨_, a, us, ha, hx, rfl⟩
  | int32Array | float64Array | string =>
    rw [show e.type = _ from hd] at hst
    exact hst

namespace Backs

lemma exists_item (hb : h.Backs mode x ws) : ∃ a i o, h a = some i ∧ x.storage = a + UInt64.ofNat o ∧
    o + mode.elementSize * ws.length ≤ i.extent ∧
    ∀ m : Memory, i.At m a → ∀ k y, ws[k]? = some y →
      m.read? mode.elementSize (a + UInt64.ofNat (o + mode.elementSize * k)) = some y := by
  have helements : (∃ a us, h a = some (.elements us) ∧ x.storage = a + 8 ∧
      ws = us.map UInt64.toNat) → ∃ a i o, h a = some i ∧ x.storage = a + UInt64.ofNat o ∧
      o + 8 * ws.length ≤ i.extent ∧ ∀ m : Memory, i.At m a → ∀ k y, ws[k]? = some y →
        m.read? 8 (a + UInt64.ofNat (o + 8 * k)) = some y := by
    rintro ⟨a, us, ha, hx, rfl⟩
    refine ⟨a, _, 8, ha, hx, ?_, ?_⟩
    · rw [List.length_map, Item.extent]
    · rintro m ⟨-, -, -, hread⟩ k y hk
      rw [List.getElem?_map, Option.map_eq_some_iff] at hk
      obtain ⟨u, hu, rfl⟩ := hk
      exact hread k u hu
  have hwords : ∀ size, h x.storage = some (.words size ws) → ∃ a i o, h a = some i ∧
      x.storage = a + UInt64.ofNat o ∧ o + size * ws.length ≤ i.extent ∧
      ∀ m : Memory, i.At m a → ∀ k y, ws[k]? = some y →
        m.read? size (a + UInt64.ofNat (o + size * k)) = some y := by
    intro size ha
    refine ⟨_, _, 0, ha, (UInt64.add_zero _).symm, ?_, fun m hm k y hk => ?_⟩
    · rw [Nat.zero_add]
      exact Item.le_roundUp _
    · rw [Nat.zero_add]
      exact hm k y hk
  cases mode with
  | contiguous | double => exact helements hb
  | int32Array | float64Array | string => exact hwords _ hb.1

end Backs

end Heap

namespace Memory.Houses

open World

variable {w : World} {h : Heap} {limit k y : Nat} {mode : ArrayMode} {v : Value} {x : Cell}
  {d : Structure} {ws : List Nat} (hm : w.memory.Houses limit h) (hv : h.cell? v.bits = some x)
include hm hv

lemma suits_iff (hs : h.structure? x.kind = some d) : w.Suits mode v ↔ d.Suits mode := by
  have hcell := hm.isCell hv
  have hindexing := hm.runs_indexing hv hs
  have htype := hm.runs_cellType hv hs
  have hshape : ∀ shape : UInt8, (∃ b, runs (indexing v) w = (.ok b, w) ∧
      some shape = some (b &&& Indexing.shapeMask)) ↔ d.indexing &&& Indexing.shapeMask = shape := by
    intro shape
    rw [hindexing]
    constructor
    · rintro ⟨b, hb, hshape⟩
      cases hb
      exact (Option.some.inj hshape).symm
    · rintro rfl
      exact ⟨_, rfl, rfl⟩
  have hof : ∀ type : CellType, (∃ t, runs (cellType v) w = (.ok t, w) ∧ some type = some t) ↔
      d.type = type := by
    intro type
    rw [htype]
    constructor
    · rintro ⟨t, ht, h⟩
      cases ht
      exact (Option.some.inj h).symm
    · rintro rfl
      exact ⟨_, rfl, rfl⟩
  unfold World.Suits Structure.Suits
  rw [hcell]
  cases mode with
  | contiguous | double => exact (and_iff_right rfl).trans (hshape _)
  | int32Array | float64Array | string => exact (and_iff_right rfl).trans (hof _)

variable (hb : h.Backs mode x ws)
include hb

omit hv in
lemma length_lt_of_backs : ws.length < 4294967296 := by
  cases mode with
  | contiguous | double =>
    obtain ⟨a, us, ha, -, rfl⟩ := hb
    rw [List.length_map]
    exact (hm.item ha).1
  | int32Array | float64Array | string =>
    rw [← hb.2]
    exact x.length.toNat_lt

lemma runs_elementCount : runs (elementCount mode v) w = (.ok (UInt32.ofNat ws.length), w) := by
  have hwords : x.length.toNat = ws.length →
      runs (cellLength v) w = (.ok (UInt32.ofNat ws.length), w) := by
    intro hlen
    rw [hm.runs_cellLength hv, ← hlen, UInt32.ofNat_toNat]
  have helements : (∃ a us, h a = some (.elements us) ∧ x.storage = a + 8 ∧
      ws = us.map UInt64.toNat) → runs (arrayLength v) w = (.ok (UInt32.ofNat ws.length), w) := by
    rintro ⟨a, us, ha, hx, rfl⟩
    rw [hm.runs_arrayLength hv ha hx, List.length_map]
  cases mode with
  | contiguous | double => exact helements hb
  | int32Array | float64Array | string => exact hwords hb.2

lemma runs_elementAt (hs : h.structure? x.kind = some d) (hd : d.Suits mode) (hmode : mode ≠ .string)
    (hk : ws[k]? = some y) : runs (elementAt mode v k) w = (.ok (mode.element y), w) := by
  have helements : (∃ a us, h a = some (.elements us) ∧ x.storage = a + 8 ∧
      ws = us.map UInt64.toNat) →
      runs (arrayGet v k) w = (.ok (.ofElement d.indexing (UInt64.ofNat y)), w) := by
    rintro ⟨a, us, ha, hx, rfl⟩
    rw [List.getElem?_map, Option.map_eq_some_iff] at hk
    obtain ⟨u, hu, rfl⟩ := hk
    rw [UInt64.ofNat_toNat]
    exact hm.runs_arrayGet hv ha hx hs hu
  cases mode with
  | contiguous =>
    have hshape : d.indexing &&& Indexing.shapeMask = Indexing.contiguous := hd
    refine (helements hb).trans ?_
    rw [Value.ofElement, hshape]
    rfl
  | double =>
    have hshape : d.indexing &&& Indexing.shapeMask = Indexing.double := hd
    refine (helements hb).trans ?_
    rw [Value.ofElement, hshape]
    rfl
  | int32Array => exact hm.runs_typedArrayGet_int32 hv hs hd hb.1 hk
  | float64Array => exact hm.runs_typedArrayGet_float64 hv hs hd hb.1 hk
  | string => exact absurd rfl hmode

omit hv in
/-- The storage is no number, unless the heap takes every address that is none. -/
lemma isNumber_storage (hnext : w.memory.next < 281474976710656) :
    (⟨x.storage⟩ : Value).isNumber = false := by
  obtain ⟨a, i, o, hi, hx, hext, -⟩ := hb.exists_item
  have hhigh := hm.high hi
  have hsize : UInt64.size = 18446744073709551616 := rfl
  rw [← Bool.not_eq_true, Value.isNumber_iff_le, hx, Memory.toNat_add_ofNat (by omega)]
  omega

/-- An element is where its address says, and it reads as the heap has it. -/
lemma element (hk : ws[k]? = some y) :
    runs (elementAddress mode v k) w = (.ok (x.element mode k), w) ∧
    w.memory.read? mode.elementSize (x.element mode k) = some y := by
  obtain ⟨a, i, o, hi, hx, hext, hread⟩ := hb.exists_item
  have hlt := hm.lt hi
  have hsize : UInt64.size = 18446744073709551616 := rfl
  have hle : mode.elementSize * k ≤ mode.elementSize * ws.length :=
    Nat.mul_le_mul_left _ (List.getElem?_eq_some_iff.mp hk).1.le
  have hstorage : x.storage.toNat = a.toNat + o := by rw [hx, Memory.toNat_add_ofNat (by omega)]
  refine ⟨?_, ?_⟩
  · rw [elementAddress, runs_bind_of_ok (hm.runs_storage hv), World.runs_offset (by omega)]
    rfl
  · rw [Cell.element, hx, UInt64.add_assoc, ← UInt64.ofNat_add]
    exact hread _ (hm.item hi) k y hk

section Suits

variable {i : Int32} {u : Value} (hs : h.structure? x.kind = some d) (hd : d.Suits mode)
include hs hd

lemma inBounds_iff : w.InBounds mode v i ↔ 0 ≤ i.toInt ∧ i.toInt < ws.length := by
  have hsuits := (hm.suits_iff hv hs).mpr hd
  have hcount := hm.runs_elementCount hv hb
  have hlen : (UInt32.ofNat ws.length).toNat = ws.length :=
    UInt32.toNat_ofNat_of_lt' (hm.length_lt_of_backs hb)
  constructor
  · rintro ⟨-, hi, n, hn, hlt⟩
    rw [hcount] at hn
    obtain rfl : UInt32.ofNat ws.length = n := Except.ok.inj (congrArg Prod.fst hn)
    exact ⟨hi, hlen ▸ hlt⟩
  · rintro ⟨hi, hlt⟩
    exact ⟨hsuits, hi, _, hcount, hlen.symm ▸ hlt⟩

/-- A load comes to what the value has at the index. -/
lemma has_iff (hmode : mode ≠ .string) : w.Has mode v i u ↔ mode.fetch ws i = .ok u := by
  unfold World.Has ArrayMode.fetch
  rw [hm.inBounds_iff hv hb hs hd]
  by_cases hi : 0 ≤ i.toInt
  · rw [if_pos hi]
    cases hk : ws[i.toInt.toNat]? with
    | none =>
      have hout := List.getElem?_eq_none_iff.mp hk
      exact ⟨fun h => absurd h.1.2 (by omega), nofun⟩
    | some y =>
      have hlt := (List.getElem?_eq_some_iff.mp hk).1
      have hrun := hm.runs_elementAt hv hb hs hd hmode hk
      rw [hrun]
      constructor
      · rintro ⟨-, hu, hne⟩
        obtain rfl : mode.element y = u := Except.ok.inj (congrArg Prod.fst hu)
        exact if_neg hne
      · intro hfetch
        by_cases hne : mode.element y = .empty
        · cases (if_pos hne).symm.trans hfetch
        · obtain rfl := Except.ok.inj ((if_neg hne).symm.trans hfetch)
          exact ⟨⟨hi, by omega⟩, rfl, hne⟩
  · rw [if_neg hi]
    exact ⟨fun h => absurd h.1.1 hi, nofun⟩

end Suits

end Memory.Houses

end Speculation
