import Speculation.Proofs.Heap.Elements
import Speculation.Proofs.Heap.Structures

/-!
What can be seen of a heap.

A snapshot of a cell is all that a program can find out about it. A heap is formed if every cell has
a structure and what its structure asks for, and if no two objects share their elements. An operation
on an object of such a heap touches that object only: every other cell gives the same snapshot as
before.
-/

namespace Speculation

structure Snapshot where
  type : CellType
  indexing : UInt8
  flags : UInt8
  prototype : Value
  /-- The own properties, in the order in which they were added. -/
  properties : List (String × Value)
  /-- The elements of an object or a typed array, the units of a string, or the number of a
  function. -/
  contents : List Value

def Cell.properties (x : Cell) (names : List String) : List (String × Value) :=
  names.zipIdx.map fun p => (p.1, x.slots p.2)

namespace World

def slotValues (v : Value) (k : Nat) : List String → Run (List (String × Value))
  | [] => pure []
  | name :: names => do
    let x ← readValue (inlineSlot v.bits k)
    return (name, x) :: (← slotValues v (k + 1) names)

def ownProperties (v : Value) : Run (List (String × Value)) := do
  let s ← structureOf v
  slotValues v 0 ((← get).propertiesOf s)

def typedElements (v : Value) (i : Nat) : Nat → Run (List Value)
  | 0 => pure []
  | n + 1 => do
    let x ← typedArrayGet v i
    return x :: (← typedElements v (i + 1) n)

def contents (v : Value) : Run (List Value) := do
  match ← cellType v with
  | .object => arrayElements v 0 (← arrayLength v).toNat
  | .string => return (← stringUnits v).map fun u => .ofInt32 u.toUInt32.toInt32
  | .int32Array | .float64Array => typedElements v 0 (← cellLength v).toNat
  | .function => return [.ofInt32 (← cellLength v).toInt32]

def snapshot (v : Value) : Run Snapshot := do
  let type ← cellType v
  let indexing ← indexing v
  let flags ← flags v
  let prototype ← prototype v
  let properties ← ownProperties v
  let contents ← contents v
  return { type, indexing, flags, prototype, properties, contents }

end World

/-- If the elements of a cell have a shape, then there is storage for them. -/
def Cell.Stocked (x : Cell) (d : Structure) : Prop :=
  d.indexing &&& Indexing.shapeMask ≠ Indexing.none → x.storage ≠ 0

lemma Cell.stocked_of_none {x : Cell} {d : Structure} (h : d.indexing = Indexing.none) : x.Stocked d := by
  intro hne
  rw [h] at hne
  exact absurd rfl hne

namespace Heap

variable {h h' : Heap} {a b c s v : UInt64} {d e : Structure} {x y : Cell} {ws : List UInt64}

def elementsAt (h : Heap) (s : UInt64) : List UInt64 :=
  match h (s - 8) with
  | some (.elements ws) => if s = 0 then [] else ws
  | _ => []

@[simp] lemma elementsAt_zero (h : Heap) : h.elementsAt 0 = [] := by
  unfold elementsAt
  split <;> rfl

def wordsAt (h : Heap) (s : UInt64) : List Nat :=
  match h s with
  | some (.words _ ws) => ws
  | _ => []

def contents (h : Heap) (d : Structure) (x : Cell) : List Value :=
  match d.type with
  | .object => (h.elementsAt x.storage).map (.ofElement d.indexing)
  | .string => (h.wordsAt x.storage).map fun u => .ofInt32 (UInt16.ofNat u).toUInt32.toInt32
  | .int32Array => (h.wordsAt x.storage).map fun i => .ofInt32 (UInt32.ofNat i).toInt32
  | .float64Array => (h.wordsAt x.storage).map fun y => .ofNumber ⟨UInt64.ofNat y⟩
  | .function => [.ofInt32 x.length.toInt32]

def snapshot (h : Heap) (d : Structure) (x : Cell) : Snapshot where
  type := d.type
  indexing := d.indexing
  flags := d.flags
  prototype := d.prototype
  properties := x.properties d.properties
  contents := h.contents d x

@[simp] lemma contents_snapshot : (h.snapshot d x).contents = h.contents d x := rfl

def snapshot? (h : Heap) (c : UInt64) : Option Snapshot :=
  (h.cell? c).bind fun x => (h.structure? x.kind).map fun d => h.snapshot d x

lemma snapshot?_eq (hc : h.cell? c = some x) (hs : h.structure? x.kind = some d) :
    h.snapshot? c = some (h.snapshot d x) := by
  rw [snapshot?, hc, Option.bind_some, hs, Option.map_some]

def Stored (h : Heap) (d : Structure) (x : Cell) : Prop :=
  match d.type with
  | .object => x.storage = 0 ∨ d.indexing &&& Indexing.shapeMask ≠ Indexing.none ∧
      ∃ a ws, h a = some (.elements ws) ∧ x.storage = a + 8
  | .string => ∃ ws, h x.storage = some (.words 2 ws) ∧ x.length.toNat = ws.length
  | .int32Array => ∃ ws, h x.storage = some (.words 4 ws) ∧ x.length.toNat = ws.length
  | .float64Array => ∃ ws, h x.storage = some (.words 8 ws) ∧ x.length.toNat = ws.length
  | .function => True

def Owns (h : Heap) (c a : UInt64) : Prop :=
  ∃ x d, h.cell? c = some x ∧ h.structure? x.kind = some d ∧ d.type = .object ∧
    x.storage ≠ 0 ∧ x.storage = a + 8

lemma Owns.elements (ho : h.Owns c a) (hf : ∀ {x d}, h.cell? c = some x →
    h.structure? x.kind = some d → h.Stored d x) : ∃ ws, h a = some (.elements ws) := by
  obtain ⟨x, d, hc, hs, hd, hne, hx⟩ := ho
  have hst := hf hc hs
  rw [Stored, hd] at hst
  rcases hst with hzero | ⟨-, b, ws, hb, hxb⟩
  · exact absurd hzero hne
  · obtain rfl : a = b := (UInt64.add_left_inj 8).mp (hx.symm.trans hxb)
    exact ⟨ws, hb⟩

/-- All that cells refer to is there, and elements belong to one object only. -/
structure Formed (h : Heap) : Prop where
  kind {c : UInt64} {x : Cell} (hc : h.cell? c = some x) : ∃ d, h.structure? x.kind = some d ∧
    (d.type ≠ .object → d.indexing = Indexing.none) ∧ h.Stored d x
  own {a b c : UInt64} (hb : h.Owns b a) (hc : h.Owns c a) : b = c

lemma Formed.stored (hf : h.Formed) (hc : h.cell? c = some x) (hs : h.structure? x.kind = some d) :
    h.Stored d x := by
  obtain ⟨e, he, -, hst⟩ := hf.kind hc
  obtain rfl : e = d := Option.some.inj (he.symm.trans hs)
  exact hst

lemma Formed.congr (hf : h.Formed) (hcells : ∀ {c x}, h'.cell? c = some x → h.cell? c = some x)
    (hstructures : ∀ {s d}, h.structure? s = some d → h'.structure? s = some d)
    (hst : ∀ {d x}, h.Stored d x → h'.Stored d x) : h'.Formed where
  kind hc := by
    obtain ⟨d, hs, hindexing, hstored⟩ := hf.kind (hcells hc)
    exact ⟨d, hstructures hs, hindexing, hst hstored⟩
  own := by
    have howns : ∀ {c a}, h'.Owns c a → h.Owns c a := by
      rintro c a ⟨x, d, hc, hd, htype, hne, hx⟩
      obtain ⟨d', hd', -⟩ := hf.kind (hcells hc)
      obtain rfl : d' = d := Option.some.inj ((hstructures hd').symm.trans hd)
      exact ⟨x, d', hcells hc, hd', htype, hne, hx⟩
    exact fun {_ _ _} hb hc => hf.own (howns hb) (howns hc)

lemma Formed.setWords {size : Nat} {ns ms : List Nat} (hf : h.Formed)
    (ha : h a = none ∨ h a = some (.words size ns)) (hlen : ms.length = ns.length) :
    (h.set a (.words size ms)).Formed := by
  have hstructures : (h.set a (.words size ms)).structure? = h.structure? := by
    refine structure?_set nofun ?_
    rcases ha with ha | ha <;> rw [Heap.structure?, ha]
  refine hf.congr (fun {c x} hc => ?_) (fun hs => by rwa [hstructures]) fun {d x} hst => ?_
  · rw [cell?_eq_some] at hc ⊢
    by_cases hca : c = a
    · subst hca
      rw [set_self] at hc
      cases hc
    · rwa [set_of_ne hca] at hc
  · have hwords : ∀ {k : Nat}, (∃ ks, h x.storage = some (.words k ks) ∧
        x.length.toNat = ks.length) → ∃ ks, h.set a (.words size ms) x.storage = some (.words k ks) ∧
        x.length.toNat = ks.length := by
      rintro k ⟨ks, hx, hk⟩
      by_cases hxa : x.storage = a
      · rw [hxa] at hx ⊢
        rcases ha with ha | ha
        · rw [ha] at hx
          cases hx
        · rw [ha, Option.some.injEq, Item.words.injEq] at hx
          obtain ⟨rfl, rfl⟩ := hx
          exact ⟨ms, set_self, hk.trans hlen.symm⟩
      · exact ⟨ks, by rwa [set_of_ne hxa], hk⟩
    unfold Stored at *
    split at hst
    · rcases hst with hzero | ⟨hshape, b, ws, hb, hx⟩
      · exact .inl hzero
      · refine .inr ⟨hshape, b, ws, ?_, hx⟩
        rwa [set_of_ne]
        rintro rfl
        rcases ha with ha | ha <;> rw [ha] at hb <;> cases hb
    · exact hwords hst
    · exact hwords hst
    · exact hwords hst
    · trivial

/-- At most one object was changed, or one cell added: nothing but that cell, and its elements, is
not as before. -/
structure Touches (h : Heap) (v : UInt64) (h' : Heap) : Prop where
  cell : h v = none ∨ ∃ x, h.cell? v = some x
  keeps {a : UInt64} {i : Item} (ha : h a = some i) (hv : a ≠ v)
    (hown : ∀ ws, i = .elements ws → ¬h.Owns v a) : h' a = some i
  cells {a : UInt64} {x : Cell} (ha : h' a = some (.cell x)) (hv : a ≠ v) : h a = some (.cell x)

namespace Touches

variable (ht : h.Touches v h')
include ht

lemma ne_of_item {i : Item} (ha : h a = some i) (hi : ∀ x, i ≠ .cell x) : a ≠ v := by
  rintro rfl
  rcases ht.cell with hn | ⟨x, hx⟩
  · rw [hn] at ha
    cases ha
  · rw [cell?_eq_some.mp hx, Option.some.injEq] at ha
    exact hi x ha.symm

lemma structure? (hs : h.structure? s = some d) : h'.structure? s = some d := by
  rw [structure?_eq_some] at hs ⊢
  exact ht.keeps hs (ht.ne_of_item hs nofun) fun _ => nofun

lemma cell?_of_ne (hc : h.cell? c = some x) (hcv : c ≠ v) : h'.cell? c = some x := by
  rw [cell?_eq_some] at hc ⊢
  exact ht.keeps hc hcv fun _ => nofun

lemma words {size : Nat} {ns : List Nat} (ha : h a = some (.words size ns)) :
    h' a = some (.words size ns) :=
  ht.keeps ha (ht.ne_of_item ha nofun) fun _ => nofun

/-- What other cells ask for is still there, and the same. -/
lemma stored (hf : h.Formed) (hc : h.cell? c = some x) (hs : h.structure? x.kind = some d)
    (hcv : c ≠ v) : h'.Stored d x ∧ h'.contents d x = h.contents d x := by
  have hst := hf.stored hc hs
  have hwords : ∀ {size : Nat}, (∃ ns, h x.storage = some (.words size ns) ∧
      x.length.toNat = ns.length) → (∃ ns, h' x.storage = some (.words size ns) ∧
      x.length.toNat = ns.length) ∧ h'.wordsAt x.storage = h.wordsAt x.storage := by
    rintro size ⟨ns, ha, hlen⟩
    have ha' := ht.words ha
    exact ⟨⟨ns, ha', hlen⟩, by rw [wordsAt, wordsAt, ha, ha']⟩
  unfold Stored contents at *
  split at hst <;> rename_i hd
  · by_cases hzero : x.storage = 0
    · refine ⟨.inl hzero, ?_⟩
      rw [hzero, elementsAt_zero, elementsAt_zero]
    · obtain ⟨hshape, a, ws, ha, hx⟩ := hst.resolve_left hzero
      -- an object does not own the elements of another one
      have ha' : h' a = some (.elements ws) := ht.keeps ha (ht.ne_of_item ha nofun)
        fun _ _ hown => hcv (hf.own ⟨x, d, hc, hs, hd, hzero, hx⟩ hown)
      refine ⟨.inr ⟨hshape, a, ws, ha', hx⟩, ?_⟩
      rw [hx, elementsAt, elementsAt, UInt64.add_sub_cancel, ha, ha']
  · exact ⟨(hwords hst).1, by rw [(hwords hst).2]⟩
  · exact ⟨(hwords hst).1, by rw [(hwords hst).2]⟩
  · exact ⟨(hwords hst).1, by rw [(hwords hst).2]⟩
  · exact ⟨trivial, rfl⟩

lemma snapshot? (hf : h.Formed) (hcv : c ≠ v) (hc : h.cell? c = some x) :
    ∃ s, h.snapshot? c = some s ∧ h'.snapshot? c = some s := by
  obtain ⟨d, hs, -⟩ := hf.kind hc
  refine ⟨h.snapshot d x, snapshot?_eq hc hs, ?_⟩
  rw [snapshot?_eq (ht.cell?_of_ne hc hcv) (ht.structure? hs), snapshot,
    (ht.stored hf hc hs hcv).2, snapshot]

/-- The heap is still formed if the cell that was touched is, and if it has no elements but those it
owned, or new ones. -/
lemma formed (hf : h.Formed) (hy : h'.cell? v = some y) (hs : h'.structure? y.kind = some e)
    (hindexing : e.type ≠ .object → e.indexing = Indexing.none) (hst : h'.Stored e y)
    (hown : ∀ {a}, h'.Owns v a → h.Owns v a ∨ h a = none) : h'.Formed := by
  -- every cell of the heap is the one that was touched, or was there before
  have hcells : ∀ {c x}, h'.cell? c = some x → c ≠ v → h.cell? c = some x := fun hc hcv =>
    cell?_eq_some.mpr (ht.cells (cell?_eq_some.mp hc) hcv)
  have howns : ∀ {c a}, h'.Owns c a → c ≠ v → h.Owns c a := by
    rintro c a ⟨x, d, hc, hd, htype, hne, hx⟩ hcv
    have hc' := hcells hc hcv
    obtain ⟨d', hd', -⟩ := hf.kind hc'
    obtain rfl : d' = d := Option.some.inj ((ht.structure? hd').symm.trans hd)
    exact ⟨x, d', hc', hd', htype, hne, hx⟩
  have hother : ∀ {c a}, h'.Owns v a → h'.Owns c a → c = v := by
    intro c a hva hca
    by_contra hcv
    have hca' := howns hca hcv
    rcases hown hva with hva' | hnone
    · exact hcv (hf.own hca' hva')
    · obtain ⟨ws, hws⟩ := hca'.elements hf.stored
      rw [hnone] at hws
      cases hws
  refine ⟨fun {c x} hc => ?_, fun {a b c} hb hc => ?_⟩
  · by_cases hcv : c = v
    · subst hcv
      obtain rfl : x = y := Option.some.inj (hc.symm.trans hy)
      exact ⟨e, hs, hindexing, hst⟩
    · have hc' := hcells hc hcv
      obtain ⟨d, hd, hi, -⟩ := hf.kind hc'
      exact ⟨d, ht.structure? hd, hi, (ht.stored hf hc' hd hcv).1⟩
  · by_cases hbv : b = v
    · subst hbv
      exact (hother hb hc).symm
    · by_cases hcv : c = v
      · subst hcv
        exact hother hc hb
      · exact hf.own (howns hb hbv) (howns hc hcv)

end Touches

end Heap

/-! ### Reading -/

namespace Memory.Shows

open World

variable {w : World} {h : Heap} {a : UInt64} {v : Value} {x : Cell} {d : Structure} {ns : List Nat}
  {size n k : Nat}

lemma runs_readWords {y : Nat} (hm : w.memory.Shows h) (ha : h a = some (.words size ns))
    (hk : ns[k]? = some y) : a.toNat + size * k < UInt64.size ∧
      runs (readWord size (a + UInt64.ofNat (size * k))) w = (.ok y, w) := by
  have hlt := hm.room ha
  have hk' := (List.getElem?_eq_some_iff.mp hk).1
  have hround := Item.le_roundUp (size * ns.length)
  have hmul : size * k ≤ size * ns.length := Nat.mul_le_mul_left _ hk'.le
  simp only [Item.extent] at hlt
  exact ⟨by omega, runs_readWord (hm.item ha k y hk)⟩

lemma runs_readUnits (hm : w.memory.Shows h) (ha : h a = some (.words 2 ns))
    (hk : k + n = ns.length) : runs (readUnits (a + UInt64.ofNat (2 * k)) n) w =
      (.ok ((ns.drop k).map UInt16.ofNat), w) := by
  induction n generalizing k with
  | zero => rw [show k = ns.length by omega, List.drop_length]; rfl
  | succ n ih =>
    have hlt : k < ns.length := by omega
    obtain ⟨hroom, hword⟩ := hm.runs_readWords ha (List.getElem?_eq_getElem hlt)
    have hread : runs (read16 (a + UInt64.ofNat (2 * k))) w = (.ok (UInt16.ofNat ns[k]), w) := by
      rw [read16, runs_bind_of_ok hword]
      rfl
    rw [readUnits, runs_bind_of_ok hread, List.drop_eq_getElem_cons hlt]
    rcases n with _ | n
    · rw [show k + 1 = ns.length by omega, List.drop_length]
      rfl
    · have hstep : a + UInt64.ofNat (2 * k) + UInt64.ofNat 2 = a + UInt64.ofNat (2 * (k + 1)) := by
        rw [UInt64.add_assoc, ← UInt64.ofNat_add]
        rfl
      have hnext := (hm.runs_readWords ha (List.getElem?_eq_getElem (show k + 1 < ns.length by omega))).1
      have haddress : (a + UInt64.ofNat (2 * k)).toNat = a.toNat + 2 * k := toNat_add_ofNat (by omega)
      show runs (do
        let __do_lift ← offset (a + UInt64.ofNat (2 * k)) 2
        let __do_lift ← readUnits __do_lift (n + 1)
        pure (UInt16.ofNat ns[k] :: __do_lift)) w = _
      rw [runs_bind_of_ok (World.runs_offset (by omega)), hstep, runs_bind_of_ok (ih (by omega))]
      rfl

lemma runs_stringUnits (hm : w.memory.Shows h) (hv : h.cell? v.bits = some x)
    (hs : h.structure? x.kind = some d) (hd : d.type = .string) (ha : h x.storage = some (.words 2 ns))
    (hx : x.length.toNat = ns.length) :
    runs (stringUnits v) w = (.ok (ns.map UInt16.ofNat), w) := by
  have hunits := hm.runs_readUnits ha (k := 0) (n := x.length.toNat) (by omega)
  rw [show x.storage + UInt64.ofNat (2 * 0) = x.storage from UInt64.add_zero _] at hunits
  rw [stringUnits, if_pos (hm.cell hv)]
  simp only
  rw [runs_bind_of_ok (hm.runs_cellType hv hs), if_pos hd, runs_bind_of_ok (hm.runs_storage hv), runs_bind_of_ok (hm.runs_cellLength hv)]
  exact hunits

end Memory.Shows

namespace Memory.Houses

open World

variable {w : World} {h : Heap} {limit : Nat} {a : UInt64} {v : Value} {x : Cell} {d : Structure}
  {ns : List Nat} {size n k : Nat}

lemma runs_readWords {y : Nat} (hm : w.memory.Houses limit h) (ha : h a = some (.words size ns))
    (hk : ns[k]? = some y) : a.toNat + size * k < UInt64.size ∧
      runs (readWord size (a + UInt64.ofNat (size * k))) w = (.ok y, w) :=
  hm.shows.runs_readWords ha hk

section Cells

variable (hm : w.memory.Houses limit h) (hv : h.cell? v.bits = some x)
  (hs : h.structure? x.kind = some d)
include hm hv hs

lemma runs_stringUnits (hd : d.type = .string) (ha : h x.storage = some (.words 2 ns))
    (hx : x.length.toNat = ns.length) :
    runs (stringUnits v) w = (.ok (ns.map UInt16.ofNat), w) :=
  hm.shows.runs_stringUnits hv hs hd ha hx

lemma runs_typedArrayGet_int32 (hd : d.type = .int32Array) (ha : h x.storage = some (.words 4 ns))
    {i : Nat} (hk : ns[k]? = some i) :
    runs (typedArrayGet v k) w = (.ok (.ofInt32 (UInt32.ofNat i).toInt32), w) := by
  obtain ⟨hroom, hword⟩ := hm.runs_readWords ha hk
  rw [typedArrayGet, runs_bind_of_ok (hm.runs_storage hv), runs_bind_of_ok (hm.runs_cellType hv hs),
    hd]
  dsimp only
  rw [runs_bind_of_ok (World.runs_offset hroom), read32, bind_assoc, runs_bind_of_ok hword]
  rfl

lemma runs_typedArrayGet_float64 (hd : d.type = .float64Array)
    (ha : h x.storage = some (.words 8 ns)) {y : Nat} (hk : ns[k]? = some y) :
    runs (typedArrayGet v k) w = (.ok (.ofNumber ⟨UInt64.ofNat y⟩), w) := by
  obtain ⟨hroom, hword⟩ := hm.runs_readWords ha hk
  rw [typedArrayGet, runs_bind_of_ok (hm.runs_storage hv), runs_bind_of_ok (hm.runs_cellType hv hs),
    hd]
  dsimp only
  rw [runs_bind_of_ok (World.runs_offset hroom), read64, bind_assoc, runs_bind_of_ok hword]
  rfl

end Cells

/-- Elements that can each be read are read one after the other. -/
lemma runs_typedElements {f : Nat → Value}
    (hget : ∀ k y, ns[k]? = some y → runs (typedArrayGet v k) w = (.ok (f y), w))
    (hk : k + n = ns.length) : runs (typedElements v k n) w = (.ok ((ns.drop k).map f), w) := by
  induction n generalizing k with
  | zero => rw [show k = ns.length by omega, List.drop_length]; rfl
  | succ n ih =>
    have hlt : k < ns.length := by omega
    rw [typedElements, runs_bind_of_ok (hget k _ (List.getElem?_eq_getElem hlt)),
      runs_bind_of_ok (ih (by omega)), List.drop_eq_getElem_cons hlt]
    rfl

section Contents

variable (hm : w.memory.Houses limit h) (hv : h.cell? v.bits = some x)
  (hs : h.structure? x.kind = some d) (hst : h.Stored d x)
include hm hv hs hst

lemma runs_elements (hd : d.type = .object) :
    runs (do arrayElements v 0 (← arrayLength v).toNat) w =
      (.ok ((h.elementsAt x.storage).map (.ofElement d.indexing)), w) := by
  rw [Heap.Stored, hd] at hst
  rcases hst with hzero | ⟨-, a, ws, ha, hx⟩
  · rw [runs_bind_of_ok (hm.runs_arrayLength_none hv hzero), hzero, Heap.elementsAt_zero]
    rfl
  · have hlen := (hm.item ha).1
    have hcount : (UInt32.ofNat ws.length).toNat = ws.length := UInt32.toNat_ofNat_of_lt' hlen
    have hat : h.elementsAt x.storage = ws := by
      rw [Heap.elementsAt, hx, UInt64.add_sub_cancel, ha]
      exact if_neg (hx ▸ hm.storage_ne_zero ha hx)
    rw [runs_bind_of_ok (hm.runs_arrayLength hv ha hx), hcount,
      hm.runs_arrayElements hv ha hx hs (Nat.zero_add _), hat, List.drop_zero]

lemma runs_contents : runs (contents v) w = (.ok (h.contents d x), w) := by
  rw [contents, runs_bind_of_ok (hm.runs_cellType hv hs)]
  unfold Heap.contents
  cases hd : d.type with
  | object => exact hm.runs_elements hv hs hst hd
  | string =>
    rw [Heap.Stored, hd] at hst
    obtain ⟨ns, ha, hx⟩ := hst
    dsimp only
    rw [runs_bind_of_ok (hm.runs_stringUnits hv hs hd ha hx), Heap.wordsAt, ha, List.map_map]
    rfl
  | int32Array =>
    rw [Heap.Stored, hd] at hst
    obtain ⟨ns, ha, hx⟩ := hst
    dsimp only
    rw [runs_bind_of_ok (hm.runs_cellLength hv), runs_typedElements
      (fun k y hk => hm.runs_typedArrayGet_int32 hv hs hd ha hk) ((Nat.zero_add _).trans hx),
      Heap.wordsAt, ha, List.drop_zero]
  | float64Array =>
    rw [Heap.Stored, hd] at hst
    obtain ⟨ns, ha, hx⟩ := hst
    dsimp only
    rw [runs_bind_of_ok (hm.runs_cellLength hv), runs_typedElements
      (fun k y hk => hm.runs_typedArrayGet_float64 hv hs hd ha hk) ((Nat.zero_add _).trans hx),
      Heap.wordsAt, ha, List.drop_zero]
  | function =>
    dsimp only
    rw [runs_bind_of_ok (hm.runs_cellLength hv)]
    rfl

end Contents

end Memory.Houses

namespace World

/-- A heap is in memory, the world is right about its structures, and it is formed. -/
structure Sound (w : World) (limit : Nat) (h : Heap) : Prop where
  houses : w.Houses limit h
  formed : h.Formed

variable {w : World} {h : Heap} {limit k : Nat} {v : Value} {x : Cell} {d : Structure} {s : Snapshot}

lemma Houses.runs_slotValues (hw : w.Houses limit h) (hv : h.cell? v.bits = some x)
    (names : List String) (hk : k + names.length ≤ Layout.inlineCapacity) :
    runs (slotValues v k names) w =
      (.ok ((names.zipIdx k).map fun p => (p.1, x.slots p.2)), w) := by
  induction names generalizing k with
  | nil => rfl
  | cons name names ih =>
    rw [List.length_cons] at hk
    rw [slotValues, runs_bind_of_ok (hw.memory.runs_slot hv (by omega)),
      runs_bind_of_ok (ih (by omega))]
    rfl

lemma Houses.runs_ownProperties (hw : w.Houses limit h) (hv : h.cell? v.bits = some x)
    (hs : h.structure? x.kind = some d) :
    runs (ownProperties v) w = (.ok (x.properties d.properties), w) := by
  rw [ownProperties, runs_bind_of_ok (hw.memory.runs_structureOf hv), runs_bind_of_ok runs_get,
    hw.propertiesOf hs]
  exact hw.runs_slotValues hv _ (by rw [Nat.zero_add]; exact (hw.bounded hs).2)

/-- What can be seen of a cell. -/
theorem Sound.runs_snapshot (hw : w.Sound limit h) (hv : h.snapshot? v.bits = some s) :
    runs (snapshot v) w = (.ok s, w) := by
  obtain ⟨x, hx, hv⟩ := Option.bind_eq_some_iff.mp hv
  obtain ⟨d, hs, rfl⟩ := Option.map_eq_some_iff.mp hv
  have hh := hw.houses
  rw [snapshot, runs_bind_of_ok (hh.memory.runs_cellType hx hs), runs_bind_of_ok (hh.memory.runs_indexing hx hs),
    runs_bind_of_ok (hh.memory.runs_flags hx hs), runs_bind_of_ok (hh.memory.runs_prototype hx hs),
    runs_bind_of_ok (hh.runs_ownProperties hx hs),
    runs_bind_of_ok (hh.memory.runs_contents hx hs (hw.formed.stored hx hs))]
  rfl

end World

end Speculation
