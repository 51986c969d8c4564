import Speculation.Proofs.Heap.Items
import Speculation.World.Context

/-!
Reading and writing structures and cells.

On a heap that is in memory every access to a structure or a cell succeeds. A read gives what the
heap has there, and a write changes one field of one cell.
-/

namespace Speculation

namespace Value

lemma isCell_of_address {v : Value} (hpos : 0 < v.bits.toNat) (hlt : v.bits.toNat < 281474976710656)
    (halign : v.bits.toNat % 8 = 0) : v.isCell = true := by
  have hne : v.bits ≠ 0 := fun h => by
    rw [h] at hpos
    exact absurd hpos (by decide)
  have hmask : ∀ i, cellMask.toNat.testBit i = true → i = 1 ∨ 48 ≤ i := by
    intro i hi
    by_contra hno
    have hsmall : ∀ i < 48, i ≠ 1 → cellMask.toNat.testBit i = false := by decide
    rw [hsmall i (by omega) (by omega)] at hi
    cases hi
  have hand : v.bits &&& cellMask = 0 := by
    apply UInt64.toNat_inj.mp
    rw [UInt64.toNat_and]
    refine Nat.eq_of_testBit_eq fun i => ?_
    rw [Nat.testBit_and, show (0 : UInt64).toNat = 0 from rfl, Nat.zero_testBit, Bool.and_eq_false_iff]
    by_contra hboth
    simp only [not_or, Bool.not_eq_false] at hboth
    obtain ⟨hbit, hm⟩ := hboth
    rcases hmask i hm with rfl | hi
    · rw [Nat.testBit_succ, Nat.testBit_zero, decide_eq_true_eq] at hbit
      omega
    · have hpow : (2 : Nat) ^ 48 ≤ 2 ^ i := Nat.pow_le_pow_right (by decide) hi
      rw [Nat.testBit_lt_two_pow (by omega)] at hbit
      cases hbit
  simp [isCell, hne, hand]

end Value

lemma CellType.ofCode?_code (t : CellType) : CellType.ofCode? t.code = some t := by
  cases t <;> decide

namespace World

open Memory

variable {w : World} {h : Heap} {limit : Nat} {a s : UInt64} {v : Value} {i j : Item} {d : Structure}
  {x : Cell} {n k o y : Nat}

lemma runs_store (hm : w.memory.Mapped a n) (hlt : a.toNat + n ≤ UInt64.size) (hy : y < 256 ^ n) :
    ∃ m', runs (writeWord n a y) w = (.ok (), w.withMemory m') ∧ w.memory.Stored a n y m' :=
  ⟨_, runs_writeWord (write_fst hm hlt), stored_write hm hlt hy⟩

end World

namespace Memory

open World

variable {m m' : Memory} {a : UInt64} {w : World} {fs : List (Nat × Nat × Nat)} {size n o y : Nat}

structure Area (m : Memory) (a : UInt64) (size : Nat) : Prop where
  mapped : m.Mapped a size
  room : a.toNat + size < UInt64.size

/-- In an area, words were written: at some offset, of some size, and with some content. -/
structure Laid (m : Memory) (a : UInt64) (size : Nat) (fs : List (Nat × Nat × Nat)) (m' : Memory) :
    Prop where
  area : m'.Area a size
  within : Within a size m m'
  read {o n y : Nat} (hf : (o, n, y) ∈ fs) : m'.read? n (a + UInt64.ofNat o) = some y

lemma Area.laid (h : m.Area a size) : m.Laid a size [] m := ⟨h, .refl a size m, nofun⟩

/-- One more word is written, next to those before. -/
lemma Laid.runs_store (h : m.Laid a size fs m') (hy : y < 256 ^ n) (ho : o + n ≤ size)
    (hfs : ∀ f ∈ fs.map fun f => (f.1, f.2.1), f.1 + f.2 ≤ size ∧ (f.1 + f.2 ≤ o ∨ o + n ≤ f.1)) :
    ∃ m'', (∀ w : World, runs (writeWord n (a + UInt64.ofNat o) y) (w.withMemory m') =
        (.ok (), w.withMemory m'')) ∧ m.Laid a size ((o, n, y) :: fs) m'' := by
  have hroom := h.area.room
  have hat : ∀ {p : Nat}, p ≤ size → (a + UInt64.ofNat p).toNat = a.toNat + p := fun hp =>
    toNat_add_ofNat (by omega)
  have ho' := hat (p := o) (by omega)
  have hword := h.area.mapped.part ho
  have hst := stored_write (x := y) hword (by omega) hy
  have hwithin := hst.within (a := a) (n := size) (by omega) (by omega)
  refine ⟨_, fun w => runs_writeWord (write_fst hword (by omega)), ⟨hwithin.mapped h.area.mapped, hroom⟩, h.within.trans hwithin, fun {p k z} hf => ?_⟩
  rcases List.mem_cons.mp hf with hnew | hold
  · obtain ⟨rfl, rfl, rfl⟩ : p = o ∧ k = n ∧ z = y := by simpa using hnew
    exact hst.read
  · obtain ⟨hle, hapart⟩ := hfs (p, k) (List.mem_map_of_mem hold)
    have hp := hat (p := p) (by omega)
    rw [hst.other (by omega) ?_]
    · exact h.read hold
    · unfold Apart
      omega

end Memory

/-- A heap can be read in a memory: what it has is there, and its cells have addresses of cells. -/
structure Memory.Shows (m : Memory) (h : Heap) : Prop where
  item {a : UInt64} {i : Item} (ha : h a = some i) : i.At m a
  room {a : UInt64} {i : Item} (ha : h a = some i) : a.toNat + i.extent < UInt64.size
  cell {v : Value} {x : Cell} (hv : h.cell? v.bits = some x) : v.isCell = true

namespace Memory.Shows

open World

variable {w : World} {h : Heap} {s : UInt64} {v : Value} {d : Structure} {x : Cell}
  (hm : w.memory.Shows h)
include hm

lemma runs_structureType (hs : h.structure? s = some d) : runs (structureType s) w = (.ok d.type, w) := by
  obtain ⟨h₁, -⟩ := hm.item (Heap.structure?_eq_some.mp hs)
  have hroom := hm.room (Heap.structure?_eq_some.mp hs)
  have hextent : (Item.description d).extent = 16 := rfl
  have htype : Layout.structureCellType ≤ 16 := by decide
  rw [structureType, runs_bind_of_ok (World.runs_offset (by omega)), read8, bind_assoc,
    runs_bind_of_ok (runs_readWord h₁), pure_bind, UInt8.ofNat_toNat, CellType.ofCode?_code]
  rfl

lemma runs_structureFlags (hs : h.structure? s = some d) :
    runs (structureFlags s) w = (.ok d.flags, w) := by
  obtain ⟨-, -, h₃, -⟩ := hm.item (Heap.structure?_eq_some.mp hs)
  have hroom := hm.room (Heap.structure?_eq_some.mp hs)
  have hextent : (Item.description d).extent = 16 := rfl
  have hflags : Layout.structureFlags ≤ 16 := by decide
  rw [structureFlags, runs_bind_of_ok (World.runs_offset (by omega)), read8,
    runs_bind_of_ok (runs_readWord h₃), UInt8.ofNat_toNat]
  rfl

variable (hv : h.cell? v.bits = some x)
include hv

lemma runs_cellAddress : runs (cellAddress v) w = (.ok v.bits, w) := by
  rw [cellAddress, Value.cell?, if_pos (hm.cell hv)]
  rfl

lemma runs_structureOf : runs (structureOf v) w = (.ok x.kind, w) := by
  have hword := hm.item (Heap.cell?_eq_some.mp hv) .kind trivial
  rw [structureOf, runs_bind_of_ok (hm.runs_cellAddress hv)]
  exact (runs_read64 hword).trans (by rw [Cell.get, UInt64.ofNat_toNat])

lemma runs_storage : runs (storage v) w = (.ok x.storage, w) := by
  have hword := hm.item (Heap.cell?_eq_some.mp hv) .storage trivial
  rw [storage, runs_bind_of_ok (hm.runs_cellAddress hv)]
  exact (runs_read64 hword).trans (by rw [Cell.get, UInt64.ofNat_toNat])

lemma runs_cellLength : runs (cellLength v) w = (.ok x.length, w) := by
  have hword := hm.item (Heap.cell?_eq_some.mp hv) .length trivial
  rw [cellLength, runs_bind_of_ok (hm.runs_cellAddress hv), read32]
  exact (runs_bind_of_ok (runs_readWord hword)).trans (by rw [Cell.get, UInt32.ofNat_toNat]; rfl)

lemma runs_cellType (hs : h.structure? x.kind = some d) : runs (cellType v) w = (.ok d.type, w) := by
  rw [cellType, runs_bind_of_ok (hm.runs_structureOf hv)]
  exact hm.runs_structureType hs

lemma runs_flags (hs : h.structure? x.kind = some d) : runs (flags v) w = (.ok d.flags, w) := by
  rw [flags, runs_bind_of_ok (hm.runs_structureOf hv)]
  exact hm.runs_structureFlags hs

end Memory.Shows

namespace Memory.Houses

open World

variable {w : World} {h : Heap} {limit : Nat} {a s : UInt64} {v : Value} {i j : Item} {d : Structure}
  {x : Cell} {n k o y : Nat}

lemma area {m : Memory} (hm : m.Houses limit h) (ha : h a = some i) : m.Area a i.extent where
  mapped := hm.mapped ha
  room := by
    have hlt := hm.lt ha
    have hsize : UInt64.size = 18446744073709551616 := rfl
    omega

lemma isCell {m : Memory} (hm : m.Houses limit h) (hv : h.cell? v.bits = some x) : v.isCell = true := by
  have hc := Heap.cell?_eq_some.mp hv
  have hlow := hm.low hc
  have hhigh := hm.lt hc
  have hpos := (Item.cell x).extent_pos
  have hbase : heapBase = 268435456 := rfl
  exact Value.isCell_of_address (by omega) (by omega) (hm.aligned hc)

lemma shows {m : Memory} (hm : m.Houses limit h) : m.Shows h :=
  ⟨hm.item, fun ha => (hm.area ha).room, hm.isCell⟩

/-- A word within an item is overwritten. -/
lemma store (hm : w.memory.Houses limit h) (ha : h a = some i) (ho : o + n ≤ i.extent)
    (hy : y < 256 ^ n) (hext : j.extent = i.extent)
    (hat : ∀ m' : Memory, m'.read? n (a + UInt64.ofNat o) = some y →
      (∀ p k, p + k ≤ i.extent → o + n ≤ p ∨ p + k ≤ o →
        m'.read? k (a + UInt64.ofNat p) = w.memory.read? k (a + UInt64.ofNat p)) → j.At m' a) :
    ∃ m', runs (writeWord n (a + UInt64.ofNat o) y) w = (.ok (), w.withMemory m') ∧
      m'.Houses limit (h.set a j) ∧ m'.next = w.memory.next := by
  have hlt := hm.lt ha
  have hsize : UInt64.size = 18446744073709551616 := rfl
  have haddress : (a + UInt64.ofNat o).toNat = a.toNat + o := hm.toNat_add ha (by omega)
  obtain ⟨m', hrun, hst⟩ := World.runs_store (w := w) ((hm.mapped ha).part ho) (by omega) hy
  refine ⟨m', hrun, hm.change ha (hst.within (by omega) (by omega)) (hat m' hst.read ?_) hext, hst.next⟩
  intro p k hp hpo
  have hp' : (a + UInt64.ofNat p).toNat = a.toNat + p := hm.toNat_add ha (by omega)
  refine hst.other (by omega) ?_
  unfold Apart
  omega

section Structures

variable (hm : w.memory.Houses limit h) (hs : h.structure? s = some d)
include hm hs

lemma runs_offset (hn : n ≤ Layout.structureSize) : runs (offset s n) w = (.ok (s + UInt64.ofNat n), w) := by
  have hlt := hm.lt (Heap.structure?_eq_some.mp hs)
  have hsize : UInt64.size = 18446744073709551616 := rfl
  have hstructure : Layout.structureSize = 16 := rfl
  exact World.runs_offset (by omega)

lemma runs_structureType : runs (structureType s) w = (.ok d.type, w) := hm.shows.runs_structureType hs

lemma runs_structureIndexing : runs (structureIndexing s) w = (.ok d.indexing, w) := by
  obtain ⟨-, h₂, -⟩ := hm.item (Heap.structure?_eq_some.mp hs)
  rw [structureIndexing, runs_bind_of_ok (hm.runs_offset hs (by decide)), read8,
    runs_bind_of_ok (runs_readWord h₂), UInt8.ofNat_toNat]
  rfl

lemma runs_structureFlags : runs (structureFlags s) w = (.ok d.flags, w) := hm.shows.runs_structureFlags hs

lemma runs_structurePrototype : runs (structurePrototype s) w = (.ok d.prototype, w) := by
  obtain ⟨-, -, -, h₄⟩ := hm.item (Heap.structure?_eq_some.mp hs)
  rw [structurePrototype, runs_bind_of_ok (hm.runs_offset hs (by decide)), readValue,
    runs_bind_of_ok (runs_read64 h₄), UInt64.ofNat_toNat]
  rfl

end Structures

section Cells

variable (hm : w.memory.Houses limit h) (hv : h.cell? v.bits = some x)
include hm hv

lemma runs_cellAddress : runs (cellAddress v) w = (.ok v.bits, w) := hm.shows.runs_cellAddress hv

lemma runs_structureOf : runs (structureOf v) w = (.ok x.kind, w) := hm.shows.runs_structureOf hv

lemma runs_storage : runs (storage v) w = (.ok x.storage, w) := hm.shows.runs_storage hv

lemma runs_cellLength : runs (cellLength v) w = (.ok x.length, w) := hm.shows.runs_cellLength hv

lemma runs_slot (hk : k < Layout.inlineCapacity) :
    runs (readValue (inlineSlot v.bits k)) w = (.ok (x.slots k), w) := by
  have hword := hm.item (Heap.cell?_eq_some.mp hv) (.slot k) hk
  rw [readValue]
  exact (runs_bind_of_ok (runs_read64 hword)).trans (by rw [Cell.get, UInt64.ofNat_toNat]; rfl)

lemma runs_setField {f : Cell.Field} (hf : f.Fits) (hy : y < 256 ^ f.size) {z : Cell}
    (hself : z.get f = y) (hrest : ∀ g, g ≠ f → z.get g = x.get g) :
    ∃ m', runs (writeWord f.size (v.bits + UInt64.ofNat f.offset) y) w = (.ok (), w.withMemory m') ∧
      m'.Houses limit (h.set v.bits (.cell z)) ∧ m'.next = w.memory.next := by
  have hc := Heap.cell?_eq_some.mp hv
  refine hm.store hc (Cell.Field.le_cellSize hf) hy rfl fun m' hread hkeep g hg => ?_
  by_cases hgf : g = f
  · subst hgf
    rw [hread, hself]
  · rw [hkeep _ _ (Cell.Field.le_cellSize hg) (Cell.Field.apart hgf), hrest g hgf]
    exact hm.item hc g hg

lemma runs_setStructure (t : UInt64) : ∃ m', runs (setStructure v t) w = (.ok (), w.withMemory m') ∧
    m'.Houses limit (h.set v.bits (.cell { x with kind := t })) ∧ m'.next = w.memory.next := by
  rw [setStructure, runs_bind_of_ok (hm.runs_cellAddress hv)]
  exact hm.runs_setField hv (f := .kind) trivial t.toNat_lt rfl fun g hg => by cases g <;> trivial

lemma runs_setStorage (b : UInt64) : ∃ m', runs (setStorage v b) w = (.ok (), w.withMemory m') ∧
    m'.Houses limit (h.set v.bits (.cell { x with storage := b })) ∧ m'.next = w.memory.next := by
  rw [setStorage, runs_bind_of_ok (hm.runs_cellAddress hv)]
  exact hm.runs_setField hv (f := .storage) trivial b.toNat_lt rfl fun g hg => by cases g <;> trivial

lemma runs_setCellLength (n : UInt32) : ∃ m',
    runs (setCellLength v n) w = (.ok (), w.withMemory m') ∧
    m'.Houses limit (h.set v.bits (.cell { x with length := n })) ∧ m'.next = w.memory.next := by
  rw [setCellLength, runs_bind_of_ok (hm.runs_cellAddress hv)]
  exact hm.runs_setField hv (f := .length) trivial n.toNat_lt rfl fun g hg => by cases g <;> trivial

lemma runs_setSlot (hk : k < Layout.inlineCapacity) (y : Value) : ∃ m',
    runs (writeValue (inlineSlot v.bits k) y) w = (.ok (), w.withMemory m') ∧
    m'.Houses limit (h.set v.bits (.cell { x with slots := Function.update x.slots k y })) ∧
      m'.next = w.memory.next := by
  refine hm.runs_setField hv (f := .slot k) hk y.bits.toNat_lt ?_ fun g hg => ?_
  · show (Function.update x.slots k y k).bits.toNat = _
    rw [Function.update_self]
  · cases g with
    | slot l =>
      show (Function.update x.slots k y l).bits.toNat = _
      rw [Function.update_of_ne fun hl => hg (congrArg Cell.Field.slot hl)]
      rfl
    | _ => rfl

end Cells

section Structured

variable (hm : w.memory.Houses limit h) (hv : h.cell? v.bits = some x)
  (hs : h.structure? x.kind = some d)
include hm hv hs

lemma runs_cellType : runs (cellType v) w = (.ok d.type, w) := hm.shows.runs_cellType hv hs

lemma runs_indexing : runs (indexing v) w = (.ok d.indexing, w) := by
  rw [indexing, runs_bind_of_ok (hm.runs_structureOf hv)]
  exact hm.runs_structureIndexing hs

lemma runs_flags : runs (flags v) w = (.ok d.flags, w) := hm.shows.runs_flags hv hs

lemma runs_prototype : runs (prototype v) w = (.ok d.prototype, w) := by
  rw [prototype, runs_bind_of_ok (hm.runs_structureOf hv)]
  exact hm.runs_structurePrototype hs

end Structured

lemma runs_alloc (hm : w.memory.Houses limit h) (hroom : w.memory.next + roundUp n ≤ limit)
    (hi : i.Blank) (hextent : i.extent = roundUp n) :
    ∃ a m', runs (World.alloc n) w = (.ok a, w.withMemory m') ∧ h a = none ∧
      m'.next = w.memory.next + roundUp n ∧ m'.Houses limit (h.set a i) :=
  ⟨_, _, rfl, hm.alloc hroom hi hextent⟩

/-- What was allocated may be used as whole words. -/
lemma runs_alloc_zeros (hm : w.memory.Houses limit h) (hroom : w.memory.next + roundUp n ≤ limit) :
    ∃ a m', runs (World.alloc n) w = (.ok a, w.withMemory m') ∧ h a = none ∧
      m'.next = w.memory.next + roundUp n ∧ m'.Houses limit (h.set a (.zeros n)) :=
  hm.runs_alloc hroom (Item.blank_words _ _) (Item.extent_zeros n)

lemma runs_newStructure (hm : w.memory.Houses limit h)
    (hroom : w.memory.next + Layout.structureSize ≤ limit) (type : CellType) (indexing flags : UInt8)
    (prototype : Value) (properties : List String) : ∃ s m',
    runs (newStructure type indexing flags prototype properties) w =
      (.ok s, { w with memory := m', nextStructure := w.nextStructure + 1,
                       structures := w.structures.insert s properties }) ∧
    h s = none ∧ m'.next = w.memory.next + Layout.structureSize ∧
    m'.Houses limit (h.set s (.description ⟨type, indexing, flags, prototype, properties⟩)) := by
  obtain ⟨s, m₁, halloc, hnone, hnext, hm₁⟩ := hm.runs_alloc_zeros (n := Layout.structureSize) hroom
  let w₁ : World := { w with nextStructure := w.nextStructure + 1 }
  have harea : m₁.Area s 16 := hm₁.area Heap.set_self
  obtain ⟨m₂, hrun₂, hl₂⟩ := harea.laid.runs_store (o := Layout.structureId)
    (n := 4) w.nextStructure.toNat_lt (by decide) (by simp +decide)
  obtain ⟨m₃, hrun₃, hl₃⟩ := hl₂.runs_store (o := Layout.structureCellType)
    (n := 1) type.code.toNat_lt (by decide) (by simp +decide)
  obtain ⟨m₄, hrun₄, hl₄⟩ := hl₃.runs_store (o := Layout.structureIndexing)
    (n := 1) indexing.toNat_lt (by decide) (by simp +decide)
  obtain ⟨m₅, hrun₅, hl₅⟩ := hl₄.runs_store (o := Layout.structureFlags)
    (n := 1) flags.toNat_lt (by decide) (by simp +decide)
  obtain ⟨m₆, hrun₆, hl₆⟩ := hl₅.runs_store (o := Layout.structurePrototype)
    (n := 8) prototype.bits.toNat_lt (by decide) (by simp +decide)
  refine ⟨s, m₆, ?_, hnone, hl₆.within.next.trans hnext, ?_⟩
  · have hnumber : runs (modifyGet fun w : World => (w.nextStructure,
        { w with nextStructure := w.nextStructure + 1 })) (w.withMemory m₁) =
          (.ok w.nextStructure, w₁.withMemory m₁) := rfl
    rw [newStructure, runs_bind_of_ok halloc, runs_bind_of_ok hnumber]
    simp only [write32, write8, writeValue, write64]
    rw [runs_bind_of_ok (hrun₂ w₁), runs_bind_of_ok (hrun₃ w₁), runs_bind_of_ok (hrun₄ w₁),
      runs_bind_of_ok (hrun₅ w₁), runs_bind_of_ok (hrun₆ w₁), runs_bind_of_ok (runs_modify _)]
    exact runs_pure _
  · have hchange := hm₁.change Heap.set_self hl₆.within
      (j := .description ⟨type, indexing, flags, prototype, properties⟩)
      ⟨hl₆.read (by simp), hl₆.read (by simp), hl₆.read (by simp), hl₆.read (by simp)⟩ rfl
    rwa [Heap.set_set] at hchange

lemma runs_newCell (hm : w.memory.Houses limit h) (hroom : w.memory.next + Layout.cellSize ≤ limit)
    (s : UInt64) : ∃ c m', runs (newCell s) w = (.ok c, w.withMemory m') ∧
    h c = none ∧ m'.next = w.memory.next + Layout.cellSize ∧
    m'.Houses limit (h.set c (.cell ⟨s, 0, 0, fun _ => .empty⟩)) := by
  obtain ⟨c, m₁, halloc, hnone, hnext, hm₁⟩ :=
    hm.runs_alloc (n := Layout.cellSize) hroom Item.blank_cell rfl
  have hcell : (h.set c (.cell ⟨0, 0, 0, fun _ => .empty⟩)).cell? c =
      some ⟨0, 0, 0, fun _ => .empty⟩ := Heap.cell?_eq_some.mpr Heap.set_self
  obtain ⟨m₃, hrun, hm₃, hnext₃⟩ := Houses.runs_setField (w := w.withMemory m₁) (v := ⟨c⟩) hm₁ hcell
    (f := .kind) trivial s.toNat_lt (z := ⟨s, 0, 0, fun _ => .empty⟩) rfl
    fun g hg => by cases g <;> trivial
  refine ⟨c, m₃, ?_, hnone, hnext₃.trans hnext, ?_⟩
  · have hwrite : runs (write64 (c + UInt64.ofNat Layout.cellStructure) s) (w.withMemory m₁) =
        (.ok (), w.withMemory m₃) := hrun
    rw [newCell, runs_bind_of_ok halloc, runs_bind_of_ok hwrite]
    exact runs_pure _
  · rwa [Heap.set_set] at hm₃

end Memory.Houses

end Speculation
