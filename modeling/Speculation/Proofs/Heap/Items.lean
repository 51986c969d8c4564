import Speculation.Proofs.World.Pages
import Mathlib.Logic.Function.Basic

/-!
What the heap consists of.

A heap is a map from addresses to what was allocated there: structures, cells, the elements of
arrays, and plain words. `Memory.Houses` says that a heap is in memory, where no two items overlap.
The memory then changes in two ways only: an item is allocated behind all others, or a word within
one item is overwritten; both are changes of the map at one address.
-/

namespace Speculation

structure Structure where
  type : CellType
  indexing : UInt8
  flags : UInt8
  prototype : Value
  /-- The names of the own properties, in slot order. -/
  properties : List String
deriving DecidableEq

structure Cell where
  /-- The address of its structure. -/
  kind : UInt64
  storage : UInt64
  length : UInt32
  /-- The values of the own properties; there are as many as fit in. -/
  slots : Nat → Value

namespace Cell

inductive Field where
  | kind | storage | length | slot (k : Nat)

namespace Field

def offset : Field → Nat
  | kind => Layout.cellStructure
  | storage => Layout.cellStorage
  | length => Layout.cellLength
  | slot k => Layout.inlineStorage + 8 * k

def size : Field → Nat
  | length => 4
  | _ => 8

def Fits : Field → Prop
  | slot k => k < Layout.inlineCapacity
  | _ => True

lemma le_cellSize {f : Field} (hf : f.Fits) : f.offset + f.size ≤ Layout.cellSize := by
  cases f with
  | slot k =>
    simp only [Fits, Layout.inlineCapacity] at hf
    simp only [offset, size, Layout.inlineStorage, Layout.cellSize]
    omega
  | _ => decide

lemma apart {f g : Field} (hne : g ≠ f) : f.offset + f.size ≤ g.offset ∨ g.offset + g.size ≤ f.offset := by
  cases f <;> cases g <;> simp_all only [ne_eq, not_true, offset, size, slot.injEq,
    Layout.cellStructure, Layout.cellStorage, Layout.cellLength, Layout.inlineStorage] <;> omega

end Field

def get (x : Cell) : Field → Nat
  | .kind => x.kind.toNat
  | .storage => x.storage.toNat
  | .length => x.length.toNat
  | .slot k => (x.slots k).bits.toNat

end Cell

inductive Item where
  | description (d : Structure)
  | cell (x : Cell)
  /-- The elements of an array, with their number in front of them twice. -/
  | elements (ws : List UInt64)
  /-- Words of some size. -/
  | words (size : Nat) (ws : List Nat)

abbrev Heap := UInt64 → Option Item

namespace Memory

variable {m m' m'' : Memory} {a b c : UInt64} {n k x : Nat}

/-- A word was written, and nothing else has changed. -/
structure Stored (m : Memory) (a : UInt64) (n x : Nat) (m' : Memory) : Prop where
  mapped {b : UInt64} {k : Nat} (h : m.Mapped b k) : m'.Mapped b k
  same {b : UInt64} (h : b.toNat < a.toNat ∨ a.toNat + n ≤ b.toNat) : m'.byte? b = m.byte? b
  next : m'.next = m.next
  pages (b : UInt64) : m'.isMapped b = m.isMapped b
  read : m'.read? n a = some x

structure Within (a : UInt64) (n : Nat) (m m' : Memory) : Prop where
  mapped {b : UInt64} {k : Nat} (h : m.Mapped b k) : m'.Mapped b k
  same {b : UInt64} (h : b.toNat < a.toNat ∨ a.toNat + n ≤ b.toNat) : m'.byte? b = m.byte? b
  next : m'.next = m.next
  pages (b : UInt64) : m'.isMapped b = m.isMapped b

lemma Within.refl (a : UInt64) (n : Nat) (m : Memory) : Within a n m m :=
  ⟨fun h => h, fun _ => rfl, rfl, fun _ => rfl⟩

lemma Within.trans (h : Within a n m m') (h' : Within a n m' m'') : Within a n m m'' :=
  ⟨fun hb => h'.mapped (h.mapped hb), fun hb => (h'.same hb).trans (h.same hb),
    h'.next.trans h.next, fun b => (h'.pages b).trans (h.pages b)⟩

lemma Within.read? (h : Within a n m m') (hlt : b.toNat + k ≤ UInt64.size) (hb : Apart b k a n) :
    m'.read? k b = m.read? k b := by
  refine read?_of_same fun j hj => h.same ?_
  rw [toNat_add_ofNat (by omega)]
  rcases hb with hb | hb
  · exact .inl (by omega)
  · exact .inr (by omega)

lemma Stored.other (h : m.Stored a n x m') (hlt : b.toNat + k ≤ UInt64.size)
    (hb : Apart b k a n) : m'.read? k b = m.read? k b :=
  Within.read? ⟨h.mapped, h.same, h.next, h.pages⟩ hlt hb

lemma Stored.within (h : m.Stored b k x m') (hab : a.toNat ≤ b.toNat)
    (hba : b.toNat + k ≤ a.toNat + n) : Within a n m m' :=
  ⟨h.mapped, fun hc => h.same (by omega), h.next, h.pages⟩

lemma isMapped_setByte (m : Memory) (a b : UInt64) (x : UInt8) :
    (m.setByte a x).isMapped b = m.isMapped b := Std.TreeMap.contains_modify

lemma isMapped_writeBytes (m : Memory) (a b : UInt64) (bs : List UInt8) :
    (m.writeBytes a bs).2.isMapped b = m.isMapped b := by
  induction bs generalizing m a with
  | nil => rfl
  | cons x bs ih =>
    rw [writeBytes]
    split
    · exact (ih _ _).trans (isMapped_setByte _ _ _ _)
    · rfl

lemma stored_write_mod (h : m.Mapped a n) (hlt : a.toNat + n ≤ UInt64.size) :
    m.Stored a n (x % 256 ^ n) (m.write n a x).2 where
  mapped hb := hb.write h hlt
  same hb := (writeBytes_spec (by simpa using h) (by simpa using hlt)).2.2.1 _ (by simpa using hb)
  next := next_writeBytes _ _ _
  pages b := isMapped_writeBytes _ _ _ _
  read := read?_write_self h hlt

lemma stored_write (h : m.Mapped a n) (hlt : a.toNat + n ≤ UInt64.size) (hx : x < 256 ^ n) :
    m.Stored a n x (m.write n a x).2 := by
  have hst := stored_write_mod (x := x) h hlt
  rwa [Nat.mod_eq_of_lt hx] at hst

lemma Mapped.part (h : m.Mapped a n) {o : Nat} (ho : o + k ≤ n) :
    m.Mapped (a + UInt64.ofNat o) k := by
  refine Mapped.of_add (k := n - (o + k)) ?_
  refine Mapped.shift ?_
  rwa [show o + (k + (n - (o + k))) = n by omega]

end Memory

namespace Item

open Memory

variable {i j : Item} {m m' : Memory} {a b : UInt64} {n k : Nat}

def extent : Item → Nat
  | description _ => Layout.structureSize
  | cell _ => Layout.cellSize
  | elements ws => 8 + 8 * ws.length
  | words size ws => roundUp (size * ws.length)

def At (m : Memory) (a : UInt64) : Item → Prop
  | description d =>
    m.read? 1 (a + UInt64.ofNat Layout.structureCellType) = some d.type.code.toNat ∧
    m.read? 1 (a + UInt64.ofNat Layout.structureIndexing) = some d.indexing.toNat ∧
    m.read? 1 (a + UInt64.ofNat Layout.structureFlags) = some d.flags.toNat ∧
    m.read? 8 (a + UInt64.ofNat Layout.structurePrototype) = some d.prototype.bits.toNat
  | cell x => ∀ f : Cell.Field, f.Fits → m.read? f.size (a + UInt64.ofNat f.offset) = some (x.get f)
  | elements ws =>
    ws.length < 4294967296 ∧ m.read? 4 a = some ws.length ∧
      m.read? 4 (a + UInt64.ofNat 4) = some ws.length ∧
      ∀ k x, ws[k]? = some x → m.read? 8 (a + UInt64.ofNat (8 + 8 * k)) = some x.toNat
  | words size ws => ∀ k x, ws[k]? = some x → m.read? size (a + UInt64.ofNat (size * k)) = some x

lemma extent_pos (i : Item) : 0 < i.extent := by
  cases i <;> simp only [extent, roundUp, Layout.structureSize, Layout.cellSize] <;> omega

lemma le_roundUp (n : Nat) : n ≤ roundUp n := by
  unfold roundUp
  omega

/-- An item depends on its own bytes only. -/
lemma At.congr (h : i.At m a) (hlt : a.toNat + i.extent < UInt64.size)
    (hsame : ∀ b : UInt64, a.toNat ≤ b.toNat → b.toNat < a.toNat + i.extent →
      m'.byte? b = m.byte? b) : i.At m' a := by
  have hread : ∀ {o n : Nat}, o + n ≤ i.extent →
      m'.read? n (a + UInt64.ofNat o) = m.read? n (a + UInt64.ofNat o) := by
    intro o n ho
    have ha : (a + UInt64.ofNat o).toNat = a.toNat + o := toNat_add_ofNat (by omega)
    refine read?_of_same fun k hk => ?_
    have hk' : (a + UInt64.ofNat o + UInt64.ofNat k).toNat = a.toNat + o + k := by
      rw [toNat_add_ofNat (by omega), ha]
    exact hsame _ (by omega) (by omega)
  cases i with
  | description d =>
    obtain ⟨h₁, h₂, h₃, h₄⟩ := h
    simp only [extent] at hread
    refine ⟨?_, ?_, ?_, ?_⟩
    · rwa [hread (by decide)]
    · rwa [hread (by decide)]
    · rwa [hread (by decide)]
    · rwa [hread (by decide)]
  | cell x =>
    intro f hf
    rw [hread (Cell.Field.le_cellSize hf)]
    exact h f hf
  | elements ws =>
    obtain ⟨hlen, h₁, h₂, h₃⟩ := h
    have hzero : a + UInt64.ofNat 0 = a := UInt64.add_zero a
    refine ⟨hlen, ?_, ?_, fun k x hk => ?_⟩
    · rwa [← hzero, hread (by simp only [extent]; omega), hzero]
    · rwa [hread (by simp only [extent]; omega)]
    · have hk' := (List.getElem?_eq_some_iff.mp hk).1
      rw [hread (by simp only [extent]; omega)]
      exact h₃ k x hk
  | words size ws =>
    intro k x hk
    have hk' := (List.getElem?_eq_some_iff.mp hk).1
    rw [hread]
    · exact h k x hk
    · have hle := le_roundUp (size * ws.length)
      have hmul : size * k + size ≤ size * ws.length := by
        rw [← Nat.mul_succ]
        exact Nat.mul_le_mul_left _ hk'
      exact hmul.trans hle

end Item

namespace Heap

variable {h h' h'' : Heap} {a b : UInt64} {i j : Item}

def set (h : Heap) (a : UInt64) (i : Item) : Heap := Function.update h a (some i)

@[simp] lemma set_self : h.set a i a = some i := Function.update_self ..

lemma set_of_ne (hab : b ≠ a) : h.set a i b = h b := Function.update_of_ne hab ..

@[simp] lemma set_set : (h.set a i).set a j = h.set a j := Function.update_idem ..

lemma set_eq (ha : h a = some i) : h.set a i = h := by
  rw [set, ← ha, Function.update_eq_self]

lemma set_comm (hab : a ≠ b) : (h.set a i).set b j = (h.set b j).set a i :=
  Function.update_comm hab ..

def structure? (h : Heap) (a : UInt64) : Option Structure :=
  match h a with
  | some (.description d) => some d
  | _ => none

def cell? (h : Heap) (a : UInt64) : Option Cell :=
  match h a with
  | some (.cell x) => some x
  | _ => none

lemma structure?_eq_some {d : Structure} : h.structure? a = some d ↔ h a = some (.description d) := by
  unfold structure?
  split
  · rename_i e he
    rw [he, Option.some.injEq, Option.some.injEq, Item.description.injEq]
  · rename_i hne
    exact ⟨nofun, fun he => absurd he (hne d)⟩

lemma cell?_eq_some {x : Cell} : h.cell? a = some x ↔ h a = some (.cell x) := by
  unfold cell?
  split
  · rename_i e he
    rw [he, Option.some.injEq, Option.some.injEq, Item.cell.injEq]
  · rename_i hne
    exact ⟨nofun, fun he => absurd he (hne x)⟩

lemma structure?_set_of_ne (hab : b ≠ a) : (h.set a i).structure? b = h.structure? b := by
  rw [structure?, set_of_ne hab, structure?]

/-- Items that are no structures do not matter to where the structures are. -/
lemma structure?_set (hi : ∀ d, i ≠ .description d) (ha : h.structure? a = none) :
    (h.set a i).structure? = h.structure? := by
  funext b
  by_cases hab : b = a
  · subst hab
    rw [ha, structure?, set_self]
    cases i with
    | description d => exact absurd rfl (hi d)
    | _ => rfl
  · exact structure?_set_of_ne hab

lemma structure?_setCell_of_none (ha : h a = none) :
    (h.set a (.cell x)).structure? = h.structure? :=
  structure?_set (fun _ => Item.noConfusion) (by rw [structure?, ha])

end Heap

namespace Memory

variable {m m' : Memory} {h : Heap} {limit : Nat} {a b : UInt64} {i j : Item} {n k o x : Nat}

/-- A heap is in memory, with nothing but zeros between its end and a limit. -/
structure Houses (m : Memory) (limit : Nat) (h : Heap) : Prop where
  item {a : UInt64} {i : Item} (ha : h a = some i) : i.At m a
  mapped {a : UInt64} {i : Item} (ha : h a = some i) : m.Mapped a i.extent
  low {a : UInt64} {i : Item} (ha : h a = some i) : heapBase ≤ a.toNat
  high {a : UInt64} {i : Item} (ha : h a = some i) : a.toNat + i.extent ≤ m.next
  aligned {a : UInt64} {i : Item} (ha : h a = some i) : a.toNat % 8 = 0
  apart {a b : UInt64} {i j : Item} (ha : h a = some i) (hb : h b = some j) (hab : a ≠ b) :
    Apart a i.extent b j.extent
  base : heapBase ≤ m.next
  next : m.next % 8 = 0
  room : m.next ≤ limit
  fresh {a : UInt64} (hle : m.next ≤ a.toNat) (hlt : a.toNat < limit) :
    m.isMapped a = false ∨ m.byte? a = some 0
  /-- Addresses are small enough for boxed values. -/
  bounded : limit ≤ 281474976710656

namespace Houses

lemma lt (hm : m.Houses limit h) (ha : h a = some i) : a.toNat + i.extent ≤ 281474976710656 :=
  ((hm.high ha).trans hm.room).trans hm.bounded

lemma toNat_add (hm : m.Houses limit h) (ha : h a = some i) (ho : o ≤ i.extent) :
    (a + UInt64.ofNat o).toNat = a.toNat + o := by
  have hlt := hm.lt ha
  have hsize : UInt64.size = 18446744073709551616 := rfl
  exact toNat_add_ofNat (by omega)

lemma change (hm : m.Houses limit h) (ha : h a = some i) (hw : Within a i.extent m m')
    (hat : j.At m' a) (hext : j.extent = i.extent) : m'.Houses limit (h.set a j) := by
  have hsize : UInt64.size = 18446744073709551616 := rfl
  have hself := hm.lt ha
  -- every item of the new heap has the extent that it had
  have hold : ∀ {b : UInt64} {k : Item}, h.set a j b = some k →
      ∃ k', h b = some k' ∧ k'.extent = k.extent ∧ (b ≠ a → k' = k) ∧ (b = a → k = j) := by
    intro b k hb
    by_cases hab : b = a
    · subst hab
      rw [Heap.set_self, Option.some.injEq] at hb
      subst hb
      exact ⟨i, ha, hext.symm, fun h => absurd rfl h, fun _ => rfl⟩
    · rw [Heap.set_of_ne hab] at hb
      exact ⟨k, hb, rfl, fun _ => rfl, fun h => absurd h hab⟩
  refine ⟨fun {b k} hb => ?_, fun {b k} hb => ?_, fun {b k} hb => ?_, fun {b k} hb => ?_,
    fun {b k} hb => ?_, fun {b c k l} hb hc hbc => ?_, ?_, ?_, ?_, fun {b} hle hlt => ?_, hm.bounded⟩
  · obtain ⟨k', hk', hlen, hne, heq⟩ := hold hb
    by_cases hab : b = a
    · subst hab
      rw [heq rfl]
      exact hat
    · obtain rfl := hne hab
      have hlt := hm.lt hk'
      refine (hm.item hk').congr (by omega) fun c hlo hhi => hw.same ?_
      have := hm.apart hk' ha hab
      unfold Apart at this
      omega
  · obtain ⟨k', hk', hlen, -⟩ := hold hb
    rw [← hlen]
    exact hw.mapped (hm.mapped hk')
  · obtain ⟨k', hk', -⟩ := hold hb
    exact hm.low hk'
  · obtain ⟨k', hk', hlen, -⟩ := hold hb
    rw [← hlen, hw.next]
    exact hm.high hk'
  · obtain ⟨k', hk', -⟩ := hold hb
    exact hm.aligned hk'
  · obtain ⟨k', hk', hlen, -⟩ := hold hb
    obtain ⟨l', hl', hlen', -⟩ := hold hc
    rw [← hlen, ← hlen']
    exact hm.apart hk' hl' hbc
  · rw [hw.next]
    exact hm.base
  · rw [hw.next]
    exact hm.next
  · rw [hw.next]
    exact hm.room
  · rw [hw.next] at hle
    rw [hw.same (.inr ((hm.high ha).trans hle)), hw.pages]
    exact hm.fresh hle hlt

end Houses

/-- Mapping anew does not reach other pages. -/
lemma isMapped_map {start : Nat} (hfits : start + n + pageSize ≤ UInt64.size) (b : UInt64) :
    (m.map start n).isMapped b = (m.isMapped b || decide (start / pageSize ≤ b.toNat / pageSize ∧
      b.toNat / pageSize < (start + n + pageSize - 1) / pageSize)) := by
  have hsize := pageSize_eq
  have hpage : (pageOf b).toNat = b.toNat / pageSize := UInt64.toNat_div _ _
  have hle : start / pageSize ≤ (start + n + pageSize - 1) / pageSize :=
    Nat.div_le_div_right (by omega)
  have hroom : start / pageSize + ((start + n + pageSize - 1) / pageSize -
      start / pageSize) ≤ UInt64.size := by
    have := Nat.div_le_self (start + n + pageSize - 1) pageSize
    omega
  unfold isMapped map
  dsimp only
  rw [Std.TreeMap.contains_eq_isSome_getElem?, getElem?_mapPages _ hroom, hpage,
    Nat.add_sub_cancel' hle, Option.isSome_or, ← Std.TreeMap.contains_eq_isSome_getElem?]
  congr 1
  split
  · rename_i hin
    simp [hin]
  · rename_i hout
    simp [hout]

lemma read?_zeros (hz : ∀ k, k < n → m.byte? (a + UInt64.ofNat k) = some 0) :
    m.read? n a = some 0 := by
  have hbytes : m.readBytes? a n = some (List.replicate n 0) := by
    induction n generalizing a with
    | zero => rfl
    | succ n ih =>
      have hhead := hz 0 (by omega)
      rw [show UInt64.ofNat 0 = 0 from rfl, UInt64.add_zero] at hhead
      rw [readBytes?, hhead, ih fun k hk => ?_]
      · rfl
      · rw [← add_ofNat_succ]
        exact hz (k + 1) (by omega)
  have hzero : ∀ n, Bytes.toNat (List.replicate n 0) = 0 := by
    intro n
    induction n with
    | zero => rfl
    | succ n ih => rw [List.replicate_succ, Bytes.toNat, ih]; rfl
  rw [read?, hbytes, Option.map_some, hzero]

end Memory

namespace Item

def Blank (i : Item) : Prop :=
  ∀ (m : Memory) (a : UInt64), a.toNat + i.extent < UInt64.size →
    (∀ b : UInt64, a.toNat ≤ b.toNat → b.toNat < a.toNat + i.extent → m.byte? b = some 0) → i.At m a

lemma read?_blank {m : Memory} {a : UInt64} {n o k : Nat} (hlt : a.toNat + n < UInt64.size)
    (hz : ∀ b : UInt64, a.toNat ≤ b.toNat → b.toNat < a.toNat + n → m.byte? b = some 0)
    (ho : o + k ≤ n) : m.read? k (a + UInt64.ofNat o) = some 0 := by
  have ha : (a + UInt64.ofNat o).toNat = a.toNat + o := Memory.toNat_add_ofNat (by omega)
  refine Memory.read?_zeros fun j hj => ?_
  have hb : (a + UInt64.ofNat o + UInt64.ofNat j).toNat = a.toNat + o + j := by
    rw [Memory.toNat_add_ofNat (by omega), ha]
  exact hz _ (by omega) (by omega)

lemma blank_words (size n : Nat) : (words size (List.replicate n 0)).Blank := by
  intro m a hlt hz k x hk
  obtain ⟨hkn, rfl⟩ : k < n ∧ 0 = x := by simpa [List.getElem?_replicate] using hk
  refine read?_blank hlt hz ?_
  rw [extent, List.length_replicate]
  exact (Nat.mul_le_mul_left size hkn).trans (Item.le_roundUp _)

/-- A cell without a structure. -/
lemma blank_cell : (cell ⟨0, 0, 0, fun _ => .empty⟩).Blank := by
  intro m a hlt hz f hf
  rw [read?_blank hlt hz (Cell.Field.le_cellSize hf)]
  cases f <;> rfl

end Item

def Item.zeros (n : Nat) : Item := .words 8 (List.replicate (Memory.roundUp n / 8) 0)

@[simp] lemma Item.extent_zeros (n : Nat) : (zeros n).extent = Memory.roundUp n := by
  simp only [zeros, extent, List.length_replicate, Memory.roundUp]
  omega

namespace Memory.Houses

variable {m : Memory} {h : Heap} {limit n : Nat} {i : Item}

/-- An allocation adds zeros to the heap, and so any item that consists of zeros. -/
lemma alloc (hm : m.Houses limit h) (hroom : m.next + roundUp n ≤ limit) (hblank : i.Blank)
    (hextent : i.extent = roundUp n) :
    h (m.alloc n).1 = none ∧ (m.alloc n).2.next = m.next + roundUp n ∧
      (m.alloc n).2.Houses limit (h.set (m.alloc n).1 i) := by
  have hbounded := hm.bounded
  have hpos : 0 < roundUp n := by unfold roundUp; omega
  have hround : roundUp n % 8 = 0 := by unfold roundUp; omega
  have hsize : UInt64.size = 18446744073709551616 := rfl
  have hpage := pageSize_eq
  have hfits : m.next + roundUp n + pageSize ≤ UInt64.size := by omega
  have ha : (m.alloc n).1.toNat = m.next := UInt64.toNat_ofNat_of_lt' (by omega)
  have hbyte : ∀ b, (m.alloc n).2.byte? b = (m.map m.next (roundUp n)).byte? b := fun _ => rfl
  have hmapped : ∀ {b : UInt64} {k : Nat}, m.Mapped b k → (m.alloc n).2.Mapped b k := by
    intro b k hb j hj
    rw [hbyte, byte?_map_of_isSome hfits (hb j hj)]
    exact hb j hj
  have hzero : ∀ b : UInt64, m.next ≤ b.toNat → b.toNat < m.next + roundUp n →
      (m.alloc n).2.byte? b = some 0 := by
    intro b hlo hhi
    rw [hbyte, byte?_map hfits]
    rcases hm.fresh hlo (by omega) with hno | hz
    · have hpages : m.next / pageSize ≤ b.toNat / pageSize ∧
          b.toNat / pageSize < (m.next + roundUp n + pageSize - 1) / pageSize := by
        rw [hpage]
        omega
      rw [hno, if_neg Bool.false_ne_true, if_pos hpages]
    · rw [if_pos (isMapped_of_byte? (by rw [hz]; rfl))]
      exact hz
  have hwords : (m.alloc n).2.Mapped (m.alloc n).1 (roundUp n) := by
    intro k hk
    have hk' : ((m.alloc n).1 + UInt64.ofNat k).toNat = m.next + k := by
      rw [toNat_add_ofNat (by omega), ha]
    rw [hzero _ (by omega) (by omega)]
    rfl
  have hnone : h (m.alloc n).1 = none := by
    rcases hi : h (m.alloc n).1 with _ | i
    · rfl
    · have := hm.high hi
      have := i.extent_pos
      omega
  have hne : ∀ {b : UInt64} {i : Item}, h b = some i → b ≠ (m.alloc n).1 := by
    rintro b i hb rfl
    rw [hnone] at hb
    cases hb
  have hold : ∀ {b : UInt64} {j : Item}, h.set (m.alloc n).1 i b = some j →
      (h b = some j ∧ b.toNat + j.extent ≤ m.next) ∨ (b = (m.alloc n).1 ∧ j = i) := by
    intro b j hb
    by_cases hab : b = (m.alloc n).1
    · subst hab
      rw [Heap.set_self, Option.some.injEq] at hb
      exact .inr ⟨rfl, hb.symm⟩
    · rw [Heap.set_of_ne hab] at hb
      exact .inl ⟨hb, hm.high hb⟩
  refine ⟨hnone, rfl, ⟨fun {b j} hb => ?_, fun {b j} hb => ?_, fun {b j} hb => ?_,
    fun {b j} hb => ?_, fun {b j} hb => ?_, fun {b c j k} hb hc hbc => ?_, ?_, ?_, hroom,
    fun {b} hle hlt => ?_, hbounded⟩⟩
  · rcases hold hb with ⟨hi, hhi⟩ | ⟨rfl, rfl⟩
    · refine (hm.item hi).congr (by omega) fun c hlo hc => ?_
      have hmem := hm.mapped hi (c.toNat - b.toNat) (by omega)
      have hc' : b + UInt64.ofNat (c.toNat - b.toNat) = c := by
        apply UInt64.toNat_inj.mp
        rw [toNat_add_ofNat (by omega)]
        omega
      rw [hc'] at hmem
      rw [hbyte, byte?_map_of_isSome hfits hmem]
    · exact hblank _ _ (by omega) fun c hlo hc => hzero c (by omega) (by omega)
  · rcases hold hb with ⟨hi, -⟩ | ⟨rfl, rfl⟩
    · exact hmapped (hm.mapped hi)
    · rw [hextent]
      exact hwords
  · rcases hold hb with ⟨hi, -⟩ | ⟨rfl, rfl⟩
    · exact hm.low hi
    · rw [ha]
      exact hm.base
  · show b.toNat + j.extent ≤ m.next + roundUp n
    rcases hold hb with ⟨hi, hhi⟩ | ⟨rfl, rfl⟩
    · omega
    · rw [hextent, ha]
  · rcases hold hb with ⟨hi, -⟩ | ⟨rfl, rfl⟩
    · exact hm.aligned hi
    · rw [ha]
      exact hm.next
  · unfold Apart
    rcases hold hb with ⟨hi, hhi⟩ | ⟨rfl, rfl⟩ <;> rcases hold hc with ⟨hj, hhj⟩ | ⟨rfl, rfl⟩
    · exact hm.apart hi hj hbc
    · omega
    · omega
    · exact absurd rfl hbc
  · have := hm.base
    show heapBase ≤ m.next + roundUp n
    omega
  · have := hm.next
    show (m.next + roundUp n) % 8 = 0
    omega
  · have hle : m.next + roundUp n ≤ b.toNat := hle
    rcases hm.fresh (a := b) (by omega) hlt with hno | hz
    · have hpages := isMapped_map (m := m) hfits b
      rw [hno, Bool.false_or] at hpages
      by_cases hin : m.next / pageSize ≤ b.toNat / pageSize ∧
          b.toNat / pageSize < (m.next + roundUp n + pageSize - 1) / pageSize
      · right
        rw [hbyte, byte?_map hfits, hno, if_neg Bool.false_ne_true, if_pos hin]
      · left
        rw [decide_eq_false hin] at hpages
        exact hpages
    · right
      rw [hbyte, byte?_map_of_isSome hfits (by rw [hz]; rfl)]
      exact hz

end Memory.Houses

end Speculation
