import Speculation.Proofs.Heap.Start
import Speculation.Proofs.Numbers

/-!
Converting the elements of an array.

Elements are read with the old encoding and written with the new one. A value survives that unless
the new encoding takes it for a hole, as that of doubles does with NaNs.
-/

namespace Speculation

namespace Value

/-- The values are the same to a program: they are identical, or the same number. -/
def Same (u v : Value) : Prop := u = v ∨ ∃ d, u.number? = some d ∧ v.number? = some d

lemma eq_empty_of_isEmpty {v : Value} (h : v.isEmpty = true) : v = .empty := by
  obtain ⟨bits⟩ := v
  exact congrArg mk (eq_of_beq h)

end Value

namespace ArrayShape

def into (shape : ArrayShape) (index : UInt8) : UInt8 :=
  (index &&& ~~~Indexing.shapeMask) ||| shape.indexing

lemma into_spec (shape : ArrayShape) (index : UInt8) :
    shape.into index &&& Indexing.shapeMask = shape.indexing ∧
      shape.into index &&& ~~~Indexing.shapeMask = index &&& ~~~Indexing.shapeMask := by
  have hall : ∀ n < 256, shape.into (UInt8.ofNat n) &&& Indexing.shapeMask = shape.indexing ∧
      shape.into (UInt8.ofNat n) &&& ~~~Indexing.shapeMask =
        UInt8.ofNat n &&& ~~~Indexing.shapeMask := by
    cases shape <;> decide +kernel
  simpa using hall index.toNat index.toNat_lt

lemma indexing_ne_none (shape : ArrayShape) : shape.indexing ≠ Indexing.none := by
  cases shape <;> decide

lemma into_shape (shape : ArrayShape) (index : UInt8) :
    shape.into index &&& Indexing.shapeMask ≠ Indexing.none :=
  (shape.into_spec index).1 ▸ shape.indexing_ne_none

/-- What was encoded reads as the same value. -/
lemma same_of_encode {shape : ArrayShape} {v : Value} {bits : UInt64} {index : UInt8}
    (hindex : index &&& Indexing.shapeMask = shape.indexing) (hbits : shape.encode? v = some bits)
    (hnan : shape = .contiguous ∨ ∀ d, v.number? = some d → d.isNaN = false) :
    Value.Same v (.ofElement index bits) := by
  unfold Value.ofElement
  rw [hindex]
  cases shape with
  | contiguous =>
    obtain rfl := Option.some.inj hbits
    exact .inl (if_neg (by decide)).symm
  | double =>
    rw [if_pos (show double.indexing = Indexing.double from rfl)]
    unfold encode? at hbits
    dsimp only at hbits
    split at hbits
    · rename_i hempty
      obtain rfl := Option.some.inj hbits
      exact .inl ((Value.eq_empty_of_isEmpty hempty).trans (if_pos (by decide)).symm)
    · obtain ⟨d, hd, rfl⟩ := Option.map_eq_some_iff.mp hbits
      have hd' := hnan.resolve_left nofun d hd
      rw [if_neg (by rw [hd']; exact Bool.false_ne_true)]
      exact .inr ⟨d, hd, Value.number?_ofNumber (Double.toNat_bits_lt hd')⟩

/-- All that are encoded read as the same values. -/
lemma same_of_encodes {shape : ArrayShape} {index : UInt8}
    (hindex : index &&& Indexing.shapeMask = shape.indexing) {vs : List Value} {bits : List UInt64}
    (hbits : vs.mapM shape.encode? = some bits)
    (hnan : shape = .contiguous ∨ ∀ v ∈ vs, ∀ d, v.number? = some d → d.isNaN = false) :
    List.Forall₂ Value.Same vs (bits.map (.ofElement index)) := by
  induction vs generalizing bits with
  | nil =>
    obtain rfl : [] = bits := by simpa using hbits
    exact .nil
  | cons v vs ih =>
    rw [List.mapM_cons] at hbits
    obtain ⟨b, hb, hrest⟩ := Option.bind_eq_some_iff.mp hbits
    obtain ⟨bs, hbs, heq⟩ := Option.bind_eq_some_iff.mp hrest
    obtain rfl : b :: bs = bits := Option.some.inj heq
    exact .cons (same_of_encode hindex hb (hnan.imp_right fun h => h v List.mem_cons_self))
      (ih hbs (hnan.imp_right fun h u hu => h u (List.mem_cons_of_mem _ hu)))

/-- Holes and numbers have an encoding in either shape. -/
lemma exists_encodes {shape : ArrayShape} {vs : List Value}
    (h : shape = .contiguous ∨ ∀ v ∈ vs, v.isEmpty = true ∨ v.isNumber = true) :
    ∃ bits, vs.mapM shape.encode? = some bits := by
  induction vs with
  | nil => exact ⟨[], by simp⟩
  | cons v vs ih =>
    obtain ⟨b, hb⟩ : ∃ b, shape.encode? v = some b := by
      cases shape with
      | contiguous => exact ⟨_, rfl⟩
      | double =>
        unfold encode?
        dsimp only
        rcases h.resolve_left nofun v List.mem_cons_self with hv | hv
        · exact ⟨_, if_pos hv⟩
        · split
          · exact ⟨_, rfl⟩
          · obtain ⟨d, hd⟩ := Value.exists_number? hv
            exact ⟨d.bits, by rw [hd]; rfl⟩
    obtain ⟨bs, hbs⟩ := ih (h.imp_right fun h u hu => h u (List.mem_cons_of_mem _ hu))
    exact ⟨b :: bs, by rw [List.mapM_cons, hb, hbs]; rfl⟩

end ArrayShape

def Snapshot.Fixed (s : Snapshot) (shape : ArrayShape) : Prop :=
  s.type ≠ .object ∨ s.flags &&& TypeFlag.interceptsIndexing ≠ 0 ∨
    shape = .double ∧ ∃ v ∈ s.contents, v.isEmpty = false ∧ v.isNumber = false

namespace World

variable {w w₁ w' : World} {h h₁ h' : Heap} {limit k n : Nat} {b : UInt64} {v : Value} {x : Cell}
  {d : Structure} {shape : ArrayShape} {ws us : List UInt64}

/-- What remains to be done for an object with this indexing byte, if it may be converted. -/
def convert (v : Value) (shape : ArrayShape) (index : UInt8) : Run UInt8 := do
  let current := index &&& Indexing.shapeMask
  if current = shape.indexing then return index
  let target := shape.into index
  if current = Indexing.none then
    setStorage v (← newElements 0)
    setIndexing v target
    return target
  let elements ← arrayElements v 0 (← arrayLength v).toNat
  if shape = .double && elements.any fun e => !e.isEmpty && !e.isNumber then return index
  writeElements shape (← storage v) elements
  setIndexing v target
  return target

variable (shape) in
/-- Other cells, and objects that intercept indexing, are left alone. -/
lemma Houses.runs_ensureShape (hw : w.Houses limit h) (hv : h.cell? v.bits = some x)
    (hs : h.structure? x.kind = some d) : runs (ensureShape v shape) w =
      if d.type ≠ .object then (.ok Indexing.none, w)
      else if d.flags &&& TypeFlag.interceptsIndexing ≠ 0 then (.ok d.indexing, w)
      else runs (convert v shape d.indexing) w := by
  unfold ensureShape
  rw [if_pos (hw.memory.isCell hv), runs_bind_of_ok (hw.memory.runs_cellType hv hs)]
  by_cases htype : d.type = .object
  · rw [if_pos htype, if_neg (not_not.mpr htype), runs_bind_of_ok (hw.memory.runs_indexing hv hs),
      runs_bind_of_ok (hw.memory.runs_flags hv hs)]
    split <;> rfl
  · rw [if_neg htype, if_pos htype]
    rfl

lemma runs_convert_same (h : d.indexing &&& Indexing.shapeMask = shape.indexing) :
    runs (convert v shape d.indexing) w = (.ok d.indexing, w) := by
  unfold convert
  dsimp only
  rw [if_pos h]
  rfl

namespace Sound

variable (hw : w.Sound limit h) (hs : h.structure? x.kind = some d)
include hw hs

/-- The elements of an object were replaced, and now its indexing byte is. -/
lemma runs_setIndexing {index : UInt8} (htype : d.type = .object)
    (hindex : index &&& Indexing.shapeMask ≠ Indexing.none) (ht : h.Touches v.bits h₁)
    (hh : w₁.Houses limit h₁) (hz : h₁.cell? v.bits = some { x with storage := b })
    (hb : b = 0 ∧ us = [] ∨ ∃ a, b = a + 8 ∧ h₁ a = some (.elements us) ∧ (h.Owns v.bits a ∨ h a = none))
    (hgrows : w.Grows n w₁) (hkeeps : w.Keeps w₁)
    (hroom : w.memory.next + (n + Layout.structureSize) ≤ limit) :
    ∃ w' h' y, runs (setIndexing v index) w₁ = (.ok (), w') ∧
      w.Changes limit h (n + Layout.structureSize) v.bits w' h' y { d with indexing := index } ∧
      y.slots = x.slots ∧ y.storage = b ∧ w.Keeps w' ∧
      h'.contents { d with indexing := index } y = us.map (.ofElement index) := by
  have hnext := hgrows.next
  obtain ⟨t, w', h₂, hrun, hg, hh', hkind, hgrows', hkeeps'⟩ :=
    hh.runs_setIndexing hz (ht.structure? hs) (by omega) index
  let y : Cell := { x with kind := t, storage := b }
  have ht' : h.Touches v.bits (h₂.set v.bits (.cell y)) := {
    cell := ht.cell
    keeps := fun ha hav hno => by rw [Heap.set_of_ne hav, hg.keeps (ht.keeps ha hav hno)]
    cells := fun ha hav => ht.cells (hg.cells (by rwa [Heap.set_of_ne hav] at ha)) hav }
  have hself : (h₂.set v.bits (.cell y)).cell? v.bits = some y := Heap.cell?_eq_some.mpr Heap.set_self
  have hkind' : (h₂.set v.bits (.cell y)).structure? y.kind = some { d with indexing := index } := by
    rwa [Heap.structure?_setCell (hg.cell? hz)]
  have hitem : ∀ {a}, h₁ a = some (.elements us) → h₂.set v.bits (.cell y) a = some (.elements us) := by
    intro a ha
    rw [Heap.set_of_ne, hg.keeps ha]
    rintro rfl
    rw [Heap.cell?_eq_some, ha] at hz
    cases hz
  have hstored : (h₂.set v.bits (.cell y)).Stored { d with indexing := index } y := by
    unfold Heap.Stored
    rw [htype]
    rcases hb with ⟨rfl, -⟩ | ⟨a, rfl, ha, -⟩
    · exact .inl rfl
    · exact .inr ⟨hindex, a, us, hitem ha, rfl⟩
  have hformed := ht'.formed hw.formed hself hkind' (fun hne => absurd htype hne) hstored (by
    rintro c ⟨z, f, hz', -, -, hne, hzc⟩
    obtain rfl : y = z := Option.some.inj (hself.symm.trans hz')
    rcases hb with ⟨rfl, -⟩ | ⟨a, rfl, ha, hown⟩
    · exact absurd rfl hne
    · obtain rfl : a = c := (UInt64.add_left_inj 8).mp hzc
      exact hown)
  refine ⟨w', _, y, hrun, ⟨⟨hh', hformed⟩, ht', hgrows.trans hgrows', hself, hkind'⟩, rfl, rfl,
    hkeeps.trans hkeeps', ?_⟩
  unfold Heap.contents
  rw [htype]
  dsimp only
  rcases hb with ⟨rfl, rfl⟩ | ⟨a, rfl, ha, -⟩
  · rw [Heap.elementsAt_zero]
  · have hne := hh'.memory.storage_ne_zero (x := y) (hitem ha) rfl
    rw [Heap.elementsAt, UInt64.add_sub_cancel, hitem ha]
    dsimp only
    rw [if_neg hne]

variable (hv : h.cell? v.bits = some x)
include hv

variable (shape) in
/-- An object without elements gets storage for none. -/
lemma runs_convert_bare (htype : d.type = .object)
    (hshape : d.indexing &&& Indexing.shapeMask = Indexing.none)
    (hroom : w.memory.next + (8 + Layout.structureSize) ≤ limit) :
    ∃ w' h' y, runs (convert v shape d.indexing) w = (.ok (shape.into d.indexing), w') ∧
      w.Changes limit h (8 + Layout.structureSize) v.bits w' h' y
        { d with indexing := shape.into d.indexing } ∧ y.slots = x.slots ∧ y.storage ≠ 0 ∧ w.Keeps w' ∧
      h.contents d x = [] ∧ h'.contents { d with indexing := shape.into d.indexing } y = [] := by
  obtain ⟨a, m₁, hrun₁, ha, hnext₁, hm₁⟩ :=
    hw.houses.memory.runs_newElements (n := 0) (by decide) (by omega)
  rw [List.replicate_zero] at hm₁
  have hva : v.bits ≠ a := by
    rintro rfl
    rw [Heap.cell?_eq_some, ha] at hv
    cases hv
  have hv₁ : (h.set a (.elements [])).cell? v.bits = some x := by
    rwa [Heap.cell?_eq_some, Heap.set_of_ne hva, ← Heap.cell?_eq_some]
  have hg : h.Gains (h.set a (.elements [])) := Heap.gains_set ha nofun
  obtain ⟨m₂, hrun₂, hm₂, hnext₂⟩ :=
    Memory.Houses.runs_setStorage (w := w.withMemory m₁) hm₁ hv₁ (a + 8)
  have hh : (w.withMemory m₂).Houses limit _ := hw.houses.withMemory hm₂ (by
    rw [Heap.structure?_setCell hv₁]
    exact Heap.structure?_set nofun (by rw [Heap.structure?, ha]))
  have hnext₂' : m₂.next = m₁.next := hnext₂
  obtain ⟨w', h', y, hrun₃, hchanges, hslots, hstorage, hkeeps, hcontents⟩ :=
    hw.runs_setIndexing hs (n := 8) htype (shape.into_shape d.indexing) (hg.touches (.inr ⟨x, hv⟩)) hh
      (Heap.cell?_eq_some.mpr Heap.set_self)
      (.inr ⟨a, rfl, (Heap.set_of_ne hva.symm).trans Heap.set_self, .inr ha⟩) (grows_of_same rfl (by show m₂.next ≤ _; omega)) ((Keeps.refl w).withMemory m₂) hroom
  have hne : a + 8 ≠ 0 := Memory.Houses.storage_ne_zero (w := w.withMemory m₁)
    (x := { x with storage := a + 8 }) hm₁ Heap.set_self rfl
  refine ⟨w', h', y, ?_, hchanges, hslots, hstorage ▸ hne, hkeeps, ?_, hcontents⟩
  · unfold convert
    dsimp only
    rw [hshape, if_neg shape.indexing_ne_none.symm, if_pos rfl, runs_bind_of_ok hrun₁,
      runs_bind_of_ok hrun₂]
    exact (runs_bind_of_ok hrun₃).trans rfl
  · have hst := hw.formed.stored hv hs
    unfold Heap.Stored at hst
    unfold Heap.contents
    rw [htype] at hst ⊢
    rcases hst with hzero | ⟨hne, -⟩
    · dsimp only
      rw [hzero, Heap.elementsAt_zero, List.map_nil]
    · exact absurd hshape hne

lemma runs_writeContents (htype : d.type = .object) {vs : List Value} {bits : List UInt64}
    (hlen : vs.length = (h.contents d x).length) (hbits : vs.mapM shape.encode? = some bits) :
    ∃ m h', runs (writeElements shape x.storage vs) w = (.ok (), w.withMemory m) ∧
      (w.withMemory m).Houses limit h' ∧ m.next = w.memory.next ∧ h.Touches v.bits h' ∧
      h'.cell? v.bits = some x ∧ (x.storage = 0 ∧ bits = [] ∨ ∃ a, x.storage = a + 8 ∧
        h' a = some (.elements bits) ∧ (h.Owns v.bits a ∨ h a = none)) := by
  have hst := hw.formed.stored hv hs
  unfold Heap.Stored at hst
  unfold Heap.contents at hlen
  rw [htype] at hst hlen
  rcases hst with hzero | ⟨-, a, ws, ha, hx⟩
  · rw [hzero, Heap.elementsAt_zero, List.map_nil] at hlen
    obtain rfl := List.length_eq_zero_iff.mp hlen
    obtain rfl : [] = bits := by simpa using hbits
    exact ⟨w.memory, h, rfl, hw.houses, rfl, ⟨.inr ⟨x, hv⟩, fun ha _ _ => ha, fun ha _ => ha⟩, hv,
      .inl ⟨hzero, rfl⟩⟩
  · have hne := hw.houses.memory.storage_ne_zero ha hx
    have hat : h.elementsAt x.storage = ws := by
      rw [Heap.elementsAt, hx, UInt64.add_sub_cancel, ha]
      exact if_neg (hx ▸ hne)
    have hown : h.Owns v.bits a := ⟨x, d, hv, hs, htype, hne, hx⟩
    have hav : a ≠ v.bits := by
      rintro rfl
      rw [Heap.cell?_eq_some, ha] at hv
      cases hv
    obtain ⟨r, m, us, hrun, hm, hnext, -, hok, -⟩ := hw.houses.memory.runs_writeElements ha shape vs
      (k := 0) (by rw [hlen, List.length_map, hat, Nat.zero_add])
    obtain ⟨rfl, rfl⟩ := hok bits hbits
    refine ⟨m, _, hx ▸ hrun, hw.houses.withMemory hm (Heap.structure?_set (fun _ => Item.noConfusion) (by
      rw [Heap.structure?, ha])), hnext, ⟨.inr ⟨x, hv⟩, fun {b i} hb hbv hno => ?_,
      fun {b y} hb hbv => ?_⟩, ?_, .inr ⟨a, hx, Heap.set_self, .inl hown⟩⟩
    · rw [Heap.set_of_ne]
      · exact hb
      · rintro rfl
        rw [ha, Option.some.injEq] at hb
        exact hno ws hb.symm hown
    · rw [Heap.set_of_ne] at hb
      · exact hb
      · rintro rfl
        rw [Heap.set_self] at hb
        cases hb
    · rwa [Heap.cell?_eq_some, Heap.set_of_ne hav.symm, ← Heap.cell?_eq_some]

lemma runs_convert_elements (htype : d.type = .object)
    (hshape : d.indexing &&& Indexing.shapeMask ≠ shape.indexing)
    (hany : d.indexing &&& Indexing.shapeMask ≠ Indexing.none) :
    runs (convert v shape d.indexing) w =
      if shape = .double && (h.contents d x).any fun e => !e.isEmpty && !e.isNumber then
        (.ok d.indexing, w)
      else runs (do
        writeElements shape (← storage v) (h.contents d x)
        setIndexing v (shape.into d.indexing)
        return shape.into d.indexing) w := by
  have hread := hw.houses.memory.runs_elements hv hs (hw.formed.stored hv hs) htype
  have hcontents : h.contents d x =
      (h.elementsAt x.storage).map (Value.ofElement d.indexing) := by
    unfold Heap.contents
    rw [htype]
  rw [← hcontents] at hread
  unfold convert
  dsimp only
  rw [if_neg hshape, if_neg hany, ← bind_assoc, runs_bind_of_ok hread]
  split <;> rfl

variable (shape) in
/-- The elements of an object are read, and written with the other encoding. -/
lemma runs_convert (htype : d.type = .object)
    (hshape : d.indexing &&& Indexing.shapeMask ≠ shape.indexing)
    (hany : d.indexing &&& Indexing.shapeMask ≠ Indexing.none)
    (hnumbers : shape = .contiguous ∨ ∀ e ∈ h.contents d x, e.isEmpty = true ∨ e.isNumber = true)
    (hroom : w.memory.next + (8 + Layout.structureSize) ≤ limit) :
    ∃ w' h' y bits, runs (convert v shape d.indexing) w = (.ok (shape.into d.indexing), w') ∧
      w.Changes limit h (8 + Layout.structureSize) v.bits w' h' y
        { d with indexing := shape.into d.indexing } ∧ y.slots = x.slots ∧ y.storage = x.storage ∧
      w.Keeps w' ∧ (h.contents d x).mapM shape.encode? = some bits ∧
      h'.contents { d with indexing := shape.into d.indexing } y =
        bits.map (.ofElement (shape.into d.indexing)) := by
  obtain ⟨bits, hbits⟩ := ArrayShape.exists_encodes hnumbers
  obtain ⟨m₁, h₁, hrun₁, hh₁, hnext₁, ht₁, hv₁, hb⟩ := hw.runs_writeContents hs hv htype rfl hbits
  obtain ⟨w', h', y, hrun₂, hchanges, hslots, hstorage, hkeeps, hafter⟩ :=
    hw.runs_setIndexing hs (n := 8) (b := x.storage) htype (shape.into_shape d.indexing) ht₁ hh₁ hv₁ hb
      (grows_of_same rfl (by show m₁.next ≤ _; omega)) ((Keeps.refl w).withMemory m₁) hroom
  refine ⟨w', h', y, bits, ?_, hchanges, hslots, hstorage, hkeeps, hbits, hafter⟩
  have hwritable : ¬(decide (shape = .double) &&
      (h.contents d x).any fun e => !e.isEmpty && !e.isNumber) = true := by
    rw [Bool.and_eq_true, decide_eq_true_eq, List.any_eq_true]
    rintro ⟨rfl, e, he, hbad⟩
    rw [Bool.and_eq_true, Bool.not_eq_true', Bool.not_eq_true'] at hbad
    rcases hnumbers.resolve_left nofun e he with hyes | hyes
    · exact absurd hyes (by rw [hbad.1]; exact Bool.false_ne_true)
    · exact absurd hyes (by rw [hbad.2]; exact Bool.false_ne_true)
  rw [hw.runs_convert_elements hs hv htype hshape hany, if_neg hwritable,
    runs_bind_of_ok (hw.houses.memory.runs_storage hv), runs_bind_of_ok hrun₁, runs_bind_of_ok hrun₂]
  rfl

variable (shape) in
/-- **Conversion.** A cell either stays as it is, for a reason, or it is an object that has the shape
then, and all else that it had, but for NaNs that are holes to an array of doubles. No other cell
changes, and nothing is left to be done. -/
lemma runs_ensureShape (hroom : w.memory.next + (8 + Layout.structureSize) ≤ limit) :
    ∃ index w' h' y e, runs (ensureShape v shape) w = (.ok index, w') ∧
      w.Changes limit h (8 + Layout.structureSize) v.bits w' h' y e ∧ w.Keeps w' ∧
      runs (ensureShape v shape) w' = (.ok index, w') ∧
      ((h.snapshot d x).Fixed shape ∧ index = d.indexing ∧ w' = w ∧ h' = h ∧ y = x ∧ e = d ∨
        index &&& Indexing.shapeMask = shape.indexing ∧
        index &&& ~~~Indexing.shapeMask = d.indexing &&& ~~~Indexing.shapeMask ∧
        e = { d with indexing := index } ∧ y.slots = x.slots ∧ (x.Stocked d → y.Stocked e) ∧
        ((shape = .contiguous ∨
          ∀ u ∈ h.contents d x, ∀ z, u.number? = some z → z.isNaN = false) →
          List.Forall₂ Value.Same (h.contents d x) (h'.contents e y))) := by
  have hsame : w.Changes limit h (8 + Layout.structureSize) v.bits w h x d :=
    ⟨hw, ⟨.inr ⟨x, hv⟩, fun ha _ _ => ha, fun ha _ => ha⟩, (Grows.refl w).mono (Nat.zero_le _), hv, hs⟩
  have hstart := hw.houses.runs_ensureShape shape hv hs
  by_cases htype : d.type = .object
  swap
  · have hnone : d.indexing = Indexing.none := by
      obtain ⟨d', hd', hi, -⟩ := hw.formed.kind hv
      obtain rfl : d' = d := Option.some.inj (hd'.symm.trans hs)
      exact hi htype
    rw [if_pos htype, ← hnone] at hstart
    exact ⟨_, w, h, x, d, hstart, hsame, .refl w, hstart, .inl ⟨.inl htype, rfl, rfl, rfl, rfl, rfl⟩⟩
  rw [if_neg (not_not.mpr htype)] at hstart
  by_cases hflags : d.flags &&& TypeFlag.interceptsIndexing ≠ 0
  · rw [if_pos hflags] at hstart
    exact ⟨_, w, h, x, d, hstart, hsame, .refl w, hstart,
      .inl ⟨.inr (.inl hflags), rfl, rfl, rfl, rfl, rfl⟩⟩
  rw [if_neg hflags] at hstart
  by_cases hshape : d.indexing &&& Indexing.shapeMask = shape.indexing
  · rw [runs_convert_same hshape] at hstart
    exact ⟨_, w, h, x, d, hstart, hsame, .refl w, hstart,
      .inr ⟨hshape, rfl, rfl, rfl, id, fun _ => List.forall₂_same.mpr fun u _ => .inl rfl⟩⟩
  -- after a conversion there is nothing left to convert
  have hagain : ∀ {w' h' y}, w.Changes limit h (8 + Layout.structureSize) v.bits w' h' y
      { d with indexing := shape.into d.indexing } →
      runs (ensureShape v shape) w' = (.ok (shape.into d.indexing), w') := by
    intro w' h' y hchanges
    rw [hchanges.sound.houses.runs_ensureShape shape hchanges.cell hchanges.kind,
      if_neg (not_not.mpr htype), if_neg hflags]
    exact runs_convert_same (d := { d with indexing := shape.into d.indexing }) (shape.into_spec _).1
  by_cases hany : d.indexing &&& Indexing.shapeMask = Indexing.none
  · obtain ⟨w', h', y, hrun, hchanges, hslots, hne, hkeeps, hbefore, hafter⟩ :=
      hw.runs_convert_bare shape hs hv htype hany hroom
    refine ⟨_, w', h', y, _, hstart.trans hrun, hchanges, hkeeps, hagain hchanges,
      .inr ⟨(shape.into_spec _).1, (shape.into_spec _).2, rfl, hslots, fun _ _ => hne, fun _ => ?_⟩⟩
    rw [hbefore, hafter]
    exact .nil
  by_cases hnumbers : shape = .contiguous ∨ ∀ u ∈ h.contents d x, u.isEmpty = true ∨ u.isNumber = true
  · obtain ⟨w', h', y, bits, hrun, hchanges, hslots, hstorage, hkeeps, hbits, hafter⟩ :=
      hw.runs_convert shape hs hv htype hshape hany hnumbers hroom
    refine ⟨_, w', h', y, _, hstart.trans hrun, hchanges, hkeeps, hagain hchanges,
      .inr ⟨(shape.into_spec _).1, (shape.into_spec _).2, rfl, hslots,
        fun hx _ => hstorage ▸ hx hany, fun hnan => ?_⟩⟩
    rw [hafter]
    exact ArrayShape.same_of_encodes (shape.into_spec _).1 hbits hnan
  · obtain ⟨hcontiguous, hbad⟩ := not_or.mp hnumbers
    obtain rfl : shape = .double := by
      cases shape with
      | contiguous => exact absurd rfl hcontiguous
      | double => rfl
    obtain ⟨u, hu, hu'⟩ : ∃ u ∈ h.contents d x, ¬(u.isEmpty = true ∨ u.isNumber = true) := by
      simpa only [not_forall, exists_prop] using hbad
    obtain ⟨hempty, hnumber⟩ := not_or.mp hu'
    rw [Bool.not_eq_true] at hempty hnumber
    have hrefused : (decide (ArrayShape.double = .double) &&
        (h.contents d x).any fun e => !e.isEmpty && !e.isNumber) = true := by
      rw [Bool.and_eq_true, List.any_eq_true]
      exact ⟨rfl, u, hu, by rw [hempty, hnumber]; rfl⟩
    rw [hw.runs_convert_elements hs hv htype hshape hany, if_pos hrefused] at hstart
    exact ⟨_, w, h, x, d, hstart, hsame, .refl w, hstart,
      .inl ⟨.inr (.inr ⟨rfl, u, hu, hempty, hnumber⟩), rfl, rfl, rfl, rfl, rfl⟩⟩

end Sound

/-- **Conversion loses nothing, but for NaNs.** Either the cell has the shape, and all that can be seen
of it is as before: its type, its flags, its prototype, its own properties, the other bits of its
indexing byte, and as many elements, each of which reads as the same value. Or there is a reason not
to convert it, and nothing has happened. No other cell changes, and nothing is left to be done. -/
theorem ensureShape_lossless {s : Snapshot} (hw : w.Sound limit h) (hv : (h.cell? v.bits).isSome)
    (hroom : w.memory.next + (8 + Layout.structureSize) ≤ limit)
    (hs : runs (snapshot v) w = (.ok s, w))
    (hnan : shape = .contiguous ∨ ∀ u ∈ s.contents, ∀ z, u.number? = some z → z.isNaN = false) :
    ∃ index w' s', runs (ensureShape v shape) w = (.ok index, w') ∧
      runs (snapshot v) w' = (.ok s', w') ∧
      (s.Fixed shape ∧ index = s.indexing ∧ w' = w ∨
        index &&& Indexing.shapeMask = shape.indexing ∧
        index &&& ~~~Indexing.shapeMask = s.indexing &&& ~~~Indexing.shapeMask ∧
        s' = { s with indexing := index, contents := s'.contents } ∧
        List.Forall₂ Value.Same s.contents s'.contents) ∧
      (∀ u t, u.bits ≠ v.bits → (h.cell? u.bits).isSome → runs (snapshot u) w = (.ok t, w) →
        runs (snapshot u) w' = (.ok t, w')) ∧
      runs (ensureShape v shape) w' = (.ok index, w') := by
  obtain ⟨x, hx⟩ := Option.isSome_iff_exists.mp hv
  obtain ⟨d, hd, -⟩ := hw.formed.kind hx
  obtain rfl : h.snapshot d x = s := by
    simpa using (congrArg Prod.fst (hw.runs_snapshot (Heap.snapshot?_eq hx hd))).symm.trans
      (congrArg Prod.fst hs)
  obtain ⟨index, w', h', y, e, hrun, hchanges, -, hagain, hcases⟩ := hw.runs_ensureShape shape hd hx hroom
  refine ⟨index, w', h'.snapshot e y, hrun, hchanges.sound.runs_snapshot hchanges.snapshot?, ?_,
    fun u t huv hu ht => ?_, hagain⟩
  · rcases hcases with ⟨hfixed, hindex, hworld, -⟩ | ⟨hshape, hrest, rfl, hslots, -, hsame⟩
    · exact .inl ⟨hfixed, hindex, hworld⟩
    · refine .inr ⟨hshape, hrest, ?_, hsame hnan⟩
      simp only [Heap.snapshot, Cell.properties, hslots]
  · obtain ⟨z, hz⟩ := Option.isSome_iff_exists.mp hu
    obtain ⟨t', ht', hafter⟩ := hchanges.others hw.formed hz huv
    obtain rfl : t' = t := by
      simpa using (congrArg Prod.fst (hw.runs_snapshot ht')).symm.trans (congrArg Prod.fst ht)
    exact hchanges.sound.runs_snapshot hafter

/-- There is an array with any few elements. -/
lemma exists_array (vs : List Value) (hlen : vs.length ≤ 16) :
    ∃ v w h y, runs (newArray .contiguous vs) start = (.ok v, w) ∧ w.Sound 1073741824 h ∧
      w.memory.next + (8 + Layout.structureSize) ≤ 1073741824 ∧ h.cell? v.bits = some y ∧
      h.structure? y.kind = some (.array .contiguous) ∧ h.contents (.array .contiguous) y = vs := by
  have hbase : Memory.heapBase = 268435456 := rfl
  have hsize : startSize = 32768 := rfl
  have hcell : Layout.cellSize = 88 := rfl
  have hstructure : Layout.structureSize = 16 := rfl
  obtain ⟨h₀, hw₀, hnext₀⟩ := sound_start 1073741824 (by omega) (by omega)
  obtain ⟨r, c, w, h, y, hrun, -, hchanges, -, hr⟩ := hw₀.runs_newArray .contiguous vs (by omega)
  have hbits : ∀ vs : List Value, vs.mapM ArrayShape.contiguous.encode? = some (vs.map Value.bits) := by
    intro vs
    induction vs with
    | nil => rfl
    | cons v vs ih => rw [List.mapM_cons, ih]; rfl
  have hnext := hchanges.grows.next
  rcases hr with ⟨-, hlong | hnone⟩ | ⟨rfl, -, bits, hvs, hcontents⟩
  · omega
  · rw [hbits] at hnone
    cases hnone
  · refine ⟨_, w, h, y, hrun, hchanges.sound, by omega, hchanges.cell, hchanges.kind,
      hcontents.trans ?_⟩
    obtain rfl : vs.map Value.bits = bits := Option.some.inj ((hbits vs).symm.trans hvs)
    rw [List.map_map]
    exact List.map_id'' (fun v => rfl) vs

/-- An integer, a hole, a fraction and the negative zero are the same as doubles. -/
theorem ensureShape_lossless_numbers : ∃ v w s index w' s',
    runs (newArray .contiguous
      [.ofInt32 7, .empty, .ofDouble ⟨0x4004000000000000⟩, .ofDouble ⟨0x8000000000000000⟩]) start =
        (.ok v, w) ∧
    runs (snapshot v) w = (.ok s, w) ∧ runs (ensureShape v .double) w = (.ok index, w') ∧
    index &&& Indexing.shapeMask = Indexing.double ∧ runs (snapshot v) w' = (.ok s', w') ∧
    List.Forall₂ Value.Same s.contents s'.contents := by
  obtain ⟨v, w, h, y, hrun, hw, hroom, hv, hs, hcontents⟩ := exists_array
    [.ofInt32 7, .empty, .ofDouble ⟨0x4004000000000000⟩, .ofDouble ⟨0x8000000000000000⟩] (by decide)
  have hsnapshot := hw.runs_snapshot (Heap.snapshot?_eq hv hs)
  obtain ⟨index, w', s', hrun', hs', hcases, -⟩ := ensureShape_lossless hw
    (Option.isSome_of_eq_some hv) hroom hsnapshot (Or.inr (a := ArrayShape.double = .contiguous) (by
      rw [Heap.contents_snapshot, hcontents]
      decide))
  refine ⟨v, w, _, index, w', s', hrun, hsnapshot, hrun', ?_⟩
  rcases hcases with ⟨hfixed, -⟩ | ⟨hindex, -, -, hsame⟩
  · rcases hfixed with htype | hflags | ⟨-, u, hu, hempty, hnumber⟩
    · exact absurd rfl htype
    · exact absurd hflags (show ¬(0 &&& TypeFlag.interceptsIndexing ≠ 0) by decide)
    · have hall : ∀ u ∈ [Value.ofInt32 7, .empty, .ofDouble ⟨0x4004000000000000⟩,
          .ofDouble ⟨0x8000000000000000⟩], ¬(u.isEmpty = false ∧ u.isNumber = false) := by decide
      rw [Heap.contents_snapshot, hcontents] at hu
      exact absurd ⟨hempty, hnumber⟩ (hall u hu)
  · exact ⟨hindex, hs', hsame⟩

/-- A NaN is a hole afterwards. -/
theorem ensureShape_drops_nan : ∃ v w s w' s',
    runs (newArray .contiguous [.ofDouble .nan]) start = (.ok v, w) ∧
    runs (snapshot v) w = (.ok s, w) ∧ s.contents = [.ofDouble .nan] ∧
    runs (ensureShape v .double) w = (.ok (Indexing.double ||| Indexing.isArray), w') ∧
    runs (snapshot v) w' = (.ok s', w') ∧ s'.contents = [.empty] ∧
    ¬List.Forall₂ Value.Same s.contents s'.contents := by
  obtain ⟨v, w, h, y, hrun, hw, hroom, hv, hs, hcontents⟩ := exists_array [.ofDouble .nan] (by decide)
  have hsnapshot := hw.runs_snapshot (Heap.snapshot?_eq hv hs)
  obtain ⟨w', h', z, bits, hrun', hchanges, -, -, -, hbits, hafter⟩ := hw.runs_convert .double hs hv
    rfl (by decide) (by decide) (.inr (by rw [hcontents]; decide)) hroom
  rw [hcontents] at hbits
  obtain rfl : bits = [Double.nan.bits] := Option.some.inj (hbits.symm.trans (by decide))
  have hstart := hw.houses.runs_ensureShape .double hv hs
  rw [if_neg (by decide), if_neg (by decide), hrun'] at hstart
  refine ⟨v, w, _, w', _, hrun, hsnapshot, hcontents, hstart,
    hchanges.sound.runs_snapshot hchanges.snapshot?, hafter, fun hsame => ?_⟩
  rw [Heap.contents_snapshot, Heap.contents_snapshot, hafter, hcontents] at hsame
  obtain ⟨hnan, -⟩ := List.forall₂_cons.mp hsame
  revert hnan
  unfold Value.Same
  decide

end World

end Speculation
