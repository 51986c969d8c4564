import Speculation.Proofs.Heap.Snapshots

/-!
Operations on sound heaps.

Every operation of the run-time system on an object, and every one that makes a cell, leaves a sound
heap that it has touched at that cell only.
-/

namespace Speculation

namespace World

lemma runs_bind_of_error {α β : Type} {f : Run β} {g : β → Run α} {w w' : World} {e : Fault}
    (h : runs f w = (.error e, w')) : runs (f >>= g) w = (.error e, w') := by
  rw [runs_bind, h]

end World

namespace Memory.Houses

open World

variable {w : World} {h : Heap} {limit : Nat} {a : UInt64} {ns ys : List Nat} {size k y : Nat}

lemma runs_setWord (hm : w.memory.Houses limit h) (ha : h a = some (.words size ns))
    (hk : k < ns.length) (hy : y < 256 ^ size) : ∃ m',
    runs (writeWord size (a + UInt64.ofNat (size * k)) y) w = (.ok (), w.withMemory m') ∧
    m'.Houses limit (h.set a (.words size (ns.set k y))) ∧ m'.next = w.memory.next := by
  have hword := hm.item ha
  have hround := Item.le_roundUp (size * ns.length)
  have hends : ∀ {j}, j < ns.length → size * j + size ≤ roundUp (size * ns.length) := fun hj =>
    ((Nat.mul_succ size _).symm.le.trans (Nat.mul_le_mul_left _ hj)).trans hround
  refine hm.store ha (hends hk) hy (by simp only [Item.extent, List.length_set]) fun m' hread hkeep j z hj => ?_
  by_cases hjk : j = k
  · subst hjk
    rw [List.getElem?_set_self hk, Option.some.injEq] at hj
    rw [hread, hj]
  · rw [List.getElem?_set_ne (Ne.symm hjk)] at hj
    have hjlt := (List.getElem?_eq_some_iff.mp hj).1
    rw [hkeep _ _ (hends hjlt) ?_]
    · exact hword j z hj
    · rcases Nat.lt_or_gt_of_ne hjk with hlt | hgt
      · exact .inr ((Nat.mul_succ size j).symm.le.trans (Nat.mul_le_mul_left _ hlt))
      · exact .inl ((Nat.mul_succ size k).symm.le.trans (Nat.mul_le_mul_left _ hgt))

lemma runs_writeWords (hm : w.memory.Houses limit h) (ha : h a = some (.words size ns))
    (hk : k + ys.length = ns.length) (hys : ∀ y ∈ ys, y < 256 ^ size) : ∃ m',
    runs (writeWords size (a + UInt64.ofNat (size * k)) ys) w = (.ok (), w.withMemory m') ∧
    m'.Houses limit (h.set a (.words size (ns.take k ++ ys))) ∧ m'.next = w.memory.next := by
  induction ys generalizing w h ns k with
  | nil =>
    refine ⟨w.memory, rfl, ?_, rfl⟩
    rw [List.length_nil, Nat.add_zero] at hk
    rwa [List.append_nil, hk, List.take_length, Heap.set_eq ha]
  | cons y ys ih =>
    obtain ⟨hy, hys⟩ := List.forall_mem_cons.mp hys
    rw [List.length_cons] at hk
    obtain ⟨m₁, hrun₁, hm₁, hnext₁⟩ := hm.runs_setWord ha (k := k) (by omega) hy
    obtain ⟨m₂, hrun₂, hm₂, hnext₂⟩ := ih (w := w.withMemory m₁) (k := k + 1) hm₁ Heap.set_self
      (by rw [List.length_set]; omega) hys
    have hstep : a + UInt64.ofNat (size * k) + UInt64.ofNat size =
        a + UInt64.ofNat (size * (k + 1)) := by
      rw [UInt64.add_assoc, ← UInt64.ofNat_add, Nat.mul_succ]
    refine ⟨m₂, ?_, ?_, hnext₂.trans hnext₁⟩
    · rw [writeWords, runs_bind_of_ok hrun₁, hstep]
      exact hrun₂
    · rwa [Heap.set_set, List.take_add_one, List.getElem?_set_self (by omega),
        List.take_set_of_le (Nat.le_refl k), List.append_assoc] at hm₂

end Memory.Houses

def Structure.array (shape : ArrayShape) : Structure :=
  ⟨.object, shape.indexing ||| Indexing.isArray, 0, .null, []⟩

namespace Heap

variable {h h₁ : Heap} {v : UInt64} {x y : Cell} {d e : Structure}

lemma Gains.free (hg : h.Gains h₁) (hv : h₁ v = none) : h v = none := by
  rcases ha : h v with _ | i
  · rfl
  · rw [hg.keeps ha] at hv
    cases hv

/-- A cell was changed, after structures were added. -/
lemma Gains.touches (hg : h.Gains h₁) (hv : h v = none ∨ ∃ x, h.cell? v = some x) :
    h.Touches v (h₁.set v (.cell y)) where
  cell := hv
  keeps ha hav _ := by rw [set_of_ne hav, hg.keeps ha]
  cells ha hav := by
    rw [set_of_ne hav] at ha
    exact hg.cells ha

end Heap

namespace World

variable {w w' w₁ : World} {h h' h₁ : Heap} {limit n k : Nat} {v : Value} {c : UInt64} {x y : Cell}
  {d e : Structure} {name : String}

/-- From one sound heap to another, only one cell was touched. It is `y` now, of structure `e`. -/
structure Changes (w : World) (limit : Nat) (h : Heap) (n : Nat) (c : UInt64) (w' : World)
    (h' : Heap) (y : Cell) (e : Structure) : Prop where
  sound : w'.Sound limit h'
  touches : h.Touches c h'
  grows : w.Grows n w'
  cell : h'.cell? c = some y
  kind : h'.structure? y.kind = some e

lemma Changes.others (hc : w.Changes limit h n c w' h' y e) (hf : h.Formed) {b : UInt64}
    (hb : h.cell? b = some x) (hbc : b ≠ c) :
    ∃ s, h.snapshot? b = some s ∧ h'.snapshot? b = some s :=
  hc.touches.snapshot? hf hbc hb

lemma Changes.snapshot? (hc : w.Changes limit h n c w' h' y e) :
    h'.snapshot? c = some (h'.snapshot e y) := Heap.snapshot?_eq hc.cell hc.kind

namespace Sound

variable (hw : w.Sound limit h)
include hw

section Objects

variable (hv : h.cell? v.bits = some x) (hs : h.structure? x.kind = some d)
include hv hs

lemma changes (hg : h.Gains h₁) (hh : w'.Houses limit (h₁.set v.bits (.cell y)))
    (hgrows : w.Grows n w') (he : h₁.structure? y.kind = some e) (htype : e.type = d.type)
    (hindexing : e.indexing = d.indexing) (hstorage : y.storage = x.storage)
    (hlength : y.length = x.length) :
    w.Changes limit h n v.bits w' (h₁.set v.bits (.cell y)) y e ∧
    (h₁.set v.bits (.cell y)).contents e y = h.contents d x := by
  have ht := hg.touches (y := y) (.inr ⟨x, hv⟩)
  have hself : (h₁.set v.bits (.cell y)).cell? v.bits = some y := Heap.cell?_eq_some.mpr Heap.set_self
  have he' : (h₁.set v.bits (.cell y)).structure? y.kind = some e := by
    rwa [Heap.structure?_setCell (hg.cell? hv)]
  have hst := hw.formed.stored hv hs
  have hitems : ∀ {a i}, h a = some i → (∀ x, i ≠ .cell x) → h₁.set v.bits (.cell y) a = some i :=
    fun ha hi => by rw [Heap.set_of_ne (ht.ne_of_item ha hi), hg.keeps ha]
  have hwords : ∀ {size : Nat}, (∃ ns, h x.storage = some (.words size ns) ∧
      x.length.toNat = ns.length) → (∃ ns, h₁.set v.bits (.cell y) x.storage = some (.words size ns) ∧
      x.length.toNat = ns.length) ∧
      (h₁.set v.bits (.cell y)).wordsAt x.storage = h.wordsAt x.storage := by
    rintro size ⟨ns, ha, hlen⟩
    have ha' := hitems ha fun _ => Item.noConfusion
    exact ⟨⟨ns, ha', hlen⟩, by rw [Heap.wordsAt, Heap.wordsAt, ha, ha']⟩
  have hkept : (h₁.set v.bits (.cell y)).Stored e y ∧
      (h₁.set v.bits (.cell y)).contents e y = h.contents d x := by
    unfold Heap.Stored Heap.contents at *
    rw [htype, hindexing, hstorage, hlength]
    split at hst
    · rcases hst with hzero | ⟨hshape, a, ws, ha, hx⟩
      · exact ⟨.inl hzero, by rw [hzero, Heap.elementsAt_zero, Heap.elementsAt_zero]⟩
      · have ha' := hitems ha fun _ => Item.noConfusion
        exact ⟨.inr ⟨hshape, a, ws, ha', hx⟩,
          by rw [hx, Heap.elementsAt, Heap.elementsAt, UInt64.add_sub_cancel, ha, ha']⟩
    · exact ⟨(hwords hst).1, by rw [(hwords hst).2]⟩
    · exact ⟨(hwords hst).1, by rw [(hwords hst).2]⟩
    · exact ⟨(hwords hst).1, by rw [(hwords hst).2]⟩
    · exact ⟨trivial, rfl⟩
  obtain ⟨d', hd', hnone, -⟩ := hw.formed.kind hv
  obtain rfl : d' = d := Option.some.inj (hd'.symm.trans hs)
  refine ⟨⟨⟨hh, ht.formed hw.formed hself he' ?_ hkept.1 ?_⟩, ht, hgrows, hself, he'⟩, hkept.2⟩
  · rw [htype, hindexing]
    exact hnone
  · rintro a ⟨z, f, hz, hf, hftype, hne, hza⟩
    obtain rfl : y = z := Option.some.inj (hself.symm.trans hz)
    obtain rfl : e = f := Option.some.inj (he'.symm.trans hf)
    exact .inl ⟨x, d', hv, hs, htype ▸ hftype, hstorage ▸ hne, hstorage ▸ hza⟩

lemma runs_putProperty_own (hk : d.properties.findIdx? (· == name) = some k) (z : Value) :
    ∃ w' h', runs (putProperty v name z) w = (.ok (), w') ∧
      w.Changes limit h 0 v.bits w' h' { x with slots := Function.update x.slots k z } d ∧
      h'.contents d { x with slots := Function.update x.slots k z } = h.contents d x ∧
      w.Keeps w' := by
  obtain ⟨m', hrun, hh, hnext⟩ := hw.houses.runs_putProperty_own hv hs hk z
  obtain ⟨hchanges, hcontents⟩ := hw.changes hv hs (.refl h) hh
    (grows_of_same (n := 0) rfl (by show m'.next ≤ _; omega)) hs rfl rfl rfl rfl
  exact ⟨_, _, hrun, hchanges, hcontents, (Keeps.refl w).withMemory m'⟩

lemma runs_putProperty_add (hname : name ∉ d.properties)
    (hlen : d.properties.length < Layout.inlineCapacity)
    (hroom : w.memory.next + Layout.structureSize ≤ limit) (z : Value) :
    ∃ t w' h', runs (putProperty v name z) w = (.ok (), w') ∧
      w.Changes limit h Layout.structureSize v.bits w' h'
        { x with kind := t, slots := Function.update x.slots d.properties.length z } (d.add name) ∧
      h'.contents (d.add name)
        { x with kind := t, slots := Function.update x.slots d.properties.length z } =
          h.contents d x ∧
      w'.transitions[(x.kind, name)]? = some t ∧ w.Keeps w' := by
  obtain ⟨t, w', h₁, hrun, hg, hh, ht, hgrows, hway, hkeeps⟩ :=
    hw.houses.runs_putProperty_add hv hs hname hlen hroom z
  obtain ⟨hchanges, hcontents⟩ := hw.changes hv hs hg hh hgrows ht rfl rfl rfl rfl
  exact ⟨t, w', _, hrun, hchanges, hcontents, hway, hkeeps⟩

/-- An object begins to pass for undefined. -/
lemma runs_masquerade (hroom : w.memory.next + Layout.structureSize ≤ limit) :
    ∃ t w' h', runs (masquerade v) w = (.ok (), w') ∧
      w.Changes limit h Layout.structureSize v.bits w' h' { x with kind := t }
        { d with flags := d.flags ||| TypeFlag.masqueradesAsUndefined } ∧
      h'.contents { d with flags := d.flags ||| TypeFlag.masqueradesAsUndefined }
        { x with kind := t } = h.contents d x ∧ w.Keeps w' := by
  obtain ⟨t, w', h₁, hrun, hg, hh, ht, hgrows, hkeeps⟩ :=
    hw.houses.runs_masquerade hv hs hroom
  obtain ⟨hchanges, hcontents⟩ := hw.changes hv hs hg hh hgrows ht rfl rfl rfl rfl
  exact ⟨t, w', _, hrun, hchanges, hcontents, hkeeps⟩

/-- An object gets indexed accessors of its own. -/
lemma runs_interceptIndexing (hroom : w.memory.next + Layout.structureSize ≤ limit) :
    ∃ t w' h', runs (interceptIndexing v) w = (.ok (), w') ∧
      w.Changes limit h Layout.structureSize v.bits w' h' { x with kind := t }
        { d with flags := d.flags ||| TypeFlag.interceptsIndexing } ∧
      h'.contents { d with flags := d.flags ||| TypeFlag.interceptsIndexing }
        { x with kind := t } = h.contents d x ∧ w.Keeps w' := by
  obtain ⟨t, w', h₁, hrun, hg, hh, ht, hgrows, hkeeps⟩ :=
    hw.houses.runs_addFlag hv hs hroom TypeFlag.interceptsIndexing
  obtain ⟨hchanges, hcontents⟩ := hw.changes hv hs hg hh hgrows ht rfl rfl rfl rfl
  exact ⟨t, w', _, hrun, hchanges, hcontents, hkeeps⟩

end Objects

/-! ### New cells -/

/-- A new cell. If it has elements, then these are new as well. -/
lemma creates (hg : h.Gains h₁) (hnone : h₁ c = none) (hh : w'.Houses limit (h₁.set c (.cell y)))
    (hgrows : w.Grows n w') (he : h₁.structure? y.kind = some e)
    (hindexing : e.type ≠ .object → e.indexing = Indexing.none)
    (hst : (h₁.set c (.cell y)).Stored e y)
    (hown : e.type = .object → y.storage ≠ 0 → ∃ a, y.storage = a + 8 ∧ h a = none) :
    w.Changes limit h n c w' (h₁.set c (.cell y)) y e := by
  have ht := hg.touches (y := y) (.inl (hg.free hnone))
  have hself : (h₁.set c (.cell y)).cell? c = some y := Heap.cell?_eq_some.mpr Heap.set_self
  have he' : (h₁.set c (.cell y)).structure? y.kind = some e := by
    rwa [Heap.structure?_setCell_of_none hnone]
  refine ⟨⟨hh, ht.formed hw.formed hself he' hindexing hst fun ho => .inr ?_⟩, ht, hgrows, hself, he'⟩
  obtain ⟨z, f, hz, hf, htype, hne, hza⟩ := ho
  obtain rfl : y = z := Option.some.inj (hself.symm.trans hz)
  obtain rfl : e = f := Option.some.inj (he'.symm.trans hf)
  obtain ⟨b, hb, hfree⟩ := hown htype hne
  rwa [(UInt64.add_left_inj 8).mp (hza.symm.trans hb)]

lemma creates_plain (hg : h.Gains h₁) (hnone : h₁ c = none) (hh : w'.Houses limit (h₁.set c (.cell y)))
    (hgrows : w.Grows n w') (he : h₁.structure? y.kind = some e)
    (hindexing : e.type ≠ .object → e.indexing = Indexing.none)
    (htype : e.type = .object ∨ e.type = .function) (hzero : y.storage = 0) :
    w.Changes limit h n c w' (h₁.set c (.cell y)) y e := by
  refine hw.creates hg hnone hh hgrows he hindexing ?_ fun _ hne => absurd hzero hne
  unfold Heap.Stored
  rcases htype with htype | htype <;> rw [htype]
  · exact .inl hzero
  · trivial

lemma runs_newObject {prototype : Value} (hp : prototype.bits ≠ Structure.stringKey)
    (hroom : w.memory.next + (Layout.structureSize + Layout.cellSize) ≤ limit) :
    ∃ c s w' h', runs (newObject prototype) w = (.ok (.ofCell c), w') ∧ h c = none ∧
      w.Changes limit h (Layout.structureSize + Layout.cellSize) c w' h' ⟨s, 0, 0, fun _ => .empty⟩
        ⟨.object, Indexing.none, 0, prototype, []⟩ ∧ w.Keeps w' := by
  obtain ⟨c, s, w', h₁, hrun, hg, hnone, hh, hs, hgrows, hkeeps⟩ :=
    hw.houses.runs_newObject hp hroom
  have hchanges := hw.creates_plain hg hnone hh hgrows hs (fun hne => absurd rfl hne)
    (.inl rfl) rfl
  exact ⟨c, s, w', _, hrun, hg.free hnone, hchanges, hkeeps⟩

/-- A new function, and the object that is its prototype. -/
lemma runs_newFunction (f : Callable) (hsize : w.functions.size < 4294967296)
    (hroom : w.memory.next + (3 * Layout.structureSize + 2 * Layout.cellSize) ≤ limit) :
    ∃ c p s t s' w₁ w₂ w' h₁ h₂ h', runs (newFunction f) w = (.ok (.ofCell c), w') ∧
      h c = none ∧ h₁ p = none ∧
      w.Changes limit h (Layout.structureSize + Layout.cellSize) c w₁ h₁
        ⟨s, 0, UInt32.ofNat w.functions.size, fun _ => .empty⟩
        ⟨.function, Indexing.none, TypeFlag.defaultHasInstance, .null, []⟩ ∧
      w₁.Changes limit h₁ (Layout.structureSize + Layout.cellSize) p w₂ h₂ ⟨s', 0, 0, fun _ => .empty⟩
        ⟨.object, Indexing.none, 0, .null, []⟩ ∧
      w₂.Changes limit h₂ Layout.structureSize c w' h'
        ⟨t, 0, UInt32.ofNat w.functions.size, Function.update (fun _ => .empty) 0 (.ofCell p)⟩
        ⟨.function, Indexing.none, TypeFlag.defaultHasInstance, .null, ["prototype"]⟩ ∧
      w'.functions = w.functions.push f := by
  have hcell : Layout.cellSize = 88 := rfl
  have hstructure : Layout.structureSize = 16 := rfl
  obtain ⟨s, w₁, hrun₁, hh₁, hnone₁, hnext₁, htransitions₁, -, -, hkeeps₁⟩ :=
    hw.houses.runs_newStructure (by omega)
      ⟨.function, Indexing.none, TypeFlag.defaultHasInstance, .null, []⟩ ⟨List.nodup_nil, Nat.zero_le _⟩
  have hg := Heap.gains_set
    (i := .description ⟨.function, Indexing.none, TypeFlag.defaultHasInstance, .null, []⟩) hnone₁ nofun
  obtain ⟨c, w₂, hrun₂, hnone₂, hh₂, hgrows₂, hkeeps₂⟩ := hh₁.runs_newCell (by omega) s
  let w₃ : World := { w₂ with functions := w₂.functions.push f }
  have hh₃ : w₃.Houses limit _ := hh₂.congr hh₂.memory rfl rfl rfl rfl rfl
  obtain ⟨m₄, hrun₄, hm₄, hnext₄⟩ := hh₃.memory.runs_setCellLength (v := .ofCell c)
    (Heap.cell?_eq_some.mpr Heap.set_self) (UInt32.ofNat w.functions.size)
  rw [Value.ofCell, Heap.set_set] at hm₄
  have hh₄ : (w₃.withMemory m₄).Houses limit ((h.set s _).set c _) := hh₃.withMemory hm₄ (by
    rw [← Heap.set_set (i := .cell ⟨s, 0, 0, fun _ => .empty⟩)]
    exact Heap.structure?_setCell (Heap.cell?_eq_some.mpr Heap.set_self))
  have hgrows₄ : w.Grows (Layout.structureSize + Layout.cellSize) (w₃.withMemory m₄) := by
    refine ⟨?_, fun ht => hgrows₂.transitions (htransitions₁ ▸ ht)⟩
    have := hgrows₂.next
    show m₄.next ≤ _
    rw [hnext₄]
    show w₂.memory.next ≤ _
    omega
  have hsized : w₂.functions.size = w.functions.size := by
    rw [hkeeps₂.functions, hkeeps₁.functions]
  have hchanges₄ := hw.creates_plain hg hnone₂ hh₄ hgrows₄
    (Heap.structure?_eq_some.mpr Heap.set_self) (fun _ => rfl) (.inr rfl) rfl
  obtain ⟨p, s', w₅, h₅, hrun₅, hnone₅, hchanges₅, hkeeps₅⟩ :=
    hchanges₄.sound.runs_newObject (show Value.null.bits ≠ Structure.stringKey by decide)
      (by have := hgrows₄.next; omega)
  have hpc : c ≠ p := by
    rintro rfl
    rw [Heap.set_self] at hnone₅
    cases hnone₅
  have hcell₅ := hchanges₅.touches.cell?_of_ne hchanges₄.cell hpc
  have hkind₅ := hchanges₅.touches.structure? hchanges₄.kind
  obtain ⟨t, w₆, h₆, hrun₆, hchanges₆, -, -, hkeeps₆⟩ :=
    hchanges₅.sound.runs_putProperty_add (v := .ofCell c) hcell₅ hkind₅
      (show "prototype" ∉ [] from List.not_mem_nil) (by decide)
      (by have := hgrows₄.next; have := hchanges₅.grows.next; omega) (.ofCell p)
  refine ⟨c, p, s, t, s', _, w₅, w₆, _, h₅, h₆, ?_, hg.free hnone₂, hnone₅, hchanges₄, hchanges₅,
    hchanges₆, ?_⟩
  · rw [newFunction, runs_bind_of_ok hrun₁, runs_bind_of_ok hrun₂, runs_bind_of_ok runs_get, hsized,
      runs_bind_of_ok (runs_count32 hsize .functions), runs_bind_of_ok (runs_modify _),
      runs_bind_of_ok hrun₄, runs_bind_of_ok hrun₅, runs_bind_of_ok hrun₆]
    rfl
  · rw [hkeeps₆.functions, hkeeps₅.functions]
    show w₂.functions.push f = _
    rw [hkeeps₂.functions, hkeeps₁.functions]

lemma runs_newFunction_many (f : Callable) (hsize : 4294967296 ≤ w.functions.size)
    (hroom : w.memory.next + (Layout.structureSize + Layout.cellSize) ≤ limit) :
    ∃ c s w' h', runs (newFunction f) w = (.error (.unsupported (.tooMany .functions)), w') ∧
      h c = none ∧ w.Changes limit h (Layout.structureSize + Layout.cellSize) c w' h'
        ⟨s, 0, 0, fun _ => .empty⟩
        ⟨.function, Indexing.none, TypeFlag.defaultHasInstance, .null, []⟩ := by
  obtain ⟨s, w₁, hrun₁, hh₁, hnone₁, hnext₁, htransitions₁, -, -, hkeeps₁⟩ :=
    hw.houses.runs_newStructure (by omega)
      ⟨.function, Indexing.none, TypeFlag.defaultHasInstance, .null, []⟩ ⟨List.nodup_nil, Nat.zero_le _⟩
  have hg := Heap.gains_set
    (i := .description ⟨.function, Indexing.none, TypeFlag.defaultHasInstance, .null, []⟩) hnone₁ nofun
  obtain ⟨c, w₂, hrun₂, hnone₂, hh₂, hgrows₂, hkeeps₂⟩ := hh₁.runs_newCell (by omega) s
  have hgrows : w.Grows (Layout.structureSize + Layout.cellSize) w₂ :=
    (grows_of_same htransitions₁ hnext₁.le).trans hgrows₂
  refine ⟨c, s, w₂, _, ?_, hg.free hnone₂, hw.creates_plain hg hnone₂ hh₂ hgrows
    (Heap.structure?_eq_some.mpr Heap.set_self) (fun _ => rfl) (.inr rfl) rfl⟩
  rw [newFunction, runs_bind_of_ok hrun₁, runs_bind_of_ok hrun₂, runs_bind_of_ok runs_get]
  exact runs_bind_of_error (runs_count32_huge (by
    rwa [hkeeps₂.functions, hkeeps₁.functions]) .functions)

/-- A new cell, and something else that belongs to it. -/
lemma creates_with {a : UInt64} {i : Item} {m : Memory} {z : Cell} (hg : h.Gains h₁)
    (hnone : h₁ c = none) (hh : w₁.Houses limit (h₁.set c (.cell z)))
    (ha : h₁.set c (.cell z) a = none) (hcell : ∀ x, i ≠ .cell x) (hkind : ∀ d, i ≠ .description d)
    (hm : m.Houses limit (((h₁.set c (.cell z)).set a i).set c (.cell y)))
    (hgrows : w.Grows n (w₁.withMemory m)) (he : h₁.structure? y.kind = some e)
    (hindexing : e.type ≠ .object → e.indexing = Indexing.none)
    (hst : ∀ h' : Heap, h' a = some i → h'.Stored e y)
    (hown : e.type = .object → y.storage ≠ 0 → y.storage = a + 8) :
    ∃ h', w.Changes limit h n c (w₁.withMemory m) h' y e ∧ h' a = some i := by
  have hac : a ≠ c := by
    rintro rfl
    rw [Heap.set_self] at ha
    cases ha
  rw [Heap.set_of_ne hac] at ha
  rw [Heap.set_comm hac.symm, Heap.set_set] at hm
  have hstructures : (h₁.set a i).structure? = h₁.structure? :=
    Heap.structure?_set hkind (by rw [Heap.structure?, ha])
  have hnone' : h₁.set a i c = none := by rwa [Heap.set_of_ne hac.symm]
  have hitem : (h₁.set a i).set c (.cell y) a = some i := by rw [Heap.set_of_ne hac, Heap.set_self]
  have hh' : (w₁.withMemory m).Houses limit ((h₁.set a i).set c (.cell y)) := by
    refine hh.withMemory hm ?_
    rw [Heap.structure?_setCell_of_none hnone', hstructures, Heap.structure?_setCell_of_none hnone]
  exact ⟨_, hw.creates (hg.trans (Heap.gains_set ha hcell)) hnone' hh' hgrows (by rwa [hstructures])
    hindexing (hst _ hitem) fun ho hne => ⟨a, hown ho hne, hg.free ha⟩, hitem⟩

/-- A new array. It is an error if its elements are too many, or if one of them has no encoding. -/
lemma runs_newArray (shape : ArrayShape) (vs : List Value)
    (hroom : w.memory.next + (Layout.structureSize + Layout.cellSize + (8 + 8 * vs.length)) ≤ limit) :
    ∃ r c w' h' y, runs (newArray shape vs) w = (r, w') ∧ h c = none ∧
      w.Changes limit h (Layout.structureSize + Layout.cellSize + (8 + 8 * vs.length)) c w' h' y
        (.array shape) ∧ w.Keeps w' ∧
      ((∃ f, r = .error f) ∧ (4294967296 ≤ vs.length ∨ vs.mapM shape.encode? = none) ∨
        r = .ok (.ofCell c) ∧ y.Stocked (.array shape) ∧ ∃ bits, vs.mapM shape.encode? = some bits ∧
        h'.contents (.array shape) y = bits.map (.ofElement (shape.indexing ||| Indexing.isArray))) := by
  have hcell : Layout.cellSize = 88 := rfl
  have hstructure : Layout.structureSize = 16 := rfl
  let e : Structure := .array shape
  obtain ⟨s, w₁, hrun₁, hh₁, hnone₁, hnext₁, htransitions₁, -, -, hkeeps₁⟩ :=
    hw.houses.runs_newStructure (by omega) e ⟨List.nodup_nil, Nat.zero_le _⟩
  have hg₁ := Heap.gains_set (i := .description e) hnone₁ nofun
  have hs₁ : (h.set s (.description e)).structure? s = some e :=
    Heap.structure?_eq_some.mpr Heap.set_self
  obtain ⟨c, w₂, hrun₂, hnone₂, hh₂, hgrows₂, hkeeps₂⟩ := hh₁.runs_newCell (by omega) s
  generalize h.set s (.description e) = h₁ at *
  let z : Cell := ⟨s, 0, 0, fun _ => .empty⟩
  have hkeeps : ∀ m, w.Keeps (w₂.withMemory m) := (hkeeps₁.trans hkeeps₂).withMemory
  have hnext₂ := hgrows₂.next
  have hgrows : ∀ {m : Memory}, m.next = w₂.memory.next + (8 + 8 * vs.length) →
      w.Grows (Layout.structureSize + Layout.cellSize + (8 + 8 * vs.length)) (w₂.withMemory m) := by
    intro m hm
    refine ⟨?_, fun ht => hgrows₂.transitions (htransitions₁ ▸ ht)⟩
    show m.next ≤ _
    omega
  have hstart : ∀ {r w'}, runs (do
        let b ← newElements vs.length
        writeElements shape b vs
        setStorage (.ofCell c) b
        return Value.ofCell c) w₂ = (r, w') → runs (newArray shape vs) w = (r, w') := by
    intro r w' hrun
    exact (runs_bind_of_ok hrun₁).trans ((runs_bind_of_ok hrun₂).trans hrun)
  -- unless all goes well, the cell is left without elements
  have hfails : ∀ {m a i}, h₁.set c (.cell z) a = none → (∀ x, i ≠ .cell x) →
      (∀ d, i ≠ .description d) → m.next = w₂.memory.next + (8 + 8 * vs.length) →
      m.Houses limit ((h₁.set c (.cell z)).set a i) →
      ∃ h', w.Changes limit h (Layout.structureSize + Layout.cellSize + (8 + 8 * vs.length)) c
        (w₂.withMemory m) h' z e := by
    intro m a i ha hi hd hnext hm
    have hz : (h₁.set c (.cell z)).set a i c = some (.cell z) := by
      rw [Heap.set_of_ne, Heap.set_self]
      rintro rfl
      rw [Heap.set_self] at ha
      cases ha
    obtain ⟨h', hchanges, -⟩ := hw.creates_with (y := z) hg₁ hnone₂ hh₂ ha hi hd
      (by rwa [Heap.set_eq hz]) (hgrows hnext) hs₁ (fun hne => absurd rfl hne) (fun _ _ => Or.inl rfl)
      fun _ hne => absurd rfl hne
    exact ⟨h', hchanges⟩
  by_cases hn : vs.length < 4294967296
  · obtain ⟨a, m₃, hrun₃, ha, hnext₃, hm₃⟩ := hh₂.memory.runs_newElements hn (by omega)
    obtain ⟨r, m₄, us, hrun₄, hm₄, hnext₄, hlen, hok, hbad⟩ :=
      Memory.Houses.runs_writeElements (w := w₂.withMemory m₃) (k := 0) hm₃ Heap.set_self shape vs
        (by rw [List.length_replicate, Nat.zero_add])
    rw [Heap.set_set] at hm₄
    change runs (writeElements shape (a + 8) vs) _ = _ at hrun₄
    rcases hbits : vs.mapM shape.encode? with _ | bits
    · obtain ⟨v, -, rfl⟩ := hbad hbits
      obtain ⟨h', hchanges⟩ := hfails (i := .elements us) ha (fun _ => Item.noConfusion)
        (fun _ => Item.noConfusion) (hnext₄.trans hnext₃) hm₄
      have hrun := (runs_bind_of_ok (f := fun b => do
        writeElements shape b vs
        setStorage (.ofCell c) b
        return Value.ofCell c) hrun₃).trans (runs_bind_of_error hrun₄)
      exact ⟨_, c, _, h', z, hstart hrun, hg₁.free hnone₂, hchanges, hkeeps _, .inl ⟨⟨_, rfl⟩, .inr rfl⟩⟩
    · obtain ⟨rfl, hus⟩ := hok bits hbits
      have hz : ((h₁.set c (.cell z)).set a (.elements us)).cell? c = some z := by
        rw [Heap.cell?_eq_some, Heap.set_of_ne, Heap.set_self]
        rintro rfl
        rw [Heap.set_self] at ha
        cases ha
      obtain ⟨m₅, hrun₅, hm₅, hnext₅⟩ := Memory.Houses.runs_setStorage (w := w₂.withMemory m₄)
        (v := .ofCell c) hm₄ hz (a + 8)
      have hshape : e.indexing &&& Indexing.shapeMask ≠ Indexing.none := by
        cases shape <;> decide
      obtain ⟨h', hchanges, hitem⟩ := hw.creates_with (y := { z with storage := a + 8 }) hg₁ hnone₂
        hh₂ ha (i := .elements us) (fun _ => Item.noConfusion) (fun _ => Item.noConfusion) hm₅ (hgrows ((hnext₅.trans hnext₄).trans hnext₃)) hs₁
        (fun hne => absurd rfl hne) (fun _ ha => Or.inr ⟨hshape, a, us, ha, rfl⟩) fun _ _ => rfl
      have hne := hchanges.sound.houses.memory.storage_ne_zero (x := { z with storage := a + 8 })
        hitem rfl
      refine ⟨_, c, _, h', _, hstart ?_, hg₁.free hnone₂, hchanges, hkeeps _,
        .inr ⟨rfl, fun _ => hne, bits, rfl, ?_⟩⟩
      · rw [runs_bind_of_ok hrun₃, runs_bind_of_ok hrun₄]
        exact (runs_bind_of_ok hrun₅).trans rfl
      · show (Heap.elementsAt _ (a + 8)).map _ = _
        rw [Heap.elementsAt, UInt64.add_sub_cancel, hitem]
        dsimp only
        rw [if_neg hne, hus, List.take_zero, List.nil_append]
        rfl
  · obtain ⟨a, m₃, hrun₃, ha, hnext₃, hm₃⟩ :=
      hh₂.memory.runs_newElements_huge (Nat.not_lt.mp hn) (by omega)
    obtain ⟨h', hchanges⟩ := hfails (i := .zeros _) ha (fun _ => Item.noConfusion)
      (fun _ => Item.noConfusion) hnext₃ hm₃
    exact ⟨_, c, _, h', z, hstart (runs_bind_of_error hrun₃), hg₁.free hnone₂, hchanges, hkeeps _,
      .inl ⟨⟨_, rfl⟩, .inl (Nat.not_lt.mp hn)⟩⟩

lemma creates_words {s a : UInt64} {m : Memory} {ns : List Nat} {size : Nat} (hg : h.Gains h₁)
    (hnone : h₁ c = none) (hh : w₁.Houses limit (h₁.set c (.cell ⟨s, 0, 0, fun _ => .empty⟩)))
    (ha : h₁.set c (.cell ⟨s, 0, 0, fun _ => .empty⟩) a = none)
    (hm : m.Houses limit (((h₁.set c (.cell ⟨s, 0, 0, fun _ => .empty⟩)).set a (.words size ns)).set c
      (.cell ⟨s, a, UInt32.ofNat ns.length, fun _ => .empty⟩)))
    (hgrows : w.Grows n (w₁.withMemory m)) (he : h₁.structure? s = some e)
    (hlen : ns.length < 4294967296) (hindexing : e.indexing = Indexing.none)
    (htype : e.type = .string ∧ size = 2 ∨ e.type = .int32Array ∧ size = 4 ∨
      e.type = .float64Array ∧ size = 8) :
    ∃ h', w.Changes limit h n c (w₁.withMemory m) h'
        ⟨s, a, UInt32.ofNat ns.length, fun _ => .empty⟩ e ∧ h' a = some (.words size ns) := by
  have hcount : (UInt32.ofNat ns.length).toNat = ns.length := UInt32.toNat_ofNat_of_lt' hlen
  refine hw.creates_with hg hnone hh ha nofun nofun hm hgrows he (fun _ => hindexing)
    (fun h' ha' => ?_) fun ho => ?_
  · unfold Heap.Stored
    rcases htype with ⟨ht, rfl⟩ | ⟨ht, rfl⟩ | ⟨ht, rfl⟩ <;> rw [ht] <;> exact ⟨ns, ha', hcount⟩
  · rcases htype with ⟨ht, -⟩ | ⟨ht, -⟩ | ⟨ht, -⟩ <;> rw [ht] at ho <;> cases ho

lemma runs_newStringOfUnits (us : List UInt16) (hlen : us.length < 4294967296)
    (hroom : w.memory.next + (Layout.structureSize + Layout.cellSize +
      Memory.roundUp (2 * us.length)) ≤ limit) :
    ∃ c w' h' y, runs (newStringOfUnits us) w = (.ok (.ofCell c), w') ∧ h c = none ∧
      w.Changes limit h (Layout.structureSize + Layout.cellSize + Memory.roundUp (2 * us.length)) c
        w' h' y (.blank Structure.stringKey) ∧
      h'.contents (.blank Structure.stringKey) y = us.map (fun u => .ofInt32 u.toUInt32.toInt32) ∧
      w.Keeps w' := by
  obtain ⟨s, w₁, h₁, hrun₁, hh₁, hg₁, hgrows₁, hs₁, hkeeps₁⟩ :=
    hw.houses.runs_stringStructure (by omega)
  have hnext₁ := hgrows₁.next
  obtain ⟨c, w₂, hrun₂, hnone₂, hh₂, hgrows₂, hkeeps₂⟩ := hh₁.runs_newCell (by omega) s
  have hnext₂ := hgrows₂.next
  have hzeros : (Item.words 2 (List.replicate us.length 0)).extent =
      Memory.roundUp (2 * us.length) := by rw [Item.extent, List.length_replicate]
  obtain ⟨a, m₃, hrun₃, ha, hnext₃, hm₃⟩ :=
    hh₂.memory.runs_alloc (by omega) (Item.blank_words 2 us.length) hzeros
  have hac : c ≠ a := by
    rintro rfl
    rw [Heap.set_self] at ha
    cases ha
  have hunits : ∀ y ∈ us.map UInt16.toNat, y < 256 ^ 2 := by
    intro y hy
    obtain ⟨u, -, rfl⟩ := List.mem_map.mp hy
    exact u.toNat_lt
  obtain ⟨m₄, hrun₄, hm₄, hnext₄⟩ := Memory.Houses.runs_writeWords (w := w₂.withMemory m₃) (k := 0)
    hm₃ Heap.set_self (by simp) hunits
  rw [Heap.set_set, List.take_zero, List.nil_append] at hm₄
  change runs (writeWords 2 (a + 0) _) _ = (_, w₂.withMemory m₄) at hrun₄
  rw [UInt64.add_zero] at hrun₄
  have hcell₄ : ((h₁.set c (.cell ⟨s, 0, 0, fun _ => .empty⟩)).set a
      (.words 2 (us.map UInt16.toNat))).cell? c = some ⟨s, 0, 0, fun _ => .empty⟩ := by
    rw [Heap.cell?_eq_some, Heap.set_of_ne hac, Heap.set_self]
  obtain ⟨m₅, hrun₅, hm₅, hnext₅⟩ := Memory.Houses.runs_setStorage (w := w₂.withMemory m₄)
    (v := .ofCell c) hm₄ hcell₄ a
  obtain ⟨m₆, hrun₆, hm₆, hnext₆⟩ := Memory.Houses.runs_setCellLength (w := w₂.withMemory m₅)
    (v := .ofCell c) hm₅ (Heap.cell?_eq_some.mpr Heap.set_self) (UInt32.ofNat us.length)
  rw [Heap.set_set] at hm₆
  have hcount : (us.map UInt16.toNat).length = us.length := List.length_map _
  change runs (setStorage (.ofCell c) a) _ = (_, w₂.withMemory m₅) at hrun₅
  change runs (setCellLength (.ofCell c) _) _ = (_, w₂.withMemory m₆) at hrun₆
  obtain ⟨h', hchanges, hitem⟩ := hw.creates_words (n := Layout.structureSize + Layout.cellSize +
    Memory.roundUp (2 * us.length)) (m := m₆) hg₁ hnone₂ hh₂ ha (hcount.symm ▸ hm₆)
    ⟨by
      show m₆.next ≤ _
      have h₄ : m₄.next = m₃.next := hnext₄
      have h₅ : m₅.next = m₄.next := hnext₅
      have h₆ : m₆.next = m₅.next := hnext₆
      omega, fun ht => hgrows₂.transitions (hgrows₁.transitions ht)⟩ hs₁ (by rwa [hcount]) rfl
    (.inl ⟨rfl, rfl⟩)
  refine ⟨c, _, h', _, ?_, hg₁.free hnone₂, hchanges, ?_, (hkeeps₁.trans hkeeps₂).withMemory _⟩
  · rw [newStringOfUnits, runs_bind_of_ok hrun₁, runs_bind_of_ok hrun₂, runs_bind_of_ok hrun₃,
      runs_bind_of_ok hrun₄, runs_bind_of_ok hrun₅,
      runs_bind_of_ok (runs_count32 hlen .string), runs_bind_of_ok hrun₆]
    rfl
  · show (h'.wordsAt a).map _ = _
    rw [Heap.wordsAt, hitem]
    simp only [List.map_map, Function.comp_def, UInt16.ofNat_toNat]

lemma runs_newTypedArray {type : CellType} {size : Nat}
    (htype : type = .int32Array ∧ size = 4 ∨ type = .float64Array ∧ size = 8) (ys : List Nat)
    (hys : ∀ y ∈ ys, y < 256 ^ size) (hlen : ys.length < 4294967296)
    (hroom : w.memory.next + (Layout.structureSize + Layout.cellSize +
      Memory.roundUp (size * ys.length)) ≤ limit) :
    ∃ s c a w' h', runs (newTypedArray type size ys) w = (.ok (.ofCell c), w') ∧ h c = none ∧
      w.Changes limit h (Layout.structureSize + Layout.cellSize + Memory.roundUp (size * ys.length)) c
        w' h' ⟨s, a, UInt32.ofNat ys.length, fun _ => .empty⟩ ⟨type, Indexing.none, 0, .null, []⟩ ∧
      h' a = some (.words size ys) ∧ w.Keeps w' := by
  let e : Structure := ⟨type, Indexing.none, 0, .null, []⟩
  obtain ⟨s, w₁, hrun₁, hh₁, hnone₁, hnext₁, htransitions₁, -, -, hkeeps₁⟩ :=
    hw.houses.runs_newStructure (by omega) e ⟨List.nodup_nil, Nat.zero_le _⟩
  have hg₁ := Heap.gains_set (i := .description e) hnone₁ nofun
  have hs₁ : (h.set s (.description e)).structure? s = some e :=
    Heap.structure?_eq_some.mpr Heap.set_self
  obtain ⟨c, w₂, hrun₂, hnone₂, hh₂, hgrows₂, hkeeps₂⟩ := hh₁.runs_newCell (by omega) s
  generalize h.set s (.description e) = h₁ at *
  have hnext₂ := hgrows₂.next
  have hzeros : (Item.words size (List.replicate ys.length 0)).extent =
      Memory.roundUp (size * ys.length) := by rw [Item.extent, List.length_replicate]
  obtain ⟨a, m₃, hrun₃, ha, hnext₃, hm₃⟩ :=
    hh₂.memory.runs_alloc (by omega) (Item.blank_words size ys.length) hzeros
  have hac : c ≠ a := by
    rintro rfl
    rw [Heap.set_self] at ha
    cases ha
  have hcell₃ : ((h₁.set c (.cell ⟨s, 0, 0, fun _ => .empty⟩)).set a
      (.words size (List.replicate ys.length 0))).cell? c = some ⟨s, 0, 0, fun _ => .empty⟩ := by
    rw [Heap.cell?_eq_some, Heap.set_of_ne hac, Heap.set_self]
  obtain ⟨m₄, hrun₄, hm₄, hnext₄⟩ := Memory.Houses.runs_setStorage (w := w₂.withMemory m₃)
    (v := .ofCell c) hm₃ hcell₃ a
  obtain ⟨m₅, hrun₅, hm₅, hnext₅⟩ := Memory.Houses.runs_setCellLength (w := w₂.withMemory m₄)
    (v := .ofCell c) hm₄ (Heap.cell?_eq_some.mpr Heap.set_self) (UInt32.ofNat ys.length)
  rw [Heap.set_set] at hm₅
  obtain ⟨m₆, hrun₆, hm₆, hnext₆⟩ := Memory.Houses.runs_writeWords (w := w₂.withMemory m₅)
    (a := a) (k := 0) hm₅ (by
      rw [Value.ofCell, Heap.set_of_ne hac.symm, Heap.set_self])
    (by simp) hys
  rw [List.take_zero, List.nil_append, Value.ofCell, ← Heap.set_comm hac.symm, Heap.set_set] at hm₆
  change runs (writeWords size (a + UInt64.ofNat (size * 0)) _) _ = _ at hrun₆
  rw [Nat.mul_zero, show UInt64.ofNat 0 = 0 from rfl, UInt64.add_zero] at hrun₆
  change runs (setStorage (.ofCell c) a) _ = (_, w₂.withMemory m₄) at hrun₄
  change runs (setCellLength (.ofCell c) _) _ = (_, w₂.withMemory m₅) at hrun₅
  change runs (writeWords size a _) _ = (_, w₂.withMemory m₆) at hrun₆
  obtain ⟨h', hchanges, hitem⟩ := hw.creates_words (e := e) (n := Layout.structureSize +
    Layout.cellSize + Memory.roundUp (size * ys.length)) (m := m₆) hg₁ hnone₂ hh₂ ha hm₆
    ⟨by
      show m₆.next ≤ _
      have h₄ : m₄.next = m₃.next := hnext₄
      have h₅ : m₅.next = m₄.next := hnext₅
      have h₆ : m₆.next = m₅.next := hnext₆
      omega, fun ht => hgrows₂.transitions (htransitions₁ ▸ ht)⟩ hs₁ hlen rfl (.inr htype)
  refine ⟨s, c, a, _, h', ?_, hg₁.free hnone₂, hchanges, hitem, (hkeeps₁.trans hkeeps₂).withMemory _⟩
  rw [newTypedArray, runs_bind_of_ok hrun₁, runs_bind_of_ok hrun₂, runs_bind_of_ok hrun₃,
    runs_bind_of_ok hrun₄, runs_bind_of_ok (runs_count32 hlen .typedArray), runs_bind_of_ok hrun₅,
    runs_bind_of_ok hrun₆]
  rfl

end Sound

end World

end Speculation
