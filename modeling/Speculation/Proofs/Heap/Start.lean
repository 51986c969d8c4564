import Speculation.Proofs.Heap.Operations
import Speculation.Proofs.World.Pages

/-!
The heap before anything has run.

At the start nothing is allocated but the context record and the strings of one character.
-/

namespace Speculation

namespace Memory

/-- Nothing is allocated in new memory. -/
lemma houses_new {limit : Nat} (hlow : heapBase ≤ limit) (hlimit : limit ≤ 281474976710656) :
    new.Houses limit fun _ => none where
  item := nofun
  mapped := nofun
  low := nofun
  high := nofun
  aligned := nofun
  apart := nofun
  base := Nat.le_refl _
  next := rfl
  room := hlow
  fresh {a} _ _ := by
    have htop := World.stackTop_eq
    have hstack := World.stackSize_eq
    have hpage := pageSize_eq
    have hsize : UInt64.size = 18446744073709551616 := rfl
    have hnone : isMapped { next := heapBase } a = false := Std.TreeMap.contains_emptyc
    by_cases hin : stackTop - stackSize ≤ a.toNat ∧ a.toNat < stackTop
    · right
      rw [byte?_new, if_pos hin]
    · left
      rw [new, isMapped_map (by omega), hnone, Bool.false_or, decide_eq_false_iff_not, htop, hstack, hpage]
      rw [htop, hstack] at hin
      omega
  bounded := hlimit

end Memory

namespace World

variable {w : World} {h : Heap} {limit k n : Nat} {a : UInt64} {ns : List Nat}

/-- Words are added, or changed. -/
lemma Sound.setWords {m : Memory} {ms : List Nat} (hw : w.Sound limit h)
    (hm : m.Houses limit (h.set a (.words 8 ms))) (ha : h a = none ∨ h a = some (.words 8 ns))
    (hlen : ms.length = ns.length) : (w.withMemory m).Sound limit (h.set a (.words 8 ms)) where
  houses := hw.houses.withMemory hm (Heap.structure?_set nofun (by
    rcases ha with ha | ha <;> rw [Heap.structure?, ha]))
  formed := hw.formed.setWords ha hlen

lemma Sound.runs_alloc (hw : w.Sound limit h) (hroom : w.memory.next + Memory.roundUp n ≤ limit) :
    ∃ a m, runs (alloc n) w = (.ok a, w.withMemory m) ∧ h a = none ∧
      m.next = w.memory.next + Memory.roundUp n ∧
      (w.withMemory m).Sound limit (h.set a (.zeros n)) := by
  obtain ⟨a, m, hrun, hnone, hnext, hm⟩ := hw.houses.memory.runs_alloc_zeros hroom
  exact ⟨a, m, hrun, hnone, hnext, hw.setWords hm (.inl hnone) rfl⟩

lemma Sound.runs_setWord (hw : w.Sound limit h) (ha : h a = some (.words 8 ns)) (hk : k < ns.length)
    (y : UInt64) : ∃ m, runs (write64 (a + UInt64.ofNat (8 * k)) y) w = (.ok (), w.withMemory m) ∧
      (w.withMemory m).Sound limit (h.set a (.words 8 (ns.set k y.toNat))) ∧
      m.next = w.memory.next := by
  obtain ⟨m, hrun, hm, hnext⟩ := hw.houses.memory.runs_setWord ha hk y.toNat_lt
  exact ⟨m, hrun, hw.setWords hm (.inr ha) (List.length_set ..), hnext⟩

def characterSize : Nat := Layout.structureSize + Layout.cellSize + Memory.roundUp 2

end World

/-- The strings of the characters `us` are in the table at `a`, and there are no cells but strings. -/
structure Heap.Lettered (h : Heap) (a : UInt64) (ns us : List Nat) : Prop where
  table : h a = some (.words 8 ns)
  string {c : UInt64} {x : Cell} (hc : h.cell? c = some x) :
    h.structure? x.kind = some (.blank Structure.stringKey)
  entry {u : Nat} (hu : u ∈ us) : ∃ (c : UInt64) (x : Cell), ns[u]? = some c.toNat ∧ h.cell? c = some x

namespace Heap

variable {h : Heap} {a b : UInt64} {i : Item} {ks ns us : List Nat}

lemma cell?_setWords {size : Nat} (ha : h.cell? a = none) :
    (h.set a (.words size ns)).cell? = h.cell? := by
  funext b
  by_cases hab : b = a
  · subst hab
    rw [ha, cell?, set_self]
  · rw [cell?, set_of_ne hab, cell?]

lemma cell?_eq_none (ha : h a = none) : h.cell? a = none := by
  rw [cell?, ha]

lemma cell?_of_words {size : Nat} (ha : h a = some (.words size ns)) : h.cell? a = none := by
  rw [cell?, ha]

lemma Lettered.of_no_cells (ha : h a = some (.words 8 ns)) (hc : h.cell? = fun _ => none) :
    h.Lettered a ns [] where
  table := ha
  string hb := by
    rw [hc] at hb
    cases hb
  entry := nofun

lemma Lettered.setWords (hl : h.Lettered a ns us) (hb : h b = some (.words 8 ks)) (hba : b ≠ a)
    (ms : List Nat) : (h.set b (.words 8 ms)).Lettered a ns us := by
  have hcells : (h.set b (.words 8 ms)).cell? = h.cell? := cell?_setWords (cell?_of_words hb)
  have hstructures : (h.set b (.words 8 ms)).structure? = h.structure? :=
    structure?_set nofun (by rw [structure?, hb])
  refine ⟨(set_of_ne hba.symm).trans hl.table, fun {c x} hc => ?_, fun {u} hu => ?_⟩
  · rw [hstructures]
    exact hl.string (hcells ▸ hc)
  · rw [hcells]
    exact hl.entry hu

end Heap

namespace World

variable {w w' : World} {h h' : Heap} {limit k n u : Nat} {a c : UInt64} {ns ms us : List Nat} {y : Cell}

/-- A new string is put into the table. -/
lemma Changes.lettered (hc : w.Changes limit h n c w' h' y (.blank Structure.stringKey))
    (hnone : h c = none) (hl : h.Lettered a ns us) (hu : u < ns.length) :
    (h'.set a (.words 8 (ns.set u c.toNat))).Lettered a (ns.set u c.toNat) (u :: us) := by
  have hca : c ≠ a := by
    rintro rfl
    rw [hl.table] at hnone
    cases hnone
  have hcells : (h'.set a (.words 8 (ns.set u c.toNat))).cell? = h'.cell? :=
    Heap.cell?_setWords (Heap.cell?_of_words (hc.touches.words hl.table))
  have hstructures : (h'.set a (.words 8 (ns.set u c.toNat))).structure? = h'.structure? :=
    Heap.structure?_set nofun (by rw [Heap.structure?, hc.touches.words hl.table])
  refine ⟨Heap.set_self, fun {b x} hb => ?_, fun {v} hv => ?_⟩
  · rw [hcells] at hb
    rw [hstructures]
    by_cases hbc : b = c
    · subst hbc
      obtain rfl : y = x := Option.some.inj (hc.cell.symm.trans hb)
      exact hc.kind
    · exact hc.touches.structure? (hl.string (Heap.cell?_eq_some.mpr
        (hc.touches.cells (Heap.cell?_eq_some.mp hb) hbc)))
  · rw [hcells]
    by_cases hvu : v = u
    · subst hvu
      exact ⟨c, y, List.getElem?_set_self hu, hc.cell⟩
    · obtain ⟨b, x, hb, hx⟩ := hl.entry ((List.mem_cons.mp hv).resolve_left hvu)
      have hbc : b ≠ c := by
        rintro rfl
        rw [Heap.cell?_eq_some, hnone] at hx
        cases hx
      exact ⟨b, x, (List.getElem?_set_ne (Ne.symm hvu)).trans hb, hc.touches.cell?_of_ne hx hbc⟩

/-- The table is filled from one character on. -/
lemma runs_fillCharacters (hw : w.Sound limit h) (hl : h.Lettered a ns ms) (us : List Nat)
    (hus : ∀ u ∈ us, u < ns.length) (hroom : w.memory.next + us.length * characterSize ≤ limit) :
    ∃ w' h' ns', runs (fillCharacters a us) w = (.ok (), w') ∧ w'.Sound limit h' ∧
      w'.context = w.context ∧ w'.memory.next ≤ w.memory.next + us.length * characterSize ∧
      (∀ {b : UInt64} {ks : List Nat}, b ≠ a → h b = some (.words 8 ks) → h' b = some (.words 8 ks)) ∧
      h'.Lettered a ns' (us.reverse ++ ms) := by
  induction us generalizing w h ns ms with
  | nil => exact ⟨w, h, ns, rfl, hw, rfl, Nat.le_add_right _ _, fun _ hb => hb, hl⟩
  | cons u us ih =>
    obtain ⟨hu, hus⟩ := List.forall_mem_cons.mp hus
    rw [List.length_cons, Nat.succ_mul] at hroom ⊢
    have hsize : Layout.structureSize + Layout.cellSize + Memory.roundUp (2 * [UInt16.ofNat u].length) =
        characterSize := rfl
    obtain ⟨c, w₁, h₁, y, hrun₁, hnone, hchanges, -, hkeeps⟩ :=
      hw.runs_newStringOfUnits [UInt16.ofNat u] (Nat.succ_lt_succ (Nat.succ_pos _)) (by rw [hsize]; omega)
    have hnext₁ := hchanges.grows.next
    rw [hsize] at hnext₁
    obtain ⟨m₂, hrun₂, hw₂, hnext₂⟩ :=
      hchanges.sound.runs_setWord (hchanges.touches.words hl.table) hu (Value.ofCell c).bits
    obtain ⟨w₃, h₃, ns₃, hrun₃, hw₃, hcontext, hnext₃, hkept, hl₃⟩ := ih hw₂
      (hchanges.lettered hnone hl hu) (fun v hv => by rw [List.length_set]; exact hus v hv)
      (by show m₂.next + _ ≤ _; omega)
    refine ⟨w₃, h₃, ns₃, ?_, hw₃, hcontext.trans hkeeps.context, ?_, fun {b ks} hba hb => ?_, ?_⟩
    · rw [fillCharacters, runs_bind_of_ok hrun₁, writeValue, runs_bind_of_ok hrun₂]
      exact hrun₃
    · refine hnext₃.trans ?_
      show m₂.next + _ ≤ _
      omega
    · exact hkept hba (by rw [Heap.set_of_ne hba, hchanges.touches.words hb])
    · rwa [List.reverse_cons, List.append_assoc]

/-- The world after a run. It mentions `setup` to be as deep a definition as `start`: the kernel then
unfolds both at once and compares them, where it would otherwise evaluate the run. -/
def ending (x : Run Unit) (w : World) : World :=
  have _ := setup
  (x.run.run w).2

lemma ending_eq (x : Run Unit) (w : World) : ending x w = (runs x w).2 := rfl

lemma start_eq : start = (runs setup {}).2 :=
  have h : start = ending setup {} := rfl
  h.trans (ending_eq setup {})

/-- Nothing is allocated in a new world. -/
lemma sound_empty {limit : Nat} (hlow : Memory.heapBase ≤ limit) (hlimit : limit ≤ 281474976710656) :
    World.Sound {} limit fun _ => none :=
  ⟨⟨Memory.houses_new hlow hlimit, fun _ => rfl, nofun, nofun, nofun, nofun⟩, nofun, nofun⟩

def startSize : Nat := 32768

variable (limit) in
/-- Before anything has run there is a table of strings, which takes up little room. -/
lemma lettered_start (hlow : Memory.heapBase + startSize ≤ limit) (hlimit : limit ≤ 281474976710656) :
    ∃ h t ns, start.Sound limit h ∧ start.memory.next ≤ Memory.heapBase + startSize ∧
      h.Lettered t ns (List.range 256).reverse ∧
      start.memory.read? 8 (start.context + UInt64.ofNat Context.singleCharacters) = some t.toNat := by
  have hstart : startSize = 32768 := rfl
  have hempty := sound_empty (show Memory.heapBase ≤ limit by omega) hlimit
  have hbase : ({} : World).memory.next = Memory.heapBase := rfl
  have hcontext : Memory.roundUp Context.size = 24 := rfl
  have htable : Memory.roundUp (8 * 256) = 2048 := rfl
  have hcharacters : (List.range 256).length * characterSize = 28672 := by
    rw [List.length_range]
    rfl
  obtain ⟨c, m₁, hrun₁, -, hnext₁, hw₁⟩ := hempty.runs_alloc (n := Context.size) (by omega)
  let w₁ : World := { ({} : World).withMemory m₁ with context := c }
  have hw₁' : w₁.Sound limit _ := ⟨hw₁.houses.congr hw₁.houses.memory rfl rfl rfl rfl rfl, hw₁.formed⟩
  obtain ⟨m₂, hrun₂, hw₂, hnext₂⟩ := hw₁'.runs_setWord (k := 0) Heap.set_self (by decide)
    Memory.stackLimit
  have h₂ : m₂.next = m₁.next := hnext₂
  obtain ⟨t, m₃, hrun₃, ht, hnext₃, hw₃⟩ := hw₂.runs_alloc (n := 8 * 256) (by
    show m₂.next + _ ≤ _
    omega)
  have h₃ : m₃.next = m₂.next + Memory.roundUp (8 * 256) := hnext₃
  have hct : c ≠ t := by
    rintro rfl
    rw [Heap.set_self] at ht
    cases ht
  -- there are no cells yet
  obtain ⟨w₄, h₄, ns, hrun₄, hw₄, hcontext₄, hnext₄, hkept, hl₄⟩ := runs_fillCharacters hw₃
    (.of_no_cells Heap.set_self ((Heap.cell?_setWords (Heap.cell?_eq_none ht)).trans
      ((Heap.cell?_setWords (Heap.cell?_of_words Heap.set_self)).trans (Heap.cell?_setWords rfl))))
    (List.range 256) (fun u hu => by
      rw [List.length_replicate, htable]
      exact List.mem_range.mp hu) (by
      show m₃.next + _ ≤ _
      omega)
  have hnext₄' : w₄.memory.next ≤ m₃.next + (List.range 256).length * characterSize := hnext₄
  have hc₄ := hkept hct (by rw [Heap.set_of_ne hct, Heap.set_self])
  obtain ⟨m₅, hrun₅, hw₅, hnext₅⟩ := hw₄.runs_setWord (k := 2) hc₄ (by decide) t
  have hrun : runs setup {} = (.ok (), w₄.withMemory m₅) := by
    have hfield : runs (contextField Context.stackLimit) w₁ = (.ok (c + UInt64.ofNat (8 * 0)), w₁) :=
      rfl
    have hfield₄ : runs (contextField Context.singleCharacters) w₄ =
        (.ok (c + UInt64.ofNat (8 * 2)), w₄) := by
      rw [contextField, runs_bind_of_ok runs_get, hcontext₄]
      rfl
    rw [setup, runs_bind_of_ok hrun₁, runs_bind_of_ok (runs_modify _), setStackLimit,
      runs_bind_of_ok ((runs_bind_of_ok hfield).trans hrun₂), runs_bind_of_ok hrun₃,
      runs_bind_of_ok hrun₄, runs_bind_of_ok hfield₄]
    exact hrun₅
  have heq : start = w₄.withMemory m₅ := by rw [start_eq, hrun]
  refine ⟨_, t, ns, heq ▸ hw₅, ?_, (List.append_nil _ ▸ hl₄).setWords hc₄ hct _, ?_⟩
  · rw [heq]
    show m₅.next ≤ _
    omega
  · have hword := hw₅.houses.memory.item Heap.set_self 2 t.toNat (List.getElem?_set_self (by decide))
    rw [heq]
    show m₅.read? 8 (w₄.context + _) = _
    rw [hcontext₄]
    exact hword

variable (limit) in
/-- The heap is sound before anything has run, and takes up little room. -/
lemma sound_start (hlow : Memory.heapBase + startSize ≤ limit) (hlimit : limit ≤ 281474976710656) :
    ∃ h, start.Sound limit h ∧ start.memory.next ≤ Memory.heapBase + startSize := by
  obtain ⟨h, t, ns, hw, hnext, -⟩ := lettered_start limit hlow hlimit
  exact ⟨h, hw, hnext⟩

end World

end Speculation
