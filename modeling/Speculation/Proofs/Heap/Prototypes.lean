import Speculation.Proofs.Heap.Histories
import Mathlib.Data.List.ProdSigma

/-!
Prototype chains.

A cell is made with a prototype that was there before, or with none, and keeps it whatever structure it
gets later. So every chain of prototypes ends, and a search along it does, too. `Heap.Line` is a chain
as it is in the heap, and `World.Ancestors` is one as it is read.
-/

namespace Speculation

namespace Heap

variable {h h' : Heap} {v p : Value} {ps qs : List Value} {x : Cell} {d : Structure}

/-- The prototypes of a cell, the next one first; the last of them has none. -/
inductive Line (h : Heap) : Value → List Value → Prop where
  | last {v : Value} {x : Cell} {d : Structure} (hv : h.cell? v.bits = some x)
    (hs : h.structure? x.kind = some d) (hp : d.prototype = .null) : Line h v []
  | next {v : Value} {x : Cell} {d : Structure} {ps : List Value} (hv : h.cell? v.bits = some x)
    (hs : h.structure? x.kind = some d) (hp : d.prototype.isCell = true)
    (hl : Line h d.prototype ps) : Line h v (d.prototype :: ps)

namespace Line

lemma cell (hl : h.Line v ps) : ∃ x, h.cell? v.bits = some x := by
  cases hl with
  | last hv => exact ⟨_, hv⟩
  | next hv => exact ⟨_, hv⟩

/-- There is only one chain from a cell. -/
lemma unique (hl : h.Line v ps) (hl' : h.Line v qs) : ps = qs := by
  induction hl generalizing qs with
  | last hv hs hp =>
    cases hl' with
    | last => rfl
    | next hv' hs' hp' =>
      rw [hv, Option.some.injEq] at hv'
      subst hv'
      rw [hs, Option.some.injEq] at hs'
      subst hs'
      rw [hp] at hp'
      cases hp'
  | next hv hs hp hl ih =>
    cases hl' with
    | last hv' hs' hp' =>
      rw [hv, Option.some.injEq] at hv'
      subst hv'
      rw [hs, Option.some.injEq] at hs'
      subst hs'
      rw [hp'] at hp
      cases hp
    | next hv' hs' hp' hl' =>
      rw [hv, Option.some.injEq] at hv'
      subst hv'
      rw [hs, Option.some.injEq] at hs'
      subst hs'
      rw [ih hl']

/-- The chain from a prototype is a shorter one. -/
lemma of_mem (hl : h.Line v ps) (hp : p ∈ ps) : ∃ qs, h.Line p qs ∧ qs.length < ps.length := by
  induction hl with
  | last => cases hp
  | next hv hs _ hl ih =>
    rcases List.mem_cons.mp hp with rfl | hp
    · exact ⟨_, hl, Nat.lt_succ_self _⟩
    · obtain ⟨qs, hq, hlt⟩ := ih hp
      exact ⟨qs, hq, Nat.lt_succ_of_lt hlt⟩

/-- No cell is a prototype of its own. -/
lemma not_mem (hl : h.Line v ps) : v ∉ ps := by
  intro hv
  obtain ⟨qs, hq, hlt⟩ := hl.of_mem hv
  rw [hl.unique hq] at hlt
  exact Nat.lt_irrefl _ hlt

lemma nodup (hl : h.Line v ps) : ps.Nodup := by
  induction hl with
  | last => exact List.nodup_nil
  | next _ _ _ hl ih => exact List.nodup_cons.mpr ⟨hl.not_mem, ih⟩

/-- Chains stay as long as cells keep their prototypes. -/
lemma mono (hl : h.Line v ps) (hkeep : ∀ {c x d}, h.cell? c = some x → h.structure? x.kind = some d →
    ∃ y e, h'.cell? c = some y ∧ h'.structure? y.kind = some e ∧ e.prototype = d.prototype) :
    h'.Line v ps := by
  induction hl with
  | last hv hs hp =>
    obtain ⟨y, e, hy, he, heq⟩ := hkeep hv hs
    exact .last hy he (heq ▸ hp)
  | next hv hs hp _ ih =>
    obtain ⟨y, e, hy, he, heq⟩ := hkeep hv hs
    rw [← heq] at hp ih ⊢
    exact .next hy he hp ih

end Line

end Heap

/-- A chain has no more cells than there are addresses. -/
lemma Memory.Houses.length_le {m : Memory} {limit : Nat} {h : Heap} {v : Value} {ps : List Value}
    (hm : m.Houses limit h) (hl : h.Line v ps) : ps.length ≤ m.pages.size * Memory.pageSize := by
  let place : Value → UInt64 × Nat := fun p => (Memory.pageOf p.bits, Memory.placeOf p.bits)
  have hpage : ∀ a, (Memory.pageOf a).toNat = a.toNat / 4096 := fun a => UInt64.toNat_div _ _
  have hplace : ∀ a, Memory.placeOf a = a.toNat % 4096 := fun a => UInt64.toNat_mod _ _
  have hinj : Function.Injective place := by
    rintro ⟨a⟩ ⟨b⟩ hab
    obtain ⟨hpages, hplaces⟩ := Prod.mk.inj hab
    have hpages := congrArg UInt64.toNat hpages
    rw [hpage, hpage] at hpages
    rw [hplace, hplace] at hplaces
    refine congrArg Value.mk (UInt64.toNat_inj.mp ?_)
    dsimp only at hpages hplaces
    omega
  have hsub : ps.map place ⊆ m.pages.keys ×ˢ List.range Memory.pageSize := by
    intro z hz
    obtain ⟨p, hp, rfl⟩ := List.mem_map.mp hz
    obtain ⟨qs, hq, -⟩ := hl.of_mem hp
    obtain ⟨x, hx⟩ := hq.cell
    have hbyte := hm.mapped (Heap.cell?_eq_some.mp hx) 0 (Item.extent_pos _)
    rw [show p.bits + UInt64.ofNat 0 = p.bits from UInt64.add_zero _] at hbyte
    refine List.pair_mem_product.mpr ⟨?_, List.mem_range.mpr ?_⟩
    · rw [Std.TreeMap.mem_keys, ← Std.TreeMap.contains_iff_mem]
      exact Memory.isMapped_of_byte? hbyte
    · rw [hplace]
      exact Nat.mod_lt _ (by decide)
  have hle := (List.subperm_of_subset (hl.nodup.map hinj) hsub).length_le
  rwa [List.length_map, List.length_product, Std.TreeMap.length_keys, List.length_range] at hle

/-! ### Chains along operations -/

inductive Act where
  | operate (op : Operation)
  | string (units : List UInt16)
  | int32Array (elements : List Int32)
  | float64Array (elements : List Double)

namespace World

def Character (v : Value) : Prop := ∃ u, (runs (singleCharacter? u) start).1 = .ok (some v)

/-- A cell that was made on the way, or that was there from the start. -/
def Existing (cells : List Value) (v : Value) : Prop := v ∈ cells ∨ Character v

end World

namespace Act

def perform : Act → Run (List Value)
  | operate op => op.perform
  | string units => return [← World.newStringOfUnits units]
  | int32Array elements => return [← World.newInt32Array elements]
  | float64Array elements => return [← World.newFloat64Array elements]

/-- What is changed is a cell that there is, and so is a prototype, unless it is null. -/
def Legal (cells : List Value) : Act → Prop
  | operate (.object p) => p = .null ∨ World.Existing cells p
  | operate op => ∀ v, op.target? = some v → World.Existing cells v
  | _ => True

def cost : Act → Nat
  | operate op => op.cost
  | string units => Layout.structureSize + Layout.cellSize + Memory.roundUp (2 * units.length)
  | int32Array elements => Layout.structureSize + Layout.cellSize + Memory.roundUp (4 * elements.length)
  | float64Array elements => Layout.structureSize + Layout.cellSize + Memory.roundUp (8 * elements.length)

end Act

namespace World

variable {w w' w₁ : World} {h h' : Heap} {limit n : Nat} {v p : Value} {ps qs cells new : List Value}
  {x y : Cell} {d e : Structure} {c : UInt64} {act : Act} {op : Operation}

/-- Acts have led to a world, and have made these cells. Each had room for what it allocates. -/
inductive Grown : World → List Value → Prop where
  | start : Grown World.start []
  | step {w w' : World} {cells new : List Value} {act : Act} (h : Grown w cells)
    (hlegal : act.Legal cells) (hroom : w.memory.next + act.cost ≤ 281474976710656)
    (hrun : runs act.perform w = (.ok new, w')) : Grown w' (new ++ cells)

inductive Ancestors (w : World) : Value → List Value → Prop where
  | last {v p : Value} (hp : runs (prototype v) w = (.ok p, w)) (hc : p.isCell = false) : Ancestors w v []
  | next {v p : Value} {ps : List Value} (hp : runs (prototype v) w = (.ok p, w)) (hc : p.isCell = true)
    (ha : Ancestors w p ps) : Ancestors w v (p :: ps)

/-- There is only one chain from a cell. -/
lemma Ancestors.unique (ha : w.Ancestors v ps) (ha' : w.Ancestors v qs) : ps = qs := by
  induction ha generalizing qs with
  | last hp hc =>
    cases ha' with
    | last => rfl
    | next hp' hc' =>
      rw [hp] at hp'
      cases hp'
      rw [hc] at hc'
      cases hc'
  | next hp hc _ ih =>
    cases ha' with
    | last hp' hc' =>
      rw [hp] at hp'
      cases hp'
      rw [hc] at hc'
      cases hc'
    | next hp' hc' ha' =>
      rw [hp] at hp'
      cases hp'
      rw [ih ha']

lemma runs_bind_eq_ok {α β : Type} {f : Run β} {g : β → Run α} {a : α}
    (h : runs (f >>= g) w = (.ok a, w')) : ∃ b w₁, runs f w = (.ok b, w₁) ∧ runs (g b) w₁ = (.ok a, w') := by
  rw [runs_bind] at h
  split at h
  · exact ⟨_, _, ‹_›, h⟩
  · cases h

/-- What a cell refers to is there, cells that are known are there, and every chain of prototypes
ends. -/
structure Settled (w : World) (cells : List Value) (h : Heap) : Prop where
  sound : w.Sound 281474976710656 h
  cell {v : Value} (hv : Existing cells v) : ∃ x, h.cell? v.bits = some x
  line {v : Value} {x : Cell} (hv : h.cell? v.bits = some x) : ∃ ps, h.Line v ps
  stocked {c : UInt64} {x : Cell} {d : Structure} (hc : h.cell? c = some x)
    (hs : h.structure? x.kind = some d) : x.Stocked d

namespace Settled

variable (hw : w.Settled cells h)
include hw

lemma changes {more : List Value} (hc : w.Changes 281474976710656 h n c w' h' y e)
    (hsame : ∀ {x d}, h.cell? c = some x → h.structure? x.kind = some d → e.prototype = d.prototype)
    (hproto : e.prototype = .null ∨ ∃ x, h.cell? e.prototype.bits = some x) (hstock : y.Stocked e)
    (hmore : ∀ v, Existing more v → v.bits = c ∨ Existing cells v) : w'.Settled more h' := by
  have hkeep : ∀ {b x d}, h.cell? b = some x → h.structure? x.kind = some d →
      ∃ y e, h'.cell? b = some y ∧ h'.structure? y.kind = some e ∧ e.prototype = d.prototype := by
    intro b x d hx hd
    by_cases hbc : b = c
    · subst hbc
      exact ⟨y, e, hc.cell, hc.kind, hsame hx hd⟩
    · exact ⟨x, d, hc.touches.cell?_of_ne hx hbc, hc.touches.structure? hd, rfl⟩
  refine ⟨hc.sound, fun {v} hv => ?_, fun {v x} hv => ?_, fun {b x d} hb hd => ?_⟩
  · rcases hmore v hv with rfl | hv
    · exact ⟨y, hc.cell⟩
    · obtain ⟨x, hx⟩ := hw.cell hv
      obtain ⟨d, hd, -⟩ := hw.sound.formed.kind hx
      obtain ⟨y, e, hy, -⟩ := hkeep hx hd
      exact ⟨y, hy⟩
  · by_cases hvc : v.bits = c
    · subst hvc
      rcases hproto with hnull | ⟨z, hz⟩
      · exact ⟨[], .last hc.cell hc.kind hnull⟩
      · obtain ⟨ps, hl⟩ := hw.line hz
        exact ⟨_, .next hc.cell hc.kind (hw.sound.houses.memory.isCell hz) (hl.mono hkeep)⟩
    · obtain ⟨ps, hl⟩ := hw.line (Heap.cell?_eq_some.mpr
        (hc.touches.cells (Heap.cell?_eq_some.mp hv) hvc))
      exact ⟨ps, hl.mono hkeep⟩
  · by_cases hbc : b = c
    · subst hbc
      obtain rfl : y = x := Option.some.inj (hc.cell.symm.trans hb)
      obtain rfl : e = d := Option.some.inj (hc.kind.symm.trans hd)
      exact hstock
    · have hx := Heap.cell?_eq_some.mpr (hc.touches.cells (Heap.cell?_eq_some.mp hb) hbc)
      obtain ⟨d', hd', -⟩ := hw.sound.formed.kind hx
      obtain rfl : d' = d := Option.some.inj ((hc.touches.structure? hd').symm.trans hd)
      exact hw.stocked hx hd'

lemma changed (hv : h.cell? c = some x) (hs : h.structure? x.kind = some d)
    (hc : w.Changes 281474976710656 h n c w' h' y e) (hp : e.prototype = d.prototype)
    (hstock : x.Stocked d → y.Stocked e) : w'.Settled cells h' := by
  refine hw.changes hc (fun {z f} hz hf => ?_) ?_ (hstock (hw.stocked hv hs)) fun _ => .inr
  · obtain rfl : x = z := Option.some.inj (hv.symm.trans hz)
    obtain rfl : d = f := Option.some.inj (hs.symm.trans hf)
    exact hp
  · -- the prototype is the next cell of the chain
    obtain ⟨ps, hl⟩ := hw.line (v := .ofCell c) hv
    cases hl with
    | last hz hf hnull =>
      obtain rfl : x = _ := Option.some.inj (hv.symm.trans hz)
      obtain rfl : d = _ := Option.some.inj (hs.symm.trans hf)
      exact .inl (hp.trans hnull)
    | next hz hf _ hl =>
      obtain rfl : x = _ := Option.some.inj (hv.symm.trans hz)
      obtain rfl : d = _ := Option.some.inj (hs.symm.trans hf)
      rw [hp]
      exact .inr hl.cell

lemma made (hnone : h c = none) (hc : w.Changes 281474976710656 h n c w' h' y e)
    (hp : e.prototype = .null ∨ ∃ x, h.cell? e.prototype.bits = some x) (hstock : y.Stocked e) :
    w'.Settled (.ofCell c :: cells) h' := by
  refine hw.changes hc (fun {z f} hz _ => ?_) hp hstock fun v hv => ?_
  · rw [Heap.cell?_eq_some, hnone] at hz
    cases hz
  · rcases hv with hv | hv
    · rcases List.mem_cons.mp hv with rfl | hv
      · exact .inl rfl
      · exact .inr (.inl hv)
    · exact .inr (.inr hv)

def Comes (cells : List Value) (act : Act) (w : World) : Prop :=
  ∀ new w', runs act.perform w = (.ok new, w') → ∃ h', w'.Settled (new ++ cells) h'

omit hw in
lemma comes {act : Act} {new : List Value} (hrun : runs act.perform w = (.ok new, w'))
    (hs : w'.Settled (new ++ cells) h') : Comes cells act w := by
  rintro new' w'' hrun'
  rw [hrun] at hrun'
  obtain ⟨hnew, rfl⟩ := Prod.mk.inj hrun'
  cases hnew
  exact ⟨h', hs⟩

omit hw in
lemma comes_of_error {act : Act} {f : Fault} (hrun : runs act.perform w = (.error f, w')) :
    Comes cells act w := by
  rintro new w'' hrun'
  rw [hrun] at hrun'
  cases hrun'

lemma comes_made {act : Act} (hrun : runs act.perform w = (.ok [.ofCell c], w')) (hnone : h c = none)
    (hc : w.Changes 281474976710656 h n c w' h' y e) (hp : e.prototype = .null)
    (hstock : y.Stocked e) : Comes cells act w :=
  comes hrun (hw.made hnone hc (.inl hp) hstock)

lemma comes_changed {act : Act} (hrun : runs act.perform w = (.ok [], w')) (hv : h.cell? c = some x)
    (hs : h.structure? x.kind = some d) (hc : w.Changes 281474976710656 h n c w' h' y e)
    (hp : e.prototype = d.prototype) (hstock : x.Stocked d → y.Stocked e) : Comes cells act w :=
  comes hrun (hw.changed hv hs hc hp hstock)

lemma object (hlegal : p = .null ∨ Existing cells p)
    (hroom : w.memory.next + (Operation.object p).cost ≤ 281474976710656) :
    Comes cells (.operate (.object p)) w := by
  have hcell : p = .null ∨ ∃ x, h.cell? p.bits = some x := hlegal.imp_right hw.cell
  have hkey : p.bits ≠ Structure.stringKey := by
    rcases hlegal with rfl | hp
    · decide
    · obtain ⟨x, hx⟩ := hw.cell hp
      have hlow := hw.sound.houses.memory.lt (Heap.cell?_eq_some.mp hx)
      have hhigh : Structure.stringKey.toNat = 18446744073709551615 := rfl
      intro hkey
      rw [hkey] at hlow
      omega
  obtain ⟨c, s, w', h', hrun, hnone, hchanges, -⟩ := hw.sound.runs_newObject hkey hroom
  exact comes (runs_bind_of_ok hrun) (hw.made hnone hchanges hcell (Cell.stocked_of_none rfl))

lemma array (shape : ArrayShape) (vs : List Value)
    (hroom : w.memory.next + (Operation.array shape vs).cost ≤ 281474976710656) :
    Comes cells (.operate (.array shape vs)) w := by
  obtain ⟨r, c, w', h', y, hrun, hnone, hchanges, -, hr⟩ := hw.sound.runs_newArray shape vs hroom
  rcases hr with ⟨⟨f, rfl⟩, -⟩ | ⟨rfl, hstock, -⟩
  · exact comes_of_error (runs_bind_of_error hrun)
  · exact hw.comes_made (runs_bind_of_ok hrun) hnone hchanges rfl hstock

/-- A function and its prototype are made without prototypes, and the function is changed then. -/
lemma function (f : Callable)
    (hroom : w.memory.next + (Operation.function f).cost ≤ 281474976710656) :
    Comes cells (.operate (.function f)) w := by
  have hcost : (Operation.function f).cost = 3 * Layout.structureSize + 2 * Layout.cellSize := rfl
  rcases Nat.lt_or_ge w.functions.size 4294967296 with hsize | hsize
  swap
  · obtain ⟨c, s, w', h', hrun, -⟩ := hw.sound.runs_newFunction_many f hsize (by omega)
    exact comes_of_error (runs_bind_of_error hrun)
  obtain ⟨c, p, s, t, s', w₁, w₂, w', h₁, h₂, h', hrun, hc, hp, hchanges₁, hchanges₂, hchanges₃, -⟩ :=
    hw.sound.runs_newFunction f hsize hroom
  have hcp : c ≠ p := by
    rintro rfl
    have hcell := Heap.cell?_eq_some.mp hchanges₁.cell
    rw [hp] at hcell
    cases hcell
  have hw₂ := (hw.made hc hchanges₁ (.inl rfl) (Cell.stocked_of_none rfl)).made hp hchanges₂ (.inl rfl)
    (Cell.stocked_of_none rfl)
  have hw' := hw₂.changed (hchanges₂.touches.cell?_of_ne hchanges₁.cell hcp)
    (hchanges₂.touches.structure? hchanges₁.kind) hchanges₃ rfl id
  have hget := hchanges₃.sound.houses.runs_getProperty (v := .ofCell c) hchanges₃.cell hchanges₃.kind
    (Cell.lookup_properties _ _ "prototype")
  have hperform : runs (Act.operate (.function f)).perform w = (.ok [.ofCell c, .ofCell p], w') :=
    (runs_bind_of_ok hrun).trans (runs_bind_of_ok hget)
  refine comes hperform
    ⟨hw'.sound, fun {v} hv => hw'.cell (hv.imp_left fun hv => ?_), hw'.line, hw'.stocked⟩
  simpa only [List.cons_append, List.nil_append, List.mem_cons, or_left_comm] using hv

lemma put {name : String} {z : Value} (hv : Existing cells v)
    (hroom : w.memory.next + (Operation.put v name z).cost ≤ 281474976710656) :
    Comes cells (.operate (.put v name z)) w := by
  obtain ⟨x, hx⟩ := hw.cell hv
  obtain ⟨d, hd, -⟩ := hw.sound.formed.kind hx
  by_cases hname : name ∈ d.properties
  · obtain ⟨k, hk⟩ := Structure.findIdx?_of_mem hname
    obtain ⟨w', h', hrun, hchanges, -⟩ := hw.sound.runs_putProperty_own hx hd hk z
    exact hw.comes_changed (runs_bind_of_ok hrun) hx hd hchanges rfl id
  rcases (hw.sound.houses.bounded hd).2.lt_or_eq with hlt | hfull
  · obtain ⟨t, w', h', hrun, hchanges, -⟩ :=
      hw.sound.runs_putProperty_add hx hd hname hlt hroom z
    exact hw.comes_changed (runs_bind_of_ok hrun) hx hd hchanges rfl id
  · exact comes_of_error
      (runs_bind_of_error (hw.sound.houses.runs_putProperty_full hx hd hname hfull z))

lemma operate (hlegal : (Act.operate op).Legal cells)
    (hroom : w.memory.next + op.cost ≤ 281474976710656) : Comes cells (.operate op) w := by
  cases op with
  | object p => exact hw.object hlegal hroom
  | array shape vs => exact hw.array shape vs hroom
  | function f => exact hw.function f hroom
  | put v name z => exact hw.put (hlegal v rfl) hroom
  | convert v shape =>
    obtain ⟨x, hx⟩ := hw.cell (hlegal v rfl)
    obtain ⟨d, hd, -⟩ := hw.sound.formed.kind hx
    obtain ⟨index, w', h', y, e, hrun, hchanges, -, -, hcases⟩ :=
      hw.sound.runs_ensureShape shape hd hx hroom
    rcases hcases with ⟨-, -, -, -, rfl, rfl⟩ | ⟨-, -, rfl, -, hstock, -⟩
    · exact hw.comes_changed (runs_bind_of_ok hrun) hx hd hchanges rfl id
    · exact hw.comes_changed (runs_bind_of_ok hrun) hx hd hchanges rfl hstock
  | masquerade v =>
    obtain ⟨x, hx⟩ := hw.cell (hlegal v rfl)
    obtain ⟨d, hd, -⟩ := hw.sound.formed.kind hx
    obtain ⟨t, w', h', hrun, hchanges, -⟩ := hw.sound.runs_masquerade hx hd hroom
    exact hw.comes_changed (runs_bind_of_ok hrun) hx hd hchanges rfl id
  | intercept v =>
    obtain ⟨x, hx⟩ := hw.cell (hlegal v rfl)
    obtain ⟨d, hd, -⟩ := hw.sound.formed.kind hx
    obtain ⟨t, w', h', hrun, hchanges, -⟩ := hw.sound.runs_interceptIndexing hx hd hroom
    exact hw.comes_changed (runs_bind_of_ok hrun) hx hd hchanges rfl id

/-- A string is as long as can be counted, or it is not made. -/
lemma string (us : List UInt16)
    (hroom : w.memory.next + (Act.string us).cost ≤ 281474976710656) : Comes cells (.string us) w := by
  rcases Nat.lt_or_ge us.length 4294967296 with hlen | hlen
  · obtain ⟨c, w', h', y, hrun, hnone, hchanges, -⟩ := hw.sound.runs_newStringOfUnits us hlen hroom
    exact hw.comes_made (runs_bind_of_ok hrun) hnone hchanges rfl (Cell.stocked_of_none rfl)
  · intro new w' hrun
    obtain ⟨v, w₁, hrun, -⟩ := runs_bind_eq_ok hrun
    obtain ⟨s, w₂, -, hrun⟩ := runs_bind_eq_ok hrun
    obtain ⟨c, w₃, -, hrun⟩ := runs_bind_eq_ok hrun
    obtain ⟨a, w₄, -, hrun⟩ := runs_bind_eq_ok hrun
    obtain ⟨-, w₅, -, hrun⟩ := runs_bind_eq_ok hrun
    obtain ⟨-, w₆, -, hrun⟩ := runs_bind_eq_ok hrun
    obtain ⟨n, w₇, hrun, -⟩ := runs_bind_eq_ok hrun
    rw [runs_count32_huge hlen] at hrun
    cases hrun

/-- A typed array is as long as can be counted, or it is not made. -/
lemma typedArray {type : CellType} {size : Nat}
    (htype : type = .int32Array ∧ size = 4 ∨ type = .float64Array ∧ size = 8) (ys : List Nat)
    (hys : ∀ y ∈ ys, y < 256 ^ size)
    (hroom : w.memory.next + act.cost ≤ 281474976710656)
    (hcost : act.cost = Layout.structureSize + Layout.cellSize + Memory.roundUp (size * ys.length))
    (hact : act.perform = do return [← newTypedArray type size ys]) : Comes cells act w := by
  rcases Nat.lt_or_ge ys.length 4294967296 with hlen | hlen
  · obtain ⟨s, c, a, w', h', hrun, hnone, hchanges, -⟩ :=
      hw.sound.runs_newTypedArray htype ys hys hlen (hcost ▸ hroom)
    exact hw.comes_made (hact ▸ runs_bind_of_ok hrun) hnone hchanges rfl (Cell.stocked_of_none rfl)
  · intro new w' hrun
    rw [hact] at hrun
    obtain ⟨v, w₁, hrun, -⟩ := runs_bind_eq_ok hrun
    obtain ⟨s, w₂, -, hrun⟩ := runs_bind_eq_ok hrun
    obtain ⟨c, w₃, -, hrun⟩ := runs_bind_eq_ok hrun
    obtain ⟨a, w₄, -, hrun⟩ := runs_bind_eq_ok hrun
    obtain ⟨-, w₅, -, hrun⟩ := runs_bind_eq_ok hrun
    obtain ⟨n, w₆, hrun, -⟩ := runs_bind_eq_ok hrun
    rw [runs_count32_huge hlen] at hrun
    cases hrun

/-- **Every act leaves chains that end.** -/
lemma perform (hlegal : act.Legal cells) (hroom : w.memory.next + act.cost ≤ 281474976710656) :
    Comes cells act w := by
  cases act with
  | operate op => exact hw.operate hlegal hroom
  | string us => exact hw.string us hroom
  | int32Array is =>
    refine hw.typedArray (.inl ⟨rfl, rfl⟩) (is.map fun i => i.toUInt32.toNat) (fun y hy => ?_)
      hroom (by rw [List.length_map]; rfl) (by rw [Act.perform, newInt32Array])
    obtain ⟨i, -, rfl⟩ := List.mem_map.mp hy
    exact i.toUInt32.toNat_lt
  | float64Array ds =>
    refine hw.typedArray (.inr ⟨rfl, rfl⟩) (ds.map fun d => d.bits.toNat) (fun y hy => ?_)
      hroom (by rw [List.length_map]; rfl) (by rw [Act.perform, newFloat64Array])
    obtain ⟨d, -, rfl⟩ := List.mem_map.mp hy
    exact d.bits.toNat_lt

end Settled

/-- The chain in the heap is the chain that is read. -/
lemma Houses.ancestors (hw : w.Houses limit h) (hl : h.Line v ps) : w.Ancestors v ps := by
  induction hl with
  | last hv hs hp => exact .last (hw.memory.runs_prototype hv hs) (hp ▸ rfl)
  | next hv hs hp _ ih => exact .next (hw.memory.runs_prototype hv hs) hp ih

section Searching

variable (hw : w.Sound limit h)
include hw

lemma Sound.runs_arrayLength (hv : h.cell? v.bits = some x) (hs : h.structure? x.kind = some d)
    (htype : d.type = .object) : ∃ n, runs (arrayLength v) w = (.ok n, w) := by
  have hst := hw.formed.stored hv hs
  rw [Heap.Stored, htype] at hst
  rcases hst with hzero | ⟨-, a, ws, ha, hx⟩
  · exact ⟨_, hw.houses.memory.runs_arrayLength_none hv hzero⟩
  · exact ⟨_, hw.houses.memory.runs_arrayLength hv ha hx⟩

/-- A search that may go on with the prototype ends at the cell, or goes on. -/
lemma Sound.runs_lookupProperty (hv : h.cell? v.bits = some x) (hs : h.structure? x.kind = some d)
    (name : String) {fuel : Nat}
    (hnext : ∃ z, runs (lookupProperty name fuel d.prototype) w = (.ok z, w)) :
    ∃ z, runs (lookupProperty name (fuel + 1) v) w = (.ok z, w) := by
  have hm := hw.houses.memory
  obtain ⟨z, hz⟩ := hnext
  have hrest : runs (do lookupProperty name fuel (← prototype v)) w = (.ok z, w) :=
    (runs_bind_of_ok (hm.runs_prototype hv hs)).trans hz
  rw [lookupProperty, if_pos (hm.isCell hv), runs_bind_of_ok (hm.runs_structureOf hv),
    runs_bind_of_ok runs_get, hw.houses.slotOf? hs]
  split
  · rename_i k hk
    have hlt : k < Layout.inlineCapacity :=
      (List.findIdx?_eq_some_iff_getElem.mp hk).1.trans_le (hw.houses.bounded hs).2
    exact ⟨_, (runs_bind_of_ok (hm.runs_cellAddress hv)).trans (hm.runs_slot hv hlt)⟩
  · by_cases hname : name = "length"
    swap
    · rw [if_neg hname]
      exact ⟨z, hrest⟩
    rw [if_pos hname, runs_bind_of_ok (hm.runs_cellType hv hs)]
    have hlength : ∃ u, runs (do return Value.ofInt32 (← cellLength v).toInt32) w = (.ok u, w) :=
      ⟨_, runs_bind_of_ok (hm.runs_cellLength hv)⟩
    split
    · exact hlength
    · exact hlength
    · exact hlength
    · rename_i htype
      rw [runs_bind_of_ok (hm.runs_indexing hv hs)]
      split
      · obtain ⟨n, hn⟩ := hw.runs_arrayLength hv hs htype
        exact ⟨_, runs_bind_of_ok hn⟩
      · exact ⟨z, hrest⟩
    · exact ⟨z, hrest⟩

/-- A search ends once it has come to the end of the chain. -/
lemma Sound.runs_lookupProperty_line (hl : h.Line v ps) (name : String) {fuel : Nat}
    (hfuel : ps.length + 2 ≤ fuel) : ∃ z, runs (lookupProperty name fuel v) w = (.ok z, w) := by
  obtain ⟨fuel, rfl⟩ := Nat.exists_eq_add_of_le' (Nat.le_of_add_left_le hfuel)
  induction hl generalizing fuel with
  | last hv hs hp =>
    refine hw.runs_lookupProperty hv hs name ⟨.undefined, ?_⟩
    rw [lookupProperty, hp]
    rfl
  | next hv hs _ _ ih =>
    rw [List.length_cons] at hfuel
    obtain ⟨fuel, rfl⟩ : ∃ n, fuel = n + 1 := ⟨fuel - 1, by omega⟩
    exact hw.runs_lookupProperty hv hs name (ih fuel (by omega))

end Searching

/-- At the start there are strings only, and they have no prototypes. -/
lemma settled_start : ∃ h, start.Settled [] h := by
  obtain ⟨h, t, ns, hw, -, hl, hread⟩ := lettered_start 281474976710656 (by decide) (Nat.le_refl _)
  refine ⟨h, hw, fun {v} hv => ?_, fun {v x} hv => ⟨[], .last hv (hl.string hv) rfl⟩,
    fun {c x d} hc hd => ?_⟩
  case refine_2 =>
    obtain rfl := Option.some.inj ((hl.string hc).symm.trans hd)
    exact Cell.stocked_of_none rfl
  obtain ⟨u, hu⟩ := hv.resolve_left List.not_mem_nil
  have hlt : ¬256 ≤ u := by
    intro hle
    rw [singleCharacter?, if_pos hle] at hu
    cases hu
  have hu' : u.toNat < 256 := by
    rw [UInt16.le_iff_toNat_le] at hlt
    exact Nat.not_le.mp hlt
  obtain ⟨c, x, hc, hx⟩ := hl.entry (List.mem_reverse.mpr (List.mem_range.mpr hu'))
  obtain ⟨hroom, hword⟩ := Memory.Houses.runs_readWords (w := start) hw.houses.memory hl.table hc
  have hfield : runs (contextField Context.singleCharacters) start =
      (.ok (start.context + UInt64.ofNat Context.singleCharacters), start) := rfl
  have hrun : runs (singleCharacter? u) start = (.ok (some (.ofCell c)), start) := by
    rw [singleCharacter?, if_neg hlt, runs_bind_of_ok hfield, runs_bind_of_ok (runs_read64 hread),
      UInt64.ofNat_toNat, runs_bind_of_ok (runs_offset hroom), readValue, bind_assoc, read64, bind_assoc,
      runs_bind_of_ok hword, pure_bind, pure_bind, UInt64.ofNat_toNat]
    rfl
  rw [hrun] at hu
  cases hu
  exact ⟨x, hx⟩

lemma Grown.settled (hg : w.Grown cells) : ∃ h, w.Settled cells h := by
  induction hg with
  | start => exact settled_start
  | step _ hlegal hroom hrun ih =>
    obtain ⟨h, hw⟩ := ih
    exact hw.perform hlegal hroom _ _ hrun

/-- The chain of a cell that there is ends. -/
lemma Grown.ancestors (hg : w.Grown cells) (hv : Existing cells v) : ∃ ps, w.Ancestors v ps := by
  obtain ⟨h, hw⟩ := hg.settled
  obtain ⟨x, hx⟩ := hw.cell hv
  obtain ⟨ps, hl⟩ := hw.line hx
  exact ⟨ps, hw.sound.houses.ancestors hl⟩

/-- Every search for a property ends with a value. -/
lemma Grown.getProperty (hg : w.Grown cells) (hv : v.isCell = true → Existing cells v) (name : String) :
    ∃ z, runs (getProperty v name) w = (.ok z, w) := by
  obtain ⟨h, hw⟩ := hg.settled
  rw [World.getProperty, runs_bind_of_ok runs_get]
  cases hcell : v.isCell with
  | false =>
    refine ⟨.undefined, ?_⟩
    rw [lookupProperty, hcell]
    rfl
  | true =>
    obtain ⟨x, hx⟩ := hw.cell (hv hcell)
    obtain ⟨ps, hl⟩ := hw.line hx
    have hlen := hw.sound.houses.memory.length_le hl
    exact hw.sound.runs_lookupProperty_line hl name (by omega)

end World

end Speculation
