import Speculation.Proofs.Heap.Cells

/-!
Structures and the ways between them.

`World.Houses` adds to a heap in memory what the world knows of its structures: their properties, and
the three tables of structures that are shared. An operation on an object makes at most one structure,
and changes nothing but that object's cell.
-/

namespace Speculation

namespace Structure

def add (d : Structure) (name : String) : Structure := { d with properties := d.properties ++ [name] }

/-- There is room for a further property, and it is a new one. -/
lemma bounded_add {d : Structure} {name : String} (hd : d.properties.Nodup) (hname : name ∉ d.properties)
    (hlen : d.properties.length < Layout.inlineCapacity) :
    (d.add name).properties.Nodup ∧ (d.add name).properties.length ≤ Layout.inlineCapacity := by
  constructor
  · refine List.nodup_append.mpr ⟨hd, List.nodup_singleton _, fun a ha b hb hab => ?_⟩
    rw [List.mem_singleton] at hb
    exact hname (hb ▸ hab ▸ ha)
  · rw [add, List.length_append]
    exact hlen

lemma findIdx?_of_mem {names : List String} {name : String} (h : name ∈ names) :
    ∃ k, names.findIdx? (· == name) = some k := by
  rcases hk : names.findIdx? (· == name) with _ | k
  · exact absurd (beq_self_eq_true name) (by simpa using List.findIdx?_eq_none_iff.mp hk name h)
  · exact ⟨k, rfl⟩

lemma findIdx?_of_not_mem {names : List String} {name : String} (h : name ∉ names) :
    names.findIdx? (· == name) = none := by
  rw [List.findIdx?_eq_none_iff]
  intro z hz
  rw [beq_eq_false_iff_ne]
  rintro rfl
  exact h hz

/-- The key under which the structure of all strings is kept. -/
def stringKey : UInt64 := 0xffffffffffffffff

/-- The structure that is kept under a key: that of strings, or of objects with some prototype. -/
def blank (key : UInt64) : Structure :=
  if key = stringKey then ⟨.string, Indexing.none, 0, .null, []⟩
  else ⟨.object, Indexing.none, 0, ⟨key⟩, []⟩

end Structure

namespace Heap

variable {h h' h'' : Heap} {a : UInt64} {i : Item}

/-- More was allocated, but no cells. -/
structure Gains (h h' : Heap) : Prop where
  keeps {a : UInt64} {i : Item} (ha : h a = some i) : h' a = some i
  cells {a : UInt64} {x : Cell} (ha : h' a = some (.cell x)) : h a = some (.cell x)

lemma Gains.refl (h : Heap) : h.Gains h := ⟨id, id⟩

lemma Gains.trans (hh : h.Gains h') (hh' : h'.Gains h'') : h.Gains h'' :=
  ⟨fun ha => hh'.keeps (hh.keeps ha), fun ha => hh.cells (hh'.cells ha)⟩

lemma gains_set (ha : h a = none) (hi : ∀ x, i ≠ .cell x) : h.Gains (h.set a i) where
  keeps {b j} hb := by
    rwa [set_of_ne]
    rintro rfl
    rw [ha] at hb
    cases hb
  cells {b x} hb := by
    by_cases hab : b = a
    · subst hab
      rw [set_self, Option.some.injEq] at hb
      exact absurd hb (hi x)
    · rwa [set_of_ne hab] at hb

lemma Gains.structure? (hh : h.Gains h') {s : UInt64} {d : Structure} (hs : h.structure? s = some d) :
    h'.structure? s = some d :=
  structure?_eq_some.mpr (hh.keeps (structure?_eq_some.mp hs))

lemma Gains.cell? (hh : h.Gains h') {c : UInt64} {x : Cell} (hc : h.cell? c = some x) :
    h'.cell? c = some x :=
  cell?_eq_some.mpr (hh.keeps (cell?_eq_some.mp hc))

lemma structure?_setCell {x y : Cell} (ha : h.cell? a = some x) :
    (h.set a (.cell y)).structure? = h.structure? := by
  refine structure?_set nofun ?_
  rw [Heap.structure?, cell?_eq_some.mp ha]

end Heap

namespace World

variable {w w' w'' : World} {h h' : Heap} {limit n k : Nat}

/-- From `w` to `w'` the heap has grown by so many bytes at most, and no transition was lost. -/
structure Grows (w : World) (n : Nat) (w' : World) : Prop where
  next : w'.memory.next ≤ w.memory.next + n
  transitions {key : UInt64 × String} {t : UInt64} (ht : w.transitions[key]? = some t) :
    w'.transitions[key]? = some t

lemma Grows.refl (w : World) : w.Grows 0 w := ⟨Nat.le_refl _, id⟩

lemma Grows.trans (hg : w.Grows n w') (hg' : w'.Grows k w'') : w.Grows (n + k) w'' where
  next := by
    have := hg.next
    have := hg'.next
    omega
  transitions ht := hg'.transitions (hg.transitions ht)

lemma Grows.mono (hg : w.Grows n w') (hnk : n ≤ k) : w.Grows k w' :=
  ⟨hg.next.trans (by omega), hg.transitions⟩

lemma grows_of_same (ht : w'.transitions = w.transitions) (hn : w'.memory.next ≤ w.memory.next + n) :
    w.Grows n w' := ⟨hn, fun h => ht ▸ h⟩

structure Keeps (w w' : World) : Prop where
  functions : w'.functions = w.functions
  context : w'.context = w.context

lemma Keeps.refl (w : World) : w.Keeps w := ⟨rfl, rfl⟩

lemma Keeps.trans (hk : w.Keeps w') (hk' : w'.Keeps w'') : w.Keeps w'' :=
  ⟨hk'.functions.trans hk.functions, hk'.context.trans hk.context⟩

lemma Keeps.withMemory (hk : w.Keeps w') (m : Memory) : w.Keeps (w'.withMemory m) :=
  ⟨hk.functions, hk.context⟩

/-- A heap is in memory, and the tables of the world are right about its structures. -/
structure Houses (w : World) (limit : Nat) (h : Heap) : Prop where
  memory : w.memory.Houses limit h
  structures (s : UInt64) : w.structures[s]? = (h.structure? s).map Structure.properties
  bounded {s : UInt64} {d : Structure} (hs : h.structure? s = some d) :
    d.properties.Nodup ∧ d.properties.length ≤ Layout.inlineCapacity
  transitions {s t : UInt64} {name : String} (ht : w.transitions[(s, name)]? = some t) :
    ∃ d, h.structure? s = some d ∧ name ∉ d.properties ∧ h.structure? t = some (d.add name)
  reshapes {s t : UInt64} {index : UInt8} (ht : w.reshapes[(s, index)]? = some t) :
    ∃ d, h.structure? s = some d ∧ h.structure? t = some { d with indexing := index }
  empty {key s : UInt64} (hs : w.emptyStructures[key]? = some s) :
    h.structure? s = some (.blank key)

namespace Houses

variable {a s : UInt64} {v y : Value} {d : Structure} {x : Cell} {name : String}

/-- What is not in the tables does not matter. -/
lemma congr (hw : w.Houses limit h) (hm : w'.memory.Houses limit h')
    (hs : h'.structure? = h.structure?) (hstructures : w'.structures = w.structures)
    (htransitions : w'.transitions = w.transitions) (hreshapes : w'.reshapes = w.reshapes)
    (hempty : w'.emptyStructures = w.emptyStructures) : w'.Houses limit h' where
  memory := hm
  structures := by
    rw [hstructures, hs]
    exact hw.structures
  bounded := by
    rw [hs]
    exact hw.bounded
  transitions := by
    rw [htransitions, hs]
    exact hw.transitions
  reshapes := by
    rw [hreshapes, hs]
    exact hw.reshapes
  empty := by
    rw [hempty, hs]
    exact hw.empty

lemma withMemory {m' : Memory} (hw : w.Houses limit h) (hm : m'.Houses limit h')
    (hs : h'.structure? = h.structure?) : (w.withMemory m').Houses limit h' :=
  hw.congr hm hs rfl rfl rfl rfl

lemma propertiesOf (hw : w.Houses limit h) (hs : h.structure? s = some d) :
    w.propertiesOf s = d.properties := by
  rw [World.propertiesOf, hw.structures, hs]
  rfl

lemma slotOf? (hw : w.Houses limit h) (hs : h.structure? s = some d) (name : String) :
    w.slotOf? s name = d.properties.findIdx? (· == name) := by
  rw [World.slotOf?, hw.propertiesOf hs]

lemma runs_newStructure (hw : w.Houses limit h) (hroom : w.memory.next + Layout.structureSize ≤ limit)
    (d : Structure) (hd : d.properties.Nodup ∧ d.properties.length ≤ Layout.inlineCapacity) :
    ∃ s w', runs (newStructure d.type d.indexing d.flags d.prototype d.properties) w = (.ok s, w') ∧
      w'.Houses limit (h.set s (.description d)) ∧ h s = none ∧
      w'.memory.next = w.memory.next + Layout.structureSize ∧ w'.transitions = w.transitions ∧
      w'.reshapes = w.reshapes ∧ w'.emptyStructures = w.emptyStructures ∧
      w.Keeps w' := by
  obtain ⟨s, m', hrun, hnone, hnext, hm'⟩ :=
    hw.memory.runs_newStructure hroom d.type d.indexing d.flags d.prototype d.properties
  have hgains := Heap.gains_set (i := .description d) hnone nofun
  have hself : (h.set s (.description d)).structure? s = some d :=
    Heap.structure?_eq_some.mpr Heap.set_self
  refine ⟨s, _, hrun, ⟨hm', fun t => ?_, fun {t e} ht => ?_, fun {r t name} ht => ?_,
    fun {r t index} ht => ?_, fun {key t} ht => hgains.structure? (hw.empty ht)⟩, hnone, hnext,
    rfl, rfl, rfl, ⟨rfl, rfl⟩⟩
  · show (w.structures.insert s d.properties)[t]? = _
    rw [Std.TreeMap.getElem?_insert]
    by_cases hst : s = t
    · subst hst
      rw [if_pos (by simp), hself]
      rfl
    · rw [if_neg (by simpa using hst), hw.structures, Heap.structure?_set_of_ne (Ne.symm hst)]
  · by_cases hst : t = s
    · subst hst
      rw [hself, Option.some.injEq] at ht
      rwa [← ht]
    · exact hw.bounded (by rwa [Heap.structure?_set_of_ne hst] at ht)
  · obtain ⟨e, hr, hname, ht⟩ := hw.transitions ht
    exact ⟨e, hgains.structure? hr, hname, hgains.structure? ht⟩
  · obtain ⟨e, hr, ht⟩ := hw.reshapes ht
    exact ⟨e, hgains.structure? hr, hgains.structure? ht⟩

lemma runs_deriveStructure (hw : w.Houses limit h) (hs : h.structure? s = some d)
    (hroom : w.memory.next + Layout.structureSize ≤ limit) (properties : List String)
    (hp : properties.Nodup ∧ properties.length ≤ Layout.inlineCapacity) (index flags : UInt8) :
    ∃ t w', runs (deriveStructure s properties index flags) w = (.ok t, w') ∧
      w'.Houses limit (h.set t (.description { d with properties, indexing := index, flags })) ∧
      h t = none ∧ w'.memory.next = w.memory.next + Layout.structureSize ∧
      w'.transitions = w.transitions ∧ w'.reshapes = w.reshapes ∧
      w'.emptyStructures = w.emptyStructures ∧ w.Keeps w' := by
  rw [deriveStructure, runs_bind_of_ok (hw.memory.runs_structureType hs),
    runs_bind_of_ok (hw.memory.runs_structurePrototype hs)]
  exact hw.runs_newStructure hroom { d with properties, indexing := index, flags } hp

/-- The way to a further property. -/
lemma runs_transition (hw : w.Houses limit h) (hs : h.structure? s = some d)
    (hname : name ∉ d.properties) (hlen : d.properties.length < Layout.inlineCapacity)
    (hroom : w.memory.next + Layout.structureSize ≤ limit) :
    ∃ t w' h', runs (transition s name) w = (.ok t, w') ∧ w'.Houses limit h' ∧ h.Gains h' ∧
      w.Grows Layout.structureSize w' ∧ h'.structure? t = some (d.add name) ∧
      w'.transitions[(s, name)]? = some t ∧ w.Keeps w' := by
  rw [transition, runs_bind_of_ok runs_get]
  rcases ht : w.transitions[(s, name)]? with _ | t
  · obtain ⟨t, w', hrun, hw', hnone, hnext, htransitions, hreshapes, hempty, hkeeps⟩ :=
      hw.runs_deriveStructure hs hroom (d.properties ++ [name])
        (Structure.bounded_add (hw.bounded hs).1 hname hlen) d.indexing d.flags
    have hgains := Heap.gains_set (i := .description (d.add name)) hnone nofun
    have hself : (h.set t (.description (d.add name))).structure? t = some (d.add name) :=
      Heap.structure?_eq_some.mpr Heap.set_self
    have hlookup : ∀ key : UInt64 × String, (w'.transitions.insert (s, name) t)[key]? =
        if (s, name) = key then some t else w.transitions[key]? := by
      intro key
      rw [Std.TreeMap.getElem?_insert, htransitions]
      simp only [Std.LawfulEqCmp.compare_eq_iff_eq]
    refine ⟨t, { w' with transitions := w'.transitions.insert (s, name) t }, _, ?_,
      ⟨hw'.memory, hw'.structures, hw'.bounded, fun {r t' name'} hr => ?_, hw'.reshapes, hw'.empty⟩,
      hgains, ⟨hnext.le, fun {key t'} hkey => ?_⟩, hself, (hlookup _).trans (if_pos rfl),
      ⟨hkeeps.functions, hkeeps.context⟩⟩
    · rw [runs_bind_of_ok runs_get, hw.propertiesOf hs]
      dsimp only
      rw [if_neg hlen.ne, runs_bind_of_ok (hw.memory.runs_structureIndexing hs),
        runs_bind_of_ok (hw.memory.runs_structureFlags hs), runs_bind_of_ok hrun,
        runs_bind_of_ok (runs_modify _)]
      rfl
    · rw [hlookup] at hr
      split at hr
      · rename_i hkey
        obtain ⟨rfl, rfl⟩ := Prod.mk.inj hkey
        obtain rfl := Option.some.inj hr
        exact ⟨d, hgains.structure? hs, hname, hself⟩
      · obtain ⟨e, hr, hnew, ht'⟩ := hw.transitions hr
        exact ⟨e, hgains.structure? hr, hnew, hgains.structure? ht'⟩
    · rw [hlookup, if_neg]
      · exact hkey
      · rintro rfl
        rw [ht] at hkey
        cases hkey
  · obtain ⟨e, hs', -, ht'⟩ := hw.transitions ht
    obtain rfl : e = d := Option.some.inj (hs'.symm.trans hs)
    exact ⟨t, w, h, rfl, hw, .refl h, (Grows.refl w).mono (Nat.zero_le _), ht', ht, .refl w⟩

/-- The structure with another indexing byte. -/
lemma runs_setIndexing (hw : w.Houses limit h) (hv : h.cell? v.bits = some x)
    (hs : h.structure? x.kind = some d) (hroom : w.memory.next + Layout.structureSize ≤ limit)
    (index : UInt8) :
    ∃ t w' h', runs (setIndexing v index) w = (.ok (), w') ∧ h.Gains h' ∧
      w'.Houses limit (h'.set v.bits (.cell { x with kind := t })) ∧
      h'.structure? t = some { d with indexing := index } ∧ w.Grows Layout.structureSize w' ∧
      w.Keeps w' := by
  rw [setIndexing, runs_bind_of_ok (hw.memory.runs_structureOf hv), runs_bind_of_ok runs_get]
  rcases ht : w.reshapes[(x.kind, index)]? with _ | t
  · obtain ⟨t, w', hrun, hw', hnone, hnext, htransitions, hreshapes, hempty, hkeeps⟩ :=
      hw.runs_deriveStructure hs hroom _ (hw.bounded hs) index d.flags
    have hgains := Heap.gains_set (i := .description { d with indexing := index }) hnone nofun
    have hself : (h.set t (.description { d with indexing := index })).structure? t =
        some { d with indexing := index } := Heap.structure?_eq_some.mpr Heap.set_self
    have hlookup : ∀ key : UInt64 × UInt8, (w'.reshapes.insert (x.kind, index) t)[key]? =
        if (x.kind, index) = key then some t else w.reshapes[key]? := by
      intro key
      rw [Std.TreeMap.getElem?_insert, hreshapes]
      simp only [Std.LawfulEqCmp.compare_eq_iff_eq]
    have hw'' : World.Houses { w' with reshapes := w'.reshapes.insert (x.kind, index) t } limit
        (h.set t (.description { d with indexing := index })) := by
      refine ⟨hw'.memory, hw'.structures, hw'.bounded, hw'.transitions, fun {r t' index'} hr => ?_,
        hw'.empty⟩
      rw [hlookup] at hr
      split at hr
      · rename_i hkey
        obtain ⟨rfl, rfl⟩ := Prod.mk.inj hkey
        obtain rfl := Option.some.inj hr
        exact ⟨d, hgains.structure? hs, hself⟩
      · obtain ⟨e, hr, ht'⟩ := hw.reshapes hr
        exact ⟨e, hgains.structure? hr, hgains.structure? ht'⟩
    have hv' := hgains.cell? hv
    obtain ⟨m', hset, hm', hnext'⟩ := hw''.memory.runs_setStructure hv' t
    refine ⟨t, _, _, ?_, hgains, hw''.withMemory hm' (Heap.structure?_setCell hv'), hself,
      grows_of_same htransitions (hnext'.trans hnext).le, ⟨hkeeps.functions, hkeeps.context⟩⟩
    dsimp only
    rw [runs_bind_of_ok runs_get, hw.propertiesOf hs,
      runs_bind_of_ok (hw.memory.runs_structureFlags hs), runs_bind_of_ok hrun,
      runs_bind_of_ok (runs_modify _), pure_bind]
    exact hset
  · obtain ⟨e, hs', ht'⟩ := hw.reshapes ht
    obtain rfl : e = d := Option.some.inj (hs'.symm.trans hs)
    obtain ⟨m', hset, hm', hnext'⟩ := hw.memory.runs_setStructure hv t
    exact ⟨t, _, h, hset, .refl h, hw.withMemory hm' (Heap.structure?_setCell hv), ht',
      grows_of_same rfl (by show m'.next ≤ _; omega), ⟨rfl, rfl⟩⟩

lemma runs_addFlag (hw : w.Houses limit h) (hv : h.cell? v.bits = some x)
    (hs : h.structure? x.kind = some d) (hroom : w.memory.next + Layout.structureSize ≤ limit)
    (flag : UInt8) :
    ∃ t w' h', runs (addFlag v flag) w = (.ok (), w') ∧ h.Gains h' ∧
      w'.Houses limit (h'.set v.bits (.cell { x with kind := t })) ∧
      h'.structure? t = some { d with flags := d.flags ||| flag } ∧
      w.Grows Layout.structureSize w' ∧ w.Keeps w' := by
  obtain ⟨t, w', hrun, hw', hnone, hnext, htransitions, -, -, hkeeps⟩ :=
    hw.runs_deriveStructure hs hroom _ (hw.bounded hs) d.indexing (d.flags ||| flag)
  have hgains := Heap.gains_set (i := .description { d with flags := d.flags ||| flag }) hnone nofun
  have hv' := hgains.cell? hv
  obtain ⟨m', hset, hm', hnext'⟩ := hw'.memory.runs_setStructure hv' t
  refine ⟨t, _, _, ?_, hgains, hw'.withMemory hm' (Heap.structure?_setCell hv'),
    Heap.structure?_eq_some.mpr Heap.set_self, grows_of_same htransitions (hnext'.trans hnext).le,
    ⟨hkeeps.functions, hkeeps.context⟩⟩
  rw [addFlag, runs_bind_of_ok (hw.memory.runs_structureOf hv), runs_bind_of_ok runs_get,
    hw.propertiesOf hs, runs_bind_of_ok (hw.memory.runs_indexing hv hs), runs_bind_of_ok (hw.memory.runs_flags hv hs),
    runs_bind_of_ok hrun]
  exact hset

section Putting

variable (hw : w.Houses limit h) (hv : h.cell? v.bits = some x) (hs : h.structure? x.kind = some d)
include hw hv hs

lemma runs_putProperty_own (hk : d.properties.findIdx? (· == name) = some k) (y : Value) :
    ∃ m', runs (putProperty v name y) w = (.ok (), w.withMemory m') ∧
      (w.withMemory m').Houses limit
        (h.set v.bits (.cell { x with slots := Function.update x.slots k y })) ∧
      m'.next = w.memory.next := by
  have hlt : k < Layout.inlineCapacity := by
    obtain ⟨hk, -⟩ := List.findIdx?_eq_some_iff_getElem.mp hk
    exact hk.trans_le (hw.bounded hs).2
  obtain ⟨m', hrun, hm', hnext⟩ := hw.memory.runs_setSlot hv hlt y
  refine ⟨m', ?_, hw.withMemory hm' (Heap.structure?_setCell hv), hnext⟩
  rw [putProperty, runs_bind_of_ok (hw.memory.runs_cellAddress hv),
    runs_bind_of_ok (hw.memory.runs_structureOf hv), runs_bind_of_ok runs_get, hw.slotOf? hs, hk]
  exact hrun

lemma runs_putProperty_add (hname : name ∉ d.properties)
    (hlen : d.properties.length < Layout.inlineCapacity)
    (hroom : w.memory.next + Layout.structureSize ≤ limit) (y : Value) :
    ∃ t w' h', runs (putProperty v name y) w = (.ok (), w') ∧ h.Gains h' ∧
      w'.Houses limit (h'.set v.bits
        (.cell { x with kind := t, slots := Function.update x.slots d.properties.length y })) ∧
      h'.structure? t = some (d.add name) ∧ w.Grows Layout.structureSize w' ∧
      w'.transitions[(x.kind, name)]? = some t ∧ w.Keeps w' := by
  obtain ⟨t, w₁, h₁, hrun₁, hw₁, hgains, hgrows, ht, hway, hkeeps⟩ :=
    hw.runs_transition hs hname hlen hroom
  have hv₁ := hgains.cell? hv
  obtain ⟨m₂, hrun₂, hm₂, hnext₂⟩ := hw₁.memory.runs_setStructure hv₁ t
  have hw₂ := hw₁.withMemory hm₂ (Heap.structure?_setCell hv₁)
  have hv₂ : (h₁.set v.bits (.cell { x with kind := t })).cell? v.bits = some { x with kind := t } :=
    Heap.cell?_eq_some.mpr Heap.set_self
  have ht₂ : (h₁.set v.bits (.cell { x with kind := t })).structure? t = some (d.add name) := by
    rwa [Heap.structure?_setCell hv₁]
  obtain ⟨m₃, hrun₃, hm₃, hnext₃⟩ := hw₂.memory.runs_setSlot hv₂ hlen y
  have hnone := Structure.findIdx?_of_not_mem hname
  have hslot : (d.add name).properties.findIdx? (· == name) = some d.properties.length := by
    rw [Structure.add, List.findIdx?_append, hnone]
    simp
  rw [Heap.set_set] at hm₃
  refine ⟨t, w₁.withMemory m₃, h₁, ?_, hgains, hw₁.withMemory hm₃ (Heap.structure?_setCell hv₁), ht,
    ⟨(hnext₃.trans hnext₂).trans_le hgrows.next, hgrows.transitions⟩, hway,
    hkeeps.withMemory m₃⟩
  rw [putProperty, runs_bind_of_ok (hw.memory.runs_cellAddress hv),
    runs_bind_of_ok (hw.memory.runs_structureOf hv), runs_bind_of_ok runs_get, hw.slotOf? hs, hnone]
  dsimp only
  rw [runs_bind_of_ok hrun₁, runs_bind_of_ok hrun₂, runs_bind_of_ok runs_get, hw₂.slotOf? ht₂, hslot]
  exact hrun₃

/-- There is no room for more properties than fit in a cell, and no trace of the attempt. -/
lemma runs_putProperty_full (hname : name ∉ d.properties)
    (hlen : d.properties.length = Layout.inlineCapacity) (y : Value) :
    runs (putProperty v name y) w = (.error (.unsupported .tooManyProperties), w) := by
  have hnone := Structure.findIdx?_of_not_mem hname
  have hway : w.transitions[(x.kind, name)]? = none := by
    rcases ht : w.transitions[(x.kind, name)]? with _ | t
    · rfl
    · obtain ⟨e, he, -, ht⟩ := hw.transitions ht
      obtain rfl : e = d := Option.some.inj (he.symm.trans hs)
      have hlong := (hw.bounded ht).2
      rw [Structure.add, List.length_append, hlen] at hlong
      exact absurd hlong (Nat.not_succ_le_self _)
  rw [putProperty, runs_bind_of_ok (hw.memory.runs_cellAddress hv),
    runs_bind_of_ok (hw.memory.runs_structureOf hv), runs_bind_of_ok runs_get, hw.slotOf? hs, hnone]
  dsimp only
  rw [transition, runs_bind, runs_bind_of_ok runs_get, hway]
  dsimp only
  rw [runs_bind_of_ok runs_get, hw.propertiesOf hs, if_pos hlen]
  rfl

end Putting

lemma runs_newCell (hw : w.Houses limit h) (hroom : w.memory.next + Layout.cellSize ≤ limit)
    (s : UInt64) : ∃ c w', runs (newCell s) w = (.ok c, w') ∧ h c = none ∧
      w'.Houses limit (h.set c (.cell ⟨s, 0, 0, fun _ => .empty⟩)) ∧ w.Grows Layout.cellSize w' ∧
      w.Keeps w' := by
  obtain ⟨c, m', hrun, hnone, hnext, hm'⟩ := hw.memory.runs_newCell hroom s
  refine ⟨c, w.withMemory m', hrun, hnone, hw.withMemory hm' (Heap.structure?_set nofun ?_),
    grows_of_same rfl hnext.le, ⟨rfl, rfl⟩⟩
  rw [Heap.structure?, hnone]

lemma keep (hw : w.Houses limit h) {key s : UInt64} (hs : h.structure? s = some (.blank key)) :
    World.Houses { w with emptyStructures := w.emptyStructures.insert key s } limit h := by
  refine ⟨hw.memory, hw.structures, hw.bounded, hw.transitions, hw.reshapes, fun {key' r} hr => ?_⟩
  rw [Std.TreeMap.getElem?_insert] at hr
  split at hr
  · rename_i hkey
    obtain rfl := Std.LawfulEqCmp.compare_eq_iff_eq.mp hkey
    obtain rfl := Option.some.inj hr
    exact hs
  · exact hw.empty hr

lemma runs_newObject (hw : w.Houses limit h) {prototype : Value}
    (hp : prototype.bits ≠ Structure.stringKey)
    (hroom : w.memory.next + (Layout.structureSize + Layout.cellSize) ≤ limit) :
    ∃ c s w' h', runs (newObject prototype) w = (.ok (.ofCell c), w') ∧ h.Gains h' ∧ h' c = none ∧
      w'.Houses limit (h'.set c (.cell ⟨s, 0, 0, fun _ => .empty⟩)) ∧
      h'.structure? s = some ⟨.object, Indexing.none, 0, prototype, []⟩ ∧
      w.Grows (Layout.structureSize + Layout.cellSize) w' ∧ w.Keeps w' := by
  have hblank : Structure.blank prototype.bits = ⟨.object, Indexing.none, 0, prototype, []⟩ :=
    if_neg hp
  rw [newObject, runs_bind_of_ok runs_get]
  rcases hs : w.emptyStructures[prototype.bits]? with _ | s
  · obtain ⟨s, w₁, hrun₁, hw₁, hnone₁, hnext₁, htransitions, -, -, hkeeps₁⟩ :=
      hw.runs_newStructure (by omega) ⟨.object, Indexing.none, 0, prototype, []⟩
        ⟨List.nodup_nil, Nat.zero_le _⟩
    have hgains := Heap.gains_set (i := .description ⟨.object, Indexing.none, 0, prototype, []⟩)
      hnone₁ nofun
    have hself : (h.set s (.description ⟨.object, Indexing.none, 0, prototype, []⟩)).structure? s =
        some ⟨.object, Indexing.none, 0, prototype, []⟩ := Heap.structure?_eq_some.mpr Heap.set_self
    obtain ⟨c, w₂, hrun₂, hnone₂, hw₂, hgrows₂, hkeeps₂⟩ :=
      (hw₁.keep (hself.trans (congrArg some hblank.symm))).runs_newCell
        (by show w₁.memory.next + _ ≤ _; omega) s
    have hgrows₁ : w.Grows Layout.structureSize w₁ := grows_of_same htransitions hnext₁.le
    refine ⟨c, s, w₂, _, ?_, hgains, hnone₂, hw₂, hself,
      hgrows₁.trans ⟨hgrows₂.next, hgrows₂.transitions⟩,
      hkeeps₁.trans ⟨hkeeps₂.functions, hkeeps₂.context⟩⟩
    dsimp only
    rw [runs_bind_of_ok hrun₁, runs_bind_of_ok (runs_modify _), pure_bind, runs_bind_of_ok hrun₂]
    rfl
  · obtain ⟨c, w₂, hrun₂, hnone₂, hw₂, hgrows₂, hkeeps₂⟩ := hw.runs_newCell (by omega) s
    refine ⟨c, s, w₂, h, ?_, .refl h, hnone₂, hw₂, hblank ▸ hw.empty hs, hgrows₂.mono (by omega),
      hkeeps₂⟩
    dsimp only
    rw [pure_bind, runs_bind_of_ok hrun₂]
    rfl

/-- Strings share one structure. -/
lemma runs_stringStructure (hw : w.Houses limit h)
    (hroom : w.memory.next + Layout.structureSize ≤ limit) :
    ∃ s w' h', runs stringStructure w = (.ok s, w') ∧ w'.Houses limit h' ∧ h.Gains h' ∧
      w.Grows Layout.structureSize w' ∧ h'.structure? s = some (.blank Structure.stringKey) ∧
      w.Keeps w' := by
  rw [stringStructure, runs_bind_of_ok runs_get]
  rcases hs : w.emptyStructures[Structure.stringKey]? with _ | s
  · obtain ⟨s, w₁, hrun₁, hw₁, hnone₁, hnext₁, htransitions, -, -, hkeeps⟩ :=
      hw.runs_newStructure hroom (.blank Structure.stringKey) ⟨List.nodup_nil, Nat.zero_le _⟩
    have hself : (h.set s (.description (.blank Structure.stringKey))).structure? s =
        some (.blank Structure.stringKey) := Heap.structure?_eq_some.mpr Heap.set_self
    refine ⟨s, _, _, ?_, hw₁.keep hself, Heap.gains_set hnone₁ nofun,
      grows_of_same htransitions hnext₁.le, hself, ⟨hkeeps.functions, hkeeps.context⟩⟩
    rw [show (0xffffffffffffffff : UInt64) = Structure.stringKey from rfl, hs]
    exact (runs_bind_of_ok hrun₁).trans rfl
  · refine ⟨s, w, h, ?_, hw, .refl h, (Grows.refl w).mono (Nat.zero_le _), hw.empty hs, .refl w⟩
    rw [show (0xffffffffffffffff : UInt64) = Structure.stringKey from rfl, hs]
    rfl

/-- Watchpoints are no part of the heap. -/
lemma runs_masquerade (hw : w.Houses limit h) (hv : h.cell? v.bits = some x)
    (hs : h.structure? x.kind = some d) (hroom : w.memory.next + Layout.structureSize ≤ limit) :
    ∃ t w' h', runs (masquerade v) w = (.ok (), w') ∧ h.Gains h' ∧
      w'.Houses limit (h'.set v.bits (.cell { x with kind := t })) ∧
      h'.structure? t = some { d with flags := d.flags ||| TypeFlag.masqueradesAsUndefined } ∧
      w.Grows Layout.structureSize w' ∧ w.Keeps w' := by
  obtain ⟨t, w₁, h₁, hrun₁, hgains, hw₁, ht, hgrows, hkeeps⟩ :=
    hw.runs_addFlag hv hs hroom TypeFlag.masqueradesAsUndefined
  -- firing watchpoints changes code only
  have hfire : ∀ (codes : List Nat) (w : World), ∃ artifacts, runs (forIn codes PUnit.unit fun code _ => do
      modifyArtifact code Artifact.fireWatchpoints
      pure (.yield PUnit.unit)) w = (.ok PUnit.unit, { w with artifacts }) := by
    intro codes
    induction codes with
    | nil => exact fun w => ⟨w.artifacts, rfl⟩
    | cons code codes ih =>
      intro w
      obtain ⟨artifacts, hrun⟩ :=
        ih { w with artifacts := w.artifacts.modify code Artifact.fireWatchpoints }
      exact ⟨artifacts, by rw [List.forIn_cons]; exact hrun⟩
  rw [masquerade, runs_bind_of_ok hrun₁, runs_bind_of_ok runs_get]
  split
  · obtain ⟨artifacts, hrun⟩ := hfire w₁.installed.toList { w₁ with noMasquerades := false }
    refine ⟨t, { w₁ with noMasquerades := false, artifacts }, h₁, ?_, hgains,
      hw₁.congr hw₁.memory rfl rfl rfl rfl rfl, ht, ⟨hgrows.next, hgrows.transitions⟩, ⟨hkeeps.functions, hkeeps.context⟩⟩
    rw [runs_bind_of_ok (runs_modify _), runs_bind_of_ok runs_get, ← Array.forIn_toList,
      bind_pure_unit]
    exact hrun
  · exact ⟨t, w₁, h₁, rfl, hgains, hw₁, ht, hgrows, hkeeps⟩

end Houses

end World

end Speculation
