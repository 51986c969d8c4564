import Speculation.Proofs.Heap.Conversion

/-!
Histories of the heap.

A history tells what was done to the heap since the start, and what came of it. From the history of a
cell alone follow its own properties: they have the values that were put last. If the cell was not
converted, then even its structure follows, from the one that it started with and the names that were
added since.
-/

namespace Speculation

/-! ### Own properties

To a put, the own properties of a cell are a map from names to values. It changes that map at one
name. -/

namespace Cell

variable {x : Cell} {d : Structure} {names : List String} {name other : String} {k : Nat} {z : Value}

lemma lookup_properties (x : Cell) (names : List String) (name : String) :
    (x.properties names).lookup name = (names.findIdx? (· == name)).map x.slots := by
  have hfrom : ∀ k, ((names.zipIdx k).map fun p => (p.1, x.slots p.2)).lookup name =
      (names.findIdx? (· == name)).map fun i => x.slots (k + i) := by
    induction names with
    | nil => exact fun _ => rfl
    | cons head names ih =>
      intro k
      rw [List.zipIdx_cons, List.map_cons, List.lookup_cons, List.findIdx?_cons]
      by_cases hhead : head = name
      · subst hhead
        simp
      · rw [if_neg (by simpa using hhead), beq_eq_false_iff_ne.mpr (Ne.symm hhead), ih,
          Option.map_map]
        refine congrArg (fun f => Option.map f _) (funext fun i => congrArg x.slots ?_)
        show k + 1 + i = k + (i + 1)
        omega
  exact (hfrom 0).trans (by simp only [Nat.zero_add])

lemma lookup_eq_none_iff : (x.properties names).lookup name = none ↔ name ∉ names := by
  rw [lookup_properties, Option.map_eq_none_iff]
  refine ⟨fun h hmem => ?_, Structure.findIdx?_of_not_mem⟩
  obtain ⟨k, hk⟩ := Structure.findIdx?_of_mem hmem
  rw [h] at hk
  cases hk

lemma lookup_update (hk : names.findIdx? (· == name) = some k) :
    (Cell.properties { x with slots := Function.update x.slots k z } names).lookup other =
      if other = name then some z else (x.properties names).lookup other := by
  rw [lookup_properties, lookup_properties]
  split
  · rename_i heq
    subst heq
    rw [hk]
    exact congrArg some (Function.update_self ..)
  · rename_i hne
    rcases hj : names.findIdx? (· == other) with _ | j
    · rfl
    · have hjk : j ≠ k := by
        rintro rfl
        obtain ⟨hlt, hj', -⟩ := List.findIdx?_eq_some_iff_getElem.mp hj
        obtain ⟨hlt', hk', -⟩ := List.findIdx?_eq_some_iff_getElem.mp hk
        exact hne ((eq_of_beq hj').symm.trans (eq_of_beq hk'))
      exact congrArg some (Function.update_of_ne hjk ..)

/-- Using another slot. -/
lemma lookup_append (hname : name ∉ names) {s : UInt64} :
    (Cell.properties { x with kind := s, slots := Function.update x.slots names.length z }
      (names ++ [name])).lookup other =
        if other = name then some z else (x.properties names).lookup other := by
  rw [lookup_properties, lookup_properties, List.findIdx?_append]
  split
  · rename_i heq
    subst heq
    rw [Structure.findIdx?_of_not_mem hname]
    simp
  · rename_i hne
    rcases hj : names.findIdx? (· == other) with _ | j
    · simp [Ne.symm hne]
    · have hjlt := (List.findIdx?_eq_some_iff_getElem.mp hj).1
      simp [Function.update_of_ne hjlt.ne]

end Cell

namespace World

variable {w w' : World} {h h' : Heap} {limit n : Nat} {v z : Value} {x : Cell} {d : Structure}
  {name : String}

/-- Own properties are found before those of the prototypes. -/
lemma Houses.runs_getProperty (hw : w.Houses limit h) (hv : h.cell? v.bits = some x)
    (hs : h.structure? x.kind = some d) (hz : (x.properties d.properties).lookup name = some z) :
    runs (getProperty v name) w = (.ok z, w) := by
  rw [Cell.lookup_properties] at hz
  obtain ⟨k, hk, rfl⟩ := Option.map_eq_some_iff.mp hz
  have hlt : k < Layout.inlineCapacity := by
    obtain ⟨hk, -⟩ := List.findIdx?_eq_some_iff_getElem.mp hk
    exact hk.trans_le (hw.bounded hs).2
  rw [getProperty, runs_bind_of_ok runs_get, lookupProperty, if_pos (hw.memory.isCell hv),
    runs_bind_of_ok (hw.memory.runs_structureOf hv), runs_bind_of_ok runs_get, hw.slotOf? hs, hk]
  exact (runs_bind_of_ok (hw.memory.runs_cellAddress hv)).trans (hw.memory.runs_slot hv hlt)

/-- **Putting a property.** Either it is one of the own properties then, and the others are as before;
or it is a new one, there is no room for it, and nothing has happened. -/
lemma Sound.runs_putProperty (hw : w.Sound limit h) (hv : h.cell? v.bits = some x)
    (hs : h.structure? x.kind = some d) (hroom : w.memory.next + Layout.structureSize ≤ limit)
    (name : String) (z : Value) :
    (∃ w' h' y e, runs (putProperty v name z) w = (.ok (), w') ∧
      w.Changes limit h Layout.structureSize v.bits w' h' y e ∧ w.Keeps w' ∧
      h'.contents e y = h.contents d x ∧
      (∀ other, (y.properties e.properties).lookup other =
        if other = name then some z else (x.properties d.properties).lookup other) ∧
      (name ∈ d.properties ∧ y.kind = x.kind ∨
        name ∉ d.properties ∧ w'.transitions[(x.kind, name)]? = some y.kind)) ∨
    name ∉ d.properties ∧ d.properties.length = Layout.inlineCapacity ∧
      runs (putProperty v name z) w = (.error (.unsupported .tooManyProperties), w) := by
  by_cases hname : name ∈ d.properties
  · obtain ⟨k, hk⟩ := Structure.findIdx?_of_mem hname
    obtain ⟨w', h', hrun, hchanges, hcontents, hkeeps⟩ := hw.runs_putProperty_own hv hs hk z
    exact .inl ⟨w', h', _, d, hrun, { hchanges with grows := hchanges.grows.mono (Nat.zero_le _) },
      hkeeps, hcontents, fun other => Cell.lookup_update hk, .inl ⟨hname, rfl⟩⟩
  rcases (hw.houses.bounded hs).2.lt_or_eq with hlt | hfull
  · obtain ⟨t, w', h', hrun, hchanges, hcontents, hway, hkeeps⟩ :=
      hw.runs_putProperty_add hv hs hname hlt hroom z
    exact .inl ⟨w', h', _, _, hrun, hchanges, hkeeps, hcontents,
      fun other => Cell.lookup_append hname, .inr ⟨hname, hway⟩⟩
  · exact .inr ⟨hname, hfull, hw.houses.runs_putProperty_full hv hs hname hfull z⟩

end World

/-! ### Operations -/

inductive Operation where
  | object (prototype : Value)
  | array (shape : ArrayShape) (elements : List Value)
  | function (f : Callable)
  | put (v : Value) (name : String) (value : Value)
  | convert (v : Value) (shape : ArrayShape)
  | masquerade (v : Value)
  | intercept (v : Value)

namespace Operation

/-- The result is what cells were made. With a function comes the object that is its prototype. -/
def perform : Operation → Run (List Value)
  | object p => return [← World.newObject p]
  | array shape elements => return [← World.newArray shape elements]
  | function f => do
    let v ← World.newFunction f
    return [v, ← World.getProperty v "prototype"]
  | put v name value => do
    World.putProperty v name value
    return []
  | convert v shape => do
    let _ ← World.ensureShape v shape
    return []
  | masquerade v => do
    World.masquerade v
    return []
  | intercept v => do
    World.interceptIndexing v
    return []

def converted? : Operation → Option Value
  | convert v _ | masquerade v | intercept v => some v
  | _ => none

def target? : Operation → Option Value
  | put v _ _ => some v
  | op => op.converted?

/-- What is changed is a cell that there is, and so is a prototype, unless there is none. -/
def Legal (cells : List Value) : Operation → Prop
  | object p => p = .null ∨ p.isCell = true
  | put v _ _ | convert v _ | masquerade v | intercept v => v ∈ cells
  | _ => True

lemma Legal.target {cells : List Value} {op : Operation} (h : op.Legal cells) {v : Value}
    (hv : op.target? = some v) : v ∈ cells := by
  cases op <;> simp_all [Legal, target?, converted?]

def cost : Operation → Nat
  | object _ => Layout.structureSize + Layout.cellSize
  | array _ elements => Layout.structureSize + Layout.cellSize + (8 + 8 * elements.length)
  | function _ => 3 * Layout.structureSize + 2 * Layout.cellSize
  | convert _ _ => 8 + Layout.structureSize
  | _ => Layout.structureSize

end Operation

structure Deed where
  op : Operation
  result : Except Fault (List Value)
  after : World

def World.structure? (w : World) (v : Value) : Option UInt64 :=
  (World.runs (World.structureOf v) w).1.toOption

/-- The structure that others lead to, by a property each. -/
def World.follow (w : World) (s : UInt64) : List String → Option UInt64
  | [] => some s
  | name :: names => w.transitions[(s, name)]?.bind fun t => follow w t names

namespace Deed

def created (e : Deed) : List Value :=
  match e.result with
  | .ok vs => vs
  | .error _ => []

/-- The value that was put as a property of a cell. A new function has one. -/
def put? (e : Deed) (v : Value) (name : String) : Option Value :=
  match e.op, e.result with
  | .put u n x, .ok _ => if u = v ∧ n = name then some x else none
  | .function _, .ok [u, p] => if u = v ∧ "prototype" = name then some p else none
  | _, _ => none

def Converts (e : Deed) (before : World) (v : Value) : Prop :=
  e.op.converted? = some v ∧ e.after.structure? v ≠ before.structure? v

end Deed

abbrev Past := List Deed

namespace Past

def world : Past → World
  | [] => World.start
  | e :: _ => e.after

def created : Past → List Value
  | [] => []
  | e :: es => e.created ++ created es

def lastPut : Past → Value → String → Option Value
  | [], _, _ => none
  | e :: es, v, name => (e.put? v name).or (lastPut es v name)

end Past

/-- The name that a put brings to a cell, if it is new there. -/
def Deed.adds (e : Deed) (before : Past) (v : Value) : List String :=
  match e.op, e.result with
  | .put u name _, .ok _ => if u = v ∧ before.lastPut v name = none then [name] else []
  | _, _ => []

namespace Past

/-- The names that were put for the first time since the cell was made, in order. -/
def added : Past → Value → List String
  | [], _ => []
  | e :: es, v => added es v ++ e.adds es v

def firstStructure : Past → Value → Option UInt64
  | [], _ => none
  | e :: es, v => if v ∈ e.created then e.after.structure? v else firstStructure es v

def Converted : Past → Value → Prop
  | [], _ => False
  | e :: es, v => e.Converts (world es) v ∨ Converted es v

end Past

/-- Operations were performed from the start, each with room for what it allocates. -/
inductive History : Past → Prop where
  | start : History []
  | step {es : Past} {op : Operation} {r : Except Fault (List Value)} {w : World}
    (h : History es) (hlegal : op.Legal es.created)
    (hroom : es.world.memory.next + op.cost ≤ 281474976710656)
    (hrun : World.runs op.perform es.world = (r, w)) : History (⟨op, r, w⟩ :: es)

namespace World

variable {w w' w'' : World} {h h' h'' : Heap} {limit n : Nat} {v : Value} {x y : Cell}
  {d e : Structure} {a c s t : UInt64} {names : List String} {name : String}

lemma follow_append : w.follow s (names ++ [name]) =
    (w.follow s names).bind fun t => w.transitions[(t, name)]? := by
  induction names generalizing s with
  | nil => exact Option.bind_fun_some _
  | cons head names ih =>
    rw [List.cons_append, follow, follow, Option.bind_assoc]
    exact congrArg _ (funext fun t => ih)

lemma follow_of_ways (hways : ∀ {key : UInt64 × String} {t : UInt64}, w.transitions[key]? = some t → w'.transitions[key]? = some t)
    (hf : w.follow s names = some t) : w'.follow s names = some t := by
  induction names generalizing s with
  | nil => exact hf
  | cons head names ih =>
    obtain ⟨r, hr, hrest⟩ := Option.bind_eq_some_iff.mp hf
    rw [follow, hways hr]
    exact ih hrest

/-- A cell is as it was, and so is all that led to its structure. -/
structure Untouched (w : World) (h : Heap) (a : UInt64) (w' : World) (h' : Heap) : Prop where
  cell {x : Cell} (hx : h.cell? a = some x) : h'.cell? a = some x
  structures {s : UInt64} {d : Structure} (hs : h.structure? s = some d) : h'.structure? s = some d
  ways {key : UInt64 × String} {t : UInt64} (ht : w.transitions[key]? = some t) :
    w'.transitions[key]? = some t

lemma Untouched.trans (hu : w.Untouched h a w' h') (hu' : w'.Untouched h' a w'' h'') :
    w.Untouched h a w'' h'' :=
  ⟨fun hx => hu'.cell (hu.cell hx), fun hs => hu'.structures (hu.structures hs),
    fun ht => hu'.ways (hu.ways ht)⟩

lemma Changes.untouched (hc : w.Changes limit h n c w' h' y e) (hac : a ≠ c) :
    w.Untouched h a w' h' :=
  ⟨fun hx => hc.touches.cell?_of_ne hx hac, hc.touches.structure?, hc.grows.transitions⟩

lemma Houses.structure?_eq (hw : w.Houses limit h) (hv : h.cell? v.bits = some x) :
    w.structure? v = some x.kind := by
  rw [structure?, hw.memory.runs_structureOf hv]
  rfl

end World

/-! ### Accounts of cells -/

namespace Deed

variable {e : Deed} {es : Past} {v : Value}

structure Foreign (e : Deed) (v : Value) : Prop where
  created : v ∉ e.created
  target : e.op.target? ≠ some v

lemma Foreign.put? (hf : e.Foreign v) (name : String) : e.put? v name = none := by
  obtain ⟨hcreated, htarget⟩ := hf
  obtain ⟨op, r, w⟩ := e
  unfold Deed.put?
  dsimp only at htarget ⊢
  split
  · refine if_neg fun h => htarget ?_
    rw [← h.1]
    rfl
  · refine if_neg fun h => hcreated ?_
    rw [← h.1]
    exact List.mem_cons_self
  · rfl

lemma Foreign.adds (hf : e.Foreign v) : e.adds es v = [] := by
  obtain ⟨-, htarget⟩ := hf
  obtain ⟨op, r, w⟩ := e
  unfold Deed.adds
  dsimp only at htarget ⊢
  split
  · refine if_neg fun h => htarget ?_
    rw [← h.1]
    rfl
  · rfl

lemma Foreign.converted (hf : e.Foreign v) : Past.Converted (e :: es) v ↔ es.Converted v := by
  refine or_iff_right fun h => hf.target ?_
  have hop := h.1
  cases hc : e.op <;> rw [hc] at hop <;> first | exact hop | cases hop

end Deed

namespace Past

open World

variable {es : Past} {e : Deed} {h h' : Heap} {v : Value} {x y : Cell} {d f : Structure}

structure Account (es : Past) (h : Heap) (v : Value) (x : Cell) (d : Structure) : Prop where
  cell : h.cell? v.bits = some x
  kind : h.structure? x.kind = some d
  own (name : String) : (x.properties d.properties).lookup name = es.lastPut v name
  way (hv : ¬es.Converted v) :
    ∃ s, es.firstStructure v = some s ∧ es.world.follow s (es.added v) = some x.kind

structure Silent (es : Past) (v : Value) : Prop where
  lastPut (name : String) : es.lastPut v name = none
  added : es.added v = []
  converted : ¬es.Converted v

structure Books (es : Past) (h : Heap) : Prop where
  sound : es.world.Sound 281474976710656 h
  account {v : Value} (hv : v ∈ es.created) : ∃ x d, es.Account h v x d
  silent {v : Value} (hv : v ∉ es.created) : es.Silent v

lemma Account.foreign (ha : es.Account h v x d) (hf : e.Foreign v)
    (hu : es.world.Untouched h v.bits e.after h') : Account (e :: es) h' v x d where
  cell := hu.cell ha.cell
  kind := hu.structures ha.kind
  own name := by rw [lastPut, hf.put? name, Option.none_or, ha.own]
  way hv := by
    obtain ⟨s, hs, hway⟩ := ha.way fun h => hv (hf.converted.mpr h)
    refine ⟨s, ?_, ?_⟩
    · rw [firstStructure, if_neg hf.created, hs]
    · rw [added, hf.adds, List.append_nil]
      exact follow_of_ways hu.ways hway

lemma Silent.foreign (hs : es.Silent v) (hf : e.Foreign v) : Silent (e :: es) v where
  lastPut name := by rw [Past.lastPut, hf.put? name, Option.none_or, hs.lastPut]
  added := by rw [Past.added, hf.adds, hs.added, List.append_nil]
  converted h := hs.converted (hf.converted.mp h)

lemma Silent.account (hs : es.Silent v) (hv : v ∈ e.created) (htarget : e.op.target? = none)
    (hw : e.after.Houses 281474976710656 h') (hcell : h'.cell? v.bits = some y)
    (hkind : h'.structure? y.kind = some f)
    (hown : ∀ name, (y.properties f.properties).lookup name = e.put? v name) :
    Account (e :: es) h' v y f where
  cell := hcell
  kind := hkind
  own name := by rw [Past.lastPut, hs.lastPut, Option.or_none, hown]
  way _ := by
    refine ⟨y.kind, ?_, ?_⟩
    · rw [firstStructure, if_pos hv, hw.structure?_eq hcell]
    · have hadds : e.adds es v = [] := by
        obtain ⟨op, r, w⟩ := e
        unfold Deed.adds
        dsimp only at htarget ⊢
        split
        · cases htarget
        · rfl
      rw [Past.added, hs.added, hadds]
      rfl

variable (hb : es.Books h)
include hb

lemma Books.not_mem {c : UInt64} (hc : h c = none) : Value.ofCell c ∉ es.created := by
  intro hmem
  obtain ⟨x, d, ha⟩ := hb.account hmem
  have hcell := Heap.cell?_eq_some.mp ha.cell
  rw [Value.ofCell, hc] at hcell
  cases hcell

lemma Books.ne_of_mem {c : UInt64} (hc : h c = none) (hv : v ∈ es.created) : v.bits ≠ c := by
  rintro rfl
  exact hb.not_mem hc hv

/-- One more deed. -/
lemma Books.cons (hlegal : e.op.Legal es.created) (hsound : e.after.Sound 281474976710656 h')
    (hothers : ∀ v ∈ es.created, e.Foreign v → es.world.Untouched h v.bits e.after h')
    (howns : ∀ v, v ∈ e.created ∨ v ∈ es.created ∧ e.op.target? = some v →
      ∃ x d, Account (e :: es) h' v x d) : Books (e :: es) h' where
  sound := hsound
  account {v} hv := by
    by_cases hown : v ∈ e.created ∨ v ∈ es.created ∧ e.op.target? = some v
    · exact howns v hown
    · obtain ⟨hcreated, hother⟩ := not_or.mp hown
      have hmem := (List.mem_append.mp hv).resolve_left hcreated
      have hf : e.Foreign v := ⟨hcreated, fun ht => hother ⟨hmem, ht⟩⟩
      obtain ⟨x, d, ha⟩ := hb.account hmem
      exact ⟨x, d, ha.foreign hf (hothers v hmem hf)⟩
  silent {v} hv := by
    obtain ⟨hcreated, hmem⟩ := not_or.mp (List.mem_append.not.mp hv)
    exact (hb.silent hmem).foreign ⟨hcreated, fun ht => hmem (hlegal.target ht)⟩

variable {o : Operation} {w : World} {n : Nat}

section Making

variable {c : UInt64} (htarget : o.target? = none) (hlegal : o.Legal es.created)
include htarget hlegal

lemma Books.made (hc : h c = none)
    (hchanges : es.world.Changes 281474976710656 h n c w h' y f) (hnames : f.properties = [])
    (hput : ∀ name, Deed.put? ⟨o, .ok [.ofCell c], w⟩ (.ofCell c) name = none) :
    Books (⟨o, .ok [.ofCell c], w⟩ :: es) h' := by
  refine hb.cons hlegal hchanges.sound
    (fun v hv _ => hchanges.untouched (hb.ne_of_mem hc hv)) fun v hv => ?_
  rcases hv with hv | ⟨-, ht⟩
  · obtain rfl := List.mem_singleton.mp hv
    exact ⟨y, f, (hb.silent (hb.not_mem hc)).account List.mem_cons_self htarget hchanges.sound.houses
      hchanges.cell hchanges.kind fun name => by rw [hput, hnames]; rfl⟩
  · rw [htarget] at ht
    cases ht

/-- A cell was to be made, and has come to nothing. -/
lemma Books.unmade {r : Fault} (hc : h c = none)
    (hchanges : es.world.Changes 281474976710656 h n c w h' y f) :
    Books (⟨o, .error r, w⟩ :: es) h' := by
  refine hb.cons hlegal hchanges.sound
    (fun v hv _ => hchanges.untouched (hb.ne_of_mem hc hv)) fun v hv => ?_
  rcases hv with hv | ⟨-, ht⟩
  · cases hv
  · rw [htarget] at ht
    cases ht

end Making

/-- What an operation comes to: the books go on, and no structure has changed. -/
def Proceeds (es : Past) (h : Heap) (op : Operation) : Prop :=
  ∃ r w h', runs op.perform es.world = (r, w) ∧ Books (⟨op, r, w⟩ :: es) h' ∧
    ∀ {s d}, h.structure? s = some d → h'.structure? s = some d

lemma Books.object {p : Value} (hp : p = .null ∨ p.isCell = true)
    (hroom : es.world.memory.next + (Operation.object p).cost ≤ 281474976710656) :
    Proceeds es h (.object p) := by
  have hkey : p.bits ≠ Structure.stringKey := by
    rcases hp with rfl | hp
    · decide
    · intro hkey
      rw [Value.isCell, hkey] at hp
      exact absurd hp (by decide)
  obtain ⟨c, s, w, h', hrun, hc, hchanges, -⟩ := hb.sound.runs_newObject hkey hroom
  exact ⟨_, w, h', runs_bind_of_ok hrun, hb.made rfl hp hc hchanges rfl fun _ => rfl,
    hchanges.touches.structure?⟩

lemma Books.array (shape : ArrayShape) (vs : List Value)
    (hroom : es.world.memory.next + (Operation.array shape vs).cost ≤ 281474976710656) :
    Proceeds es h (.array shape vs) := by
  obtain ⟨r, c, w, h', y, hrun, hc, hchanges, -, hr⟩ := hb.sound.runs_newArray shape vs hroom
  rcases hr with ⟨⟨e, rfl⟩, -⟩ | ⟨rfl, -⟩
  · exact ⟨_, w, h', runs_bind_of_error hrun, hb.unmade (o := .array shape vs) rfl trivial hc
      hchanges, hchanges.touches.structure?⟩
  · exact ⟨_, w, h', runs_bind_of_ok hrun, hb.made rfl trivial hc hchanges rfl fun _ => rfl,
      hchanges.touches.structure?⟩

/-- A new function has the one property that its prototype was put as. -/
lemma Books.function (g : Callable)
    (hroom : es.world.memory.next + (Operation.function g).cost ≤ 281474976710656) :
    Proceeds es h (.function g) := by
  have hcost : (Operation.function g).cost = 3 * Layout.structureSize + 2 * Layout.cellSize := rfl
  rcases Nat.lt_or_ge es.world.functions.size 4294967296 with hsize | hsize
  swap
  · obtain ⟨c, s, w, h', hrun, hc, hchanges⟩ := hb.sound.runs_newFunction_many g hsize (by omega)
    exact ⟨_, w, h', runs_bind_of_error hrun, hb.unmade (o := .function g) rfl trivial hc hchanges,
      hchanges.touches.structure?⟩
  obtain ⟨c, p, s, t, s', w₁, w₂, w, h₁, h₂, h', hrun, hc, hp, hchanges₁, hchanges₂, hchanges₃, -⟩ :=
    hb.sound.runs_newFunction g hsize hroom
  have hpc : p ≠ c := by
    rintro rfl
    have hcell := Heap.cell?_eq_some.mp hchanges₁.cell
    rw [hp] at hcell
    cases hcell
  have hne : ∀ v ∈ es.created, v.bits ≠ p := by
    rintro v hv rfl
    obtain ⟨x, d, ha⟩ := hb.account hv
    have hcell := hchanges₁.touches.cell?_of_ne ha.cell (hb.ne_of_mem hc hv)
    rw [Heap.cell?_eq_some, hp] at hcell
    cases hcell
  have hlookup : ∀ name, (Cell.properties ⟨t, 0, UInt32.ofNat es.world.functions.size,
      Function.update (fun _ => .empty) 0 (.ofCell p)⟩ ["prototype"]).lookup name =
        if "prototype" = name then some (.ofCell p) else none := by
    intro name
    rw [Cell.lookup_properties, List.findIdx?_cons]
    by_cases hname : "prototype" = name
    · subst hname
      rfl
    · rw [if_neg (by simpa using hname), if_neg hname]
      rfl
  have hget := hchanges₃.sound.houses.runs_getProperty (v := .ofCell c) hchanges₃.cell hchanges₃.kind
    ((hlookup "prototype").trans (if_pos rfl))
  refine ⟨.ok [.ofCell c, .ofCell p], w, h', ?_, ?_, fun hs => hchanges₃.touches.structure?
    (hchanges₂.touches.structure? (hchanges₁.touches.structure? hs))⟩
  · show runs (do
      let v ← newFunction g
      return [v, ← getProperty v "prototype"]) es.world = _
    rw [runs_bind_of_ok hrun]
    exact runs_bind_of_ok hget
  · refine hb.cons (e := ⟨.function g, _, _⟩) trivial hchanges₃.sound (fun v hv _ => ?_) fun v hv => ?_
    · have hvc := hb.ne_of_mem hc hv
      exact (hchanges₁.untouched hvc).trans
        ((hchanges₂.untouched (hne v hv)).trans (hchanges₃.untouched hvc))
    · rcases hv with hv | ⟨-, ht⟩
      swap
      · cases ht
      rcases List.mem_cons.mp hv with rfl | hv
      · exact ⟨_, _, (hb.silent (hb.not_mem hc)).account List.mem_cons_self rfl hchanges₃.sound.houses
          hchanges₃.cell hchanges₃.kind fun name => by
            rw [hlookup]
            exact if_congr (by simp) rfl rfl⟩
      · obtain rfl := List.mem_singleton.mp hv
        refine ⟨_, _, (hb.silent fun hmem => hne _ hmem rfl).account
          (List.mem_cons_of_mem _ List.mem_cons_self) rfl hchanges₃.sound.houses
          (hchanges₃.touches.cell?_of_ne hchanges₂.cell hpc)
          (hchanges₃.touches.structure? hchanges₂.kind) fun name => ?_⟩
        exact (if_neg fun h => hpc (congrArg Value.bits h.1).symm).symm

/-- A put is told by the history as it is found in the cell, or has done nothing. -/
lemma Books.put {name : String} {z : Value} (hv : v ∈ es.created)
    (hroom : es.world.memory.next + (Operation.put v name z).cost ≤ 281474976710656) :
    Proceeds es h (.put v name z) ∧ ∀ e w, runs (Operation.put v name z).perform es.world = (.error e, w) →
      e = .unsupported .tooManyProperties ∧ w = es.world := by
  obtain ⟨x, d, ha⟩ := hb.account hv
  rcases hb.sound.runs_putProperty ha.cell ha.kind hroom name z with
    ⟨w, h', y, f, hrun, hchanges, -, -, hown, hkind⟩ | ⟨hname, hfull, hrun⟩
  · have hperform : runs (Operation.put v name z).perform es.world = (.ok [], w) :=
      runs_bind_of_ok hrun
    refine ⟨⟨_, w, h', hperform, hb.cons (e := ⟨.put v name z, _, _⟩) hv hchanges.sound
      (fun u hu hf => hchanges.untouched fun huv => hf.target ?_) fun u hu => ?_,
      hchanges.touches.structure?⟩, fun e w' he => ?_⟩
    · rw [show u = v from congrArg Value.mk huv]
      rfl
    · obtain rfl : v = u := by
        rcases hu with hu | ⟨-, ht⟩
        · cases hu
        · exact Option.some.inj ht
      refine ⟨y, f, hchanges.cell, hchanges.kind, fun other => ?_, fun hc => ?_⟩
      · have hput : Deed.put? ⟨.put v name z, .ok [], w⟩ v other =
            if v = v ∧ name = other then some z else none := rfl
        rw [hown, lastPut, hput, ha.own]
        by_cases hother : other = name
        · subst hother
          rw [if_pos rfl, if_pos ⟨rfl, rfl⟩, Option.some_or]
        · rw [if_neg hother, if_neg fun h => hother h.2.symm, Option.none_or]
      · obtain ⟨s, hs, hway⟩ := ha.way fun h => hc (.inr h)
        have hway' : w.follow s (es.added v) = some x.kind := follow_of_ways hchanges.grows.transitions hway
        have hnew : es.lastPut v name = none ↔ name ∉ d.properties := by
          rw [← ha.own]
          exact Cell.lookup_eq_none_iff
        refine ⟨s, hs, ?_⟩
        rw [added]
        unfold Deed.adds
        dsimp only
        rcases hkind with ⟨hmem, hkind⟩ | ⟨hmem, hstep⟩
        · rw [if_neg fun h => hnew.mp h.2 hmem, List.append_nil, hkind]
          exact hway'
        · rw [if_pos ⟨rfl, hnew.mpr hmem⟩, follow_append]
          show (w.follow s _).bind _ = _
          rw [hway']
          exact hstep
    · rw [hperform] at he
      cases he
  · have hperform : runs (Operation.put v name z).perform es.world =
        (.error (.unsupported .tooManyProperties), es.world) := runs_bind_of_error hrun
    refine ⟨⟨_, _, h, hperform, hb.cons (e := ⟨.put v name z, _, _⟩) hv hb.sound
      (fun u hu _ => ⟨id, id, id⟩) fun u hu => ?_, id⟩, fun e w' he => ?_⟩
    · obtain rfl : v = u := by
        rcases hu with hu | ⟨-, ht⟩
        · cases hu
        · exact Option.some.inj ht
      refine ⟨x, d, ha.cell, ha.kind, fun other => ha.own other, fun hc => ?_⟩
      obtain ⟨s, hs, hway⟩ := ha.way fun h => hc (.inr h)
      refine ⟨s, hs, ?_⟩
      rw [added]
      exact (congrArg (es.world.follow s) (List.append_nil _)).trans hway
    · rw [hperform] at he
      cases he
      exact ⟨rfl, rfl⟩

/-- A cell that was converted has the own properties that it had. -/
lemma Books.converted (hconverted : o.converted? = some v) (hv : v ∈ es.created)
    (ha : es.Account h v x d) (hchanges : es.world.Changes 281474976710656 h n v.bits w h' y f)
    (hslots : y.slots = x.slots) (hnames : f.properties = d.properties) :
    Books (⟨o, .ok [], w⟩ :: es) h' := by
  have htarget : o.target? = some v := by
    cases o <;> first | exact hconverted | cases hconverted
  have hlegal : o.Legal es.created := by
    cases o <;> cases hconverted <;> exact hv
  have hput : ∀ u name, Deed.put? ⟨o, .ok [], w⟩ u name = none := by
    cases o <;> cases hconverted <;> exact fun _ _ => rfl
  have hadds : ∀ u, Deed.adds ⟨o, .ok [], w⟩ es u = [] := by
    cases o <;> cases hconverted <;> exact fun _ => rfl
  refine hb.cons (e := ⟨o, _, _⟩) hlegal hchanges.sound
    (fun u hu hf => hchanges.untouched fun huv => hf.target ?_) fun u hu => ?_
  · rw [show u = v from congrArg Value.mk huv]
    exact htarget
  · obtain rfl : v = u := by
      rcases hu with hu | ⟨-, ht⟩
      · cases hu
      · exact Option.some.inj (htarget.symm.trans ht)
    refine ⟨y, f, hchanges.cell, hchanges.kind, fun name => ?_, fun hc => ?_⟩
    · rw [lastPut, hput, Option.none_or, ← ha.own, hnames, Cell.properties, Cell.properties, hslots]
    · obtain ⟨s, hs, hway⟩ := ha.way fun h => hc (.inr h)
      have hsame : w.structure? v = es.world.structure? v := by
        by_contra hne
        exact hc (.inl ⟨hconverted, hne⟩)
      rw [hchanges.sound.houses.structure?_eq hchanges.cell,
        hb.sound.houses.structure?_eq ha.cell] at hsame
      refine ⟨s, hs, ?_⟩
      rw [added, hadds, List.append_nil, Option.some.inj hsame]
      exact follow_of_ways hchanges.grows.transitions hway

lemma Books.proceeds (hlegal : o.Legal es.created)
    (hroom : es.world.memory.next + o.cost ≤ 281474976710656) : Proceeds es h o := by
  cases o with
  | object p => exact hb.object hlegal hroom
  | array shape vs => exact hb.array shape vs hroom
  | function g => exact hb.function g hroom
  | put v name z => exact (hb.put hlegal hroom).1
  | convert v shape =>
    obtain ⟨x, d, ha⟩ := hb.account hlegal
    obtain ⟨index, w, h', y, e, hrun, hchanges, -, -, hcases⟩ :=
      hb.sound.runs_ensureShape shape ha.kind ha.cell hroom
    have hsame : y.slots = x.slots ∧ e.properties = d.properties := by
      rcases hcases with ⟨-, -, -, -, rfl, rfl⟩ | ⟨-, -, rfl, hslots, -⟩
      · exact ⟨rfl, rfl⟩
      · exact ⟨hslots, rfl⟩
    exact ⟨_, w, h', runs_bind_of_ok hrun, hb.converted rfl hlegal ha hchanges hsame.1 hsame.2,
      hchanges.touches.structure?⟩
  | masquerade v =>
    obtain ⟨x, d, ha⟩ := hb.account hlegal
    obtain ⟨t, w, h', hrun, hchanges, -⟩ := hb.sound.runs_masquerade ha.cell ha.kind hroom
    exact ⟨_, w, h', runs_bind_of_ok hrun, hb.converted rfl hlegal ha hchanges rfl rfl,
      hchanges.touches.structure?⟩
  | intercept v =>
    obtain ⟨x, d, ha⟩ := hb.account hlegal
    obtain ⟨t, w, h', hrun, hchanges, -⟩ := hb.sound.runs_interceptIndexing ha.cell ha.kind hroom
    exact ⟨_, w, h', runs_bind_of_ok hrun, hb.converted rfl hlegal ha hchanges rfl rfl,
      hchanges.touches.structure?⟩

end Past

namespace World

variable {w : World} {h : Heap} {limit : Nat} {s : UInt64} {d : Structure}

def describe (s : UInt64) : Run Structure := do
  let type ← structureType s
  let indexing ← structureIndexing s
  let flags ← structureFlags s
  let prototype ← structurePrototype s
  return { type, indexing, flags, prototype, properties := (← get).propertiesOf s }

lemma Houses.runs_describe (hw : w.Houses limit h) (hs : h.structure? s = some d) :
    runs (describe s) w = (.ok d, w) := by
  rw [describe, runs_bind_of_ok (hw.memory.runs_structureType hs),
    runs_bind_of_ok (hw.memory.runs_structureIndexing hs),
    runs_bind_of_ok (hw.memory.runs_structureFlags hs),
    runs_bind_of_ok (hw.memory.runs_structurePrototype hs), runs_bind_of_ok runs_get, hw.propertiesOf hs]
  rfl

/-- The structures that the world knows of are those of the heap. -/
lemma Houses.exists_structure (hw : w.Houses limit h) {names : List String}
    (hs : w.structures[s]? = some names) : ∃ d, h.structure? s = some d ∧ d.properties = names :=
  Option.map_eq_some_iff.mp ((hw.structures s).symm.trans hs)

end World

namespace History

open World

variable {es newer older : Past} {s : UInt64} {d : Structure}

lemma books (hes : History es) : ∃ h, es.Books h := by
  induction hes with
  | start =>
    obtain ⟨h, hw, -⟩ := sound_start 281474976710656 (by decide) (Nat.le_refl _)
    exact ⟨h, hw, nofun, fun _ => ⟨fun _ => rfl, rfl, nofun⟩⟩
  | step hes hlegal hroom hrun ih =>
    obtain ⟨h, hb⟩ := ih
    obtain ⟨r, w, h', hrun', hb', -⟩ := hb.proceeds hlegal hroom
    rw [hrun'] at hrun
    obtain ⟨rfl, rfl⟩ := Prod.mk.inj hrun
    exact ⟨h', hb'⟩

/-- A structure tells the same for ever. -/
lemma describe_of_append (hes : History (newer ++ older)) {names : List String}
    (hs : older.world.structures[s]? = some names)
    (hd : runs (describe s) older.world = (.ok d, older.world)) :
    (newer ++ older).world.structures[s]? = some names ∧
      runs (describe s) (newer ++ older).world = (.ok d, (newer ++ older).world) := by
  induction newer with
  | nil => exact ⟨hs, hd⟩
  | cons e newer ih =>
    rw [List.cons_append] at hes ⊢
    cases hes with
    | @step _ o r w hes hlegal hroom hrun =>
      obtain ⟨hs', hd'⟩ := ih hes
      obtain ⟨h, hb⟩ := hes.books
      obtain ⟨r', w', h', hrun', hb', hkeeps⟩ := hb.proceeds hlegal hroom
      rw [hrun'] at hrun
      obtain ⟨rfl, rfl⟩ := Prod.mk.inj hrun
      obtain ⟨f, hf, rfl⟩ := hb.sound.houses.exists_structure hs'
      have hdf : f = d := by
        simpa using congrArg Prod.fst ((hb.sound.houses.runs_describe hf).symm.trans hd')
      subst hdf
      have hf' := hkeeps hf
      exact ⟨(hb'.sound.houses.structures s).trans (congrArg (Option.map Structure.properties) hf'),
        hb'.sound.houses.runs_describe hf'⟩

/-- **Objects are maps from names to values, over structures that they share.** Whatever was done to
the heap: what a structure tells never changes, and no name is in it twice, or with more than seven
others; the own properties of every cell are the values that were put last; cells that started with
the same structure, and had the same names added since, have the same structure, unless they were
converted; and a put can fail only for lack of room, and does nothing then. -/
theorem objects_are_maps (hes : History es) :
    (∀ newer older : Past, es = newer ++ older → ∀ (s : UInt64) (names : List String) (d : Structure),
      older.world.structures[s]? = some names →
      runs (describe s) older.world = (.ok d, older.world) →
      es.world.structures[s]? = some names ∧ runs (describe s) es.world = (.ok d, es.world)) ∧
    (∀ (s : UInt64) (names : List String), es.world.structures[s]? = some names → names.Nodup ∧ names.length ≤ 8) ∧
    (∀ v ∈ es.created, ∃ properties,
      runs (ownProperties v) es.world = (.ok properties, es.world) ∧
      (properties.map Prod.fst).Nodup ∧ (∀ name, properties.lookup name = es.lastPut v name) ∧
      ∀ name z, es.lastPut v name = some z →
        runs (getProperty v name) es.world = (.ok z, es.world)) ∧
    (∀ u ∈ es.created, ∀ v ∈ es.created, ¬es.Converted u → ¬es.Converted v →
      es.firstStructure u = es.firstStructure v → es.added u = es.added v →
      ∃ s, runs (structureOf u) es.world = (.ok s, es.world) ∧
        runs (structureOf v) es.world = (.ok s, es.world)) ∧
    ∀ v name z e w (older : Past), es = ⟨.put v name z, .error e, w⟩ :: older →
      e = .unsupported .tooManyProperties ∧ w = older.world := by
  obtain ⟨h, hb⟩ := hes.books
  have hh := hb.sound.houses
  refine ⟨?_, fun s names hs => ?_, fun v hv => ?_, fun u hu v hv hcu hcv hfirst hadded => ?_, ?_⟩
  · rintro newer older rfl s names d hs hd
    exact hes.describe_of_append hs hd
  · obtain ⟨d, hd, rfl⟩ := hh.exists_structure hs
    exact hh.bounded hd
  · obtain ⟨x, d, ha⟩ := hb.account hv
    refine ⟨_, hh.runs_ownProperties ha.cell ha.kind, ?_, ha.own, fun name z hz => ?_⟩
    · rw [Cell.properties, List.map_map]
      show ((d.properties.zipIdx).map Prod.fst).Nodup
      rw [List.zipIdx_map_fst]
      exact (hh.bounded ha.kind).1
    · exact hh.runs_getProperty ha.cell ha.kind ((ha.own name).trans hz)
  · obtain ⟨x, d, hau⟩ := hb.account hu
    obtain ⟨y, f, hav⟩ := hb.account hv
    obtain ⟨s, hs, hway⟩ := hau.way hcu
    obtain ⟨s', hs', hway'⟩ := hav.way hcv
    obtain rfl : s = s' := Option.some.inj (hs.symm.trans (hfirst.trans hs'))
    have hkind : x.kind = y.kind := Option.some.inj (hway.symm.trans (hadded ▸ hway'))
    exact ⟨x.kind, hh.memory.runs_structureOf hau.cell, hkind ▸ hh.memory.runs_structureOf hav.cell⟩
  · rintro v name z e w older rfl
    cases hes with
    | step holder hlegal hroom hrun =>
      obtain ⟨h', hb'⟩ := holder.books
      exact (hb'.put hlegal hroom).2 e w hrun

/-- An object with one property. -/
theorem objects_are_maps_put : ∃ es v,
    (History es ∧ es.map Deed.op = [.put v "x" (.ofInt32 7), .object .null]) ∧
      v ∈ es.created ∧ runs (getProperty v "x") es.world = (.ok (.ofInt32 7), es.world) := by
  have hbase : Memory.heapBase = 268435456 := rfl
  have hsize : startSize = 32768 := rfl
  have hcell : Layout.cellSize = 88 := rfl
  have hstructure : Layout.structureSize = 16 := rfl
  obtain ⟨h, hw, hnext⟩ := sound_start 281474976710656 (by decide) (Nat.le_refl _)
  have hroom₁ : World.start.memory.next + (Layout.structureSize + Layout.cellSize) ≤ 281474976710656 := by
    omega
  obtain ⟨c, s, w₁, h₁, hrun₁, -, hchanges₁, -⟩ :=
    hw.runs_newObject (show Value.null.bits ≠ Structure.stringKey by decide) hroom₁
  have hnext₁ := hchanges₁.grows.next
  have hroom₂ : w₁.memory.next + Layout.structureSize ≤ 281474976710656 := by omega
  have hes₁ : History [⟨.object .null, .ok [.ofCell c], w₁⟩] := by
    refine .step .start (.inl rfl) ?_ (runs_bind_of_ok hrun₁)
    rw [Past.world, Operation.cost]
    exact hroom₁
  obtain ⟨t, w₂, h₂, hrun₂, -⟩ := hchanges₁.sound.runs_putProperty_add (v := .ofCell c)
    hchanges₁.cell hchanges₁.kind (show "x" ∉ [] from List.not_mem_nil) (by decide) hroom₂ (.ofInt32 7)
  have hes₂ : History [⟨.put (.ofCell c) "x" (.ofInt32 7), .ok [], w₂⟩,
      ⟨.object .null, .ok [.ofCell c], w₁⟩] :=
    .step hes₁ List.mem_cons_self hroom₂ (runs_bind_of_ok hrun₂)
  obtain ⟨-, -, hown, -⟩ := hes₂.objects_are_maps
  obtain ⟨properties, -, -, -, hget⟩ := hown (.ofCell c) List.mem_cons_self
  refine ⟨_, .ofCell c, ⟨hes₂, rfl⟩, List.mem_cons_self, hget "x" (.ofInt32 7) ?_⟩
  show (if Value.ofCell c = Value.ofCell c ∧ "x" = "x" then some (Value.ofInt32 7) else none).or _ = _
  rw [if_pos ⟨rfl, rfl⟩, Option.some_or]

end History

end Speculation
