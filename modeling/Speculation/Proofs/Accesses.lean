import Speculation.Proofs.Instances
import Speculation.Proofs.Running.Accesses

/-!
Accesses to elements in compiled code.

A check of a cell, a load of its storage and an access to an element stand one after the other. In a heap
that was made by operations on objects the access comes to the element if the cell has elements for the
mode and the index is within bounds; a hole is not loaded, and what cannot be an element is not stored.
Otherwise the code leaves, and the heap is as before.

While a block is lowered the compile knows constants and types of nodes. Where that is true of values in
a world, the operands of an access are what its code takes them for. It stays true from one node to the
next.
-/

namespace Speculation

open Lowering

/-! ### What is known of nodes -/

section Described

variable {w : World} {g : Graph} {val val' : NodeId → Value} {facts : Facts} {n m : NodeId} {s s' s'' : State}
  {r r' : Registers} {mem mem' : Memory} {e : Edge} {d : Node} {i : Int32} {t : TypeSet} {mode : ArrayMode}
  {cells : List Value} {h : Heap} {k : Course}

/-- What a compile knows of a node, a constant and types, is true of its value. -/
structure Described (w : World) (g : Graph) (val : NodeId → Value) (facts : Facts) (n : NodeId) : Prop where
  constant {v : Value} (h : g.valueConstant n = .ok (some v)) : val n = v
  typed : (w.typeOf (val n)).isA (facts.known n) = true

namespace Described

section Types

variable (hk : Described w g val facts n)
include hk

lemma isA_of_subset (h : (facts.known n).subset t = true) : (w.typeOf (val n)).isA t = true :=
  TypeSet.isA_of_subset hk.typed h

lemma intersects (h : (w.typeOf (val n)).isA t = true) : (facts.known n).intersects t = true :=
  TypeSet.intersects_of_isA hk.typed h

lemma isInt32_iff : (val n).isInt32 = true ↔ (w.typeOf (val n)).isA .int32 = true :=
  (World.typeOf_spec hk.typed).1

lemma isNumber_iff : (val n).isNumber = true ↔ (w.typeOf (val n)).isA .number = true :=
  (World.typeOf_spec hk.typed).2.1

lemma isCell_iff : (val n).isCell = true ↔ (w.typeOf (val n)).isA .cell = true :=
  (World.typeOf_spec hk.typed).2.2

lemma nonempty : val n ≠ .empty := by
  intro hempty
  have htyped := (TypeSet.isA_iff.mp hk.typed).1
  rw [hempty] at htyped
  exact htyped rfl

end Types

lemma told (hk : Described w g val s.facts e.node) (hp : Plain s.ledger e.node) (he : e.kind ≠ .knownCell) :
    Told g val s e where
  constant := hk.constant
  proven h := hk.isCell_iff.mpr (hk.isA_of_subset (h.resolve_left he))
  admits h := hk.intersects (hk.isCell_iff.mp h)
  plain := hp
  nonempty := hk.nonempty

lemma integral (hk : Described w g val facts e.node) (hi : val e.node = .ofInt32 i) :
    Integral g val facts e i where
  value := hi
  constant h := (hk.constant h).symm.trans hi
  admits := hk.intersects (hk.isInt32_iff.mp (by rw [hi, Value.isInt32_ofInt32]))

lemma storable (hk : Described w k.env.graph k.val facts e.node)
    (hi : (k.val e.node).isInt32 = true → ∃ i, k.val e.node = .ofInt32 i) (he : e.kind ≠ .knownInt32) :
    k.Storable facts e where
  constant := hk.constant
  integer := hi
  provenInt h := hk.isInt32_iff.mpr (hk.isA_of_subset (h.resolve_left he))
  provenNumber h := hk.isNumber_iff.mpr (hk.isA_of_subset h)
  admitsInt h := hk.intersects (hk.isInt32_iff.mp h)
  admitsNumber h := hk.intersects (hk.isNumber_iff.mp h)

/-- What passes a check has the types that the check filters. -/
lemma isA_typeSet (hsettled : w.Settled cells h) {v : Value} (hv : v.isCell = true → World.Existing cells v)
    (hs : w.Suits mode v) : (w.typeOf v).isA mode.typeSet = true := by
  obtain ⟨x, hx⟩ := hsettled.cell (hv hs.1)
  obtain ⟨d, hd, hnone, -⟩ := hsettled.sound.formed.kind hx
  have hm := hsettled.sound.houses.memory
  rw [hm.typeOf_eq hx hd]
  exact d.isA_typeSet ((hm.suits_iff hx hd).mp hs) hnone

lemma checkable (hk : Described w k.env.graph k.val s.facts e.node) (hp : Plain s.ledger e.node)
    (he : e.kind ≠ .knownCell) (hsettled : w.Settled cells h)
    (hv : (k.val e.node).isCell = true → World.Existing cells (k.val e.node))
    (hvalid : s.facts.isArrayValidated e.node mode = .ok true → w.Suits mode (k.val e.node)) :
    k.Checkable h s e mode (w.Suits mode (k.val e.node)) where
  told := hk.told hp he
  described hcell := by
    obtain ⟨x, hx⟩ := hsettled.cell (hv hcell)
    obtain ⟨d, hd, -⟩ := hsettled.sound.formed.kind hx
    exact ⟨x, d, hx, hd, hsettled.sound.houses.memory.suits_iff hx hd⟩
  isCell hs := hs.1
  validated := hvalid
  admits hs := hk.intersects (isA_typeSet hsettled hv hs)
  proven {type} htype hsub := by
    have htyped := hk.isA_of_subset hsub
    have hsubcell : mode.typeSet.subset .cell = true := by cases mode <;> decide
    obtain ⟨x, hx⟩ := hsettled.cell (hv (hk.isCell_iff.mpr (TypeSet.isA_of_subset htyped hsubcell)))
    obtain ⟨d, hd, -⟩ := hsettled.sound.formed.kind hx
    have hm := hsettled.sound.houses.memory
    rw [hm.typeOf_eq hx hd] at htyped
    have htype' := d.suits_of_isA htype htyped
    refine (hm.suits_iff hx hd).mpr ?_
    cases mode <;> cases htype <;> exact htype'

/-- What is known stays true when a node executes, if the value is of the types that this one requires
and has checked. -/
lemma succeeds (hk : Described w g val s.facts n) (hp : Passed g m val' s r mem s' r' mem')
    (hs : Succeeds g m s' s'') (hd : g.nodes[m]? = some d) (hval : val' n = val n)
    (hf : ∀ t ∈ FactsAction.filteredBy d n, (w.typeOf (val n)).isA t = true) :
    Described w g val' s''.facts n where
  constant h := hval.trans (hk.constant h)
  typed := by
    rw [hval]
    exact Facts.isA_execute (hp.facts_next hs) hd hk.typed hf

end Described

end Described

/-! ### The three nodes of an access -/

/-- Store an argument to the element of another one at the index that it is. -/
def Draft.storing : Draft :=
  let d : Draft := { name := "storing", kind := .function }
  let d := ((d.addArgument .top .value).2.addArgument .top .value).2.addBlock.select 0
  let d := (d.addNode (.getLocal 0) [] .top).2
  let d := (d.addNode (.getLocal 1) [] .top).2
  let d := (d.addNode (.checkArray .int32Array) [0] .top).2
  let d := (d.addNode (.getStorage .int32Array) [0] .top).2
  let d := (d.addNode (.putByVal .int32Array) [0, 1, 1, 3] .top).2
  (d.addNode .ret [1] .top).2

lemma Draft.built_storing : Draft.storing.Built := by
  refine Built.addNode (Built.addNode (Built.addNode (Built.addNode (Built.addNode (Built.addNode
    ?_ ?_ _ _ _ _) ?_ _ _ _ _) ?_ _ _ _ _) ?_ _ _ _ _) ?_ _ _ _ _) ?_ _ _ _ _
  · exact (((Built.new _ _).addArgument _ _).addArgument _ _).addBlock.select _
  all_goals decide +kernel

def Memory.Carries (mem : Memory) (w : World) : Prop :=
  ∀ x : UInt64, heapBase ≤ x.toNat → x.toNat < w.memory.next → mem.byte? x = w.memory.byte? x

/-- Three nodes: the base is checked for elements of the mode, its storage is located, and the element at
the index is loaded or, if there is an operand for that, stored. -/
structure ElementAccess where
  mode : ArrayMode
  base : NodeId
  index : NodeId
  stored : Option Edge
  check : NodeId
  storage : NodeId
  target : NodeId

namespace ElementAccess

variable (a : ElementAccess)

def op : Op :=
  match a.stored with
  | none => .getByVal a.mode
  | some _ => .putByVal a.mode

def children : Array Edge :=
  match a.stored with
  | none => #[⟨a.base, .cell⟩, ⟨a.index, .int32⟩, ⟨a.storage, .untyped⟩]
  | some e => #[⟨a.base, .cell⟩, ⟨a.index, .int32⟩, e, ⟨a.storage, .untyped⟩]

lemma children_base : a.children[0]? = some ⟨a.base, .cell⟩ := by
  unfold children
  cases a.stored <;> rfl

lemma children_index : a.children[1]? = some ⟨a.index, .int32⟩ := by
  unfold children
  cases a.stored <;> rfl

def operands : List NodeId := a.base :: a.index :: (a.stored.map Edge.node).toList

def Leaves (c : Site) (w : World) (m : Machine) : Prop :=
  m.memory.Carries w ∧ ∃ x ∈ c.artifact.exits,
    x.exit.kind ∈ [ExitKind.badType, .badIndexingType, .outOfBounds, .loadFromHole] ∧
    x.exit.node ∈ [a.check, a.target] ∧ m.place = x.stub

/-- The machine is at the end of the code of the access, consistent with the ledger there. -/
def Passes (env : Env) (j : Nat) (s s' : State) (val : NodeId → Value) (m : Machine) : Prop :=
  outcome (lowerNode a.op) env (s.visiting j a.target a.op) = (.ok (), s') ∧ m.place = s'.asm.offset ∧
    Stands val s'.ledger m.registers m.memory

/-- The machine has loaded the element: the node has the same value, or the same number. The heap is as
before. -/
def Gets (env : Env) (j : Nat) (d : Node) (s : State) (val : NodeId → Value) (w : World) (u : Value)
    (m : Machine) : Prop :=
  m.memory.Carries w ∧ ∃ v s', a.mode.Same v u ∧ a.Passes env j s s' (Function.update val a.target v) m ∧
    ∃ l format, Represents format (m.registers.word l) v ∧
      (d.refCount ≠ 0 → ∃ i, d.slot = some (.ofLocal i) ∧ s'.ledger[i]? = some
        { node := some a.target, useCount := d.refCount, registerFormat := format, location := l })

/-- The machine has stored the bytes of the element at the index of the base, and nothing else in the
heap has changed. -/
def Puts (env : Env) (j : Nat) (s : State) (val : NodeId → Value) (w : World) (v : Value) (i : Int32)
    (bits : Nat) (m : Machine) : Prop :=
  (∃ s', a.Passes env j s s' val m) ∧
    ∃ b, World.runs (World.elementAddress a.mode v i.toInt.toNat) w = (.ok b, w) ∧
      m.memory.read? a.mode.elementSize b = some bits ∧
      ∀ x : UInt64, Memory.heapBase ≤ x.toNat → x.toNat < w.memory.next →
        x.toNat < b.toNat ∨ b.toNat + a.mode.elementSize ≤ x.toNat →
          m.memory.byte? x = w.memory.byte? x

end ElementAccess

/-- The machine is where a node is taken up, and what is known of the operands of the access is true. -/
structure Machine.Awaits (m : Machine) (w : World) (g : Graph) (a : ElementAccess) (val : NodeId → Value)
    (s : State) (r : Registers) (mem : Memory) : Prop where
  place : m.place = s.asm.offset
  stands : Stands val s.ledger m.registers m.memory
  known : ∀ n ∈ a.operands, Described w g val s.facts n
  plain : Plain s.ledger a.base
  frame : m.registers.gpr .frame = r.gpr .frame
  memory : Confined g r mem m.memory

namespace Machine.Awaits

variable {w : World} {g : Graph} {a : ElementAccess} {val val' : NodeId → Value} {s s' s'' : State}
  {r : Registers} {mem : Memory} {m m' : Machine} {n : NodeId} {d : Node}

/-- After one node the machine is where the next one is taken up. -/
lemma step (h : m.Awaits w g a val s r mem) (hn : n ∉ a.operands) (hd : g.nodes[n]? = some d)
    (hval : ∀ k ∈ a.operands, val' k = val k)
    (hf : ∀ k ∈ a.operands, ∀ t ∈ FactsAction.filteredBy d k, (w.typeOf (val k)).isA t = true)
    (hp : Passed g n val' s m.registers m.memory s' m'.registers m'.memory) (hs : Succeeds g n s' s'')
    (hplace : m'.place = s'.asm.offset) : m'.Awaits w g a val' s'' r mem where
  place := hplace.trans hs.offset.symm
  stands := hp.stands_next hs
  known k hk := (h.known k hk).succeeds hp hs hd (hval k hk) (hf k hk)
  plain := hp.plain_next hs (fun hb => hn (hb ▸ List.mem_cons_self)) h.plain
  frame := hp.frame.trans h.frame
  memory := h.memory.trans hp.memory h.frame

end Machine.Awaits

/-- A node with one operand, which is a cell, filters that on it, and what it checks. -/
lemma FactsAction.filteredBy_cell {d : Node} {n k : NodeId} (hd : d.children = #[⟨n, .cell⟩]) :
    filteredBy d k = if n = k then TypeSet.cell :: checked d.op else [] := by
  unfold filteredBy
  rw [hd]
  by_cases hn : n = k
  · simp [hn, UseKind.filter]
  · simp [hn]

namespace Plan

variable {w : World} {cells : List Value} {p : Plan} {a : ElementAccess} {frame : FrameLayout}
  {b : BlockId} {j : Nat} {d : Node} {s₀ s₁ s₂ : State} {c : Site} {val : NodeId → Value} {i : Int32}
  {r : Registers} {mem : Memory} {h : Heap} {m : Machine}

/-- A compile has taken up the nodes of an access one after the other. A machine that is consistent with
the ledger before the first one has the heap of the world in its memory, and what the compile knows of
the operands is true of their values in the world. -/
structure Accesses (p : Plan) (w : World) (cells : List Value) (a : ElementAccess) (frame : FrameLayout)
    (b : BlockId) (j : Nat) (d : Node) (s₀ s₁ s₂ : State) (c : Site) (val : NodeId → Value) (i : Int32)
    (r : Registers) (mem : Memory) : Prop where
  draft : ∃ g : Draft, g.Built ∧ g.finish = .ok p.graph
  compiled : ∃ base, (p.compile base).outcome = .ok c.artifact
  loaded : c.Loaded
  mode : a.mode ≠ .string
  checked : ∃ d, p.TakesUp frame b j a.check d s₀ ∧ d.op = .checkArray a.mode ∧
    d.children = #[⟨a.base, .cell⟩]
  located : ∃ d, p.TakesUp frame b (j + 1) a.storage d s₁ ∧ d.op = .getStorage a.mode ∧
    d.children = #[⟨a.base, .cell⟩]
  taken : p.TakesUp frame b (j + 2) a.target d s₂
  op : d.op = a.op
  children : d.children = a.children
  apart : a.check ∉ a.operands ∧ a.storage ∉ a.operands
  known : ∀ n ∈ a.operands, Described w p.graph val s₀.facts n
  plain : Plain s₀.ledger a.base
  validated (h : s₀.facts.isArrayValidated a.base a.mode = .ok true) : w.Suits a.mode (val a.base)
  existing (h : (val a.base).isCell = true) : World.Existing cells (val a.base)
  index : val a.index = .ofInt32 i
  stored : ∀ e ∈ a.stored, e.kind ∈ [UseKind.untyped, .number, .int32] ∧
    ((val e.node).isInt32 = true → ∃ z, val e.node = .ofInt32 z)
  short {n : UInt32} (hs : w.Suits a.mode (val a.base))
    (hn : World.runs (World.elementCount a.mode (val a.base)) w = (.ok n, w)) : n.toNat < 2147483648
  stands : Stands val s₀.ledger r mem
  heap (x : UInt64) (hle : Memory.heapBase ≤ x.toNat) (hlt : x.toNat < w.memory.next) :
    r.Beyond p.graph x ∧ mem.byte? x = w.memory.byte? x
  next : w.memory.next < 281474976710656

namespace Accesses

variable (ht : p.Accesses w cells a frame b j d s₀ s₁ s₂ c val i r mem) (hw : w.Settled cells h)
include ht

lemma carries {mem' : Memory} (hc : Confined p.graph r mem mem') : mem'.Carries w := fun x hle hlt =>
  (hc (ht.heap x hle hlt).1).trans (ht.heap x hle hlt).2

lemma start : (⟨r, mem, s₀.asm.offset⟩ : Machine).Awaits w p.graph a val s₀ r mem :=
  ⟨rfl, ht.stands, ht.known, ht.plain, rfl, .refl _ _ _⟩

include hw

lemma aside : h.Aside p.graph r mem := hw.sound.houses.memory.aside ht.heap

/-- The check is passed by what has elements for the mode. -/
lemma check : ∃ steps m, c.Goes steps ⟨r, mem, s₀.asm.offset⟩ m ∧
    (w.Suits a.mode (val a.base) ∧ m.Awaits w p.graph a val s₁ r mem ∨
      ¬w.Suits a.mode (val a.base) ∧ a.Leaves c w m) := by
  obtain ⟨g, hd, hg⟩ := ht.draft
  obtain ⟨base, hcompile⟩ := ht.compiled
  obtain ⟨d₀, ht₀, hop, hch⟩ := ht.checked
  obtain ⟨d₁, ht₁, -, -⟩ := ht.located
  have hbase : a.base ∈ a.operands := List.mem_cons_self
  have hconst : d₀.op.isConstant = false := by rw [hop]; rfl
  have hhint : ∀ v, d₀.op ≠ .movHint v := by simp [hop]
  obtain ⟨steps, m, hgo, ⟨s₃, hlowered, hplace, hs, hp⟩ | ⟨kind, ⟨hno, hkind, hconf⟩, x, hx, rfl, hnode, hstub⟩⟩ :=
    ht₀.decides (P := fun s' r' mem' => w.Suits a.mode (val a.base) ∧
        Passed p.graph a.check val (s₀.visiting j a.check d₀.op) r mem s' r' mem')
      (R := fun kind mem' => ¬w.Suits a.mode (val a.base) ∧
        kind ∈ [ExitKind.badType, .badIndexingType] ∧ Confined p.graph r mem mem')
      hd hg hcompile ht.loaded rfl hconst hhint fun layout final before hf hk hu => by
        rw [hop]
        exact Course.Ends.lowerCheckArray (e := ⟨a.base, .cell⟩) hk ht₀.node (by rw [hch]; rfl)
          ((ht.known _ hbase).checkable ht.plain nofun hw ht.existing ht.validated) ht.stands
          (ht.aside hw)
  · have hsucceeds := ht₀.succeeds ht₁ hconst hhint hlowered
    refine ⟨steps, m, hgo, .inl ⟨hs, ht.start.step ht.apart.1 ht₀.node (fun _ _ => rfl) ?_
      ⟨hp.stands, hp.facts, hp.plain, hp.frame, hp.memory⟩ hsucceeds hplace⟩⟩
    intro k hk t hmem
    rw [FactsAction.filteredBy_cell hch, hop] at hmem
    split at hmem
    case isFalse => cases hmem
    case isTrue hn =>
      subst hn
      rcases List.mem_cons.mp hmem with rfl | hmem
      · exact (ht.known _ hbase).isCell_iff.mp hs.1
      · rw [List.mem_singleton.mp hmem]
        exact Described.isA_typeSet hw ht.existing hs
  · refine ⟨steps, m, hgo, .inr ⟨hno, ht.carries hconf, x, hx, ?_, ?_, hstub⟩⟩
    · simp only [List.mem_cons, List.not_mem_nil, or_false] at hkind ⊢
      rcases hkind with hkind | hkind <;> simp [hkind]
    · rw [hnode]
      exact List.mem_cons_self

lemma locate (hs : w.Suits a.mode (val a.base)) (hm : m.Awaits w p.graph a val s₁ r mem)
    {x : Cell} {ws : List Nat} (hx : h.cell? (val a.base).bits = some x) (hb : h.Backs a.mode x ws) :
    ∃ steps m', c.Goes steps m m' ∧
      m'.Awaits w p.graph a (Function.update val a.storage ⟨x.storage⟩) s₂ r mem := by
  obtain ⟨g, hd, hg⟩ := ht.draft
  obtain ⟨base, hcompile⟩ := ht.compiled
  obtain ⟨d₁, ht₁, hop, hch⟩ := ht.located
  have hbase : a.base ∈ a.operands := List.mem_cons_self
  have hconst : d₁.op.isConstant = false := by rw [hop]; rfl
  have hhint : ∀ v, d₁.op ≠ .movHint v := by simp [hop]
  obtain ⟨steps, m', hgo, ⟨s₃, hlowered, hplace, hp⟩ | ⟨-, ⟨⟩, -⟩⟩ :=
    ht₁.decides (P := fun s' r' mem' => Passed p.graph a.storage
        (Function.update val a.storage ⟨x.storage⟩) (s₁.visiting (j + 1) a.storage d₁.op) m.registers
        m.memory s' r' mem')
      (R := fun _ _ => False) hd hg hcompile ht.loaded rfl hconst hhint fun layout final before hf hk hu => by
        rw [hop]
        refine Course.Ends.mono (Course.Ends.lowerGetStorage (e := ⟨a.base, .cell⟩) hk hu ht₁.node
          (by rw [hch]; rfl) ((hm.known _ hbase).told hm.plain nofun) hs.1 hx
          (hw.sound.houses.memory.isNumber_storage hb ht.next) hm.stands
          ((ht.aside hw).confined hm.memory hm.frame)) (fun _ _ hp => .inl hp) fun _ _ hfalse => hfalse.elim
  have hsucceeds := ht₁.succeeds ht.taken hconst hhint hlowered
  rw [← hm.place] at hgo
  refine ⟨steps, m', hgo, hm.step ht.apart.2 ht₁.node (fun k hk => ?_) (fun k hk t hmem => ?_)
    ⟨hp.stands, hp.facts, hp.plain, hp.frame, hp.memory⟩ hsucceeds hplace⟩
  · exact Function.update_of_ne (fun hn => ht.apart.2 (hn.subst hk)) _ _
  · rw [FactsAction.filteredBy_cell hch, hop] at hmem
    split at hmem
    case isFalse => cases hmem
    case isTrue hn =>
      subst hn
      rw [List.mem_singleton.mp hmem]
      exact (ht.known _ hbase).isCell_iff.mp hs.1

lemma count_lt {x : Cell} {ws : List Nat} (hs : w.Suits a.mode (val a.base))
    (hx : h.cell? (val a.base).bits = some x) (hb : h.Backs a.mode x ws) : ws.length < 2147483648 := by
  have hhouses := hw.sound.houses.memory
  have hshort := ht.short hs (hhouses.runs_elementCount hx hb)
  rwa [UInt32.toNat_ofNat_of_lt' (hhouses.length_lt_of_backs hb)] at hshort

section Access

variable {x : Cell} {δ : Structure} {ws : List Nat} (hs : w.Suits a.mode (val a.base))
  (hm : m.Awaits w p.graph a (Function.update val a.storage ⟨x.storage⟩) s₂ r mem)
  (hx : h.cell? (val a.base).bits = some x)
include hs hm hx

omit hw in
/-- The operands are at hand. -/
lemma access {final : State} {before : List NodeId} {op : Op} {n : Nat}
    (hn : d.children[n]? = some ⟨a.storage, .untyped⟩) :
    (⟨p.env frame, c, final, Function.update val a.storage ⟨x.storage⟩, a.target, before⟩ : Course).Access h
      (s₂.visiting (j + 2) a.target op) d n x i := by
  have hval : ∀ k ∈ a.operands, Function.update val a.storage (⟨x.storage⟩ : Value) k = val k :=
    fun k hk => Function.update_of_ne (fun hn => ht.apart.2 (hn.subst hk)) _ _
  have hbase : a.base ∈ a.operands := List.mem_cons_self
  have hindex : a.index ∈ a.operands := List.mem_cons_of_mem _ List.mem_cons_self
  refine ⟨⟨⟨a.base, .cell⟩, by rw [ht.children, a.children_base], ?_, ?_, ?_⟩,
    ⟨⟨a.index, .int32⟩, by rw [ht.children, a.children_index], ?_⟩, ⟨_, hn, Function.update_self ..⟩⟩
  · exact (hm.known _ hbase).told hm.plain nofun
  · exact (congrArg Value.isCell (hval _ hbase)).trans hs.1
  · exact (congrArg (fun v : Value => h.cell? v.bits) (hval _ hbase)).trans hx
  · exact (hm.known _ hindex).integral ((hval _ hindex).trans ht.index)

variable (hδ : h.structure? x.kind = some δ) (hb : h.Backs a.mode x ws)
include hδ hb

/-- A load comes to what the base has at the index. -/
lemma get (hstored : a.stored = none)
    (hnan : ∀ y, a.mode = .float64Array → 0 ≤ i.toInt → ws[i.toInt.toNat]? = some y →
      (⟨.ofNat y⟩ : Double).isNaN = false) :
    ∃ steps m', c.Goes steps m m' ∧
      ((∃ u, w.Has a.mode (val a.base) i u ∧ a.Gets (p.env frame) (j + 2) d s₂
        (Function.update val a.storage ⟨x.storage⟩) w u m') ∨
      (∀ u, ¬w.Has a.mode (val a.base) i u) ∧ a.Leaves c w m') := by
  obtain ⟨g, hd, hg⟩ := ht.draft
  obtain ⟨base, hcompile⟩ := ht.compiled
  have hop : d.op = .getByVal a.mode := by rw [ht.op, ElementAccess.op, hstored]
  have hch : d.children[2]? = some ⟨a.storage, .untyped⟩ := by
    rw [ht.children, ElementAccess.children, hstored]
    rfl
  have hconst : d.op.isConstant = false := by rw [hop]; rfl
  have hhint : ∀ v, d.op ≠ .movHint v := by simp [hop]
  have hhouses := hw.sound.houses.memory
  have hd' := (hhouses.suits_iff hx hδ).mp hs
  have hhas : ∀ u, w.Has a.mode (val a.base) i u ↔ a.mode.fetch ws i = .ok u :=
    fun u => hhouses.has_iff hx hb hδ hd' ht.mode
  let k : Course := ⟨p.env frame, c, s₂, Function.update val a.storage ⟨x.storage⟩, a.target, []⟩
  obtain ⟨steps, m', hgo, ⟨s₃, hlowered, hplace, u, v, e, l, format, hu, hsame, he, hrec, hrep, hp⟩ |
      ⟨kind, ⟨hno, hconf⟩, y, hy, rfl, hnode, hstub⟩⟩ :=
    ht.taken.decides (P := fun s' r' mem' => ∃ u v e l format, a.mode.fetch ws i = .ok u ∧
        a.mode.Same v u ∧ p.graph.nodes[a.target]? = some e ∧ k.RecordsAt e l format s' ∧
        Represents format (r'.word l) v ∧ Passed p.graph a.target (Function.update k.val a.target v)
          (s₂.visiting (j + 2) a.target d.op) m.registers m.memory s' r' mem')
      (R := fun kind mem' => a.mode.fetch ws i = .error kind ∧ Confined p.graph m.registers m.memory mem')
      hd hg hcompile ht.loaded rfl hconst hhint fun layout final before hf hk hu' => by
        rw [hop]
        exact Course.Ends.lowerGetByVal hk hu' ht.taken.node (ht.access hs hm hx hch) hm.stands
          ((ht.aside hw).confined hm.memory hm.frame) hb (ht.count_lt hw hs hx hb) ht.mode hnan
  · rw [← hm.place] at hgo
    refine ⟨steps, m', hgo, .inl ⟨u, (hhas u).mpr hu, ht.carries (hm.memory.trans hp.memory hm.frame), v,
      s₃, hsame, ⟨?_, hplace, hp.stands⟩, l, format, hrep, ?_⟩⟩
    · rw [← ht.op]
      exact hlowered
    · obtain rfl := Option.some.inj (he.symm.trans ht.taken.node)
      exact hrec
  · rw [← hm.place] at hgo
    refine ⟨steps, m', hgo, .inr ⟨fun u hu => ?_, ht.carries (hm.memory.trans hconf hm.frame), y, hy, ?_,
      ?_, hstub⟩⟩
    · rw [(hhas u).mp hu] at hno
      cases hno
    · have hkind := ArrayMode.mem_of_fetch_eq_error hno
      simp only [List.mem_cons, List.not_mem_nil, or_false] at hkind ⊢
      rcases hkind with hkind | hkind <;> simp [hkind]
    · rw [hnode]
      simp

/-- A store changes the bytes of the element that the base has at the index. -/
lemma put {e : Edge} (hstored : a.stored = some e) :
    ∃ steps m', c.Goes steps m m' ∧
      ((∃ bits, w.InBounds a.mode (val a.base) i ∧ a.mode.encode? (val e.node) = some bits ∧
        a.Puts (p.env frame) (j + 2) s₂ (Function.update val a.storage ⟨x.storage⟩) w (val a.base) i bits m') ∨
      ¬(w.InBounds a.mode (val a.base) i ∧ (a.mode.encode? (val e.node)).isSome) ∧ a.Leaves c w m') := by
  obtain ⟨g, hd, hg⟩ := ht.draft
  obtain ⟨base, hcompile⟩ := ht.compiled
  have hop : d.op = .putByVal a.mode := by rw [ht.op, ElementAccess.op, hstored]
  have hch : d.children[3]? = some ⟨a.storage, .untyped⟩ ∧ d.children[2]? = some e := by
    rw [ht.children, ElementAccess.children, hstored]
    exact ⟨rfl, rfl⟩
  have hconst : d.op.isConstant = false := by rw [hop]; rfl
  have hhint : ∀ v, d.op ≠ .movHint v := by simp [hop]
  have hhouses := hw.sound.houses.memory
  have hin := hhouses.inBounds_iff hx hb hδ ((hhouses.suits_iff hx hδ).mp hs) (i := i)
  have hoperand : e.node ∈ a.operands := by simp [ElementAccess.operands, hstored]
  obtain ⟨hkind, hint⟩ := ht.stored e hstored
  have hval : Function.update val a.storage (⟨x.storage⟩ : Value) e.node = val e.node :=
    Function.update_of_ne (fun hn => ht.apart.2 (hn.subst hoperand)) _ _
  rw [← hval] at hint
  obtain ⟨steps, m', hgo, ⟨s₃, hlowered, hplace, bits, mem₁, hassign, hconf, hst, hstands⟩ |
      ⟨kind, ⟨hno, hconf⟩, y, hy, rfl, hnode, hstub⟩⟩ :=
    ht.taken.decides (P := fun s' r' mem' => ∃ bits mem₁,
        a.mode.assign ws.length i (Function.update val a.storage ⟨x.storage⟩ e.node) = .ok bits ∧
        Confined p.graph m.registers m.memory mem₁ ∧
        mem₁.Stored (x.element a.mode i.toInt.toNat) a.mode.elementSize bits mem' ∧
        Stands (Function.update val a.storage ⟨x.storage⟩) s'.ledger r' mem')
      (R := fun kind mem' =>
        a.mode.assign ws.length i (Function.update val a.storage ⟨x.storage⟩ e.node) = .error kind ∧
        Confined p.graph m.registers m.memory mem')
      hd hg hcompile ht.loaded rfl hconst hhint fun layout final before hf hk _ => by
        rw [hop]
        exact Course.Ends.lowerPutByVal hk (.of_compile hcompile hf ht.loaded) ht.taken.node
          (ht.access hs hm hx hch.1) hch.2
          ((hm.known _ hoperand).storable hint fun h => by simp [h] at hkind)
          hm.stands ((ht.aside hw).confined hm.memory hm.frame) hb (ht.count_lt hw hs hx hb) ht.mode
  · rw [← hm.place] at hgo
    rw [hval, ArrayMode.assign_eq_ok_iff, ← hin] at hassign
    have hcarries := ht.carries (hm.memory.trans hconf hm.frame)
    obtain ⟨hi, hlt⟩ := hin.mp hassign.2
    obtain ⟨y, hy⟩ : ∃ y, ws[i.toInt.toNat]? = some y := ⟨_, List.getElem?_eq_getElem (by omega)⟩
    refine ⟨steps, m', hgo, .inl ⟨bits, hassign.2, hassign.1, ⟨s₃, ?_, hplace, hstands⟩, _,
      (hhouses.element hx hb hy).1, hst.read, fun y hle hlt hout => ?_⟩⟩
    · rw [← ht.op]
      exact hlowered
    · exact (hst.same hout).trans (hcarries y hle hlt)
  · rw [← hm.place] at hgo
    rw [hval] at hno
    refine ⟨steps, m', hgo, .inr ⟨?_, ht.carries (hm.memory.trans hconf hm.frame), y, hy, ?_, ?_, hstub⟩⟩
    · rintro ⟨hbounds, hsome⟩
      obtain ⟨bits, henc⟩ := Option.isSome_iff_exists.mp hsome
      rw [ArrayMode.assign_eq_ok_iff.mpr ⟨henc, hin.mp hbounds⟩] at hno
      cases hno
    · have hkind := ArrayMode.mem_of_assign_eq_error hno
      simp only [List.mem_cons, List.not_mem_nil, or_false] at hkind ⊢
      rcases hkind with hkind | hkind <;> simp [hkind]
    · rw [hnode]
      simp

end Access

end Accesses

/-- **Accesses to elements stay within bounds, and leave without effects.** In a heap that was made by
operations on objects, a load gives the element that the base has for the mode at the index, unless it is
a hole, and a store changes its bytes, and no others of the heap, to those of the value, if the mode has
any. In every other case the machine leaves through an exit, and the heap is as before. It never faults. -/
theorem element_access_in_bounds (hw : w.Grown cells)
    (ht : p.Accesses w cells a frame b j d s₀ s₁ s₂ c val i r mem)
    (hnan : a.mode = .float64Array → ∀ x y, w.InBounds a.mode (val a.base) i →
      World.runs (World.elementAddress a.mode (val a.base) i.toInt.toNat) w = (.ok x, w) →
      w.memory.read? 8 x = some y → (⟨.ofNat y⟩ : Double).isNaN = false) :
    ∃ steps m, c.Goes steps ⟨r, mem, s₀.asm.offset⟩ m ∧
      match a.stored with
      | none =>
        (∃ u st, w.Has a.mode (val a.base) i u ∧
          a.Gets (p.env frame) (j + 2) d s₂ (Function.update val a.storage st) w u m) ∨
        (∀ u, ¬w.Has a.mode (val a.base) i u) ∧ a.Leaves c w m
      | some e =>
        (∃ bits st, w.InBounds a.mode (val a.base) i ∧ a.mode.encode? (val e.node) = some bits ∧
          a.Puts (p.env frame) (j + 2) s₂ (Function.update val a.storage st) w (val a.base) i bits m) ∨
        ¬(w.InBounds a.mode (val a.base) i ∧ (a.mode.encode? (val e.node)).isSome) ∧ a.Leaves c w m := by
  obtain ⟨h, hsettled⟩ := hw.settled
  obtain ⟨steps, m, hgo, ⟨hs, hm⟩ | ⟨hno, hleaves⟩⟩ := ht.check hsettled
  case inr =>
    refine ⟨steps, m, hgo, ?_⟩
    split
    · exact .inr ⟨fun u hu => hno hu.1.1, hleaves⟩
    · exact .inr ⟨fun hin => hno hin.1.1, hleaves⟩
  have hhouses := hsettled.sound.houses.memory
  obtain ⟨x, hx⟩ := hsettled.cell (ht.existing hs.1)
  obtain ⟨δ, hδ, -⟩ := hsettled.sound.formed.kind hx
  have hsuits := (hhouses.suits_iff hx hδ).mp hs
  obtain ⟨ws, hb⟩ := hsettled.sound.formed.backs hx hδ (hsettled.stocked hx hδ) hsuits
  obtain ⟨steps₁, m₁, hgo₁, hm₁⟩ := ht.locate hsettled hs hm hx hb
  cases hstored : a.stored with
  | none =>
    obtain ⟨steps₂, m₂, hgo₂, hres⟩ := ht.get hsettled hs hm₁ hx hδ hb hstored fun y hmode hi hy => by
      obtain ⟨hrun, hread⟩ := hhouses.element hx hb hy
      have hlt := (List.getElem?_eq_some_iff.mp hy).1
      rw [hmode] at hread
      exact hnan hmode _ y ((hhouses.inBounds_iff hx hb hδ hsuits).mpr ⟨hi, by omega⟩) hrun
        (hmode ▸ hread)
    refine ⟨_, m₂, (hgo.trans hgo₁).trans hgo₂, ?_⟩
    exact hres.imp (fun ⟨u, hu⟩ => ⟨u, _, hu⟩) id
  | some e =>
    obtain ⟨steps₂, m₂, hgo₂, hres⟩ := ht.put hsettled hs hm₁ hx hδ hb hstored
    refine ⟨_, m₂, (hgo.trans hgo₁).trans hgo₂, ?_⟩
    exact hres.imp (fun ⟨bits, hbits⟩ => ⟨bits, _, hbits⟩) id

def storing : ElementAccess := ⟨.int32Array, 0, 1, some ⟨1, .int32⟩, 2, 3, 4⟩

lemma exists_integers : ∃ (w : World) (u : Value), w.Grown [u] ∧ w.memory.next ≤ 0x20000000 ∧
    (w.typeOf u).isA .top = true ∧ w.InBounds .int32Array u 0 ∧
    ∀ n, World.runs (World.elementCount .int32Array u) w = (.ok n, w) → n.toNat = 1 := by
  obtain ⟨h, -, -, hs, hnext, -⟩ := World.lettered_start 281474976710656 (by decide) (Nat.le_refl _)
  have hbase : Memory.heapBase = 268435456 := rfl
  have hstart : World.startSize = 32768 := rfl
  have hcost : (Act.int32Array [7]).cost = 112 := rfl
  have hroom : Layout.structureSize + Layout.cellSize + Memory.roundUp (4 * [7].length) = 112 := rfl
  obtain ⟨s, c, b, w, h', hrun, -, hchanges, hitem, -⟩ :=
    hs.runs_newTypedArray (show CellType.int32Array = .int32Array ∧ 4 = 4 ∨ _ from .inl ⟨rfl, rfl⟩) [7]
      (by decide) (by decide) (by rw [hroom]; omega)
  have hgrown : w.Grown [.ofCell c] :=
    .step .start (show (Act.int32Array [7]).Legal [] from trivial) (by rw [hcost]; omega)
      (World.runs_bind_of_ok hrun)
  have hhouses := hchanges.sound.houses.memory
  have hbacks : h'.Backs .int32Array ⟨s, b, UInt32.ofNat 1, fun _ => .empty⟩ [7] := ⟨hitem, rfl⟩
  have hnext' := hchanges.grows.next
  refine ⟨w, .ofCell c, hgrown, by omega, ?_, ?_, fun n hn => ?_⟩
  · rw [hhouses.typeOf_eq (v := .ofCell c) hchanges.cell hchanges.kind]
    decide
  · rw [hhouses.inBounds_iff (v := .ofCell c) hchanges.cell hbacks hchanges.kind rfl]
    decide
  · rw [hhouses.runs_elementCount (v := .ofCell c) hchanges.cell hbacks] at hn
    cases hn
    rfl

theorem element_access_in_bounds_integer : ∃ (w : World) (u : Value) (c : Site), w.Grown [u] ∧
    ((ofDraft .storing).compile 0x7e0000000000).outcome = .ok c.artifact ∧
    ∃ steps m st, c.Goes steps ⟨holding u (.ofInt32 0), withStack w,
      ((ofDraft .storing).stateAt ⟨3, 28⟩ 0 2).asm.offset⟩ m ∧
      storing.Puts ((ofDraft .storing).env ⟨3, 28⟩) 4 ((ofDraft .storing).stateAt ⟨3, 28⟩ 0 4)
        (Function.update (fun n => if n = 0 then u else .ofInt32 0) 3 st) w u 0 0 m := by
  obtain ⟨_, c, hcompile, hc, rfl, -⟩ := exists_loaded (ofDraft .storing) 0x7e0000000000
    (by decide +kernel) (by decide)
  obtain ⟨w, u, hw, hnext, htype, hin, hcount⟩ := exists_integers
  obtain ⟨h, hsettled⟩ := hw.settled
  obtain ⟨hmap, hsame⟩ := byte?_withStack hsettled.sound hnext
  have htakes : ∀ j n, (j, n) ∈ [(2, 2), (3, 3), (4, 4)] →
      (ofDraft .storing).TakesUp ⟨3, 28⟩ 0 j n ((ofDraft .storing).nodeAt n)
        ((ofDraft .storing).stateAt ⟨3, 28⟩ 0 j) := by
    intro j n hmem
    simp only [List.mem_cons, List.not_mem_nil, or_false, Prod.mk.injEq] at hmem
    obtain ⟨rfl, rfl⟩ | ⟨rfl, rfl⟩ | ⟨rfl, rfl⟩ := hmem
    all_goals
      refine takesUp_of_isOk ?_ ?_ ?_ ?_ ?_ ?_
      all_goals decide +kernel
  have hregisters : InRegisters ((ofDraft .storing).stateAt ⟨3, 28⟩ 0 2).ledger := by decide +kernel
  have hnone : ∀ n < 2, (ofDraft .storing).graph.valueConstant n = .ok none ∧
      ((ofDraft .storing).stateAt ⟨3, 28⟩ 0 2).facts.known n = .top := by decide +kernel
  have hvalid : ((ofDraft .storing).stateAt ⟨3, 28⟩ 0 2).facts.isArrayValidated 0 .int32Array = .ok false := by
    decide +kernel
  have ht : (ofDraft .storing).Accesses w [u] storing ⟨3, 28⟩ 0 2 ((ofDraft .storing).nodeAt 4)
      ((ofDraft .storing).stateAt ⟨3, 28⟩ 0 2) ((ofDraft .storing).stateAt ⟨3, 28⟩ 0 3)
      ((ofDraft .storing).stateAt ⟨3, 28⟩ 0 4) c (fun n => if n = 0 then u else .ofInt32 0) 0
      (holding u (.ofInt32 0)) (withStack w) :=
    { draft := ⟨.storing, Draft.built_storing, finish_ofDraft (by decide +kernel)⟩
      compiled := ⟨_, hcompile⟩
      loaded := hc
      mode := by decide
      checked := ⟨_, htakes 2 2 (by decide), by decide +kernel, by decide +kernel⟩
      located := ⟨_, htakes 3 3 (by decide), by decide +kernel, by decide +kernel⟩
      taken := htakes 4 4 (by decide)
      op := by decide +kernel
      children := by decide +kernel
      apart := by decide
      known := fun n hn => by
        have hn' : n = 0 ∨ n = 1 := by simpa [ElementAccess.operands, storing] using hn
        obtain ⟨hconstant, hproven⟩ := hnone n (by rcases hn' with rfl | rfl <;> decide)
        refine ⟨fun h => by simp [hconstant] at h, ?_⟩
        rw [hproven]
        rcases hn' with rfl | rfl
        · exact htype
        · show (w.typeOf (.ofInt32 0)).isA .top = true
          rw [World.typeOf, TypeSet.ofValue, if_pos (by decide)]
          decide
      plain := by
        intro i x hx _
        obtain ⟨hs, ⟨-, hf⟩ | ⟨hf, -⟩⟩ := hregisters.2 x (Array.mem_of_getElem? hx)
        all_goals
          rw [hs, hf]
          exact ⟨fun h => DataFormat.noConfusion h, fun h => DataFormat.noConfusion h⟩
      validated := fun h => (Bool.false_ne_true (Except.ok.inj (hvalid.symm.trans h))).elim
      existing := fun _ => .inl List.mem_cons_self
      index := rfl
      stored := by
        rintro e ⟨⟩
        exact ⟨by decide, fun _ => ⟨0, rfl⟩⟩
      short := fun _ hn => by
        rw [hcount _ hn]
        decide
      stands := stands_holding hregisters hmap
      heap := fun x _ hlt => ⟨beyond_holding (by decide +kernel) (by omega), hsame x hlt⟩
      next := by omega }
  have hencode : storing.mode.encode? (.ofInt32 0) = some 0 := by decide
  obtain ⟨steps, m, hgo, ⟨bits, st, -, hbits, hputs⟩ | ⟨hno, -⟩⟩ :=
    element_access_in_bounds hw ht fun hmode => absurd hmode (by decide)
  · obtain rfl : 0 = bits := Option.some.inj (hencode.symm.trans hbits)
    exact ⟨w, u, c, hw, hcompile, steps, m, st, hgo, hputs⟩
  · exact absurd ⟨hin, Option.isSome_iff_exists.mpr ⟨0, hencode⟩⟩ hno

end Plan
end Speculation
