import Speculation.Proofs.Accesses
import Speculation.Proofs.Running.Branches

/-!
Comparisons and branches while code is running.

What a comparison comes to is a function of what it sees of its two values and of the kinds in which it
uses them: a truth value, or an exit where a value is not of the kind. Both lowerings come to that. Where the
comparison is lowered together with the branch after it, the flags decide, and the machine is on its way to
one of the blocks. Otherwise the truth value is boxed and recorded, and a branch on it looks at its
lowest bit.
-/

namespace Speculation

open Lowering

/-! ### Outcomes -/

namespace Comparison

def ofInts (op : Comparison) (i j : Int32) : Bool :=
  match op with
  | .less => decide (i.toInt < j.toInt)
  | .lessEq => decide (i.toInt ≤ j.toInt)
  | .greater => decide (j.toInt < i.toInt)
  | .greaterEq => decide (j.toInt ≤ i.toInt)
  | .eq | .strictEq => decide (i = j)

/-- What is decided of two numbers that are in this order. A NaN is in none. -/
def ofOrder (op : Comparison) (order : Option Ordering) : Bool :=
  match op with
  | .less => order == some .lt
  | .lessEq => order == some .lt || order == some .eq
  | .greater => order == some .gt
  | .greaterEq => order == some .gt || order == some .eq
  | .eq | .strictEq => order == some .eq

def kinds (op : Comparison) : List (UseKind × UseKind) :=
  [(.int32, .int32), (.number, .number), (.untyped, .untyped)] ++
    if op = .eq || op = .strictEq then
      [(.object, .object), (.object, .objectOrOther), (.objectOrOther, .object)]
    else []

end Comparison

lemma Comparison.kinds_cases {op : Comparison} {a b : UseKind} (h : (a, b) ∈ op.kinds) :
    (a = .int32 ∧ b = .int32) ∨ (a = .number ∧ b = .number) ∨ (a = .untyped ∧ b = .untyped) ∨
      ((op = .eq ∨ op = .strictEq) ∧ ((a = .object ∧ b = .object) ∨ (a = .object ∧ b = .objectOrOther) ∨
        (a = .objectOrOther ∧ b = .object))) := by
  unfold kinds at h
  split at h <;> simp_all

lemma Draft.chosenKinds_compare {d : Draft} {n : Node} {op : Comparison} {ks : List (Option UseKind)}
    (hop : n.op = .compare op) (hn : n.children.size = 2) (hks : d.chosenKinds n = .ok ks) :
    ∃ a b, ks = [some a, some b] ∧ (a, b) ∈ op.kinds := by
  obtain ⟨x, y, hxy⟩ : ∃ x y, n.children.toList = [x, y] := List.length_eq_two.mp (by simpa using hn)
  simp only [chosenKinds, hop, hxy, List.map_cons, List.map_nil] at hks
  obtain ⟨t, -, hks⟩ := bind_eq_ok.mp hks
  obtain ⟨e, -, hks⟩ := bind_eq_ok.mp hks
  obtain rfl := Except.ok.inj hks
  -- the kinds of objects are chosen for equality only
  have heq : ∀ {b : Bool}, ((decide (op = .eq) || decide (op = .strictEq)) && b) = true →
      op.kinds = [(.int32, .int32), (.number, .number), (.untyped, .untyped), (.object, .object),
        (.object, .objectOrOther), (.objectOrOther, .object)] := by
    intro b h
    rw [Comparison.kinds, if_pos (by simpa using (Bool.and_eq_true_iff.mp h).1)]
    rfl
  have hall : ∀ k ∈ [UseKind.int32, .number, .untyped], (k, k) ∈ op.kinds := by
    intro k hk
    refine List.mem_append_left _ ?_
    fin_cases hk <;> decide
  split
  · exact ⟨_, _, rfl, hall _ (by decide)⟩
  split
  · exact ⟨_, _, rfl, hall _ (by decide)⟩
  split
  · rename_i h
    exact ⟨_, _, rfl, by rw [heq h]; decide⟩
  split
  · rename_i h
    exact ⟨_, _, rfl, by rw [heq (Bool.and_assoc _ _ _ ▸ h)]; decide⟩
  split
  · rename_i h
    exact ⟨_, _, rfl, by rw [heq (Bool.and_assoc _ _ _ ▸ h)]; decide⟩
  · exact ⟨_, _, rfl, hall _ (by decide)⟩

namespace Look

/-- What is decided of two objects. None may pass for undefined, unless that is watched for. -/
def identity (watched : Bool) (l k : Look) : Except ExitKind Bool :=
  if l.object && k.object && (watched || !l.vacant && !k.vacant) then .ok (l.value == k.value)
  else .error .badType

/-- What is decided of an object and a value that is an object, null or undefined. -/
def identityOr (watched : Bool) (l k : Look) : Except ExitKind Bool :=
  if k.value.isCell then l.identity watched k
  else if l.object && k.value.isUndefinedOrNull then .ok false
  else .error .badType

/-- What a comparison comes to that uses its operands in these kinds. -/
def outcome (watched : Bool) (op : Comparison) (a b : UseKind) (l k : Look) : Except ExitKind Bool :=
  match a, b with
  | .int32, .int32 =>
    match l.value.int32?, k.value.int32? with
    | some i, some j => .ok (op.ofInts i j)
    | _, _ => .error .badType
  | .number, .number =>
    match l.value.number?, k.value.number? with
    | some x, some y => .ok (op.ofOrder (x.compare? y))
    | _, _ => .error .badType
  | .object, .object => l.identity watched k
  | .object, .objectOrOther => l.identityOr watched k
  | .objectOrOther, .object => k.identityOr watched l
  | _, _ => .ok (l.decides op k)

/-- A machine leaves only because a value is not of the kind. -/
lemma eq_badType {watched : Bool} {op : Comparison} {a b : UseKind} {l k : Look} {kind : ExitKind}
    (h : outcome watched op a b l k = .error kind) : kind = .badType := by
  unfold outcome identityOr identity at h
  split at h
  all_goals repeat' split at h
  all_goals first | exact (Except.error.inj h).symm | cases h

end Look

namespace Cond

variable {a b : UInt64} {f : Flags} {d : Option Ordering} {v : Value}

lemma holds_intCond (op : Comparison) :
    (intCond op).holds (Size.s32.run .sub a b).2 d = op.ofInts (low a) (low b) := by
  cases op with
  | less => exact less_sub
  | lessEq => exact holds_le_sub
  | greater =>
    show (invert le).holds _ d = _
    rw [holds_invert, holds_le_sub, ← decide_not]
    exact decide_eq_decide.mpr Int.not_le
  | greaterEq => exact holds_ge_sub
  | eq | strictEq => exact holds_e_sub

lemma holds_doubleCond (op : Comparison) : (doubleCond op).holds f d = op.ofOrder d := by
  cases op <;> rfl

/-- A flag of a structure is tested. -/
lemma holds_ne_flag (flags : UInt8) : ne.holds (Size.s32.run .and (UInt64.ofNat flags.toNat)
    (Int32.ofNat TypeFlag.masqueradesAsUndefined.toNat).toInt64.toUInt64).2 d =
      decide (flags &&& TypeFlag.masqueradesAsUndefined ≠ 0) := by
  have hall : ∀ n < 256, ne.holds (Size.s32.run .and (UInt64.ofNat n)
      (Int32.ofNat TypeFlag.masqueradesAsUndefined.toNat).toInt64.toUInt64).2 none =
        decide (UInt8.ofNat n &&& TypeFlag.masqueradesAsUndefined ≠ 0) := by decide +kernel
  -- the order of doubles makes no difference
  show ne.holds _ none = _
  rw [hall _ flags.toNat_lt, UInt8.ofNat_toNat]

lemma holds_ne_other : ne.holds (Size.s64.run .sub (Size.s64.run .and v.bits
    (Int32.toInt64 (-9)).toUInt64).1 (Int32.toInt64 2).toUInt64).2 d = !v.isUndefinedOrNull := by
  show (!e.holds _ d) = _
  rw [holds_e_sub64, Value.isUndefinedOrNull, beq_eq_decide]
  rfl

end Cond

/-! ### What is seen of operands -/

namespace Heap

variable {w : World} {h : Heap} {limit : Nat} {l : Look} {t : TypeSet} {g : Graph} {r r' : Registers}
  {mem mem' : Memory} {d : Structure} {q : Gpr}

lemma Looks.exists_cell (hl : h.Looks l) (hc : l.value.isCell = true) : ∃ x d,
    h.cell? l.value.bits = some x ∧ h.structure? x.kind = some d ∧
      l.object = decide (d.type ≠ .string) ∧ l.vacant = d.masquerades := by
  cases hl with
  | number hv => exact absurd hc (by simp [Value.isCell_of_number? hv])
  | boolean hv => exact absurd hc (by simp [Value.isCell_of_isBoolean hv])
  | null => exact absurd hc (by decide)
  | undefined => exact absurd hc (by decide)
  | string _ hx hs hd => exact ⟨_, _, hx, hs, by simp [Look.object, hd], rfl⟩
  | object hx hs hd => exact ⟨_, _, hx, hs, by simpa [Look.object, hd] using hc, rfl⟩

/-- The types tell objects from other values. -/
lemma Looks.isA_object (hl : h.Looks l) (hm : w.memory.Houses limit h)
    (ht : (w.typeOf l.value).isA t = true) : (w.typeOf l.value).isA .object = l.object := by
  cases hc : l.value.isCell with
  | false =>
    rw [Look.object, hc, Bool.false_and, ← Bool.not_eq_true]
    intro hobj
    rw [(World.typeOf_spec ht).2.2.mpr (TypeSet.isA_of_subset hobj (by decide))] at hc
    cases hc
  | true =>
    obtain ⟨x, d, hx, hd, hobj, -⟩ := hl.exists_cell hc
    rw [hm.typeOf_eq hx hd, hobj, Structure.kind]
    cases d.type with
    | object =>
      show (if d.indexing &&& Indexing.isArray = 0 then TypeSet.finalObject else .array).isA .object = true
      split <;> rfl
    | string => exact (by decide : TypeSet.string.isA .object = false)
    | int32Array => exact (by decide : TypeSet.int32Array.isA .object = true)
    | float64Array => exact (by decide : TypeSet.float64Array.isA .object = true)
    | function => exact (by decide : TypeSet.function.isA .object = true)

lemma Aside.read_flags (ha : h.Aside g r mem) {m : Registers} (hd : h.structure? (m.gpr q) = some d) :
    mem.read? 1 (m.address (.ofBase q (Int32.ofNat Layout.structureFlags))) = some d.flags.toNat :=
  (ha.item (structure?_eq_some.mp hd)).2.2.1

/-- Memory shows the heap as long as it changes only in the slots of values. -/
lemma Aside.shows (ha : h.Aside g r mem) (hm : w.memory.Houses limit h) (hc : Confined g r mem mem') :
    mem'.Shows h where
  item hi := by
    have h' : h.Aside g r mem' := ha.confined hc rfl
    exact h'.item hi
  room := ha.room
  cell := hm.isCell

end Heap

def Lowering.CompareTarget.fused : CompareTarget → Option (BlockId × BlockId)
  | .branch taken notTaken => some (taken, notTaken)
  | .value _ => none

/-! ### Fusion -/

/-- A comparison is lowered together with the branch to two blocks that comes right after it: nothing else
uses its value. -/
def Graph.Fuses (g : Graph) (b : BlockId) (j : Nat) (n : NodeId) (taken notTaken : BlockId) : Prop :=
  ∃ d blk n' d' e, g.nodes[n]? = some d ∧ d.refCount = 1 ∧ g.blocks[b]? = some blk ∧
    blk.nodes[j + 1]? = some n' ∧ g.nodes[n']? = some d' ∧ d'.op = .branch taken notTaken ∧
    d'.children[0]? = some e ∧ e.node = n

/-- There is one branch after a comparison. -/
lemma Graph.Fuses.unique {g : Graph} {b t f t' f' : BlockId} {j : Nat} {n : NodeId} (h : g.Fuses b j n t f)
    (h' : g.Fuses b j n t' f') : (t, f) = (t', f') := by
  obtain ⟨-, blk, m, d, -, -, -, hb, hm, hd, hop, -⟩ := h
  obtain ⟨-, blk', m', d', -, -, -, hb', hm', hd', hop', -⟩ := h'
  obtain rfl := Option.some.inj (hb.symm.trans hb')
  obtain rfl := Option.some.inj (hm.symm.trans hm')
  obtain rfl := Option.some.inj (hd.symm.trans hd')
  cases hop.symm.trans hop'
  rfl

/-- A helper makes the comparison if nothing is known of the kinds of its operands. -/
lemma Lowering.isGenericCompare_eq {op : Comparison} {a b : Edge} (h : (a.kind, b.kind) ∈ op.kinds) :
    isGenericCompare op a b = decide ((a.kind, b.kind) = (.untyped, .untyped)) := by
  rcases Comparison.kinds_cases h with ⟨hea, heb⟩ | ⟨hea, heb⟩ | ⟨hea, heb⟩ | ⟨hop, hobj⟩
  · simp [isGenericCompare, isNumber, isInt, hea, heb]
  · simp [isGenericCompare, isNumber, hea, heb]
  · simp [isGenericCompare, isNumber, isInt, comparesObjects, hea, heb]
  · rcases hobj with ⟨hea, heb⟩ | ⟨hea, heb⟩ | ⟨hea, heb⟩ <;> rcases hop with rfl | rfl <;>
      simp [isGenericCompare, comparesObjects, hea, heb]

namespace Lowering

variable {env : Env} {s : State}

/-- Looking up an operand changes nothing. -/
lemma leads_child_same {i : Nat} : Leads env s (child i) (fun _ s' => s' = s) (fun _ => True)
    fun _ _ => True := by
  rw [child, leads_bind, currentNode, leads_bind, leads_get, node, leads_bind, leads_read, leads_assume]
  exact ⟨fun d _ => leads_assume.mpr ⟨fun _ _ => rfl, fun _ _ => trivial⟩, fun _ _ => trivial⟩

lemma leads_fusableBranch : Leads env s fusableBranch
    (fun x s' => s' = s ∧ ∀ t f, x = some (t, f) ↔ env.graph.Fuses s.block s.position s.current t f)
    (fun _ => False) fun _ _ => True := by
  rw [fusableBranch, leads_bind, leads_graph, leads_bind, leads_get, currentNode, leads_bind, leads_bind,
    leads_get, node, leads_bind, leads_read, leads_assume]
  have hnot (t f : BlockId) (h : none = some (t, f)) : env.graph.Fuses s.block s.position s.current t f :=
    absurd h.symm (Option.some_ne_none _)
  refine ⟨fun d hd => ?_, fun _ _ => trivial⟩
  replace hd : env.graph.nodes[s.current]? = some d := Breach.get_eq_ok.mp hd
  refine leads_ite.mpr ⟨fun huses => ⟨rfl, fun t f => ⟨hnot t f, ?_⟩⟩, fun huses => ?_⟩
  · rintro ⟨d₁, -, -, -, -, hd₁, hone, -⟩
    obtain rfl := Option.some.inj (hd.symm.trans hd₁)
    exact absurd hone huses
  rw [leads_bind, leads_assume]
  refine ⟨fun blk hblk => ?_, fun _ _ => trivial⟩
  have hb : env.graph.blocks[s.block]? = some blk := Breach.get_eq_ok.mp hblk
  cases hnext : blk.nodes[s.position + 1]? with
  | none =>
    refine ⟨rfl, fun t f => ⟨hnot t f, ?_⟩⟩
    rintro ⟨-, blk₁, n₁, -, -, -, -, hb₁, hn₁, -⟩
    obtain rfl := Option.some.inj (hb.symm.trans hb₁)
    cases hnext.symm.trans hn₁
  | some n' =>
    rw [leads_bind, node, leads_bind, leads_read, leads_assume]
    refine ⟨fun d' hd' => ?_, fun _ _ => trivial⟩
    replace hd' : env.graph.nodes[n']? = some d' := Breach.get_eq_ok.mp hd'
    have hunique : ∀ {t f}, env.graph.Fuses s.block s.position s.current t f →
        d'.op = .branch t f ∧ ∃ e, d'.children[0]? = some e ∧ e.node = s.current := by
      rintro t f ⟨-, blk₁, n₁, d₁, e, -, -, hb₁, hn₁, hd₁, hop, he⟩
      obtain rfl := Option.some.inj (hb.symm.trans hb₁)
      obtain rfl := Option.some.inj (hnext.symm.trans hn₁)
      obtain rfl := Option.some.inj (hd'.symm.trans hd₁)
      exact ⟨hop, e, he⟩
    split
    · rename_i taken notTaken hop
      rw [leads_bind, leads_assume]
      refine ⟨fun e he => ?_, fun _ _ => trivial⟩
      have he' : d'.children[0]? = some e := Breach.get_eq_ok.mp he
      refine leads_ite.mpr ⟨fun hnode => ⟨rfl, fun t f => ⟨fun h => ?_, fun h => ?_⟩⟩, fun hnode =>
        ⟨rfl, fun t f => ⟨hnot t f, fun h => ?_⟩⟩⟩
      · cases h
        exact ⟨d, blk, n', d', e, hd, by simpa using huses, hb, hnext, hd', hop, he', hnode⟩
      · cases hop.symm.trans (hunique h).1
        rfl
      · obtain ⟨-, e₁, he₁, hnode₁⟩ := hunique h
        cases he'.symm.trans he₁
        exact absurd hnode₁ hnode
    · rename_i hop
      exact ⟨rfl, fun t f => ⟨hnot t f, fun h => absurd (hunique h).1 (hop t f)⟩⟩

/-- A comparison that is lowered together with the branch after it has that branch passed over. -/
lemma leads_lowerCompare_fused {op : Comparison} {taken notTaken : BlockId}
    (hf : env.graph.Fuses s.block s.position s.current taken notTaken) :
    Leads env s (lowerCompare op) (fun _ s' => s'.block = s.block ∧ s'.skipNext = true) (fun _ => True)
      fun _ _ => True := by
  have hchild : ∀ {i : Nat} {f : Edge → Lower Unit} {Q : Unit → State → Prop},
      (∀ e, Leads env s (f e) Q (fun _ => True) fun _ _ => True) →
      Leads env s (child i >>= f) Q (fun _ => True) fun _ _ => True := fun hf =>
    leads_bind.mpr (leads_child_same.weaken fun e _ hs => hs ▸ hf e)
  have hstays : ∀ {x : Lower Unit}, Along Stays env x → Leads env { s with skipNext := true } x
      (fun _ s' => s'.block = s.block ∧ s'.skipNext = true) (fun _ => True) fun _ _ => True := fun hx =>
    (hx _).weaken fun _ _ h => ⟨h.block, h.skip⟩
  refine hchild fun a => hchild fun b => leads_bind.mpr
    (leads_fusableBranch.mono ?_ (fun _ => False.elim) fun _ _ _ => trivial)
  rintro x _ ⟨rfl, hx⟩
  obtain rfl := (hx taken notTaken).mpr hf
  refine leads_bind.mpr (leads_modify.mpr (hstays ?_))
  exact Along.ite (Along.Stays.genericCompare _ _ _ _) (Along.Stays.compareInto _ _ _ _)

end Lowering

namespace Course

variable {α : Type} {k : Course} {w : World} {h : Heap} {limit : Nat} {ls : List Label} {s s' : State}
  {r r' r₀ r₁ : Registers} {mem mem' mem₀ : Memory} {t : Moment} {n : NodeId} {e : Edge} {l : Look} {q : Gpr}
  {T : State → Moment → Prop}

/-- What is seen of the operand of an edge, and what a compile knows of it, is true of its value. -/
structure Compared (k : Course) (w : World) (h : Heap) (s : State) (e : Edge) (l : Look) : Prop where
  looks : h.Looks l
  value : k.val e.node = l.value
  known : Described w k.env.graph k.val s.facts e.node
  plain : Plain s.ledger e.node
  integral (hi : l.value.isInt32 = true) : ∃ i, l.value = .ofInt32 i

namespace Compared

variable (hc : k.Compared w h s e l)
include hc

lemma spares (hp : Spares k.env.graph s r mem s' r' mem') : k.Compared w h s' e l where
  looks := hc.looks
  value := hc.value
  known := hp.facts ▸ hc.known
  plain := hp.plain hc.plain
  integral := hc.integral

lemma constant {v : Value} (hv : k.env.graph.valueConstant e.node = .ok (some v)) : k.val e.node = v :=
  hc.known.constant hv

lemma honest (he : e.kind ≠ .knownInt32) : k.Honest s.facts e where
  constant := hc.known.constant
  integer hi := hc.value ▸ hc.integral (hc.value ▸ hi)
  proven hp := hc.known.isInt32_iff.mpr (hc.known.isA_of_subset (hp.resolve_left he))

lemma isInt32_eq_false (hno : (s.facts.known e.node).intersects .int32 = true →
    (k.val e.node).isInt32 = false) : l.value.isInt32 = false := by
  rw [← hc.value]
  by_contra hyes
  exact hyes (hno (hc.known.intersects (hc.known.isInt32_iff.mp (by simpa using hyes))))

lemma isNumber_eq_false (hno : (s.facts.known e.node).intersects .number = true →
    (k.val e.node).isNumber = false) : l.value.isNumber = false := by
  rw [← hc.value]
  by_contra hyes
  exact hyes (hno (hc.known.intersects (hc.known.isNumber_iff.mp (by simpa using hyes))))

lemma numeric : k.Numeric s.facts e where
  constant := hc.known.constant
  proven hp := hc.known.isNumber_iff.mpr (hc.known.isA_of_subset hp)

lemma fair (he : e.kind ≠ .knownCell) : k.Fair s.facts e where
  constant := hc.known.constant
  proven hp := hc.known.isCell_iff.mpr (hc.known.isA_of_subset (hp.resolve_left he))

lemma isA_object (hm : w.memory.Houses limit h) :
    (w.typeOf (k.val e.node)).isA .object = l.object := by
  have htyped := hc.known.typed
  rw [hc.value] at htyped ⊢
  exact hc.looks.isA_object hm htyped

end Compared

/-- What was brought into a register is still there when others have changed in which there is no value. -/
lemma Brings.spared {r'' : Registers} {s'' : State} {ls : Location} (hb : k.Brings s r mem n ls s' r' mem')
    (hf : k.Follows s' s'') (hr : r'.Spared r'') (hs : Coherent k.env.graph k.cur k.before [] s'') :
    k.Brings s r mem n ls s'' r'' mem' where
  filled := hb.filled.of_onward hf.onward
  preserves := (hb.preserves.trans (.of_same hf.toSame)).spared hr
  stands := Stands.spared (hf.ledger ▸ hb.stands) hs hr

/-- A register has a cell of which this is seen. -/
structure Shows (h : Heap) (r : Registers) (q : Gpr) (l : Look) : Prop where
  looks : h.Looks l
  isCell : l.value.isCell = true
  bits : r.gpr q = l.value.bits
  apart : q ≠ .scratch

lemma Shows.spared (hq : Shows h r q l) (hr : r.Spared r') : Shows h r' q l :=
  ⟨hq.looks, hq.isCell, (hr.gpr hq.apart).trans hq.bits, hq.apart⟩

/-- A watchpoint was emitted, and it is on record. -/
lemma reaches_watchpoint {x : UInt32} (hk : k.Sound) (hm : ∃ ps, s.asm.Made ps)
    (hasm : s'.asm = s.asm.emit (.watchpoint x)) : k.Reaches s ⟨.next, r, mem⟩ s' ⟨.next, r, mem⟩ := by
  rintro he o rfl
  obtain ⟨ps, hm⟩ := hm
  have hadds := s.asm.adds_emit (.watchpoint x)
  have hstands := hm.stands hadds (by simp [Piece.Fits])
  rw [← hasm] at hadds hstands
  refine ⟨1, _, Inst.steps_watchpoint _ _ hk.loaded (hk.next (he.stands hstands) r mem) rfl rfl, ?_⟩
  show s.asm.offset + (Inst.watchpoint x).encode.length = s'.asm.offset
  rw [hadds.offset]
  simp [Piece.bytes]

namespace Wp

lemma fillObject {Q : GprOperand → State → Moment → Prop} (hk : k.Sound)
    (hst : Stands k.val s.ledger r mem) (hm : w.memory.Houses limit h) (ha : h.Aside k.env.graph r mem)
    (hc : k.Compared w h s e l) (he : e.kind ≠ .knownCell)
    (hQ : l.object = true → ∀ op s' r' mem', k.Brings s r mem e.node (.gpr op.reg) s' r' mem' →
      r'.gpr op.reg = l.value.bits → Q op s' ⟨.next, r', mem'⟩)
    (hX : l.object = false → ∀ op s' r' mem', Confined k.env.graph r mem mem' →
      Q op s' ⟨.exit .badType, r', mem'⟩)
    (hT : l.object = false → ∀ s' r' mem', Confined k.env.graph r mem mem' →
      T s' ⟨.exit .badType, r', mem'⟩) :
    k.Wp ls s (fillObject e) ⟨.next, r, mem⟩ Q T := by
  have hobj := hc.isA_object hm
  -- an object is a cell, so that what is none is no object
  have hno : (k.val e.node).isCell = false → l.object = false := fun hcell => by
    rw [Look.object, ← hc.value, hcell, Bool.false_and]
  unfold Lowering.fillObject
  refine .look (fun _ => looks_mayBe) fun b hb => .ite (fun _ => ?_) fun hmay => ?_
  case refine_2 =>
    refine .bind (.terminate hk (by decide) fun s₁ _ => hT ?_ s₁ r mem (.refl _ r mem))
    by_contra hyes
    exact hmay (hb.trans (hc.known.intersects (hobj.trans (by simpa using hyes))))
  refine .bind (.fillCell hk hst (hc.fair he) hc.plain hc.known.nonempty
    (fun hcell op s₁ r₁ mem₁ hb₁ hbits => ?_) (fun hcell op s₁ r₁ mem₁ _ hconf => ?_)
    fun hcell s₁ r₁ mem₁ hconf => ?_)
  · rw [hc.value] at hcell hbits
    obtain ⟨x, d, hx, hd, hobject, -⟩ := hc.looks.exists_cell hcell
    have hp₁ := hb₁.preserves
    rw [← hbits] at hx
    refine .look (fun _ => looks_provenIs) fun b hb => .ite (fun hyes => ?_) fun _ => ?_
    · rw [hb, hp₁.facts] at hyes
      exact .pure (hQ (hobj.symm.trans (hc.known.isA_of_subset hyes)) op s₁ r₁ mem₁ hb₁ hbits)
    · refine .bind (.guardCellType hk (ha.confined hp₁.memory hp₁.frame) hx hd (by decide)
        (fun ht s₂ r₂ h₂ hr₂ => .intro fun hs₂ _ => .pure ?_) fun ht s₂ r₂ h₂ => .pure ?_)
      · have hne := (Location.ne_of_mem (Bank.mem_allocatable_of_locksOf hb₁.filled.lock)).2.2.2
        exact hQ (by simpa [hobject] using ht) op s₂ r₂ mem₁ (hb₁.spared h₂ hr₂ hs₂)
          ((hr₂.gpr hne).trans hbits)
      · exact hX (by simpa [hobject] using ht) op s₂ r₂ mem₁ hp₁.memory
  · exact .skip (Calm.bind (Calm.provenIs _ _) fun _ => Calm.ite (Calm.pure _)
      (Calm.bind (Calm.guardCellType (by decide)) fun _ => Calm.pure _))
      (.bind (.provenIs _ _) fun _ => .ite (.pure _) (.bind (.guardCellType _ _ _ _) fun _ => .pure _))
      (by simp) fun a s₂ _ => hX (hno hcell) a s₂ r₁ mem₁ hconf
  · refine hT ?_ s₁ r₁ mem₁ hconf
    by_contra hyes
    have hcell' : (w.typeOf (k.val e.node)).isA .cell = true :=
      TypeSet.isA_of_subset (hobj.trans (by simpa using hyes)) (by decide)
    rw [hc.known.isCell_iff.mpr hcell'] at hcell
    exact Bool.false_ne_true (hcell (hc.known.intersects hcell')).symm

section Guards

variable {Q : Unit → State → Moment → Prop} (hk : k.Sound)
include hk

lemma guardWatchpoint {kind : ExitKind} (hkind : kind ≠ .argumentTypeCheck)
    (hw : k.env.noMasquerades = true) (hQ : ∀ s', k.Follows s s' → Q () s' ⟨.next, r, mem⟩) :
    k.Wp ls s (guardWatchpoint kind) ⟨.next, r, mem⟩ Q T := by
  refine .bind (.newExit hkind fun x s₁ h₁ _ => .bind (.modifyExit (fun _ => ⟨rfl, rfl, rfl⟩)
    fun s₂ h₂ => ?_))
  exact .of_calm (x := Lowering.watchpoint x) (Calm.bind (Calm.emit _) fun _ => Calm.modify
    (fun _ => ⟨rfl, rfl, rfl, rfl, rfl, rfl, rfl, rfl, rfl, rfl⟩) fun _ => ⟨rfl, rfl, rfl⟩)
    (.watchpoint hw x) fun hm _ => ⟨_, reaches_watchpoint hk hm rfl, fun h₃ => hQ _ ((h₁.trans h₂).trans h₃)⟩

/-- None of the cells passes for undefined, unless that is watched for; else the machine leaves. -/
lemma masqueradeGuard (ps : List (Gpr × Look)) (ha : h.Aside k.env.graph r₀ mem)
    (hps : ∀ p ∈ ps, Shows h r p.1 p.2)
    (hQ : (k.env.noMasquerades = true ∨ ∀ p ∈ ps, p.2.vacant = false) → ∀ s' r', k.Follows s s' →
      r.Spared r' → Q () s' ⟨.next, r', mem⟩)
    (hX : ¬(k.env.noMasquerades = true ∨ ∀ p ∈ ps, p.2.vacant = false) → ∀ s' r', k.Follows s s' →
      Q () s' ⟨.exit .badType, r', mem⟩) :
    k.Wp ls s (masqueradeGuard (ps.map Prod.fst)) ⟨.next, r, mem⟩ Q T := by
  unfold Lowering.masqueradeGuard
  refine .look (P := (· = k.env)) (F := fun _ _ => False) (fun _ => ⟨rfl, rfl⟩) ?_
  rintro _ rfl
  refine .ite (fun hw => .guardWatchpoint hk (by decide) hw fun s' h' => hQ (.inl hw) s' r h' (.refl r))
    fun hw => ?_
  refine .bind ((Wp.forIn (fun rest s' t' => k.Follows s s' ∧ ∃ done todo, ps = done ++ todo ∧
    rest = todo.map Prod.fst ∧ (((∀ p ∈ done, p.2.vacant = false) ∧
        ∃ r', r.Spared r' ∧ t' = ⟨.next, r', mem⟩) ∨
      (∃ p ∈ ps, p.2.vacant = true) ∧ ∃ r', t' = ⟨.exit .badType, r', mem⟩))
    ⟨.refl s, [], ps, rfl, rfl, .inl ⟨nofun, r, .refl r, rfl⟩⟩ ?_).weaken ?_)
  · rintro c rest s₁ t₁ ⟨h₁, done, todo, hsplit, hrest, hcase⟩
    obtain ⟨p, todo, rfl, rfl, rfl⟩ := List.map_eq_cons_iff.mp hrest.symm
    have hnext : ps = (done ++ [p]) ++ todo := by rw [hsplit, List.append_assoc]; rfl
    obtain ⟨hdone, r₁, hr₁, rfl⟩ | ⟨hsome, r₁, rfl⟩ := hcase
    · have hp : Shows h r₁ p.1 p.2 := (hps p (hsplit ▸ List.mem_append_right _ List.mem_cons_self)).spared hr₁
      obtain ⟨x, d, hx, hd, -, hvacant⟩ := hp.looks.exists_cell hp.isCell
      rw [← hp.bits] at hx
      refine .bind (.emit' hk rfl (Inst.steps_load (ha.read_kind hx)) fun s₂ h₂ => ?_)
      rw [UInt64.ofNat_toNat]
      have hself : ∀ (r : Registers) (w : UInt64), (r.setGpr .scratch w).gpr .scratch = w := fun r w => by
        rw [Registers.gpr_setGpr, if_pos rfl]
      have hflags := ha.read_flags (m := r₁.setGpr .scratch x.kind) (q := .scratch) (by rw [hself, hd])
      refine .bind (.emit' hk rfl (Inst.steps_load hflags) fun s₃ h₃ => ?_)
      refine .bind (.emit' hk rfl Inst.steps_test fun s₄ h₄ => ?_)
      have hfollows := ((h₁.trans h₂).trans h₃).trans h₄
      have hholds : ∀ order, Cond.ne.holds (Size.s32.run .and
          (((r₁.setGpr .scratch x.kind).setGpr .scratch (UInt64.ofNat d.flags.toNat)).gpr .scratch)
          (Int32.ofNat TypeFlag.masqueradesAsUndefined.toNat).toInt64.toUInt64).2 order = p.2.vacant := by
        intro order
        rw [hself, Cond.holds_ne_flag, hvacant]
        rfl
      refine .bind (.guard' hk (by decide) (fun hc s₅ h₅ => ?_) fun hc s₅ h₅ => ?_)
      · exact .pure ⟨rfl, hfollows.trans h₅, done ++ [p], todo, hnext, rfl,
          .inr ⟨⟨p, by simp [hnext], (hholds _).symm.trans hc⟩, _, rfl⟩⟩
      · refine .pure ⟨rfl, hfollows.trans h₅, done ++ [p], todo, hnext, rfl, .inl ⟨fun p' hp' => ?_, _,
          ((hr₁.setScratch _).setScratch _).setFlags _, rfl⟩⟩
        rcases List.mem_append.mp hp' with hp' | hp'
        · exact hdone p' hp'
        · rw [List.mem_singleton.mp hp']
          exact (hholds _).symm.trans hc
    · refine .bind (.skip (Calm.load64 _ _) (.load64 _ _) nofun fun _ s₂ h₂ => ?_)
      refine .bind (.skip (Calm.load _ _ _) (.load _ _ _) nofun fun _ s₃ h₃ => ?_)
      refine .bind (.skip (Calm.test32 _ _) (.test32 _ _) nofun fun _ s₄ h₄ => ?_)
      refine .bind (.skip (Calm.guard' (by decide) _) (.guard' _ _) nofun fun _ s₅ h₅ => .pure ?_)
      exact ⟨rfl, (((h₁.trans h₂).trans h₃).trans h₄).trans h₅, done ++ [p], todo, hnext, rfl,
        .inr ⟨hsome, r₁, rfl⟩⟩
  · rintro _ s₁ t₁ ⟨h₁, done, todo, hsplit, hrest, hcase⟩
    obtain rfl : todo = [] := List.map_eq_nil_iff.mp hrest.symm
    rw [List.append_nil] at hsplit
    obtain ⟨hdone, r₁, hr₁, rfl⟩ | ⟨⟨p, hp, hsome⟩, r₁, rfl⟩ := hcase
    · exact .pure (hQ (.inr (hsplit ▸ hdone)) s₁ r₁ h₁ hr₁)
    · refine .pure (hX (fun hall => ?_) s₁ r₁ h₁)
      rw [(hall.resolve_left hw) p hp] at hsome
      cases hsome

lemma guardOther {v : Value} (hq : r.gpr q = v.bits)
    (hQ : v.isUndefinedOrNull = true → ∀ s' r', k.Follows s s' → r.Spared r' → Q () s' ⟨.next, r', mem⟩)
    (hX : v.isUndefinedOrNull = false → ∀ s' r', k.Follows s s' → Q () s' ⟨.exit .badType, r', mem⟩) :
    k.Wp ls s (guardOther q) ⟨.next, r, mem⟩ Q T := by
  refine .bind (.mov hk fun s₁ h₁ => .bind (.emit' hk rfl Inst.steps_alu fun s₂ h₂ => ?_))
  refine .bind (.emit' hk rfl Inst.steps_cmp fun s₃ h₃ => ?_)
  have hself : ∀ (r : Registers) (w : UInt64), (r.setGpr .scratch w).gpr .scratch = w := fun r w => by
    rw [Registers.gpr_setGpr, if_pos rfl]
  have hholds : ∀ f d, Cond.ne.holds (Size.s64.run .sub ((({ r.setGpr .scratch (r.gpr q) with flags := f } :
      Registers).setGpr .scratch (Size.s64.run .and ((r.setGpr .scratch (r.gpr q)).gpr .scratch)
        (Int32.toInt64 (-9)).toUInt64).1).gpr .scratch) (Int32.toInt64 2).toUInt64).2 d =
      !v.isUndefinedOrNull := fun f d => by
    rw [hself, hself, hq]
    exact Cond.holds_ne_other
  refine .guard' hk (by decide) (fun hc s₄ h₄ => ?_) fun hc s₄ h₄ => ?_
  · exact hX (by simpa using (hholds _ _).symm.trans hc) _ _ (((h₁.trans h₂).trans h₃).trans h₄)
  · exact hQ (by simpa using (hholds _ _).symm.trans hc) _ _ (((h₁.trans h₂).trans h₃).trans h₄)
      (((((Registers.Spared.refl r).setScratch _).setFlags _).setScratch _).setFlags _)

end Guards

end Wp

/-! ### What a comparison has come to -/

/-- A comparison that is lowered together with a branch has come to one of its blocks; else its value is
recorded as a boxed boolean. Or the machine has left. -/
def Concludes (k : Course) (fused : Option (BlockId × BlockId)) (out : Except ExitKind Bool) (r : Registers)
    (mem : Memory) (s : State) (t : Moment) : Prop :=
  match fused with
  | some (taken, notTaken) => k.Parts taken notTaken out r mem s t
  | none => k.Yields .jsBoolean (out.map .ofBool) r mem s t ∧
    (t.spot = .next → t.registers.gpr .frame = r.gpr .frame ∧ Plain s.ledger k.cur)

def Settles (k : Course) (ls : List Label) (s : State) (x : Lower Unit) (t : Moment)
    (fused : Option (BlockId × BlockId)) (out : Except ExitKind Bool) (r : Registers) (mem : Memory) : Prop :=
  k.Ends ls s x t (k.Concludes fused out r mem) fun _ => k.Quits (out.map .ofBool) r mem

variable {fused : Option (BlockId × BlockId)} {out : Except ExitKind Bool} {target : CompareTarget}
  {op : Comparison} {a b : Edge} {m : Look} {x : Bool} {c : Cond} {v : Gpr} {σ : Spot}

/-- Nothing is decided if the machine leaves. -/
lemma quits (hout : out = .error .badType) (hc : Confined k.env.graph r mem mem') :
    k.Quits (out.map .ofBool) r mem ⟨.exit .badType, r', mem'⟩ :=
  ⟨hc, _, by rw [hout]; rfl, rfl⟩

lemma Concludes.left (hout : out = .error .badType) (hc : Confined k.env.graph r mem mem') :
    k.Concludes fused out r mem s ⟨.exit .badType, r', mem'⟩ := by
  subst hout
  cases fused with
  | some p => exact ⟨hc, rfl⟩
  | none => exact ⟨⟨hc, rfl⟩, nofun⟩

lemma Concludes.since (h : k.Concludes fused out r mem s t) (hs : Since k.env.graph r₀ mem₀ r mem) :
    k.Concludes fused out r₀ mem₀ s t := by
  cases fused with
  | some p => exact ⟨hs.memory.trans h.1 hs.frame, h.2⟩
  | none => exact ⟨⟨hs.memory.trans h.1.1 hs.frame, h.1.2⟩, fun ht =>
      ⟨(h.2 ht).1.trans hs.frame, (h.2 ht).2⟩⟩

namespace Settles

lemma since {y : Lower Unit} (h : k.Settles ls s y t fused out r mem) (hs : Since k.env.graph r₀ mem₀ r mem) :
    k.Settles ls s y t fused out r₀ mem₀ :=
  h.mono (fun _ _ hc => hc.since hs) fun _ _ ⟨hc, hq⟩ => ⟨hs.memory.trans hc hs.frame, hq⟩

/-- Whatever is lowered after the machine has left makes no difference to it. -/
lemma left {y : Lower Unit} (hy : Extending k.env ls y) (hout : out = .error .badType)
    (hc : Confined k.env.graph r mem mem') :
    k.Settles ls s y ⟨.exit .badType, r', mem'⟩ fused out r mem :=
  .away hy nofun (fun _ => .left hout hc) fun _ => quits hout hc

/-- Code is emitted that the machine does not come by. -/
lemma skip {y : Lower α} {f : α → Lower Unit} (hy : Calm y) (he : Extending k.env ls y) (hσ : σ ≠ .next)
    (hf : ∀ a s', k.Follows s s' → k.Settles ls s' (f a) ⟨σ, r', mem'⟩ fused out r mem) :
    k.Settles ls s (y >>= f) ⟨σ, r', mem'⟩ fused out r mem :=
  .bind (.skip hy he hσ hf)

variable (hk : k.Sound) (hu : Unborn k.env.graph k.cur k.before)
include hk

section Value

include hu

/-- The lowest bit of a word is boxed as the value of the comparison. -/
lemma boxed (hst : Stands k.val s.ledger r mem) (ht : s.Taken (.gpr q))
    (hq : r.gpr q = Execution.boolWord x) (hs : Since k.env.graph r₀ mem₀ r mem) :
    k.Settles ls s (do
      alu64 .or q falseImm
      gprResult q .jsBoolean) ⟨.next, r, mem⟩ none (.ok x) r₀ mem₀ := by
  refine .bind (.alu64Taken hk hst ht fun s₁ f h₁ hst₁ => ?_)
  have hbits : (({ r with flags := f } : Registers).setGpr q
      (Size.s64.run .or (r.gpr q) (r.operand falseImm)).1).gpr q = (Value.ofBool x).bits := by
    have hall : ∀ x, (Size.s64.run .or (Execution.boolWord x) (Int32.toInt64 6).toUInt64).1 =
        (Value.ofBool x).bits := by decide
    rw [Registers.gpr_setGpr, if_pos rfl, hq]
    exact hall x
  have hframe : Gpr.frame ≠ q := (Location.ne_of_mem (Bank.mem_allocatable_of_locksOf ht.1)).1.symm
  refine .gprResult hu hst₁ (v := .ofBool x) ⟨hbits, Value.isBoolean_ofBool x⟩ fun d s₂ hd hb => ?_
  refine ⟨⟨hs.memory, rfl, hb.stands, d, q, hd, hb.records, hbits, Value.isBoolean_ofBool x⟩, fun _ =>
    ⟨?_, hb.plain nofun⟩⟩
  rw [Registers.gpr_setGpr, if_neg hframe]
  exact hs.frame

end Value

lemma finishCompare (hu : Unborn k.env.graph k.cur k.before) (hst : Stands k.val s.ledger r mem)
    (ht : target.Kept s) (hx : c.holds r.flags r.order = x) (hs : Since k.env.graph r₀ mem₀ r mem) :
    k.Settles ls s (finishCompare c target) ⟨.next, r, mem⟩ target.fused (.ok x) r₀ mem₀ := by
  cases target with
  | branch taken notTaken => exact .of_wp (.branch hk fun s' σ hσ => ⟨hs.memory, hx ▸ hσ⟩)
  | value q =>
    refine .bind (.emit' hk rfl Inst.steps_setCond fun s₁ h₁ => .intro fun hs₁ _ => ?_)
    have ht₁ : s₁.Taken (.gpr q) := h₁.toSame.taken.mpr ht
    have hframe : Gpr.frame ≠ q := (Location.ne_of_mem (Bank.mem_allocatable_of_locksOf ht.1)).1.symm
    refine Settles.boxed hk hu (Stands.setGpr (h₁.ledger ▸ hst) hs₁ ht₁ _) ht₁ ?_ ⟨hs.memory, ?_⟩
    · rw [Registers.gpr_setGpr, if_pos rfl, hx]
    · rw [Registers.gpr_setGpr, if_neg hframe]
      exact hs.frame

/-- The identity of objects decides, unless one of them may pass for undefined. -/
lemma identity {y : Lower Unit} {o : Gpr} (hy : Extending k.env ls y)
    (haside : h.Aside k.env.graph r₁ mem) (ho : Shows h r o l) (hv : Shows h r v m)
    (hobj : l.object = true) (hobj' : m.object = true) (hc : Confined k.env.graph r₀ mem₀ mem)
    (hyes : ∀ s' r', k.Follows s s' → r.Spared r' →
      Cond.e.holds r'.flags r'.order = (l.value == m.value) →
      k.Settles ls s' y ⟨.next, r', mem⟩ fused (.ok (l.value == m.value)) r₀ mem₀) :
    k.Settles ls s (do
      Lowering.masqueradeGuard [o, v]
      Lowering.cmp64 o (.reg v)
      y) ⟨.next, r, mem⟩ fused (l.identity k.env.noMasquerades m) r₀ mem₀ := by
  refine .bind (.masqueradeGuard hk [(o, l), (v, m)] haside (by simp [ho, hv])
    (fun hpass s₁ r₁ h₁ hr₁ => ?_) fun hfail s₁ r₁ h₁ => left (.bind (.cmp64 _ _) fun _ => hy) ?_ hc)
  · refine .bind (.emit' hk rfl Inst.steps_cmp fun s₂ h₂ => ?_)
    have hout : (l.object && m.object && (k.env.noMasquerades || !l.vacant && !m.vacant)) = true := by
      rcases hpass with hpass | hpass
      · simp [hobj, hobj', hpass]
      · have h₁ : l.vacant = false := hpass (o, l) (by simp)
        have h₂ : m.vacant = false := hpass (v, m) (by simp)
        simp [hobj, hobj', h₁, h₂]
    rw [Look.identity, if_pos hout]
    refine hyes s₂ _ (h₁.trans h₂) (hr₁.setFlags _) ?_
    show Cond.e.holds (Size.s64.run .sub (r₁.gpr o) (r₁.gpr v)).2 r₁.order = _
    rw [Cond.holds_e_sub64, (ho.spared hr₁).bits, (hv.spared hr₁).bits]
    exact decide_eq_decide.mpr ⟨congrArg Value.mk, congrArg Value.bits⟩
  · refine if_neg fun hout => hfail ?_
    simp only [Bool.and_eq_true, Bool.or_eq_true, Bool.not_eq_true'] at hout
    exact hout.2.imp_right fun hvacant => by simp [hvacant]

section Other

variable (hu : Unborn k.env.graph k.cur k.before) (hst : Stands k.val s.ledger r mem)
  (ht : target.Kept s) (hs : Since k.env.graph r₀ mem₀ r mem)
include hu hst ht hs

variable {notCell done : Label}

lemma otherEnd_cell (hd : done ∈ ls) (hx : Cond.e.holds r.flags r.order = x) :
    k.Settles ls s (otherEnd target notCell done v) ⟨.next, r, mem⟩ target.fused (.ok x) r₀ mem₀ := by
  cases target with
  | branch taken notTaken =>
    refine .of_wp (.bindBlockLabel fun lt hlt => .bindBlockLabel fun lf hlf => ?_)
    have hheads : ∀ s', k.Heads s' (if x then taken else notTaken) (.label (if x then lt else lf)) :=
      fun s' => by
        cases x with
        | true => exact .inl ⟨lt, hlt, rfl⟩
        | false => exact .inl ⟨lf, hlf, rfl⟩
    have hrest : ∀ s' r', k.Wp (lf :: lt :: ls) s' (do
        attach notCell
        guardOther v
        jumpToBlock notTaken) ⟨.label (if x then lt else lf), r', mem⟩
        (fun _ => k.Concludes (some (taken, notTaken)) (.ok x) r₀ mem₀)
        fun _ => k.Quits (.ok (.ofBool x)) r₀ mem₀ := fun s' r' =>
      .skip (Calm.bind (Calm.attach _) fun _ => Calm.bind Calm.guardOther fun _ => Calm.jumpToBlock _)
        (.bind (.attach _) fun _ => .bind (.guardOther _) fun _ => .jumpToBlock _) nofun
        fun _ s'' _ => ⟨hs.memory, hheads s''⟩
    refine .bind (.jcc hk (by simp) (fun hc s₁ _ => ?_) fun hc s₁ _ => ?_)
    · obtain rfl : x = true := hx.symm.trans hc
      exact .bind (.skip (Calm.jmp _) (.jmp (by simp)) nofun fun _ s₂ _ => hrest s₂ r)
    · obtain rfl : x = false := hx.symm.trans hc
      exact .bind (.jmp hk (by simp) fun s₂ _ => hrest s₂ r)
  | value q =>
    refine .bind (.emit' hk rfl Inst.steps_setCond fun s₁ h₁ => .intro fun hs₁ _ => .bind (.jmp hk hd
      fun s₂ h₂ => ?_))
    have ht₁ : s₁.Taken (.gpr q) := h₁.toSame.taken.mpr ht
    refine skip (Calm.attach _) (.attach _) nofun fun _ s₃ h₃ => ?_
    refine skip Calm.guardOther (.guardOther _) nofun fun _ s₄ h₄ => ?_
    refine skip (Calm.discard (Calm.movImm _ _)) (.discard (.movImm _ _)) nofun fun _ s₅ h₅ => ?_
    refine .bind (.attach fun s₆ h₆ => ?_)
    have hf := (((h₂.trans h₃).trans h₄).trans h₅).trans h₆
    have hframe : Gpr.frame ≠ q := (Location.ne_of_mem (Bank.mem_allocatable_of_locksOf ht.1)).1.symm
    rw [if_pos rfl]
    refine Settles.boxed hk hu (hf.ledger ▸ Stands.setGpr (h₁.ledger ▸ hst) hs₁ ht₁ _)
      (hf.toSame.taken.mpr ht₁) ?_ ⟨hs.memory, ?_⟩
    · rw [Registers.gpr_setGpr, if_pos rfl, hx]
    · rw [Registers.gpr_setGpr, if_neg hframe]
      exact hs.frame

lemma otherEnd_other (hd : done ∈ ls) {u : Value} (hq : r.gpr v = u.bits)
    (hout : out = if u.isUndefinedOrNull then .ok false else .error .badType) :
    k.Settles ls s (otherEnd target notCell done v) ⟨.label notCell, r, mem⟩ target.fused out r₀ mem₀ := by
  have hleft : ∀ {y ls' s' r'}, Extending k.env ls' y → u.isUndefinedOrNull = false →
      k.Settles ls' s' y ⟨.exit .badType, r', mem⟩ target.fused out r₀ mem₀ := fun hy hno =>
    left hy (by rw [hout, hno]; rfl) hs.memory
  cases target with
  | branch taken notTaken =>
    refine .of_wp (.bindBlockLabel fun lt _ => .bindBlockLabel fun lf _ => ?_)
    refine .bind (.skip (Calm.jcc _ _) (.jcc _ (by simp)) nofun fun _ s₁ _ => ?_)
    refine .bind (.skip (Calm.jmp _) (.jmp (by simp)) nofun fun _ s₂ _ => .bind (.attach fun s₃ _ => ?_))
    rw [if_pos rfl]
    refine .bind (.guardOther hk hq (fun hyes s₄ r₄ _ _ => .jumpToBlock hk fun s₅ σ hσ => ?_)
      fun hno s₄ r₄ _ => .skip (Calm.jumpToBlock _) (.jumpToBlock _) nofun fun _ s₅ _ => ?_)
    · rw [hout, if_pos hyes]
      exact ⟨hs.memory, hσ⟩
    · exact .left (by rw [hout, hno]; rfl) hs.memory
  | value q =>
    refine skip (Calm.emit' _) (.emit' rfl) nofun fun _ s₁ h₁ => ?_
    refine skip (Calm.jmp _) (.jmp hd) nofun fun _ s₂ h₂ => .bind (.attach fun s₃ h₃ => ?_)
    rw [if_pos rfl]
    refine .bind (.guardOther hk hq (fun hyes s₄ r₄ h₄ hr₄ => ?_) fun hno s₄ r₄ h₄ => hleft
      (.bind (.discard (.movImm _ _)) fun _ => .bind (.attach _) fun _ => .bind (.alu64 _ _ _) fun _ =>
        .gprResult _ _) hno)
    have hf₄ := ((h₁.trans h₂).trans h₃).trans h₄
    refine .bind (.discard (.movImm hk fun _ s₅ h₅ => .intro fun hs₅ _ => .bind (.attach fun s₆ h₆ => ?_)))
    have hf₅ := hf₄.trans h₅
    have ht₅ : s₅.Taken (.gpr q) := hf₅.toSame.taken.mpr ht
    have hframe : Gpr.frame ≠ q := (Location.ne_of_mem (Bank.mem_allocatable_of_locksOf ht.1)).1.symm
    have hst₅ := Stands.setGpr (Stands.spared (hf₅.ledger ▸ hst) hs₅ hr₄) hs₅ ht₅ 0
    rw [if_neg nofun, hout, if_pos hyes]
    refine Settles.boxed hk hu (h₆.ledger ▸ hst₅) (h₆.toSame.taken.mpr ht₅) ?_ ⟨hs.memory, ?_⟩
    · rw [Registers.gpr_setGpr, if_pos rfl]
      rfl
    · rw [Registers.gpr_setGpr, if_neg hframe]
      exact (hr₄.gpr (by decide)).trans hs.frame

end Other

section Tiers

variable (hu : Unborn k.env.graph k.cur k.before) (hst : Stands k.val s.ledger r mem)
  (ha : k.Compared w h s a l) (hb : k.Compared w h s b m)
include hu hst ha hb

lemma compareInts (ht : target.Kept s) (hea : a.kind = .int32) (heb : b.kind = .int32) :
    k.Settles ls s (do
      let i ← Lowering.fillInt a
      let rhs ← Lowering.intRhs b
      Lowering.cmp32 i.reg rhs
      Lowering.finishCompare (intCond op) target) ⟨.next, r, mem⟩ target.fused
      (Look.outcome k.env.noMasquerades op .int32 .int32 l m) r mem := by
  have hbad : l.value.isInt32 = false ∨ m.value.isInt32 = false →
      Look.outcome k.env.noMasquerades op .int32 .int32 l m = .error .badType := by
    rintro (hno | hno)
    · simp [Look.outcome, Value.int32?, hno]
    · cases l.value.int32? <;> simp [Look.outcome, Value.int32?, hno]
  refine .bind (.fillInt hk hst (ha.honest (by simp [hea])) (fun i op₁ s₁ r₁ mem₁ hi hb₁ => ?_)
    (fun hno op₁ s₁ r₁ mem₁ _ hc => left (.bind (.intRhs _) fun _ => .bind (.cmp32 _ _) fun _ =>
      .finishCompare _ _) (hbad (.inl (ha.value ▸ hno))) hc)
    fun hno s₁ r₁ mem₁ hc => quits (hbad (.inl (ha.isInt32_eq_false hno))) hc)
  have hp₁ := hb₁.preserves
  have hb' := hb.spares hp₁.toSpares
  refine .bind (.intRhs hk hb₁.stands (hb'.honest (by simp [heb])) (fun j o s₂ r₂ mem₂ hj hp₂ h₂ _ hlow => ?_)
    (fun hno o s₂ r₂ mem₂ _ hc => left (.bind (.cmp32 _ _) fun _ => .finishCompare _ _)
      (hbad (.inr (hb.value ▸ hno))) (hp₁.memory.trans hc hp₁.frame))
    fun hno s₂ r₂ mem₂ hc => quits (hbad (.inr (hb'.isInt32_eq_false hno))) (hp₁.memory.trans hc hp₁.frame))
  refine .bind (.emit' hk rfl Inst.steps_cmp fun s₃ h₃ => ?_)
  have hp := hp₁.trans hp₂
  have hout : Look.outcome k.env.noMasquerades op .int32 .int32 l m = .ok (op.ofInts i j) := by
    rw [ha.value] at hi
    rw [hb.value] at hj
    simp only [Look.outcome, hi, hj, Value.int32?_ofInt32]
  rw [hout]
  refine finishCompare hk hu ((h₃.ledger ▸ h₂).setFlags _) (ht.onward (hp.onward.trans h₃.onward)) ?_
    (hp.toSpares.setFlags _).since
  rw [Cond.holds_intCond, hlow, hp₂.gpr hb₁.filled.lock, hb₁.low]

lemma compareDoubles (hsup : k.Supplied) (ht : target.Kept s) :
    k.Settles ls s (do
      let f ← Lowering.fillDouble a
      let g ← Lowering.fillDouble b
      Lowering.emit' (.dcmp f g)
      Lowering.finishCompare (doubleCond op) target) ⟨.next, r, mem⟩ target.fused
      (Look.outcome k.env.noMasquerades op .number .number l m) r mem := by
  have hbad : l.value.isNumber = false ∨ m.value.isNumber = false →
      Look.outcome k.env.noMasquerades op .number .number l m = .error .badType := by
    rintro (hno | hno)
    · simp [Look.outcome, Value.number?_eq_none hno]
    · cases l.value.number? <;> simp [Look.outcome, Value.number?_eq_none hno]
  refine .bind (.fillDouble hk hsup hst ha.numeric (fun f s₁ r₁ mem₁ hb₁ hf => ?_)
    (fun hno f s₁ r₁ mem₁ _ hc => left (.bind (.fillDouble _) fun _ => .bind (.emit' rfl) fun _ =>
      .finishCompare _ _) (hbad (.inl (ha.value ▸ hno))) hc)
    fun hno s₁ r₁ mem₁ hc => quits (hbad (.inl (ha.isNumber_eq_false hno))) hc)
  have hp₁ := hb₁.preserves
  have hb' := hb.spares hp₁.toSpares
  refine .bind (.fillDouble hk hsup hb₁.stands hb'.numeric (fun g s₂ r₂ mem₂ hb₂ hg => ?_)
    (fun hno g s₂ r₂ mem₂ _ hc => left (.bind (.emit' rfl) fun _ => .finishCompare _ _)
      (hbad (.inr (hb.value ▸ hno))) (hp₁.memory.trans hc hp₁.frame))
    fun hno s₂ r₂ mem₂ hc => quits (hbad (.inr (hb'.isNumber_eq_false hno))) (hp₁.memory.trans hc hp₁.frame))
  refine .bind (.emit' hk rfl Inst.steps_dcmp fun s₃ h₃ => .intro fun hs₃ _ => ?_)
  have hp := hp₁.trans hb₂.preserves
  have hr := (Registers.Spared.refl r₂).setOrder ((r₂.fpr f).compare? (r₂.fpr g))
  have hkept : r₂.fpr f = r₁.fpr f :=
    congrArg Double.mk (hb₂.preserves.word (l := .fpr f) hb₁.filled.lock)
  have hout : Look.outcome k.env.noMasquerades op .number .number l m =
      .ok (op.ofOrder ((r₂.fpr f).compare? (r₂.fpr g))) := by
    rw [ha.value] at hf
    rw [hb.value] at hg
    simp only [Look.outcome, hf, hg, hkept]
  rw [hout]
  exact finishCompare hk hu (Stands.spared (h₃.ledger ▸ hb₂.stands) hs₃ hr)
    (ht.onward (hp.onward.trans h₃.onward)) (Cond.holds_doubleCond op) (hp.toSpares.since.spared hr)

section Objects

variable (hm : w.memory.Houses limit h) (haside : h.Aside k.env.graph r mem)
include hm haside

lemma compareObjects (ht : target.Kept s) (hea : a.kind = .object) (heb : b.kind = .object) :
    k.Settles ls s (do
      let o ← Lowering.fillObject a
      let v ← Lowering.fillObject b
      Lowering.masqueradeGuard [o.reg, v.reg]
      Lowering.cmp64 o.reg (.reg v.reg)
      Lowering.finishCompare .e target) ⟨.next, r, mem⟩ target.fused
      (l.identity k.env.noMasquerades m) r mem := by
  have hbad : (l.object && m.object && (k.env.noMasquerades || !l.vacant && !m.vacant)) = false →
      l.identity k.env.noMasquerades m = .error .badType := fun hno => by rw [Look.identity, hno]; rfl
  have hrest : ∀ (o v : Gpr) ls, Extending k.env ls (do
      Lowering.masqueradeGuard [o, v]
      Lowering.cmp64 o (.reg v)
      Lowering.finishCompare .e target) := fun o v ls =>
    .bind (.masqueradeGuard _) fun _ => .bind (.cmp64 _ _) fun _ => .finishCompare _ _
  refine .bind (.fillObject hk hst hm haside ha (by simp [hea]) (fun hobj o s₁ r₁ mem₁ hb₁ hbits₁ => ?_)
    (fun hno o s₁ r₁ mem₁ hc => left (.bind (.fillObject _) fun _ => hrest _ _ _)
      (hbad (by simp [hno])) hc) fun hno s₁ r₁ mem₁ hc => quits (hbad (by simp [hno])) hc)
  have hp₁ := hb₁.preserves
  have haside₁ := haside.confined hp₁.memory hp₁.frame
  refine .bind (.fillObject hk hb₁.stands hm haside₁ (hb.spares hp₁.toSpares) (by simp [heb])
    (fun hobj' v s₂ r₂ mem₂ hb₂ hbits₂ => ?_)
    (fun hno v s₂ r₂ mem₂ hc => left (hrest _ _ _) (hbad (by simp [hno])) (hp₁.memory.trans hc hp₁.frame))
    fun hno s₂ r₂ mem₂ hc => quits (hbad (by simp [hno])) (hp₁.memory.trans hc hp₁.frame))
  have hp := hp₁.trans hb₂.preserves
  have hapart : ∀ {s : State} {q : Gpr}, 0 < s.locks (.gpr q) → q ≠ .scratch := fun hl =>
    (Location.ne_of_mem (Bank.mem_allocatable_of_locksOf hl)).2.2.2
  have ho : Shows h r₂ o.reg l := ⟨ha.looks, (Bool.and_eq_true_iff.mp hobj).1,
    (hb₂.preserves.gpr hb₁.filled.lock).trans hbits₁, hapart hb₁.filled.lock⟩
  have hv : Shows h r₂ v.reg m := ⟨hb.looks, (Bool.and_eq_true_iff.mp hobj').1, hbits₂,
    hapart hb₂.filled.lock⟩
  refine identity hk (.finishCompare _ _) (haside.confined hp.memory hp.frame) ho hv hobj hobj' hp.memory
    fun s₃ r₃ h₃ hr₃ hx => .intro fun hs₃ _ => ?_
  exact finishCompare hk hu (Stands.spared (h₃.ledger ▸ hb₂.stands) hs₃ hr₃)
    (ht.onward (hp.onward.trans h₃.onward)) hx (hp.toSpares.since.spared hr₃)

lemma compareOther (ht : target.Kept s) (hea : a.kind = .object) :
    k.Settles ls s (objectOrOtherEq a b target) ⟨.next, r, mem⟩ target.fused
      (l.identityOr k.env.noMasquerades m) r mem := by
  have hbad : l.object = false → l.identityOr k.env.noMasquerades m = .error .badType := fun hno => by
    simp [Look.identityOr, Look.identity, hno]
  rw [objectOrOtherEq_eq]
  refine .bind (.fillObject hk hst hm haside ha (by simp [hea]) (fun hobj o s₁ r₁ mem₁ hb₁ hbits₁ => ?_)
    (fun hno o s₁ r₁ mem₁ hc => left (.bind (.fillValue _) fun _ => .bindNewLabel fun _ => .bindNewLabel
      fun _ => .bind (.test64 _ _) fun _ => .bind (.jcc _ (by simp)) fun _ => .bind (.guardCellType _ _ _ _)
        fun _ => .bind (.masqueradeGuard _) fun _ => .bind (.cmp64 _ _) fun _ => .otherEnd (by simp))
      (hbad hno) hc) fun hno s₁ r₁ mem₁ hc => quits (hbad hno) hc)
  have hp₁ := hb₁.preserves
  have haside₁ := haside.confined hp₁.memory hp₁.frame
  refine .bind (.fillValue hk hb₁.stands (fun _ => (hb.spares hp₁.toSpares).constant)
    fun v s₂ r₂ mem₂ hb₂ hbits₂ => ?_)
  have hp := hp₁.trans hb₂.preserves
  have hne : m.value ≠ .empty := hb.value ▸ hb.known.nonempty
  rw [hb.value] at hbits₂
  refine .bindNewLabel fun notCell s₃ h₃ _ => .bindNewLabel fun done s₄ h₄ _ => ?_
  refine .bind (.emit' hk rfl Inst.steps_test fun s₅ h₅ => .intro fun hs₅ _ => ?_)
  have hf₅ := (h₃.trans h₄).trans h₅
  obtain ⟨r₅, hr₅⟩ : ∃ r₅ : Registers, { r₂ with
      flags := (Size.s64.run .and (r₂.gpr v.reg) (r₂.operand (.reg .tagMask))).2 } = r₅ := ⟨_, rfl⟩
  have hspared : r₂.Spared r₅ := hr₅ ▸ (Registers.Spared.refl r₂).setFlags _
  have hholds : Cond.ne.holds r₅.flags r₅.order = !m.value.isCell :=
    hr₅ ▸ Cond.holds_ne_and_mask hb₂.stands.tagMask hbits₂ hne
  rw [hr₅]
  have hst₅ : Stands k.val s₅.ledger r₅ mem₂ := Stands.spared (hf₅.ledger ▸ hb₂.stands) hs₅ hspared
  have ht₅ : target.Kept s₅ := ht.onward (hp.onward.trans hf₅.onward)
  have hsince : Since k.env.graph r mem r₅ mem₂ := hp.toSpares.since.spared hspared
  have haside₅ := haside.confined hsince.memory hsince.frame
  have hapart : ∀ {s : State} {q : Gpr}, 0 < s.locks (.gpr q) → q ≠ .scratch := fun hl =>
    (Location.ne_of_mem (Bank.mem_allocatable_of_locksOf hl)).2.2.2
  have hv₅ : r₅.gpr v.reg = m.value.bits := (hspared.gpr (hapart hb₂.filled.lock)).trans hbits₂
  refine .bind (.jcc hk (by simp) (fun hc s₆ h₆ => ?_) fun hc s₆ h₆ => ?_)
  · have hno : m.value.isCell = false := by simpa using hholds.symm.trans hc
    refine skip (Calm.guardCellType (by simp)) (.guardCellType _ _ _ _) nofun fun _ s₇ h₇ => ?_
    refine skip Calm.masqueradeGuard (.masqueradeGuard _) nofun fun _ s₈ h₈ => ?_
    refine skip (Calm.cmp64 _ _) (.cmp64 _ _) nofun fun _ s₉ h₉ => ?_
    have hf₉ := ((h₆.trans h₇).trans h₈).trans h₉
    refine otherEnd_other hk hu (hf₉.ledger ▸ hst₅) (ht₅.onward hf₉.onward) hsince (by simp) hv₅ ?_
    simp [Look.identityOr, hno, hobj]
  · have hyes : m.value.isCell = true := by simpa using hholds.symm.trans hc
    have hout : l.identityOr k.env.noMasquerades m = l.identity k.env.noMasquerades m := if_pos hyes
    obtain ⟨x, d, hx, hd, hobject, -⟩ := hb.looks.exists_cell hyes
    rw [← hv₅] at hx
    refine .bind (.guardCellType hk haside₅ hx hd (by decide)
      (fun htype s₇ r₇ h₇ hr₇ => ?_) fun htype s₇ r₇ h₇ => ?_)
    · have hobj' : m.object = true := by simpa [hobject] using htype
      have ho : Shows h r₅ o.reg l := ⟨ha.looks, (Bool.and_eq_true_iff.mp hobj).1,
        (hspared.gpr (hapart hb₁.filled.lock)).trans ((hb₂.preserves.gpr hb₁.filled.lock).trans hbits₁),
        hapart hb₁.filled.lock⟩
      have hv : Shows h r₅ v.reg m := ⟨hb.looks, hyes, hv₅, hapart hb₂.filled.lock⟩
      rw [hout]
      refine identity hk (.otherEnd (by simp)) haside₅ (ho.spared hr₇) (hv.spared hr₇) hobj hobj' hp.memory
        fun s₈ r₈ h₈ hr₈ hx => .intro fun hs₈ _ => ?_
      have hf₈ := (h₆.trans h₇).trans h₈
      exact otherEnd_cell hk hu (Stands.spared (hf₈.ledger ▸ hst₅) hs₈ (hr₇.trans hr₈))
        (ht₅.onward hf₈.onward) (hsince.spared (hr₇.trans hr₈)) (by simp) hx
    · have hstring : d.type = .string := by simpa using htype
      exact left (.bind (.masqueradeGuard _) fun _ => .bind (.cmp64 _ _) fun _ => .otherEnd (by simp))
        (by simp [hout, Look.identity, hobject, hstring]) hp.memory

/-- A helper makes the comparison. -/
lemma genericCompare : k.Settles ls s (genericCompare op a b fused) ⟨.next, r, mem⟩ fused
    (.ok (l.decides op m)) r mem := by
  refine .bind (.fillValue hk hst (fun _ => ha.constant) fun p s₁ r₁ mem₁ hb₁ hbits₁ => ?_)
  have hp₁ := hb₁.preserves
  refine .bind (.fillValue hk hb₁.stands (fun _ => (hb.spares hp₁.toSpares).constant)
    fun q s₂ r₂ mem₂ hb₂ hbits₂ => ?_)
  have hp := hp₁.trans hb₂.preserves
  rw [ha.value, ← hb₂.preserves.gpr hb₁.filled.lock] at hbits₁
  rw [hb.value] at hbits₂
  refine .bind (.callReading (x := Execution.boolWord (l.decides op m)) hk rfl rfl nofun hb₂.stands rfl
    (fun r₃ mem₃ o hpasses hconf => ?_) fun s₃ r₃ mem₃ hst₃ hsince hresult => ?_)
  · obtain ⟨hfirst, hsecond, hthird, -⟩ : r₃.gpr .first = r₂.gpr p.reg ∧ r₃.gpr .second = r₂.gpr q.reg ∧
      r₃.gpr .third = UInt64.ofNat op.ctorIdx ∧ True := hpasses.passes
    have hshows := haside.shows hm (hp.memory.trans hconf hp.frame)
    have hcompare := World.runs_compareValues (w := k.site.around ⟨r₃, mem₃, o⟩) hshows ha.looks hb.looks op
    have hchoose : Execution.choose? Comparison.all (UInt64.ofNat op.ctorIdx) = some op := by
      cases op <;> rfl
    simp only [Execution.serve]
    rw [hthird, hchoose, hfirst, hsecond, hbits₁, hbits₂]
    exact World.runs_bind_of_ok hcompare
  · have hsince := hp.toSpares.since.trans hsince
    refine .bind (.unlockGpr fun s₄ _ _ hl₄ => .bind (.unlockGpr fun s₅ _ _ hl₅ => ?_))
    have hst₅ : Stands k.val s₅.ledger r₃ mem₃ := by rwa [hl₅, hl₄]
    cases fused with
    | some p =>
      refine .of_wp (.bind (.emit' hk rfl Inst.steps_test fun s₆ h₆ => .branch hk fun s₇ σ hσ =>
        ⟨hsince.memory, ?_⟩))
      have hdecides : ∀ order, Cond.ne.holds (Size.s32.run .and (r₃.gpr .result) (r₃.gpr .result)).2 order =
          l.decides op m := fun order => by rw [hresult, Cond.holds_ne_boolWord]
      rw [← hdecides r₃.order]
      exact hσ
    | none =>
      refine .bind (.bind (.allocGprPreferring hk hst₅ fun q s₆ mem₆ hh hp₆ hst₆ => .bind (.mov hk
        fun s₇ h₇ => .pure (.intro fun hs₇ _ => ?_))))
      have ht₇ : s₇.Taken (.gpr q) := h₇.toSame.taken.mpr hh.taken
      have hframe : Gpr.frame ≠ q := (Location.ne_of_mem (Bank.mem_allocatable_of_locksOf ht₇.1)).1.symm
      have hsince := hsince.trans hp₆.toSpares.since
      refine boxed hk hu (Stands.setGpr (h₇.ledger ▸ hst₆) hs₇ ht₇ _) ht₇ ?_ ⟨hsince.memory, ?_⟩
      · rw [Registers.gpr_setGpr, if_pos rfl, hresult]
      · rw [Registers.gpr_setGpr, if_neg hframe]
        exact hsince.frame

variable (hsup : k.Supplied)
include hsup

/-- Comparisons that no helper makes. -/
lemma compareInto (ht : target.Kept s) (hkinds : (a.kind, b.kind) ∈ op.kinds)
    (huntyped : (a.kind, b.kind) ≠ (.untyped, .untyped)) :
    k.Settles ls s (compareInto op a b target) ⟨.next, r, mem⟩ target.fused
      (Look.outcome k.env.noMasquerades op a.kind b.kind l m) r mem := by
  unfold Lowering.compareInto
  rcases Comparison.kinds_cases hkinds with ⟨hea, heb⟩ | ⟨hea, heb⟩ | ⟨hea, heb⟩ |
    ⟨-, ⟨hea, heb⟩ | ⟨hea, heb⟩ | ⟨hea, heb⟩⟩
  · rw [if_pos (by simp [isInt, hea, heb]), hea, heb]
    exact compareInts hk hu hst ha hb ht hea heb
  · rw [if_neg (by simp [isInt, hea]), if_pos (by simp [isNumber, hea, heb]), hea, heb]
    exact compareDoubles hk hu hst ha hb hsup ht
  · exact absurd (Prod.ext hea heb) huntyped
  · rw [if_neg (by simp [isInt, hea]), if_neg (by simp [isNumber, isInt, hea]), if_pos (by simp [hea, heb]), hea, heb]
    exact compareObjects hk hu hst ha hb hm haside ht hea heb
  · rw [if_neg (by simp [isInt, hea]), if_neg (by simp [isNumber, isInt, hea]), if_neg (by simp [heb]),
      if_pos hea, hea, heb]
    exact compareOther hk hu hst ha hb hm haside ht hea
  · rw [if_neg (by simp [isInt, hea]), if_neg (by simp [isNumber, isInt, hea]), if_neg (by simp [hea]),
      if_neg (by simp [hea]), hea, heb]
    exact compareOther hk hu hst hb ha hm haside ht heb

lemma compareWith (hkinds : (a.kind, b.kind) ∈ op.kinds) : k.Settles ls s (
      if isGenericCompare op a b then Lowering.genericCompare op a b fused
      else
        match fused with
        | some (t, f) => Lowering.compareInto op a b (.branch t f)
        | none => do Lowering.compareInto op a b (.value (← allocGpr))) ⟨.next, r, mem⟩ fused
      (Look.outcome k.env.noMasquerades op a.kind b.kind l m) r mem := by
  rw [isGenericCompare_eq hkinds]
  refine .ite (fun hg => ?_) fun hg => ?_
  · obtain ⟨hea, heb⟩ := Prod.mk.inj (of_decide_eq_true hg)
    rw [hea, heb]
    exact genericCompare hk hu hst ha hb hm haside
  · have hg' : (a.kind, b.kind) ≠ (.untyped, .untyped) := fun h => hg (decide_eq_true h)
    cases fused with
    | some p => exact compareInto hk hu hst ha hb hm haside hsup trivial hkinds hg'
    | none =>
      refine .bind (.allocGpr hk hst fun q s₁ mem₁ hh hp₁ hst₁ => ?_)
      exact since (compareInto hk hu hst₁ (ha.spares hp₁.toSpares) (hb.spares hp₁.toSpares) hm
        (haside.confined hp₁.memory hp₁.frame) hsup (show (CompareTarget.value q).Kept s₁ from hh.taken) hkinds hg') hp₁.toSpares.since

/-- **Comparisons.** -/
lemma lowerCompare {d : Node} (hd : k.env.graph.nodes[k.cur]? = some d) (hn : d.children = #[a, b])
    (hkinds : (a.kind, b.kind) ∈ op.kinds)
    (hfused : ∀ t f, fused = some (t, f) ↔ k.env.graph.Fuses s.block s.position k.cur t f) :
    k.Settles ls s (lowerCompare op) ⟨.next, r, mem⟩ fused
      (Look.outcome k.env.noMasquerades op a.kind b.kind l m) r mem := by
  unfold Lowering.lowerCompare
  refine .child fun d₁ e hd₁ he => .child fun d₂ e' hd₂ he' => ?_
  obtain rfl := Option.some.inj (hd.symm.trans hd₁)
  obtain rfl := Option.some.inj (hd.symm.trans hd₂)
  obtain rfl : a = e := by simpa [hn] using he
  obtain rfl : b = e' := by simpa [hn] using he'
  refine .look (P := fun x => ∀ t f, x = some (t, f) ↔ k.env.graph.Fuses s.block s.position k.cur t f)
    (fun hs => hs.current ▸ leads_fusableBranch) fun x hx => ?_
  obtain rfl : x = fused := Option.ext fun ⟨t, f⟩ => (hx t f).trans (hfused t f).symm
  cases x with
  | some p =>
    refine .bind (.of_calm (Calm.modify (fun _ => ⟨rfl, rfl, rfl, rfl, rfl, rfl, rfl, rfl, rfl, rfl⟩)
      fun _ => ⟨rfl, rfl, rfl⟩) (.modify fun _ => rfl) fun _ _ => ⟨_, .of_offset rfl, fun h₁ => ?_⟩)
    have hp : Spares k.env.graph s r mem { s with skipNext := true } r mem := (Preserves.of_same h₁.toSame).toSpares
    exact compareWith hk hu hst (ha.spares hp) (hb.spares hp) hm haside hsup hkinds
  | none =>
    exact .ite (fun hsome => absurd hsome (by simp)) fun _ =>
      compareWith hk hu hst ha hb hm haside hsup hkinds

end Objects

end Tiers

end Settles

end Course
end Speculation
