import Speculation.Proofs.Execution.Steps
import Speculation.Proofs.Integer.Graph
import Speculation.Proofs.Link
import Speculation.Proofs.Lowering.Values
import Speculation.Proofs.Replay

/-!
What lowering steps do, as the machine sees it.

A `Scene` is what is fixed while the code runs: the linked code, the exits with what the ledger
said where each was made, the events, the frame and the values passed. It says how a run may end: by
leaving through the exit of the first node whose speculation fails, with every value where the exit
will look for it, or by returning the value of the graph, or by a fault for want of an argument.

`Does` is the form of the specifications. A step neither fails nor terminates its node; it adds
pieces to the code, and wherever the linked code has these pieces, a run through them leads from a
machine with `P` to one with `S`, unless it ends as it should on the way.
-/

/-! ### Code in execution -/

namespace Speculation

namespace Integer

variable (g : Graph)

/-- What a node assigns to a local: whose value it holds now, and whether it is in the local's slot. -/
def assigns (o : Slot) (n : NodeId) : Option (NodeId × Bool) := do
  let x ← g.nodes[n]?
  let e ← x.children[0]?
  match x.op with
  | .setLocal v => if (← g.vars[v]?).operand = o then some (e.node, true) else none
  | .movHint v => if (← g.vars[v]?).operand = o then some (e.node, false) else none
  | _ => none

def lastAssigned (nodes : List NodeId) (o : Slot) : Option (NodeId × Bool) :=
  nodes.reverse.findSome? (assigns g o)

lemma lastAssigned_concat (nodes : List NodeId) (n : NodeId) (o : Slot) :
    lastAssigned g (nodes ++ [n]) o = (assigns g o n).or (lastAssigned g nodes o) := by
  simp [lastAssigned, List.findSome?_cons]
  rcases assigns g o n <;> rfl

/-- A replay knows what was assigned last to every operand, and of the others what it knew at first. -/
structure Told (first : Replay.State) (nodes : List NodeId) (R : Replay.State) : Prop where
  stored {o : Slot} {n : NodeId} (h : lastAssigned g nodes o = some (n, true)) :
    R.operand? o = some (.stored .js)
  hinted {o : Slot} {n : NodeId} (h : lastAssigned g nodes o = some (n, false)) :
    R.operand? o = some (.hinted n)
  unassigned {o : Slot} (h : lastAssigned g nodes o = none) : R.operand? o = first.operand? o

end Integer

/-- Code in execution. -/
structure Scene where
  env : Lowering.Env
  nodes : List NodeId
  passed : List Value
  site : Site
  labels : Array (Option Nat)
  exits : Array Exit
  /-- What the ledger said where each exit was made. -/
  views : Array (Array ValueInfo)
  events : Array Event
  /-- What a replay knows at the start of the block. -/
  first : Replay.State
  frame : UInt64

namespace Scene

variable (sc : Scene)

abbrev graph : Graph := sc.env.graph

def val : NodeId → Value := Integer.evaluate sc.graph sc.passed sc.nodes

def address (o : Slot) : UInt64 := sc.frame + o.offset.toInt64.toUInt64

def word (mem : Memory) (o : Slot) : Option UInt64 :=
  (mem.read? 8 (sc.address o)).map UInt64.ofNat

def Passes (nodes : List NodeId) : Prop := ∀ n ∈ nodes, Integer.faultOf sc.graph sc.val n = none

/-- The frame holds the arguments that were passed, and the locals that the nodes `done` have
stored. -/
structure Framed (done : List NodeId) (r : Registers) (mem : Memory) : Prop where
  frame : r.gpr .frame = sc.frame
  /-- Where an argument that was not passed would be, there is no memory. -/
  argument {k : Nat} (h : k < sc.graph.arguments.size) :
    sc.word mem (.ofArgument k) = sc.passed[k]?.map Value.bits
  stored {j : Nat} {n : NodeId} (hj : j < sc.graph.numVars)
    (h : Integer.lastAssigned sc.graph done (.ofLocal j) = some (n, true)) :
    sc.word mem (.ofLocal j) = some (sc.val n).bits
  mapped {j : Nat} (h : j < sc.graph.numLocals) : mem.Mapped (sc.address (.ofLocal j)) 8

/-- Every value that a ledger knows of can be boxed where the ledger has it. -/
structure Restores (ledger : Array ValueInfo) (r : Registers) (mem : Memory) : Prop where
  register {i : Nat} {x : ValueInfo} {n : NodeId} {q : Gpr} (hx : ledger[i]? = some x)
    (hn : x.node = some n) (hq : x.location = .gpr q) :
    Execution.box x.registerFormat (r.gpr q) = sc.val n
  double {i : Nat} {x : ValueInfo} {q : Fpr} (hx : ledger[i]? = some x) : x.location ≠ .fpr q
  slot {i : Nat} {x : ValueInfo} {n : NodeId} (hx : ledger[i]? = some x)
    (hn : x.node = some n) (hf : x.spillFormat ≠ .none) :
    ∃ w, sc.word mem (.ofLocal i) = some w ∧ Execution.box x.spillFormat w = sc.val n

/-- A ledger knows of every value among those of `done` that is used in `rest`. -/
def Supplied (done rest : List NodeId) (ledger : Array ValueInfo) : Prop :=
  ∀ n ∈ done, usesOf sc.graph.nodes rest n ≠ 0 →
    ∃ (d : Node) (i : Nat) (x : ValueInfo), sc.graph.nodes[n]? = some d ∧
      d.slot = some (.ofLocal i) ∧ i < sc.graph.numLocals ∧ ledger[i]? = some x ∧
      x.node = some n ∧
      (d.op.isConstant = true ∨ x.location ≠ .none ∨ x.spillFormat ≠ .none)

/-- It is right to leave now, with `kind`, at the node `n` after `done`. -/
structure Departs (done rest : List NodeId) (n : NodeId) (kind : ExitKind)
    (ledger : Array ValueInfo) (r : Registers) (mem : Memory) : Prop where
  nodes : sc.nodes = done ++ n :: rest
  passes : sc.Passes done
  fault : Integer.faultOf sc.graph sc.val n = some (n, kind)
  supplied : sc.Supplied done (n :: rest) ledger
  framed : sc.Framed done r mem
  restores : sc.Restores ledger r mem

def undone (r : Registers) (u : Option Undo) : Registers :=
  match u with
  | some u => Execution.undo r u
  | none => r

/-- The machine is at the stub of the exit `x`, the `k`-th. -/
structure LeavesBy (m : Machine) (k : Nat) (x : Exit) (ledger : Array ValueInfo)
    (done rest : List NodeId) : Prop where
  exit : sc.exits[k]? = some x
  view : sc.views[k]? = some ledger
  place : m.place = offsetOf sc.labels x.stub
  override : x.override = none
  origin {d : Node} (h : sc.graph.nodes[x.node]? = some d) : x.origin = d.origin
  told : Integer.Told sc.graph sc.first done (Replay.after sc.events.toList x.streamIndex)
  departs : sc.Departs done rest x.node x.kind ledger (undone m.registers x.undo) m.memory

def result : Value :=
  ((sc.nodes.getLast?.bind fun n => sc.graph.nodes[n]?).bind fun x =>
    x.children[0]?.map fun e => sc.val e.node).getD .undefined

structure Returns (m : Machine) : Prop where
  next : sc.site.Next m .ret
  result : m.registers.gpr .result = sc.result.bits
  passes : sc.Passes sc.nodes

structure Lacks (m : Machine) : Prop where
  missing : sc.passed.length < sc.graph.arguments.size
  fails : sc.site.Fails m

def Ends (m : Machine) : Prop :=
  (∃ k x ledger done rest, sc.LeavesBy m k x ledger done rest) ∨ sc.Returns m ∨ sc.Lacks m

/-- The code is where the world has it, and its offsets fit into displacements. -/
structure Linked : Prop where
  loaded : sc.site.Loaded
  size : sc.site.artifact.code.size < 2147483648

end Scene
end Speculation

/-! ### Steps of a lowering -/

namespace Speculation

/-- The targets of a piece are among the first `n` labels. -/
def Piece.Aims (n : Nat) : Piece → Prop
  | .inst i (some t) => Assembler.RelocTarget.fits t i = true ∧
    ∀ l, t = .label l ∨ t = .labelAddress l → l < n
  | _ => True

lemma Piece.Aims.mono {n n' : Nat} {p : Piece} (h : p.Aims n) (hn : n ≤ n') : p.Aims n' := by
  rcases p with ⟨i, _ | t⟩ | bs
  · exact trivial
  · exact ⟨h.1, fun l hl => Nat.lt_of_lt_of_le (h.2 l hl) hn⟩
  · exact trivial

lemma Piece.Aims.fits {n : Nat} {p : Piece} (h : p.Aims n) : p.Fits := by
  rcases p with ⟨i, _ | t⟩ | bs
  · trivial
  · exact h.1
  · trivial

namespace Lowering

variable {s s' s'' : State} {ps qs : List Piece}

/-- What integer dataflow has no use for. -/
def State.idle (s : State) :=
  (s.block, s.slowPaths, s.skipNext, s.pool, s.poolLabels, s.caches, s.calls, s.watchpoints,
    s.switches)

/-- From `s` to `s'` pieces were added to the code, exits were made, each with a new label for its
stub, and the log went on. -/
structure Grows (s s' : State) (qs : List Piece) : Prop where
  adds : s.asm.Adds s'.asm qs
  labels : ∃ k, s'.exits.size = s.exits.size + k ∧
    s'.asm.labels = s.asm.labels ++ Array.replicate k none
  stubs {i : Nat} {x : Exit} (h : s'.exits[i]? = some x) (hi : s.exits.size ≤ i) :
    x.stub = s.asm.labels.size + (i - s.exits.size)
  exits {i : Nat} {x : Exit} (h : s.exits[i]? = some x) : s'.exits[i]? = some x
  views {i : Nat} {v : Array ValueInfo} (h : s.views[i]? = some v) : s'.views[i]? = some v
  events : s.events.toList <+: s'.events.toList
  aims {p : Piece} (h : p ∈ qs) : p.Aims s'.asm.labels.size
  idle : s'.idle = s.idle

namespace Grows

lemma of_adds (ha : s.asm.Adds s'.asm qs) (hl : s'.asm.labels = s.asm.labels)
    (hx : s'.exits = s.exits) (hv : s'.views = s.views)
    (he : s.events.toList <+: s'.events.toList)
    (hq : ∀ p ∈ qs, p.Aims s.asm.labels.size) (hi : s'.idle = s.idle) : Grows s s' qs where
  adds := ha
  labels := ⟨0, by rw [hx, Nat.add_zero], by simp [hl]⟩
  stubs {i x} h hi := by
    rw [hx] at h
    exact absurd (Array.getElem?_eq_some_iff.mp h).1 (Nat.not_lt.mpr hi)
  exits h := hx ▸ h
  views h := hv ▸ h
  events := he
  aims h := hl ▸ hq _ h
  idle := hi

/-- Nothing of this has changed. -/
lemma of_eq (ha : s'.asm = s.asm) (hx : s'.exits = s.exits) (hv : s'.views = s.views)
    (he : s.events.toList <+: s'.events.toList) (hi : s'.idle = s.idle) : Grows s s' [] :=
  of_adds (.of_eq (by rw [ha]) (by rw [ha])) (by rw [ha]) hx hv he (by simp) hi

lemma refl (s : State) : Grows s s [] := of_eq rfl rfl rfl List.prefix_rfl rfl

lemma labels_size (h : Grows s s' qs) : s.asm.labels.size ≤ s'.asm.labels.size := by
  obtain ⟨k, -, hl⟩ := h.labels
  rw [hl]
  simp

lemma trans (h : Grows s s' ps) (h' : Grows s' s'' qs) : Grows s s'' (ps ++ qs) where
  adds := h.adds.trans h'.adds
  labels := by
    obtain ⟨k, hk, hl⟩ := h.labels
    obtain ⟨k', hk', hl'⟩ := h'.labels
    refine ⟨k + k', by omega, ?_⟩
    rw [hl', hl, Array.append_assoc, Array.replicate_append_replicate]
  stubs {i x} hx hi := by
    obtain ⟨k, hk, hl⟩ := h.labels
    by_cases hlt : i < s'.exits.size
    · have hy : s'.exits[i]? = some s'.exits[i] := Array.getElem?_eq_getElem hlt
      have := h'.exits hy
      rw [hx] at this
      rw [Option.some.inj this]
      exact h.stubs hy hi
    · rw [h'.stubs hx (Nat.le_of_not_lt hlt), hl]
      simp only [Array.size_append, Array.size_replicate]
      omega
  exits hx := h'.exits (h.exits hx)
  views hv := h'.views (h.views hv)
  events := h.events.trans h'.events
  aims hp := by
    rcases List.mem_append.mp hp with hp | hp
    · exact (h.aims hp).mono h'.labels_size
    · exact h'.aims hp
  idle := h'.idle.trans h.idle

end Grows

end Lowering

abbrev Condition := Registers → Memory → Prop

namespace Scene

variable {sc : Scene} {o : Nat} {ps qs : List Piece} {P P' S S' : Condition}

/-- The code has these pieces at an offset, linked. -/
def Has (sc : Scene) (o : Nat) (qs : List Piece) : Prop :=
  (∃ pre post, sc.site.artifact.code.data.toList =
    pre ++ (Piece.linked sc.labels sc.site.artifact.base o qs ++ post) ∧ pre.length = o) ∧
  ∀ p ∈ qs, p.Links sc.labels

lemma Has.left (h : sc.Has o (ps ++ qs)) : sc.Has o ps := by
  obtain ⟨⟨pre, post, hcode, ho⟩, hl⟩ := h
  rw [Piece.linked_append, List.append_assoc] at hcode
  exact ⟨⟨pre, _, hcode, ho⟩, fun p hp => hl p (List.mem_append_left _ hp)⟩

lemma Has.right (h : sc.Has o (ps ++ qs)) : sc.Has (o + (ps.flatMap Piece.bytes).length) qs := by
  obtain ⟨⟨pre, post, hcode, ho⟩, hl⟩ := h
  refine ⟨⟨pre ++ Piece.linked sc.labels sc.site.artifact.base o ps, post, ?_, ?_⟩,
    fun p hp => hl p (List.mem_append_right _ hp)⟩
  · rw [hcode, Piece.linked_append, List.append_assoc, List.append_assoc]
  · rw [List.length_append, ho,
      Piece.length_linked _ _ fun p hp => (hl p (List.mem_append_left _ hp)).1]

lemma Has.le (h : sc.Has o qs) :
    o + (qs.flatMap Piece.bytes).length ≤ sc.site.artifact.code.size := by
  obtain ⟨⟨pre, post, hcode, ho⟩, hl⟩ := h
  rw [← ByteArray.size_data, ← Array.length_toList, hcode, List.length_append, List.length_append,
    Piece.length_linked _ _ fun p hp => (hl p hp).1]
  omega

/-- What the linked code has where a piece was assembled. -/
lemma Has.next {i : Inst} {t : Option RelocTarget} (h : sc.Has o [.inst i t])
    {m : Machine} (hm : m.place = o) :
    sc.site.Next m
      (Piece.resolve sc.labels sc.site.artifact.base (o + i.encode.length) i t) := by
  have hle := h.le
  obtain ⟨⟨pre, post, hcode, rfl⟩, -⟩ := h
  simp only [Piece.linked, List.append_nil] at hcode
  refine ⟨?_, by omega⟩
  rw [hm, Inst.decodeAt_of_bytes hcode]

/-- A run from `m` gets to `stop` with `S`, unless it ends as it should on the way; every instruction
of it takes three bytes or more. -/
def Arrives (sc : Scene) (m : Machine) (stop : Nat) (S : Condition) : Prop :=
  ∃ n m', sc.site.Goes n m m' ∧ m.place + 3 * n ≤ stop ∧
    (sc.Ends m' ∨ m'.place = stop ∧ S m'.registers m'.memory)

/-- Running the pieces from an offset on leads from `P` to `S`. -/
def Runs (sc : Scene) (o : Nat) (qs : List Piece) (P S : Condition) : Prop :=
  sc.Has o qs → ∀ m : Machine, m.place = o → P m.registers m.memory →
    sc.Arrives m (o + (qs.flatMap Piece.bytes).length) S

lemma Runs.nil (h : ∀ r mem, P r mem → S r mem) : sc.Runs o [] P S := by
  intro _ m hm hP
  exact ⟨0, m, .refl m, by simp [hm], .inr ⟨by simp [hm], h _ _ hP⟩⟩

lemma Runs.append (h : sc.Runs o ps P S)
    (h' : sc.Runs (o + (ps.flatMap Piece.bytes).length) qs S S') :
    sc.Runs o (ps ++ qs) P S' := by
  intro hhas m hm hP
  obtain ⟨n, m', hgo, hn, hend | ⟨hm', hS⟩⟩ := h hhas.left m hm hP
  · refine ⟨n, m', hgo, ?_, .inl hend⟩
    simp only [List.flatMap_append, List.length_append]
    omega
  · obtain ⟨k, m'', hgo', hk, hend⟩ := h' hhas.right m' hm' hS
    refine ⟨n + k, m'', hgo.trans hgo', ?_, ?_⟩
    · simp only [List.flatMap_append, List.length_append]
      omega
    · rwa [List.flatMap_append, List.length_append, ← Nat.add_assoc]

lemma Runs.cons {p : Piece} (h : sc.Runs o [p] P S)
    (h' : sc.Runs (o + ([p].flatMap Piece.bytes).length) qs S S') : sc.Runs o (p :: qs) P S' :=
  h.append h'

lemma Runs.conseq (h : sc.Runs o qs P S) (hP : ∀ r mem, P' r mem → P r mem)
    (hS : ∀ r mem, S r mem → S' r mem) : sc.Runs o qs P' S' := by
  intro hhas m hm hm'
  obtain ⟨n, m', hgo, hn, hend⟩ := h hhas m hm (hP _ _ hm')
  exact ⟨n, m', hgo, hn, hend.imp id fun ⟨hp, hs⟩ => ⟨hp, hS _ _ hs⟩⟩

lemma Runs.inst {i : Inst} (hs : sc.Linked) (hi : 3 ≤ i.encode.length)
    (h : ∀ r mem, P r mem → ∃ r' mem', i.Steps r mem r' mem' ∧ S r' mem') :
    sc.Runs o [.inst i none] P S := by
  intro hhas m hm hP
  obtain ⟨r', mem', hstep, hS⟩ := h _ _ hP
  have hnext : sc.site.Next m i := hhas.next hm
  have hlen : ([Piece.inst i none].flatMap Piece.bytes).length = i.encode.length := by
    simp [Piece.bytes]
  refine ⟨1, _, hstep _ m hs.loaded hnext rfl rfl, ?_, .inr ⟨?_, hS⟩⟩
  · rw [hlen]
    omega
  · rw [hlen, ← hm]

lemma Runs.ends {i : Inst}
    (h : ∀ m : Machine, P m.registers m.memory → sc.site.Next m i → sc.Ends m) :
    sc.Runs o [.inst i none] P fun _ _ => False := by
  intro hhas m hm hP
  exact ⟨0, m, .refl m, by omega, .inl (h m hP (hhas.next hm))⟩

lemma Has.head {p : Piece} (h : sc.Has o (p :: qs)) : sc.Has o [p] := by
  have hcons : sc.Has o ([p] ++ qs) := h
  exact hcons.left

lemma Has.tail {p : Piece} (h : sc.Has o (p :: qs)) : sc.Has (o + p.bytes.length) qs := by
  have hcons : sc.Has o ([p] ++ qs) := h
  have h := hcons.right
  rwa [List.flatMap_cons, List.flatMap_nil, List.append_nil] at h

/-- An instruction goes on with the next one. -/
lemma Has.goes {i : Inst} (h : sc.Has o [.inst i none]) (hs : sc.Linked) (r : Registers)
    (mem : Memory) {r' : Registers} {mem' : Memory} (hstep : i.Steps r mem r' mem') :
    sc.site.Goes 1 ⟨r, mem, o⟩ ⟨r', mem', o + i.encode.length⟩ :=
  hstep _ _ hs.loaded (h.next rfl) rfl rfl

lemma Has.goes_jcc {c : Cond} {l : Label} (h : sc.Has o [.inst (.jcc c 0) (some (.label l))])
    (hs : sc.Linked) {m : Machine} (hm : m.place = o) : sc.site.Goes 1 m { m with
      place :=
        if c.holds m.registers.flags m.registers.order then offsetOf sc.labels l else o + 6 } := by
  have hle := h.le
  have hsize := hs.size
  have hlen : ([Piece.inst (.jcc c 0) (some (.label l))].flatMap Piece.bytes).length = 6 := rfl
  rw [hlen] at hle
  have hnext := h.next hm
  obtain ⟨target, ht, hlt⟩ := (h.2 _ List.mem_cons_self).2 _ _ l rfl (.inl rfl)
  have hoff : offsetOf sc.labels l = target := by simp [offsetOf, ht]
  have hjcc : sc.site.Next m (.jcc c (Int32.ofInt ((target : Int) - (m.place + 6 : Nat)))) := by
    rw [← hoff, hm]
    exact hnext
  rw [hoff, ← hm]
  exact sc.site.goes_jcc hs.loaded hjcc (by omega) hlt

lemma Has.goes_jmp {l : Label} (h : sc.Has o [.inst (.jmp 0) (some (.label l))]) (hs : sc.Linked)
    {m : Machine} (hm : m.place = o) :
    sc.site.Goes 1 m { m with place := offsetOf sc.labels l } := by
  have hle := h.le
  have hsize := hs.size
  have hlen : ([Piece.inst (.jmp 0) (some (.label l))].flatMap Piece.bytes).length = 5 := rfl
  rw [hlen] at hle
  have hnext := h.next hm
  obtain ⟨target, ht, hlt⟩ := (h.2 _ List.mem_cons_self).2 _ _ l rfl (.inl rfl)
  have hoff : offsetOf sc.labels l = target := by simp [offsetOf, ht]
  have hjmp : sc.site.Next m (.jmp (Int32.ofInt ((target : Int) - (m.place + 5 : Nat)))) := by
    rw [← hoff, hm]
    exact hnext
  rw [hoff]
  exact sc.site.goes_jmp hs.loaded hjmp (by omega) hlt

lemma Runs.branch {c : Cond} {l : Label} (hs : sc.Linked)
    (hend : ∀ m : Machine, P m.registers m.memory →
      c.holds m.registers.flags m.registers.order = true → m.place = offsetOf sc.labels l →
      sc.Ends m)
    (hS : ∀ r mem, P r mem → c.holds r.flags r.order = false → S r mem) :
    sc.Runs o [.inst (.jcc c 0) (some (.label l))] P S := by
  intro hhas m hm hP
  have hlen : ([Piece.inst (.jcc c 0) (some (.label l))].flatMap Piece.bytes).length = 6 := rfl
  refine ⟨1, _, hhas.goes_jcc hs hm, by rw [hlen]; omega, ?_⟩
  rcases hc : c.holds m.registers.flags m.registers.order
  · exact .inr ⟨by rw [hlen]; rfl, hS _ _ hP hc⟩
  · exact .inl (hend _ hP hc rfl)

end Scene

namespace Lowering

variable {α β : Type} {sc : Scene} {s s' : State} {x : Lower α} {f : α → Lower β}
  {P P' : Condition} {Q Q' : α → State → Prop} {S S' : α → State → Condition}

/-- The exits, views and events of the state are the first ones of the scene. -/
structure Records (sc : Scene) (s : State) : Prop where
  exits {i : Nat} {x : Exit} (h : s.exits[i]? = some x) : sc.exits[i]? = some x
  views {i : Nat} {v : Array ValueInfo} (h : s.views[i]? = some v) : sc.views[i]? = some v
  events : s.events.toList <+: sc.events.toList

lemma Grows.records {qs : List Piece} (h : Grows s s' qs) (hr : Records sc s') : Records sc s where
  exits hx := hr.exits (h.exits hx)
  views hv := hr.views (h.views hv)
  events := h.events.trans hr.events

/-- The step gives a result with `Q`, and running its code leads from `P` to `S`. -/
def Does (sc : Scene) (s : State) (x : Lower α) (P : Condition)
    (Q : α → State → Prop) (S : α → State → Condition) : Prop :=
  Leads sc.env s x
    (fun a s' => Q a s' ∧ ∃ qs, Grows s s' qs ∧ (Records sc s' → sc.Runs s.asm.offset qs P (S a s')))
    (fun _ => False) fun _ _ => False

lemma Does.bind {Q' : β → State → Prop} {S' : β → State → Condition} (hx : Does sc s x P Q S)
    (hf : ∀ a s', Q a s' → Does sc s' (f a) (S a s') Q' S') :
    Does sc s (x >>= f) P Q' S' := by
  refine leads_bind.mpr (hx.weaken ?_)
  rintro a s₁ ⟨hQ, ps, hps, hruns⟩
  refine (hf a s₁ hQ).weaken ?_
  rintro b s₂ ⟨hQ', qs, hqs, hruns'⟩
  refine ⟨hQ', ps ++ qs, hps.trans hqs, fun hr => ?_⟩
  exact (hruns (hqs.records hr)).append (hps.adds.offset ▸ hruns' hr)

lemma Does.conseq (h : Does sc s x P Q S) (hP : ∀ r mem, P' r mem → P r mem)
    (hQ : ∀ a s', Q a s' → Q' a s')
    (hS : ∀ a s', Q a s' → ∀ r mem, S a s' r mem → S' a s' r mem) :
    Does sc s x P' Q' S' := by
  refine Leads.weaken h ?_
  rintro a s₁ ⟨ha, qs, hqs, hruns⟩
  exact ⟨hQ a s₁ ha, qs, hqs, fun hr => (hruns hr).conseq hP (hS a s₁ ha)⟩

/-- What is known of the step otherwise holds as well. -/
lemma Does.and {R : α → State → Prop} {T : State → Prop} {F : Failure → State → Prop}
    (h : Does sc s x P Q S) (hl : Leads sc.env s x R T F) :
    Does sc s x P (fun a s' => Q a s' ∧ R a s') S :=
  (Leads.and h hl).mono (fun _ _ ⟨⟨hQ, hg⟩, hR⟩ => ⟨⟨hQ, hR⟩, hg⟩) (fun _ h => h.1)
    fun _ _ h => h.1

lemma Does.idle (h : Does sc s x P Q S) :
    Does sc s x P (fun a s' => Q a s' ∧ s'.idle = s.idle) S :=
  Leads.weaken h fun _ _ ⟨hQ, qs, hqs, hruns⟩ => ⟨⟨hQ, hqs.idle⟩, qs, hqs, hruns⟩

/-- A step that adds no code. -/
lemma Does.silent (h : Leads sc.env s x (fun a s' => Q a s' ∧ Grows s s' [] ∧
      ∀ r mem, P r mem → S a s' r mem) (fun _ => False) fun _ _ => False) :
    Does sc s x P Q S :=
  h.weaken fun _ _ ⟨hQ, hg, hS⟩ => ⟨hQ, [], hg, fun _ => .nil hS⟩

lemma Does.pure {a : α} (hQ : Q a s) (hS : ∀ r mem, P r mem → S a s r mem) :
    Does sc s (pure a) P Q S :=
  .silent ⟨hQ, .refl s, hS⟩

/-- What does not depend on the machine holds on. -/
lemma Does.frame {C : Prop} (h : Does sc s x P Q S) :
    Does sc s x (fun r mem => P r mem ∧ C) Q fun a s' r mem => S a s' r mem ∧ C := by
  by_cases hC : C
  · exact h.conseq (fun _ _ h => h.1) (fun _ _ => id) fun _ _ _ _ _ h => ⟨h, hC⟩
  · exact Leads.weaken h fun _ _ ⟨hQ, qs, hqs, _⟩ =>
      ⟨hQ, qs, hqs, fun _ _ _ _ ⟨_, hc⟩ => absurd hc hC⟩

lemma Does.ite {c : Prop} [Decidable c] {y : Lower α} (h : c → Does sc s x P Q S)
    (h' : ¬c → Does sc s y P Q S) : Does sc s (if c then x else y) P Q S :=
  leads_ite.mpr ⟨h, h'⟩

lemma Does.tryCatch {f : Stop → Lower α} (h : Does sc s x P Q S) :
    Does sc s (tryCatch x f) P Q S :=
  leads_tryCatch.mpr (Leads.mono h (fun _ _ => id) (fun _ => False.elim) fun _ _ => False.elim)

lemma Does.forIn {xs : List β} {f : β → PUnit → Lower (ForInStep PUnit)}
    (I : List β → State → Prop) (J : List β → State → Condition) (h : I xs s)
    (hf : ∀ x rest s, I (x :: rest) s →
      Does sc s (f x ⟨⟩) (J (x :: rest) s) (fun r s' => r = .yield ⟨⟩ ∧ I rest s')
        fun _ s' => J rest s') :
    Does sc s (forIn xs PUnit.unit f) (J xs s) (fun _ s' => I [] s') fun _ s' => J [] s' := by
  induction xs generalizing s with
  | nil => exact .pure h fun _ _ => id
  | cons x xs ih =>
    rw [List.forIn_cons]
    refine (hf x xs s h).bind ?_
    rintro r s' ⟨rfl, h'⟩
    exact ih h'

/-- The step finds something out and changes nothing. -/
def Finds (env : Env) (s : State) (x : Lower α) (a : α) : Prop := outcome x env s = (.ok a, s)

lemma Finds.of_leads {env : Env} {a : α} (h : Leads env s x (fun b s' => b = a ∧ s' = s)
    (fun _ => False) fun _ _ => False) : Finds env s x a := by
  unfold Leads at h
  unfold Finds
  rcases hx : outcome x env s with ⟨(_ | e) | b, s'⟩ <;> rw [hx] at h
  · cases h
  · cases h
  · rw [h.1, h.2]

lemma Finds.bind {env : Env} {a : α} {b : β} (hx : Finds env s x a) (hf : Finds env s (f a) b) :
    Finds env s (x >>= f) b := by
  unfold Finds at hx hf ⊢
  rw [outcome_bind, hx]
  exact hf

lemma Does.after {a : α} {Q' : β → State → Prop} {S' : β → State → Condition}
    (hx : Finds sc.env s x a) (hf : Does sc s (f a) P Q' S') :
    Does sc s (x >>= f) P Q' S' := by
  unfold Finds at hx
  unfold Does Leads at hf ⊢
  rw [outcome_bind, hx]
  exact hf

end Lowering
end Speculation
