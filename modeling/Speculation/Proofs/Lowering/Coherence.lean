import Speculation.Proofs.Lowering.Agreement
import Speculation.Proofs.SlowPath.Guards

/-!
What every step of a lowering keeps.

`Coherent` puts the agreement of ledger and banks together with what is true of the log: a replay of
the events so far finds every value where the ledger has it, and for each exit made so far, a
replay of the events it counts finds what the ledger said where the exit was made. `Keeps` is
the form of the specifications, and `Calm` steps are those that at most emit code and make exits.
-/

namespace Speculation
namespace Lowering

variable {α β : Type} {env : Env} {g : Graph} {s s' : State} {cur : NodeId}
  {before pending : List NodeId}

/-- How many resets an exit of block `b` comes after: that of the entry, and one for each reachable
block up to `b`. -/
def resetsUpTo (g : Graph) (b : BlockId) : Nat :=
  1 + (g.blocks.toList.take (b + 1)).countP Block.reachable

/-- The first `k` events tell what `ledger` says, and their last reset is that of the block of `n`,
or that of the entry. -/
structure Seen (g : Graph) (events : Array Event) (k : Nat) (ledger : Array ValueInfo)
    (n : NodeId) (atEntry : Bool) : Prop where
  le : k ≤ events.size
  mirrors : Mirrors g (Replay.after events.toList k) ledger
  entry : atEntry = true → (events.toList.take k).count .reset = 1
  block : atEntry = false → ∃ b blk, g.blocks[b]? = some blk ∧ blk.reachable = true ∧
    n ∈ blk.nodes ∧ (events.toList.take k).count .reset = resetsUpTo g b

/-- Is this the exit of a check of the arguments? -/
def atEntry (x : Exit) : Bool := x.kind == .argumentTypeCheck

/-- Every exit and every registered slow path goes by events that tell what the ledger said, and the
slow path saves what it has to. Inline caches use registers as they should. -/
structure Sighted (g : Graph) (s : State) : Prop where
  size : s.views.size = s.exits.size
  exits {i : Nat} {x : Exit} {ledger : Array ValueInfo} (hx : s.exits[i]? = some x)
    (hl : s.views[i]? = some ledger) : Seen g s.events x.streamIndex ledger x.node (atEntry x)
  paths {p : SlowPath} (hp : p ∈ s.slowPaths) :
    Seen g s.events p.streamIndex p.ledger p.node false
  guards {p : SlowPath} (hp : p ∈ s.slowPaths) : p.Guards
  caches {c : CacheSite} (hc : c ∈ s.caches) : c.Apart

/-- What a new exit goes by. -/
def Sees (g : Graph) (s : State) : Prop :=
  Seen g s.events (s.exitStream.getD s.events.size) (s.exitLedger.getD s.ledger) s.current false

/-- The state in the middle of lowering node `cur`, with the values of the nodes `before`. -/
structure Coherent (g : Graph) (cur : NodeId) (before pending : List NodeId) (s : State) : Prop where
  formed : g.Formed
  current : s.current = cur
  gprs : s.gprs.Sound
  fprs : s.fprs.Sound
  agrees : Agrees g before pending s.ledger s.owner
  guarded : s.Guarded
  sighted : Sighted g s
  now : Seen g s.events s.events.size s.ledger s.current false
  stream : s.exitStream = none
  ledger : s.exitLedger = none

def NoDisagreement (f : Failure) : Prop := ∀ n e, f ≠ .compile (.internal (.inconsistent n e))

lemma noDisagreement_breach (b : Breach) : NoDisagreement (.breach b) := by
  simp [NoDisagreement]

/-- The step keeps the state coherent, and with a result it does `Q`. -/
abbrev Keeps (env : Env) (cur : NodeId) (before : List NodeId) (s : State) (x : Lower α)
    (Q : α → State → Prop) : Prop :=
  Leads env s x Q (Coherent env.graph cur before [])
    (fun f s' => NoDisagreement f ∧ Sighted env.graph s')

/-- What was locked still is, and is bound to the same value or to none as it was. -/
structure Onward (s s' : State) : Prop where
  locks (l : Location) : s.locks l ≤ s'.locks l
  owner {l : Location} (h : 0 < s.locks l) : s'.owner l = s.owner l

structure Same (s s' : State) : Prop where
  ledger : s'.ledger = s.ledger
  gprs : s'.gprs = s.gprs
  fprs : s'.fprs = s.fprs
  guards : s'.guards = s.guards
  events : s'.events = s.events
  facts : s'.facts = s.facts
  slowPaths : s'.slowPaths = s.slowPaths
  current : s'.current = s.current
  stream : s'.exitStream = s.exitStream
  exitLedger : s'.exitLedger = s.exitLedger

def CalmIf (exits : Prop) (x : Lower α) : Prop :=
  ∀ env s, Sighted env.graph s → (exits → Sees env.graph s) →
    Leads env s x (fun _ s' => Same s s' ∧ Sighted env.graph s') (fun _ => False)
      (fun f s' => NoDisagreement f ∧ Sighted env.graph s')

/-- A step that at most emits code and makes exits. -/
abbrev Calm (x : Lower α) : Prop := CalmIf True x

abbrev Quiet (x : Lower α) : Prop := CalmIf False x

/-! ### The log -/

section Log

variable {events : Array Event} {k : Nat} {ledger ledger' : Array ValueInfo} {n : NodeId} {a : Bool}

lemma Seen.push (h : Seen g events k ledger n a) (e : Event) :
    Seen g (events.push e) k ledger n a := by
  have hk : k ≤ events.toList.length := by simpa using h.le
  have htake : (events.push e).toList.take k = events.toList.take k := by
    rw [Array.toList_push, List.take_append_of_le_length hk]
  refine ⟨?_, ?_, ?_, ?_⟩
  · have := h.le
    rw [Array.size_push]
    omega
  · rw [Array.toList_push, Replay.after_append hk]
    exact h.mirrors
  · rw [htake]
    exact h.entry
  · rw [htake]
    exact h.block

lemma Seen.event (h : Seen g events events.size ledger n a) {e : Event} (he : e ≠ .reset)
    (hm : Mirrors g (Replay.step (Replay.after events.toList events.size) e) ledger') :
    Seen g (events.push e) (events.push e).size ledger' n a := by
  have hcount : (events.push e).toList.take (events.push e).size =
      events.toList.take events.size ++ [e] := by
    simp [List.take_of_length_le]
  refine ⟨Nat.le_refl _, ?_, ?_, ?_⟩
  · have hlen : (events.push e).size = events.toList.length + 1 := by simp
    rw [Array.toList_push, hlen, Replay.after_concat]
    simpa using hm
  · rw [hcount, List.count_append, List.count_singleton]
    simpa [he] using h.entry
  · rw [hcount, List.count_append, List.count_singleton]
    simpa [he] using h.block

lemma Seen.relabel (h : Seen g events k ledger n a)
    (hm : Mirrors g (Replay.after events.toList k) ledger') : Seen g events k ledger' n a :=
  ⟨h.le, hm, h.entry, h.block⟩

/-- Entries of other nodes say the same after one entry has changed. -/
lemma view_set_of_ne {i : Nat} {x : ValueInfo} {m : NodeId} {d : Node} {o : Slot} (hg : g.Formed)
    (hd : g.nodes[n]? = some d) (ho : d.slot = some o) (hi : o.local? = some i) (hm : m ≠ n) :
    view g (ledger.setIfInBounds i x) m = view g ledger m := by
  unfold view
  rcases he : g.nodes[m]? with _ | e
  · rfl
  rcases hs : e.slot with _ | p
  · simp [hs]
  rcases hp : p.local? with _ | j
  · simp [hs, hp]
  have hij : i ≠ j := by
    rintro rfl
    rw [hg.eq_ofLocal hd ho hi, ← hg.eq_ofLocal he hs hp] at ho
    exact hm (hg.slot_inj he hd hs ho)
  simp [hs, hp, hij]

lemma view_set_self {i : Nat} {x y : ValueInfo} {d : Node} {o : Slot}
    (hd : g.nodes[n]? = some d) (ho : d.slot = some o) (hi : o.local? = some i)
    (hx : ledger[i]? = some x) :
    view g (ledger.setIfInBounds i y) n =
      if y.node = some n then some (y.whereabouts o) else none := by
  have hlt := (Array.getElem?_eq_some_iff.mp hx).1
  simp [view, hd, ho, hi, hlt]

/-- One entry and the replayed state of its node change together. -/
lemma mirrors_set {R R' : Replay.State} {i : Nat} {x y : ValueInfo} {d : Node} {o : Slot}
    (hg : g.Formed) (h : Mirrors g R ledger) (hd : g.nodes[n]? = some d) (ho : d.slot = some o)
    (hi : o.local? = some i) (hx : ledger[i]? = some x)
    (hR : ∀ m, m ≠ n → R'.node? m = R.node? m)
    (hn : d.op.isConstant = false →
      R'.node? n = if y.node = some n then some (y.whereabouts o) else none) :
    Mirrors g R' (ledger.setIfInBounds i y) := by
  intro m e he hc
  by_cases hm : m = n
  · subst hm
    rw [he] at hd
    cases hd
    rw [hn hc, view_set_self he ho hi hx]
  · rw [hR m hm, h m e he hc, view_set_of_ne hg hd ho hi hm]

lemma Mirrors.node? {R : Replay.State} {i : Nat} {x : ValueInfo} {d : Node} {o : Slot}
    (h : Mirrors g R ledger) (hd : g.nodes[n]? = some d) (hc : d.op.isConstant = false)
    (ho : d.slot = some o) (hi : o.local? = some i) (hx : ledger[i]? = some x)
    (hn : x.node = some n) : R.node? n = some (x.whereabouts o) := by
  rw [h n d hd hc]
  simp [view, hd, ho, hi, hx, hn]

end Log

end Lowering
end Speculation
