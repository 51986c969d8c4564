import Speculation.Compile
import Speculation.Proofs.Graph.Finish
import Speculation.Proofs.Lowering.Whole

/-!
The ledger, the register banks and the event stream in a compile.

Whatever graph was built and finished, after every node the ledger and the banks agree, and the
events that an exit counts tell where the ledger had each value when the exit was made.
-/

namespace Speculation
namespace Lowering

/-- No register is locked, a bound register belongs to the one value that the ledger has in it, and
a value that the ledger has in a register is alive and owns it. -/
structure Settled (s : State) : Prop where
  unlocked (l : Location) : s.locks l = 0
  bound {l : Location} {o : Slot} (h : s.owner l = some o) :
    ∃ i x, o = .ofLocal i ∧ s.ledger[i]? = some x ∧ x.location = l ∧
      ∀ j y, s.ledger[j]? = some y → y.location = l → j = i
  resident {i : Nat} {x : ValueInfo} (h : s.ledger[i]? = some x) (hl : x.location ≠ .none) :
    x.isAlive = true ∧ s.owner x.location = some (.ofLocal i)

lemma Between.settled {g : Graph} {b : BlockId} {before : List NodeId} {s : State}
    (h : Between g b before s) : Settled s := by
  have hres : ∀ {i : Nat} {x : ValueInfo}, s.ledger[i]? = some x → x.location ≠ .none →
      x.isAlive = true ∧ s.owner x.location = some (.ofLocal i) := by
    intro i x hx hl
    obtain ⟨ha, -, ho | ⟨_, hp, -⟩⟩ := h.agrees.resident hx hl
    · exact ⟨ha, ho⟩
    · cases hp
  refine ⟨h.unlocked, fun {l o} ho => ?_, hres⟩
  obtain ⟨i, x, hoi, -, hx, hl⟩ := h.agrees.bound ho
  have hne : l ≠ .none := by
    rintro rfl
    rw [h.agrees.nowhere] at ho
    cases ho
  refine ⟨i, x, hoi, hx, hl, fun j y hy hyl => ?_⟩
  -- both entries own the register, so their slots are the same
  obtain ⟨hxa, hxo⟩ := hres hx (by rw [hl]; exact hne)
  obtain ⟨hya, hyo⟩ := hres hy (by rw [hyl]; exact hne)
  rw [hl] at hxo
  rw [hyl, hxo] at hyo
  exact h.agrees.index_inj hy hx hya hxa (Option.some.inj hyo).symm

end Lowering

def Draft.sum : Draft :=
  let d : Draft := { name := "sum", kind := .function }
  let d := ((d.addArgument .int32 .value).2.addArgument .int32 .value).2.addBlock.select 0
  let d := (d.addNode (.getLocal 0) [] .int32).2
  let d := (d.addNode (.getLocal 1) [] .int32).2
  let d := (d.addNode .arithAdd [0, 1] .int32).2
  (d.addNode .ret [2] .int32).2

lemma Draft.built_sum : Draft.sum.Built := by
  refine Built.addNode (Built.addNode (Built.addNode (Built.addNode ?_ ?_ _ _ _ _) ?_ _ _ _ _)
    ?_ _ _ _ _) ?_ _ _ _ _
  · exact (((Built.new _ _).addArgument _ _).addArgument _ _).addBlock.select _
  all_goals decide

namespace Plan

open Lowering

variable {d : Draft} {p : Plan}

/-- Compile a draft that can be finished. -/
def ofDraft (d : Draft) : Plan where
  graph := d.finish.toOption.getD default
  blockId := 0
  block := default
  context := 0

lemma finish_ofDraft (h : d.finish.isOk = true) : d.finish = .ok (ofDraft d).graph := by
  rcases hf : d.finish with f | g
  · rw [hf] at h
    cases h
  · simp [ofDraft, hf, Except.toOption]

lemma blank_start (hd : d.Built) (hg : d.finish = .ok p.graph) : Blank p.graph p.start where
  formed := hd.formed hg
  gprs := rfl
  fprs := rfl
  guards := rfl
  sighted := ⟨rfl, nofun, nofun, nofun, nofun⟩
  events := rfl
  dead {i x} hx := by
    simp only [start, Array.getElem?_replicate] at hx
    split at hx
    · cases hx
      rfl
    · cases hx
  stream := rfl
  ledger := rfl

/-- Lowering comes by every node of every reachable block. After the node, no register is locked and
ledger and banks agree, so that checking them succeeds; and no lowering fails for want of agreement. -/
theorem lower_settled (hd : d.Built) (hg : d.finish = .ok p.graph) :
    (∀ frame b blk k, p.graph.blocks[b]? = some blk → blk.reachable = true →
      outcome (lowerGraph p.block.numParameters) (p.env frame) p.start =
        outcome (lowerUpTo b k >>= lowerFrom p.block.numParameters b k) (p.env frame) p.start ∧
      ∀ labels s, outcome (lowerUpTo b k) (p.env frame) p.start = (.ok labels, s) →
        Settled s ∧ outcome checkState (p.env frame) s = (.ok (), s)) ∧
    ∀ n f, p.lower ≠ .error (.compile (.internal (.inconsistent n f))) := by
  have hblank := blank_start hd hg
  refine ⟨fun frame b blk k hb hr => ⟨outcome_lowerGraph hb hr, fun labels s hs => ?_⟩,
    fun n f hf => ?_⟩
  · obtain ⟨before, h⟩ := (leads_lowerUpTo (T := fun _ => False) hblank hb hr).result hs
    refine ⟨h.settled, ?_⟩
    have hcheck : Leads (p.env frame) s checkState (fun _ s' => s' = s) (fun _ => False)
        fun _ _ => False := leads_checkState h.agrees h.gprs h.fprs h.unlocked
    unfold Leads at hcheck
    split at hcheck
    · rename_i u s' hs'
      rw [hs', hcheck]
    · cases hcheck
    · cases hcheck
  · unfold lower at hf
    split at hf
    · cases hf
    · rename_i frame _
      have h : Leads (p.env frame) p.start (lowerGraph p.block.numParameters) _ _ _ :=
        leads_lowerGraph (T := fun _ => False) hblank
      split at hf
      · cases hf
      · rename_i e _ he
        cases hf
        exact (h.failure he).1 n f rfl
      · cases hf

theorem lower_settled_sum :
    ∃ labels s, outcome (lowerUpTo 0 3) ((ofDraft .sum).env ⟨2, 30⟩) (ofDraft .sum).start =
      (.ok labels, s) ∧ Settled s := by
  have hb : (ofDraft .sum).graph.blocks[0]?.map Block.reachable = some true := by decide +kernel
  obtain ⟨blk, hb, hr⟩ := Option.map_eq_some_iff.mp hb
  have h := (lower_settled Draft.built_sum (finish_ofDraft (by decide +kernel))).1 ⟨2, 30⟩ 0 blk 3
    hb hr
  have hok : (outcome (lowerUpTo 0 3) ((ofDraft .sum).env ⟨2, 30⟩)
      (ofDraft .sum).start).1.isOk = true := by decide +kernel
  rcases hs : outcome (lowerUpTo 0 3) ((ofDraft .sum).env ⟨2, 30⟩) (ofDraft .sum).start with
    ⟨e | labels, s⟩
  · rw [hs] at hok
    cases hok
  · exact ⟨labels, s, rfl, (h.2 labels s hs).1⟩

/-- The events that an exit counts tell exactly what the ledger said of every value where the guard
was emitted or its slow path registered. The last reset among them is that of the block of the
exit's node: as many resets come before the exit as were made by the time the block was entered. The
checks of arguments come after the reset of the entry only. -/
theorem exits_mirror_ledger (hd : d.Built) (hg : d.finish = .ok p.graph) (frame : FrameLayout) :
    let s := (outcome (lowerGraph p.block.numParameters) (p.env frame) p.start).2
    (s.views.size = s.exits.size ∧
      ∀ (i : Nat) (x : Exit) (ledger : Array ValueInfo),
        s.exits[i]? = some x → s.views[i]? = some ledger →
        x.streamIndex ≤ s.events.size ∧
        (∀ n e, p.graph.nodes[n]? = some e → e.op.isConstant = false →
          ((Replay.fromLastReset s.events.toList x.streamIndex).foldl Replay.step {}).node? n =
            view p.graph ledger n) ∧
        if x.kind = .argumentTypeCheck then
          (s.events.toList.take x.streamIndex).count .reset = 1
        else ∃ b blk, p.graph.blocks[b]? = some blk ∧ blk.reachable = true ∧
          x.node ∈ blk.nodes ∧
          (s.events.toList.take x.streamIndex).count .reset = resetsUpTo p.graph b) ∧
    ∀ b blk k labels s', p.graph.blocks[b]? = some blk → blk.reachable = true →
      outcome (lowerUpTo b k) (p.env frame) p.start = (.ok labels, s') →
      s'.events.toList.count .reset = resetsUpTo p.graph b := by
  have hblank := blank_start hd hg
  have hlower : Leads (p.env frame) p.start (lowerGraph p.block.numParameters) _ _ _ :=
    leads_lowerGraph (T := Sighted p.graph) hblank
  have hs := (hlower.mono (fun _ _ => id) (fun _ => id) fun _ _ h => h.2).always
  refine ⟨⟨hs.size, fun i x ledger hx hl => ?_⟩, fun b blk k labels s' hb hr hs' => ?_⟩
  · have hseen := hs.exits hx hl
    refine ⟨hseen.le, fun n e hn hc => ?_, ?_⟩
    · rw [Replay.foldl_fromLastReset]
      exact hseen.mirrors n e hn hc
    · split
      · rename_i hkind
        exact hseen.entry (by simp [atEntry, hkind])
      · rename_i hkind
        exact hseen.block (by simp [atEntry, hkind])
  · obtain ⟨before, h⟩ := (leads_lowerUpTo (T := fun _ => False) hblank hb hr).result hs'
    exact h.resets

theorem exits_mirror_ledger_sum :
    let s := (outcome (lowerGraph 0) ((ofDraft .sum).env ⟨2, 30⟩) (ofDraft .sum).start).2
    ∃ x ledger, s.exits[2]? = some x ∧ s.views[2]? = some ledger ∧ x.kind = .overflow ∧
      ∀ n e, (ofDraft .sum).graph.nodes[n]? = some e → e.op.isConstant = false →
        ((Replay.fromLastReset s.events.toList x.streamIndex).foldl Replay.step {}).node? n =
          view (ofDraft .sum).graph ledger n := by
  intro s
  have h := (exits_mirror_ledger Draft.built_sum (finish_ofDraft (by decide +kernel)) ⟨2, 30⟩).1
  have hkind : s.exits[2]?.map Exit.kind = some .overflow := by decide +kernel
  have hview : s.views[2]?.isSome = true := by decide +kernel
  obtain ⟨x, hx, hk⟩ := Option.map_eq_some_iff.mp hkind
  obtain ⟨ledger, hl⟩ := Option.isSome_iff_exists.mp hview
  exact ⟨x, ledger, hx, hl, hk, (h.2 2 x ledger hx hl).2.1⟩

end Plan
end Speculation
