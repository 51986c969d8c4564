import Speculation.Proofs.Running.Calls
import Speculation.Proofs.Running.Visits
import Speculation.Proofs.Switch.Tables

/-!
Switches in compiled code.

A switch over integers goes through its table, or asks a helper for the target. Either way the machine
comes to the block of the last case whose key equals the value as a number. The code that goes through
the table leaves if the value is no integer; it takes the difference from the least key modulo the
range of 32-bit integers, and compares it without regard to a sign.
-/

namespace Speculation

open Lowering

/-! ### The difference from the least key -/

section Difference

variable {a b : UInt64} {d : Option Ordering}

/-- A difference is taken modulo the range of 32-bit integers. -/
lemma Size.toNat_run_sub : ((Size.s32.run .sub a b).1.toNat : Int) =
    ((low a).toInt - (low b).toInt) % 4294967296 := by
  have hword : (Size.s32.run .sub a b).1.toNat = ((low a).toBitVec - (low b).toBitVec).toNat := by
    rw [Size.run_s32, UInt32.toNat_toUInt64]
    rfl
  rw [hword, ← (low a).toInt_toBitVec, ← (low b).toInt_toBitVec, BitVec.toInt_eq_toNat_bmod,
    BitVec.toInt_eq_toNat_bmod, BitVec.toNat_sub]
  have := (low a).toBitVec.isLt
  have := (low b).toBitVec.isLt
  simp only [Int.bmod_def]
  omega

/-- Unlike the signed conditions, this one compares the low halves as natural numbers. -/
lemma Cond.holds_ae_sub : Cond.ae.holds (Size.s32.run .sub a b).2 d =
    decide (b.toUInt32.toNat ≤ a.toUInt32.toNat) := by
  rw [Bool.eq_iff_iff]
  simp [Cond.holds, Size.run_s32, AluOp.run, AluOp.apply, BitVec.usubOverflow, low]

lemma toNat_length {n : Nat} (h : n < 2147483648) :
    ((Int32.ofNat n).toInt64.toUInt64).toUInt32.toNat = n := by
  have hlow := low_immediate (Int32.ofNat n)
  have hword : ((Int32.ofNat n).toInt64.toUInt64).toUInt32 = (Int32.ofNat n).toUInt32 :=
    congrArg Int32.toUInt32 hlow
  rw [hword]
  show (Int32.ofNat n).toBitVec.toNat = n
  rw [Int32.toBitVec_ofNat', BitVec.toNat_ofNat]
  omega

end Difference

/-! ### Jumps to addresses -/

lemma World.runs_codeBlock {w : World} {block : Nat} {b : CodeBlock}
    (h : w.blocks[block]? = some b) : runs (codeBlock block) w = (.ok b, w) := by
  rw [codeBlock, runs_bind_of_ok runs_get, h]
  rfl

namespace Site

open World Execution

variable {c : Site} {m : Machine} {o : Nat} {pc : UInt64}

/-- Code is left at none of the addresses in it. -/
def Clear (c : Site) : Prop := ∀ t : Thunk, c.artifact.contains t.address = false

lemma Clear.at?_eq_none (h : c.Clear) {x : UInt64} (hx : c.artifact.contains x = true) :
    Thunk.at? x = none := by
  refine List.find?_eq_none.mpr fun t _ ht => ?_
  have ht : t.address = x := by simpa using ht
  rw [← ht, h t] at hx
  cases hx

/-- A jump to an address in the code leads to its offset. -/
lemma runs_jump (hc : c.Loaded) (hclear : c.Clear)
    (ho : c.artifact.contains (c.artifact.addressOf o) = true) :
    runs (jump { c.thread m with pc } (c.artifact.addressOf o)) (c.around m) =
      (.ok (.running (c.thread { m with place := o })), c.around { m with place := o }) := by
  have hart : runs (World.artifact c.code) (c.around m) = (.ok c.artifact, c.around m) :=
    runs_artifact hc.artifact
  have hresolve : runs (resolve c.code (c.artifact.addressOf o)) (c.around m) =
      (.ok c.code, c.around m) := by
    rw [resolve, runs_bind_of_ok hart, ho]
    rfl
  rw [jump, hclear.at?_eq_none ho]
  exact (runs_bind_of_ok hresolve).trans rfl

lemma goes_jmpReg {q : Gpr} (hc : c.Loaded) (hclear : c.Clear) (h : c.Next m (.jmpReg q))
    (hx : m.registers.gpr q = c.artifact.addressOf o)
    (ho : c.artifact.contains (c.artifact.addressOf o) = true) :
    c.Goes 1 m { m with place := o } := by
  refine goes_of_execute hc h ?_
  show runs (jump (c.past m (.jmpReg q)) (m.registers.gpr q)) (c.around m) = _
  rw [hx]
  exact runs_jump hc hclear ho

/-- A jump through a table leads to what its entry says. -/
lemma goes_jmpTable {q : Gpr} {table : UInt16} {b : CodeBlock} {t : DenseTable} (hc : c.Loaded)
    (hclear : c.Clear) (h : c.Next m (.jmpTable table q))
    (hb : c.world.blocks[c.artifact.block]? = some b) (ht : b.dense[table.toNat]? = some t)
    (hx : t.targets[(m.registers.gpr q).toNat]? = some (c.artifact.addressOf o))
    (ho : c.artifact.contains (c.artifact.addressOf o) = true) :
    c.Goes 1 m { m with place := o } := by
  refine goes_of_execute hc h ?_
  have hart : runs (World.artifact c.code) (c.around m) = (.ok c.artifact, c.around m) :=
    runs_artifact hc.artifact
  have hblock : runs (codeBlock c.artifact.block) (c.around m) = (.ok b, c.around m) :=
    runs_codeBlock hb
  have htarget : runs (tableTarget c.code table (m.registers.gpr q)) (c.around m) =
      (.ok (c.artifact.addressOf o), c.around m) := by
    rw [tableTarget, runs_bind_of_ok hart, runs_bind_of_ok hblock, ht, Option.bind_some, hx]
    rfl
  exact (runs_bind_of_ok htarget).trans (runs_jump hc hclear ho)

end Site

namespace Course

variable {k : Course} {ls : List Label} {s s' : State} {r r' : Registers} {mem mem' : Memory}
  {t : Moment} {q : Gpr} {l : Label} {e : Edge} {data : SwitchData} {b : CodeBlock}
  {dense u : DenseTable} {Q T : State → Moment → Prop}

def Opens (k : Course) (l : Label) (x : UInt64) : Prop :=
  ∃ o, k.final.asm.labels[l]? = some (some o) ∧ x = k.site.artifact.addressOf o ∧
    k.site.artifact.contains x = true

/-- The machine leaves the code so far for a place that it has computed. -/
lemma reaches_computed {i : Inst} (hk : k.Sound) (hm : ∃ ps, s.asm.Made ps)
    (hx : ∃ o, k.final.asm.labels[l]? = some (some o) ∧ ∀ place, k.site.Next ⟨r, mem, place⟩ i →
      k.site.Goes 1 ⟨r, mem, place⟩ ⟨r, mem, o⟩) :
    k.Reaches s ⟨.next, r, mem⟩ { s with asm := s.asm.emit i } ⟨.label l, r, mem⟩ := by
  rintro hext place rfl
  obtain ⟨ps, hm⟩ := hm
  obtain ⟨o, hl, hgo⟩ := hx
  have hstands := hext.stands (hm.stands (s.asm.adds_emit i) (by simp [Piece.Fits]))
  exact ⟨1, o, hgo _ (hk.next hstands r mem), hl⟩

namespace Wp

variable {Q : Unit → State → Moment → Prop} {T : State → Moment → Prop} (hk : k.Sound)
  (hclear : k.site.Clear)
include hk hclear

/-- A jump to an address leads to its label. -/
lemma jmpReg (hx : k.Opens l (r.gpr q))
    (hQ : ∀ s', k.Follows s s' → Q () s' ⟨.label l, r, mem⟩) :
    k.Wp ls s (Lowering.emit' (.jmpReg q)) ⟨.next, r, mem⟩ Q T := by
  obtain ⟨o, hl, hx, ho⟩ := hx
  refine .discard (.of_calm (Calm.emit _) (Extending.emit (i := .jmpReg q) rfl) fun hm _ =>
    ⟨_, reaches_computed hk hm
    ⟨o, hl, fun place hnext => ?_⟩, hQ _⟩)
  exact k.site.goes_jmpReg hk.loaded hclear hnext hx (hx ▸ ho)

/-- A jump through a table leads to the label of its entry. -/
lemma jmpTable {table : UInt16} {x : UInt64}
    (hb : k.site.world.blocks[k.site.artifact.block]? = some b)
    (ht : b.dense[table.toNat]? = some dense) (hx : dense.targets[(r.gpr q).toNat]? = some x)
    (hl : k.Opens l x) (hQ : ∀ s', k.Follows s s' → Q () s' ⟨.label l, r, mem⟩) :
    k.Wp ls s (Lowering.emit' (.jmpTable table q)) ⟨.next, r, mem⟩ Q T := by
  obtain ⟨o, hl, rfl, ho⟩ := hl
  refine .discard (.of_calm (Calm.emit _) (Extending.emit (i := .jmpTable table q) rfl) fun hm _ =>
    ⟨_, reaches_computed hk hm
    ⟨o, hl, fun place hnext => ?_⟩, hQ _⟩)
  exact k.site.goes_jmpTable hk.loaded hclear hnext hb ht hx ho

end Wp

/-! ### The lowering -/

/-- What a switch needs of what is not its own code: its table is linked, and an address in the table
is that of a block. -/
structure Serves (k : Course) (addr : BlockId → Except Failure UInt64) (data : SwitchData)
    (b : CodeBlock) (dense : DenseTable) : Prop where
  clear : k.site.Clear
  block : k.site.world.blocks[k.site.artifact.block]? = some b
  table : b.dense[data.table]? = some dense
  linked : data.Linked addr dense
  range : ∃ u, k.env.dense[data.table]? = some u ∧ dense.min = u.min ∧ dense.length = u.length
  opens {blk : BlockId} {x : UInt64} (h : addr blk = .ok x) :
    ∃ l, k.env.blockLabels[blk]? = some l ∧ k.Opens l x
  small : data.table < UInt64.size

/-- The machine is on its way to where a switch over integers goes with its operand; only code for
integers leaves, and only with another value. -/
def Dispatches (k : Course) (data : SwitchData) (e : Edge) (t : Moment) : Prop :=
  if isInt e = true ∧ (k.val e.node).isInt32 = false then t.spot = .exit .badType
  else ∃ l, k.env.blockLabels[data.destination (k.val e.node)]? = some l ∧ t.spot = .label l

namespace Wp

lemma blockLabel {α : Type} {f : Label → Lower α} {Q : α → State → Moment → Prop}
    {T : State → Moment → Prop} {blk : BlockId} (hl : k.env.blockLabels[blk]? = some l)
    (hf : k.Wp (l :: ls) s (f l) t Q T) : k.Wp ls s (Lowering.blockLabel blk >>= f) t Q T := by
  refine .know (fun ha => ha.rooted.block hl) (.look (P := (· = l)) (F := fun _ _ => False)
    (fun _ => ?_) ?_)
  · have hget : Breach.get k.env.blockLabels blk = .ok l := by simp [Breach.get, hl]
    rw [Lowering.blockLabel, leads_bind, leads_read, hget]
    exact ⟨rfl, rfl⟩
  · rintro _ rfl
    exact hf

end Wp

lemma Ends.of_wp {x : Lower Unit} (h : k.Wp ls s x t (fun _ => Q) T) : k.Ends ls s x t Q T :=
  fun hs ha hl => (h hs ha hl).weaken fun _ _ ⟨_, hp, hr⟩ => ⟨hp, hr⟩

lemma Wp.listSwitch (hgraph : k.env.graph.op? k.cur = some (.switch data)) :
    k.Wp [] s (modify fun s => { s with switches := s.switches.push s.current })
      ⟨.next, r, mem⟩ (fun _ s' t' => t' = ⟨.next, r, mem⟩ ∧ s'.ledger = s.ledger ∧
        s'.facts = s.facts) T := fun hs _ _ =>
  ⟨hs.adjust ⟨rfl, rfl, rfl, rfl, rfl, rfl, rfl⟩ rfl hs.gprs hs.fprs hs.guarded hs.agrees hs.now.mirrors,
    Extending.proceeds_listed (hs.current.symm ▸ hgraph), _, .of_offset rfl, rfl, rfl, rfl⟩

section Switch

variable {addr : BlockId → Except Failure UInt64} (hk : k.Sound) (hx : k.Serves addr data b dense)
include hk hx

/-- A helper is asked where to go. -/
lemma Wp.switchImm {T : State → Moment → Prop} (h : Stands k.val s.ledger r mem)
    (hconst : ∀ v, k.env.graph.valueConstant e.node = .ok (some v) → k.val e.node = v) :
    k.Wp ls s (do
      let j ← Lowering.fillValue e
      Lowering.callHelper .switchImm [.imm (UInt64.ofNat data.table), .gpr j.reg]
      Lowering.emit' (.jmpReg .result)) ⟨.next, r, mem⟩
      (fun _ _ t => ∃ l, k.env.blockLabels[data.destination (k.val e.node)]? = some l ∧
        t.spot = .label l) T := by
  obtain ⟨x, haddr, hswitch⟩ := hx.linked.switchInteger hx.table (v := k.val e.node)
  obtain ⟨l, hl, hopens⟩ := hx.opens haddr
  have htable : (UInt64.ofNat data.table).toNat = data.table := UInt64.toNat_ofNat_of_lt' hx.small
  refine .bind (.fillValue hk h hconst fun op s₁ r₁ mem₁ hb hbits => ?_)
  refine .bind (.callHelper hk rfl rfl hb.stands rfl fun r₂ mem₂ hpassed _ => ?_)
  obtain ⟨hfirst, hsecond, -⟩ : r₂.gpr .first = UInt64.ofNat data.table ∧
    r₂.gpr .second = r₁.gpr op.reg ∧ True := hpassed.passes
  refine ⟨r₂.setGpr .result x, mem₂, fun o => ?_, fun s₃ _ _ => ?_⟩
  · have hart : World.runs (World.artifact k.site.code) (k.site.around ⟨r₂, mem₂, o⟩) =
        (.ok k.site.artifact, k.site.around ⟨r₂, mem₂, o⟩) :=
      World.runs_artifact hk.loaded.artifact
    have hserve : World.runs (Execution.serve .switchImm r₂ k.site.code)
        (k.site.around ⟨r₂, mem₂, o⟩) = (.ok x, k.site.around ⟨r₂, mem₂, o⟩) := by
      refine (World.runs_bind_of_ok ((World.runs_bind_of_ok hart).trans
        (World.runs_codeBlock (w := k.site.around ⟨r₂, mem₂, o⟩) hx.block))).trans ?_
      have hvalue : (⟨r₂.gpr .second⟩ : Value) = k.val e.node := by rw [hsecond, hbits]
      dsimp only
      rw [hfirst, htable, hvalue, hswitch]
      rfl
    exact World.runs_bind_of_ok hserve
  · refine .jmpReg hk hx.clear (l := l) ?_ fun s₄ _ => ⟨l, hl, rfl⟩
    rw [Registers.gpr_setGpr, if_pos rfl]
    exact hopens

/-- With the difference from the least key in the scratch register, the code goes through the table
if the difference is an index of it. -/
lemma Wp.jumpThrough {T : State → Moment → Prop} {i : Int32} (hv : k.val e.node = .ofInt32 i)
    (hw : ((r.gpr .scratch).toNat : Int) = (i.toInt - dense.min.toInt) % 4294967296)
    (hlen : dense.length < 2147483648) (htable : data.table < UInt16.size) :
    k.Wp ls s (do
      Lowering.cmp32 .scratch (.imm (Int32.ofNat dense.length))
      Lowering.jcc .ae (← Lowering.blockLabel data.fallthrough)
      Lowering.emit' (.jmpTable (UInt16.ofNat data.table) .scratch)) ⟨.next, r, mem⟩
      (fun _ _ t => ∃ l, k.env.blockLabels[data.destination (k.val e.node)]? = some l ∧
        t.spot = .label l) T := by
  have hkey : Semantics.switchKey? (k.val e.node) = some i := by
    rw [Semantics.switchKey?, hv, Value.int32?_ofInt32]
  have hholds : Cond.ae.holds (Size.s32.run .sub (r.gpr .scratch)
      (r.operand (.imm (Int32.ofNat dense.length)))).2 r.order =
      decide (dense.length ≤ (r.gpr .scratch).toNat) := by
    have hhalf : (r.gpr .scratch).toUInt32.toNat = (r.gpr .scratch).toNat := by
      rw [UInt64.toNat_toUInt32]
      exact Nat.mod_eq_of_lt (by omega)
    have hlength : (r.operand (.imm (Int32.ofNat dense.length))).toUInt32.toNat = dense.length :=
      toNat_length hlen
    rw [Cond.holds_ae_sub, hhalf, hlength]
  obtain ⟨l, hl, -⟩ := hx.opens hx.linked.default
  refine .bind (.emit' hk rfl Inst.steps_cmp fun s₁ _ => .blockLabel hl ?_)
  refine .bind (.jcc hk List.mem_cons_self (fun hc s₂ _ => ?_) fun hc s₂ _ => ?_)
  · -- the value is no key of the table
    have hle := of_decide_eq_true (hholds.symm.trans hc)
    refine .skip (Calm.emit' _) (.emit' rfl) (Spot.next_ne_label l).symm fun _ s₃ _ => ⟨l, ?_, rfl⟩
    rw [hx.linked.destination_wrapped hkey hw hle, hl]
  · have hlt := Nat.lt_of_not_le (of_decide_eq_false (hholds.symm.trans hc))
    obtain ⟨x, haddr, hentry⟩ := hx.linked.leads_wrapped hkey hw hlt
    obtain ⟨l', hl', hopens⟩ := hx.opens haddr
    have hdense : b.dense[(UInt16.ofNat data.table).toNat]? = some dense := by
      rw [UInt16.toNat_ofNat_of_lt' htable]
      exact hx.table
    exact .jmpTable hk hx.clear hx.block hdense hentry hopens fun s₃ _ => ⟨l', hl', rfl⟩

/-- An integer is looked up in the table. -/
lemma Wp.switchTable {T : State → Moment → Prop} {i : Int32}
    (hv : k.val e.node = .ofInt32 i) (hlow : low (r.gpr q) = i) (hu : k.env.dense[data.table]? = some u)
    (hlen : u.length < 2147483648) (htable : data.table < UInt16.size) :
    k.Wp ls s (do
      Lowering.mov .scratch q
      Lowering.alu32 .sub .scratch (.imm u.min)
      Lowering.cmp32 .scratch (.imm (Int32.ofNat u.length))
      Lowering.jcc .ae (← Lowering.blockLabel data.fallthrough)
      Lowering.emit' (.jmpTable (UInt16.ofNat data.table) .scratch)) ⟨.next, r, mem⟩
      (fun _ _ t => ∃ l, k.env.blockLabels[data.destination (k.val e.node)]? = some l ∧
        t.spot = .label l) T := by
  obtain ⟨u', hu', hmin, hlength⟩ := hx.range
  obtain rfl := Option.some.inj (hu.symm.trans hu')
  have hself : (r.setGpr .scratch (r.gpr q)).gpr .scratch = r.gpr q := by
    rw [Registers.gpr_setGpr, if_pos rfl]
  refine .bind (.mov hk fun s₁ h₁ => .bind (.emit' hk rfl Inst.steps_alu fun s₂ h₂ => ?_))
  rw [← hlength]
  have hdiff := Size.toNat_run_sub (a := r.gpr q) (b := u.min.toInt64.toUInt64)
  rw [hlow, low_immediate, ← hmin] at hdiff
  refine .jumpThrough hk hx hv ?_ (hlength ▸ hlen) htable
  rw [Registers.gpr_setGpr, if_pos rfl, hself, ← hmin]
  exact hdiff

/-- A switch over integers leads to where it should. -/
lemma Ends.lowerSwitch {d : Node} (hd : k.env.graph.nodes[k.cur]? = some d)
    (hop : d.op = .switch data) (he : d.children[0]? = some e) (hkind : data.kind = .imm)
    (h : Stands k.val s.ledger r mem) (hhonest : k.Honest s.facts e)
    (hadmits : (k.val e.node).isInt32 = true → (s.facts.known e.node).intersects .int32 = true) :
    k.Ends [] s (lowerSwitch data) ⟨.next, r, mem⟩ (fun _ => k.Dispatches data e)
      fun _ => k.Dispatches data e := by
  have hgraph : k.env.graph.op? k.cur = some (.switch data) := by
    rw [Graph.op?, hd, Option.map_some, hop]
  refine .bind ((Wp.listSwitch hgraph).weaken ?_)
  rintro _ s₁ _ ⟨rfl, hledger, hfacts⟩
  rw [← hledger] at h
  rw [← hfacts] at hhonest hadmits
  refine .child fun d' e' hd' he' => ?_
  obtain rfl := Option.some.inj (hd.symm.trans hd')
  obtain rfl := Option.some.inj (he.symm.trans he')
  simp only [hkind]
  refine .ite (fun hint => ?_) fun hint => ?_
  · refine .look (P := (· = k.env)) (F := fun _ _ => False) (fun _ => ⟨rfl, rfl⟩) ?_
    rintro _ rfl
    split
    · exact fun _ _ _ => trivial
    rename_i u hu
    refine .ite (fun _ => fun _ _ _ => trivial) fun hlen => ?_
    refine .ite (fun _ => fun _ _ _ => trivial) fun htable => ?_
    have hbad : (k.val e.node).isInt32 = false → ∀ t : Moment, t.spot = .exit .badType →
        k.Dispatches data e t := fun hn t ht => by
      rw [Dispatches, if_pos ⟨hint, hn⟩]
      exact ht
    refine .of_wp (.bind (.fillInt hk h hhonest (fun i op s₂ r₂ mem₂ hv hb => ?_)
      (fun hn op s₂ r₂ mem₂ _ _ => ?_) fun hn s₂ r₂ mem₂ _ => ?_))
    · refine (Wp.switchTable hk hx hv hb.low hu (Nat.lt_of_not_le hlen)
        (Nat.lt_of_not_le htable)).weaken fun _ s₃ t₃ hl => ?_
      rw [Dispatches, if_neg fun hn => by simp [hv, Value.isInt32_ofInt32] at hn]
      exact hl
    · refine .skip ?_ ?_ Spot.noConfusion fun _ s₃ _ => hbad hn _ rfl
      · repeat' with_reducible refine Calm.bind ?_ fun _ => ?_
        all_goals simp
      · with_reducible repeat' first
          | refine Extending.bindBlockLabel fun _ => ?_ | refine Extending.bind ?_ fun _ => ?_
        all_goals simp
    · refine hbad ?_ _ rfl
      rcases hi : (k.val e.node).isInt32
      · rfl
      · exact hi ▸ hn (hadmits hi)
  · refine .of_wp ((Wp.switchImm hk hx h fun v => hhonest.constant).weaken fun _ s₂ t₂ hl => ?_)
    rw [Dispatches, if_neg fun hn => hint hn.1]
    exact hl

end Switch

end Course
end Speculation
