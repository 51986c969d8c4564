import Speculation.Proofs.Heap.Strings
import Speculation.Proofs.Instances
import Speculation.Proofs.Switch.Compiled

/-!
Switches over strings.

A table has keys that are texts, and a value is looked up in it by the text that its units are read
as. So a surrogate without its partner is the same to a switch as the replacement character, which to
a comparison it is not.
-/

namespace Speculation

open Lowering

/-! ### Tables -/

def SwitchCase.spells (u : Option (List UInt16)) : SwitchCase → Bool
  | .imm _ => false
  | .string s => some (Utf16.encode s) == u

/-- Where the units of a string belong in a switch: to the block of the last case whose key has them.
What is no string belongs to the fallthrough block. -/
def SwitchData.destinationOf (data : SwitchData) (u : Option (List UInt16)) : BlockId :=
  lastCase (SwitchCase.spells u) data.cases data.fallthrough

structure SwitchData.Keyed (addr : BlockId → Except Failure UInt64) (data : SwitchData)
    (t : StringTable) : Prop where
  default : addr data.fallthrough = .ok t.default
  entry (key : String) : addr (data.destinationOf (some (Utf16.encode key))) =
    .ok ((t.entries.lookup key).getD t.default)

section Spelling

variable {key s : String} {data : SwitchData}

lemma SwitchCase.spells_encode : spells (some (Utf16.encode key)) (.string s) = (s == key) := by
  rw [spells, Bool.eq_iff_iff, beq_iff_eq, beq_iff_eq, Option.some.injEq]
  exact ⟨Utf16.encode_injective, fun h => h ▸ rfl⟩

lemma SwitchData.destinationOf_none : data.destinationOf none = data.fallthrough := by
  refine lastCase_of_none fun c _ => ?_
  cases c.1 <;> rfl

end Spelling

namespace Link

variable {b : CodeBlock} {g : Graph} {addr : BlockId → Except Failure UInt64} {data : SwitchData}
  {t : StringTable} {found : List (String × UInt64)} {cases : List (SwitchCase × BlockId)}
  {table : Nat} {key : String}

/-- Of the targets that are looked up, that of a key is the one of its last case. -/
lemma writes_stringTargets_found (fall : UInt64) :
    Writes b (stringTargets addr table t found cases) (fun found' b' => b' = b ∧
      (∀ key blk, addr blk = .ok ((found.lookup key).getD fall) →
        addr (lastCase (SwitchCase.spells (some (Utf16.encode key))) cases blk) =
          .ok ((found'.lookup key).getD fall)) ∧
      ∀ c ∈ cases, ∃ s, c.1 = .string s ∧ s ∈ t.entries.map Prod.fst) fun _ _ => True := by
  induction cases generalizing found with
  | nil => exact ⟨rfl, fun _ _ h => h, List.forall_mem_nil _⟩
  | cons c cases ih =>
    obtain ⟨i | s, target⟩ := c
    · trivial
    unfold stringTargets
    split
    · rename_i hkey
      obtain ⟨e, he, hes⟩ := List.any_eq_true.mp hkey
      refine writes_bind.mpr (writes_address_ok.mono ?_ fun _ _ _ => trivial)
      rintro x _ ⟨rfl, hx⟩
      refine ih.mono ?_ fun _ _ _ => trivial
      rintro found' _ ⟨rfl, hlead, hkeys⟩
      refine ⟨rfl, fun key blk h => ?_, List.forall_mem_cons.mpr
        ⟨⟨s, rfl, List.mem_map.mpr ⟨e, he, by simpa using hes⟩⟩, hkeys⟩⟩
      rw [lastCase_cons, SwitchCase.spells_encode]
      refine hlead key _ ?_
      by_cases hs : s = key
      · subst hs
        rw [beq_self_eq_true, if_pos rfl, List.lookup_cons_self]
        exact hx
      · rw [beq_eq_false_iff_ne.mpr hs, if_neg Bool.false_ne_true, List.lookup_cons,
          beq_eq_false_iff_ne.mpr (Ne.symm hs)]
        exact h
    · trivial

lemma lookup_targets (f : String → UInt64) (entries : List (String × UInt64)) :
    (entries.map fun e => (e.1, f e.1)).lookup key =
      if key ∈ entries.map Prod.fst then some (f key) else none := by
  induction entries with
  | nil => rfl
  | cons e entries ih =>
    rw [List.map_cons, List.lookup_cons, ih, List.map_cons]
    by_cases he : key = e.1
    · subst he
      simp
    · rw [beq_eq_false_iff_ne.mpr he]
      simp only [List.mem_cons, he, false_or]

lemma writes_keyed (hk : data.kind = .string) :
    Writes b (linkSwitch addr data) (fun _ b' => ∃ t, b'.strings[data.table]? = some t ∧
      data.Keyed addr t) fun _ _ => True := by
  unfold linkSwitch
  refine writes_bind.mpr (writes_address_ok.mono ?_ fun _ _ _ => trivial)
  rintro fall b ⟨rfl, hfall⟩
  simp only [hk]
  refine writes_bind.mpr (writes_get.mpr ?_)
  split
  · trivial
  rename_i t ht
  refine writes_bind.mpr ((writes_stringTargets_found fall).mono ?_ fun _ _ _ => trivial)
  rintro targets _ ⟨rfl, hlead, hkeys⟩
  have hlt := (Array.getElem?_eq_some_iff.mp ht).1
  refine writes_modify.mpr ⟨_, Array.getElem?_setIfInBounds_self_of_lt hlt, hfall, fun key => ?_⟩
  have hentry := hlead key data.fallthrough hfall
  dsimp only
  rw [lookup_targets fun key => (targets.lookup key).getD fall]
  by_cases hkey : key ∈ t.entries.map Prod.fst
  · rw [if_pos hkey]
    exact hentry
  · -- a key that is not in the table has no case
    rw [if_neg hkey, SwitchData.destinationOf, lastCase_of_none fun c hc => ?_]
    · exact hfall
    obtain ⟨s, hs, hmem⟩ := hkeys c hc
    rw [hs, SwitchCase.spells_encode, beq_eq_false_iff_ne]
    rintro rfl
    exact hkey hmem

/-- What one of the switches sets up is there in the end if no other one takes it away. -/
lemma writes_linkSwitches_of {P : CodeBlock → Prop} {n : NodeId} {ns : List NodeId}
    (hn : g.op? n = some (.switch data))
    (hset : ∀ b, Writes b (linkSwitch addr data) (fun _ b' => P b') fun _ _ => True)
    (hkeep : ∀ m ∈ ns, m ≠ n → ∀ data', g.op? m = some (.switch data') → ∀ b, P b →
      Writes b (linkSwitch addr data') (fun _ b' => P b') fun _ _ => True) :
    Writes b (linkSwitches g addr ns) (fun _ b' => n ∈ ns ∨ P b → P b') fun _ _ => True := by
  induction ns generalizing b with
  | nil => exact fun h => h.resolve_left List.not_mem_nil
  | cons m ns ih =>
    obtain ⟨hm, hkeep⟩ := List.forall_mem_cons.mp hkeep
    unfold linkSwitches
    dsimp only
    split
    · rename_i data' hd
      refine writes_bind.mpr ?_
      by_cases hmn : m = n
      · subst hmn
        rw [hn] at hd
        cases hd
        exact (hset b).mono (fun _ b₁ h₁ => (ih hkeep).mono (fun _ _ h _ => h (.inr h₁))
          fun _ _ _ => trivial) fun _ _ _ => trivial
      · have hmem : n ∈ m :: ns → n ∈ ns := fun h => (List.mem_cons.mp h).resolve_left (Ne.symm hmn)
        by_cases hP : P b
        · exact (hm hmn data' hd b hP).mono (fun _ b₁ h₁ => (ih hkeep).mono (fun _ _ h _ => h (.inr h₁))
            fun _ _ _ => trivial) fun _ _ _ => trivial
        · have hany : Writes b (linkSwitch addr data') (fun _ _ => True) fun _ _ => True := by
            unfold Writes
            split <;> trivial
          exact hany.mono (fun _ b₁ _ => (ih hkeep).mono
            (fun _ _ h hor => h (.inl (hmem (hor.resolve_right hP)))) fun _ _ _ => trivial)
            fun _ _ _ => trivial
    · trivial

/-- The table of a switch over strings is linked if no other switch goes through it. -/
lemma writes_linkTables_keyed (ha : Resolves addr) {n : NodeId} {ns : List NodeId}
    (hn : g.op? n = some (.switch data)) (hk : data.kind = .string) (hmem : n ∈ ns)
    (hother : ∀ m ∈ ns, ∀ data', g.op? m = some (.switch data') → data'.kind = .string →
      data'.table = data.table → m = n) :
    Writes b (linkTables g addr ns) (fun _ b' => ∃ t, b'.strings[data.table]? = some t ∧
      data.Keyed addr t) fun _ _ => True := by
  refine writes_bind.mpr ((writes_linkSwitches_of hn (fun b => writes_keyed hk)
    fun m hm hmn data' hm' b hP => ?_).mono (fun _ b₁ h₁ => writes_modify.mpr (h₁ (.inl hmem)))
    fun _ _ _ => trivial)
  have hne : data'.kind = .string → data'.table ≠ data.table := fun hk' ht =>
    hmn (hother m hm data' hm' hk' ht)
  refine (writes_linkSwitch ha (D := fun _ => True) (S := (· ≠ data.table)) (fun _ => trivial)
    hne).mono ?_ fun _ _ _ => trivial
  rintro - b₁ ⟨h₁, -⟩
  rwa [h₁.strings fun h => h rfl]

end Link

/-! ### Looking up -/

namespace World

variable {w : World} {h : Heap} {b : CodeBlock} {data : SwitchData} {t : StringTable} {v : Value}
  {u : Option (List UInt16)} {addr : BlockId → Except Failure UInt64}

/-- The helper finds the address of where the mended units belong. -/
lemma runs_switchText? (hm : w.memory.Shows h) (hv : h.Texts v u)
    (ht : b.strings[data.table]? = some t) (hk : data.Keyed addr t) :
    ∃ x, addr (data.destinationOf (u.map Utf16.mend)) = .ok x ∧
      runs (Execution.switchText? b data.table v) w = (.ok (some x), w) := by
  have hstring := runs_isString hm hv
  cases u with
  | some us =>
    have hentry := hk.entry (Utf16.decode us)
    have hunits : runs (stringUnits v) w = (.ok us, w) := by
      cases hv with | text hv => exact runs_stringUnits_of_text hm hv
    rw [Utf16.encode_decode] at hentry
    have htarget : b.stringTarget? data.table (Utf16.decode us) =
        some ((t.entries.lookup (Utf16.decode us)).getD t.default) := by
      rw [CodeBlock.stringTarget?, ht, Option.map_some]
    refine ⟨_, hentry, ?_⟩
    rw [Execution.switchText?, runs_bind_of_ok hstring, Option.isSome_some, if_pos rfl, stringValue,
      bind_assoc, runs_bind_of_ok hunits, ← htarget]
    rfl
  | none =>
    refine ⟨t.default, ?_, ?_⟩
    · rw [Option.map_none, SwitchData.destinationOf_none]
      exact hk.default
    · rw [Execution.switchText?, runs_bind_of_ok hstring, ht]
      rfl

end World

/-! ### The lowering -/

namespace Course

variable {k : Course} {s : State} {r : Registers} {mem : Memory} {e : Edge} {data : SwitchData}
  {b : CodeBlock} {t : StringTable} {h : Heap} {u : Option (List UInt16)}
  {addr : BlockId → Except Failure UInt64}

/-- What a switch over strings needs of what is not its own code. -/
structure Answers (k : Course) (addr : BlockId → Except Failure UInt64) (data : SwitchData)
    (b : CodeBlock) (t : StringTable) : Prop where
  clear : k.site.Clear
  block : k.site.world.blocks[k.site.artifact.block]? = some b
  table : b.strings[data.table]? = some t
  keyed : data.Keyed addr t
  opens {blk : BlockId} {x : UInt64} (h : addr blk = .ok x) :
    ∃ l, k.env.blockLabels[blk]? = some l ∧ k.Opens l x
  small : data.table < UInt64.size

def Turns (k : Course) (data : SwitchData) (u : Option (List UInt16)) (t : Moment) : Prop :=
  ∃ l, k.env.blockLabels[data.destinationOf u]? = some l ∧ t.spot = .label l

variable (hk : k.Sound) (hx : k.Answers addr data b t)
include hk hx

/-- A helper is asked where to go. It finds the heap as it was, since nothing but slots of values has
been written. -/
lemma Wp.switchString {T : State → Moment → Prop} (hs : Stands k.val s.ledger r mem)
    (hconst : ∀ v, k.env.graph.valueConstant e.node = .ok (some v) → k.val e.node = v)
    (hshows : ∀ mem', Confined k.env.graph r mem mem' → mem'.Shows h)
    (hv : h.Texts (k.val e.node) u) :
    k.Wp [] s (do
      let j ← Lowering.fillValue e
      Lowering.callHelper .switchString [.imm (UInt64.ofNat data.table), .gpr j.reg]
      Lowering.emit' (.jmpReg .result)) ⟨.next, r, mem⟩
      (fun _ _ => k.Turns data (u.map Utf16.mend)) T := by
  have htable : (UInt64.ofNat data.table).toNat = data.table := UInt64.toNat_ofNat_of_lt' hx.small
  refine .bind (.fillValue hk hs hconst fun op s₁ r₁ mem₁ hb hbits => ?_)
  refine .bind (.callHelper hk rfl rfl hb.stands rfl fun r₂ mem₂ hpassed hconfined => ?_)
  obtain ⟨hfirst, hsecond, -⟩ : r₂.gpr .first = UInt64.ofNat data.table ∧
    r₂.gpr .second = r₁.gpr op.reg ∧ True := hpassed.passes
  have hm := hshows mem₂ (hb.preserves.memory.trans hconfined hb.preserves.frame)
  have hlookup : ∀ o, ∃ x, addr (data.destinationOf (u.map Utf16.mend)) = .ok x ∧
      World.runs (Execution.switchText? b data.table (k.val e.node)) (k.site.around ⟨r₂, mem₂, o⟩) =
        (.ok (some x), k.site.around ⟨r₂, mem₂, o⟩) := fun o =>
    World.runs_switchText? (w := k.site.around ⟨r₂, mem₂, o⟩) hm hv hx.table hx.keyed
  obtain ⟨x, haddr, -⟩ := hlookup 0
  obtain ⟨l, hl, hopens⟩ := hx.opens haddr
  refine ⟨r₂.setGpr .result x, mem₂, fun o => ?_, fun s₃ _ _ => ?_⟩
  · have hart : World.runs (World.artifact k.site.code) (k.site.around ⟨r₂, mem₂, o⟩) =
        (.ok k.site.artifact, k.site.around ⟨r₂, mem₂, o⟩) :=
      World.runs_artifact hk.loaded.artifact
    have hserve : World.runs (Execution.serve .switchString r₂ k.site.code)
        (k.site.around ⟨r₂, mem₂, o⟩) = (.ok x, k.site.around ⟨r₂, mem₂, o⟩) := by
      refine (World.runs_bind_of_ok ((World.runs_bind_of_ok hart).trans
        (World.runs_codeBlock (w := k.site.around ⟨r₂, mem₂, o⟩) hx.block))).trans ?_
      have hvalue : (⟨r₂.gpr .second⟩ : Value) = k.val e.node := by rw [hsecond, hbits]
      obtain ⟨y, haddr', hswitch⟩ := hlookup o
      obtain rfl := Except.ok.inj (haddr.symm.trans haddr')
      dsimp only
      rw [hfirst, htable, hvalue]
      exact World.runs_bind_of_ok hswitch
    exact World.runs_bind_of_ok hserve
  · refine .jmpReg hk hx.clear (l := l) ?_ fun s₄ _ => ⟨l, hl, rfl⟩
    rw [Registers.gpr_setGpr, if_pos rfl]
    exact hopens

/-- A switch over strings leads to where the mended units belong. -/
lemma Ends.lowerTexts {d : Node} (hd : k.env.graph.nodes[k.cur]? = some d)
    (hop : d.op = .switch data) (he : d.children[0]? = some e) (hkind : data.kind = .string)
    (hs : Stands k.val s.ledger r mem)
    (hconst : ∀ v, k.env.graph.valueConstant e.node = .ok (some v) → k.val e.node = v)
    (hshows : ∀ mem', Confined k.env.graph r mem mem' → mem'.Shows h)
    (hv : h.Texts (k.val e.node) u) :
    k.Ends [] s (Lowering.lowerSwitch data) ⟨.next, r, mem⟩ (fun _ => k.Turns data (u.map Utf16.mend))
      fun _ => k.Turns data (u.map Utf16.mend) := by
  have hgraph : k.env.graph.op? k.cur = some (.switch data) := by
    rw [Graph.op?, hd, Option.map_some, hop]
  refine .bind ((Wp.listSwitch hgraph).weaken ?_)
  rintro _ s₁ _ ⟨rfl, hledger, -⟩
  refine .child fun d' e' hd' he' => ?_
  obtain rfl := Option.some.inj (hd.symm.trans hd')
  obtain rfl := Option.some.inj (he.symm.trans he')
  simp only [hkind]
  exact .of_wp (Wp.switchString hk hx (hledger ▸ hs) hconst hshows hv)

end Course

/-! ### Compiled code -/

namespace Plan

open World

variable {p : Plan} {frame : FrameLayout} {s : State} {b : BlockId} {j : Nat} {n : NodeId} {d : Node}
  {c : Site} {val : NodeId → Value} {r : Registers} {mem : Memory} {data : SwitchData} {e : Edge}
  {w : World} {h : Heap} {limit : Nat} {u : Option (List UInt16)}

/-- A compile has taken up a switch over strings, through whose table no other switch goes, and a
machine that is consistent with the ledger there has the heap of the world in its memory. -/
structure Looks (p : Plan) (w : World) (frame : FrameLayout) (b : BlockId) (j : Nat) (n : NodeId)
    (d : Node) (s : State) (c : Site) (val : NodeId → Value) (r : Registers) (mem : Memory)
    (data : SwitchData) (e : Edge) : Prop where
  draft : ∃ g : Draft, g.Built ∧ g.finish = .ok p.graph
  compiled : ∃ base, (p.compile base).outcome = .ok c.artifact ∧
    c.world.blocks[c.artifact.block]? = some (p.compile base).block
  loaded : c.Loaded
  clear : c.Clear
  taken : p.TakesUp frame b j n d s
  op : d.op = .switch data
  kind : data.kind = .string
  operand : d.children[0]? = some e
  alone {layout : Layout} {final : State} (hf : p.lower = .ok (frame, layout, final)) {m : NodeId}
    (hm : m ∈ final.switches) {data' : SwitchData} (hd : p.graph.op? m = some (.switch data'))
    (hk : data'.kind = .string) (ht : data'.table = data.table) : m = n
  small : data.table < UInt64.size
  stands : Stands val s.ledger r mem
  constant {v : Value} (hv : p.graph.valueConstant e.node = .ok (some v)) : val e.node = v
  heap (x : UInt64) (hle : Memory.heapBase ≤ x.toNat) (hlt : x.toNat < w.memory.next) :
    r.Beyond p.graph x ∧ mem.byte? x = w.memory.byte? x

namespace Looks

variable (hl : p.Looks w frame b j n d s c val r mem data e)
include hl

/-- What the switch needs is there. -/
lemma answers {base : UInt64} {layout : Layout} {final : State} {before : List NodeId} {g : Draft}
    (hd : g.Built) (hg : g.finish = .ok p.graph) (h : (p.compile base).outcome = .ok c.artifact)
    (hblock : c.world.blocks[c.artifact.block]? = some (p.compile base).block)
    (hf : p.lower = .ok (frame, layout, final)) :
    ∃ t, (⟨p.env frame, c, final, val, n, before⟩ : Course).Answers
      (blockAddress final.asm p.graph.blocks.size base) data (p.compile base).block t := by
  have hgraph : p.graph.op? n = some (.switch data) := by
    rw [Graph.op?, hl.taken.node, Option.map_some, hl.op]
  have hmem := hl.taken.listed hd hg hf hl.op
  obtain ⟨frame', layout', s', code, hf', hcode, hart, hlink⟩ := build_ok h
  rw [hf] at hf'
  cases hf'
  have hkeyed : Link.Writes p.block _ _ _ := Link.writes_linkTables_keyed
    (resolves_blockAddress base (complete_of_lower hf).2) hgraph hl.kind (Array.mem_toList_iff.mpr hmem)
    fun m hm data' hd' hk' => hl.alone hf (Array.mem_toList_iff.mp hm) hd' hk'
  rw [Link.Writes, hlink] at hkeyed
  obtain ⟨t, ht, hkeyed⟩ := hkeyed
  refine ⟨t, hl.clear, hblock, ht, hkeyed, fun {blk x} hx => ?_, hl.small⟩
  exact ⟨blk, blockLabels_getElem? (blockAddress_ok hx).1, opens_of_address hf hcode hart hl.loaded hx⟩

/-- The machine comes to where the mended units belong. -/
lemma turns (hm : w.memory.Houses limit h) (hv : h.Texts (val e.node) u) :
    ∃ steps m, c.Goes steps ⟨r, mem, s.asm.offset⟩ m ∧
      p.Starts (data.destinationOf (u.map Utf16.mend)) m.place := by
  obtain ⟨g, hd, hg⟩ := hl.draft
  obtain ⟨base, hcompile, hblock⟩ := hl.compiled
  obtain ⟨frame', layout, final, code, hf, -⟩ := build_ok hcompile
  obtain rfl := Except.ok.inj ((outcome_of_lower hf).1.symm.trans hl.taken.framed)
  have hshows : ∀ mem', Confined p.graph r mem mem' → mem'.Shows h := fun mem' hconfined =>
    have haside := (hm.aside hl.heap).confined hconfined rfl
    ⟨haside.item, haside.room, hm.isCell⟩
  let k : Course := ⟨p.env frame', c, final, val, n, []⟩
  obtain ⟨s₁, t', steps, o, hres, hgo, hat⟩ := hl.taken.goes hd hg hcompile hf hl.loaded rfl
    (by rw [hl.op]; rfl) (by simp [hl.op]) (Q := fun _ => k.Turns data (u.map Utf16.mend))
    (T := fun _ => k.Turns data (u.map Utf16.mend)) fun before => by
      intro k' hk hu
      obtain ⟨t, hanswers⟩ : ∃ t, k'.Answers (blockAddress final.asm p.graph.blocks.size base) data
          (p.compile base).block t := hl.answers hd hg hcompile hblock hf
      rw [hl.op]
      exact Course.Ends.lowerTexts hk hanswers hl.taken.node hl.op hl.operand hl.kind hl.stands
        (fun v => hl.constant) hshows hv
  obtain ⟨l, hlabel, hspot⟩ : k.Turns data (u.map Utf16.mend) t' := hres.elim And.right id
  rw [hspot] at hat
  exact ⟨steps, ⟨t'.registers, t'.memory, o⟩, hgo, starts_of_label hf hlabel hat⟩

end Looks

/-- **Where a switch over strings goes.** It goes to the block of the last case whose key has the units
of the value, once these are mended; with a value that is no string it goes to the fallthrough block.
Without a surrogate that has no partner there is nothing to mend, and then the key of that case equals
the value, while those of the cases after it do not. -/
theorem texts_dispatched (hl : p.Looks w frame b j n d s c val r mem data e) (hw : w.Sound limit h)
    (hv : (val e.node).isCell = true → (h.cell? (val e.node).bits).isSome) :
    ∃ u, runs (stringUnits? (val e.node)) w = (.ok u, w) ∧
      (∃ steps m, c.Goes steps ⟨r, mem, s.asm.offset⟩ m ∧
        p.Starts (data.destinationOf (u.map Utf16.mend)) m.place ∧
        ((∀ us, u = some us → Utf16.Paired us) → p.Starts (data.destinationOf u) m.place)) ∧
      ∀ key k, (h.cell? k.bits).isSome → runs (stringUnits k) w = (.ok (Utf16.encode key), w) →
        runs (Semantics.strictEq k (val e.node)) w =
          (.ok (SwitchCase.spells u (.string key)), w) := by
  obtain ⟨u, hu⟩ := hw.exists_texts hv
  have hm := hw.houses.memory
  obtain ⟨steps, m, hgo, hstarts⟩ := hl.turns hm hu
  refine ⟨u, runs_stringUnits? hm.shows hu, ⟨steps, m, hgo, hstarts, fun hpaired => ?_⟩,
    fun key k hk hunits => ?_⟩
  · cases u with
    | none => exact hstarts
    | some us => rwa [Option.map_some, (hpaired us rfl).mend_eq] at hstarts
  · exact runs_strictEq_of_text hm.shows hu (hw.text_of_runs hk hunits)

/-! ### The replacement character -/

def replacementKey : SwitchData where
  kind := .string
  table := 0
  cases := [(.string "\ufffd", 1)]
  fallthrough := 2

def replacingDraft : Draft :=
  let d : Draft := { name := "replacing", kind := .function }
  let d := (d.addArgument .top .value).2.addBlock.addBlock.addBlock.select 0
  let d := (d.addNode (.getLocal 0) [] .top).2
  let d := ((d.addNode (.switch replacementKey) [0] .empty).2).select 1
  let d := (d.addNode (.constant .undefined) [] .other).2
  let d := ((d.addNode .ret [2] .empty).2).select 2
  let d := (d.addNode (.constant .undefined) [] .other).2
  (d.addNode .ret [4] .empty).2

lemma built_replacingDraft : replacingDraft.Built := by
  refine .addNode (.addNode (.select (.addNode (.addNode (.select (.addNode (.addNode
    ?_ ?_ _ _ _ _) ?_ _ _ _ _) _) ?_ _ _ _ _) ?_ _ _ _ _) _) ?_ _ _ _ _) ?_ _ _ _ _
  · exact (((Draft.Built.new _ _).addArgument _ _).addBlock.addBlock.addBlock).select _
  all_goals decide +kernel

def replacing : Plan where
  graph := (ofDraft replacingDraft).graph
  blockId := 0
  block := { name := "replacing", numParameters := 1, strings := #[.ofKeys ["\ufffd"]] }
  context := 0

lemma exists_looks (us : List UInt16) (hus : us.length ≤ 1000) :
    ∃ (k v : Value) (w : World) (h : Heap) (c : Site),
      runs (do return (← newStringOfUnits [0xfffd], ← newStringOfUnits us)) World.start =
        (.ok (k, v), w) ∧ w.Sound 281474976710656 h ∧ h.Text k [0xfffd] ∧ h.Text v us ∧
      (replacing.compile 0x7e0000000000).outcome = .ok c.artifact ∧
      replacing.Looks w ⟨3, 28⟩ 0 1 1 (replacing.nodeAt 1) (replacing.stateAt ⟨3, 28⟩ 0 1) c
        (fun _ => v) (holding v v) (withStack w) replacementKey
        { node := 0, kind := .untyped } := by
  obtain ⟨k, v, w, h, hrun, hw, hk, hv, hroom⟩ := exists_strings [0xfffd] us (by decide) hus
  obtain ⟨a, c, hcompile, hc, rfl, hblocks⟩ := exists_loaded replacing 0x7e0000000000
    (by decide +kernel) (by decide)
  have ht : replacing.TakesUp ⟨3, 28⟩ 0 1 1 (replacing.nodeAt 1) (replacing.stateAt ⟨3, 28⟩ 0 1) :=
    takesUp_of_isOk (by decide +kernel) (by decide +kernel) (by decide +kernel) (by decide +kernel)
      (by decide +kernel) (by decide +kernel)
  obtain ⟨hmap, hsame⟩ := byte?_withStack hw (by omega)
  refine ⟨k, v, w, h, c, hrun, hw, hk, hv, hcompile,
    { draft := ⟨replacingDraft, built_replacingDraft, finish_ofDraft (by decide +kernel)⟩
      compiled := ⟨_, hcompile, block_of_loaded hcompile rfl hblocks⟩
      loaded := hc
      clear := clear_of_compile hcompile rfl rfl
      taken := ht
      op := by decide +kernel
      kind := rfl
      operand := by decide +kernel
      alone := fun {layout final} hf m hm _ _ _ _ => ?_
      small := by decide
      stands := by simpa only [ite_self] using stands_holding (u := v) (v := v) (by decide +kernel) hmap
      constant := fun {x} hx => ?_
      heap := fun x _ hlt => ⟨beyond_holding (by decide +kernel) (by omega), hsame x hlt⟩ }⟩
  · have hlisted : replacing.lower.toOption.map (fun x => x.2.2.switches) = some #[1] := by
      decide +kernel
    rw [hf] at hlisted
    have hswitches : final.switches = #[1] := Option.some.inj hlisted
    rwa [hswitches, Array.mem_singleton] at hm
  · have hnone : replacing.graph.valueConstant 0 = .ok none := by decide +kernel
    rw [hnone] at hx
    cases hx

/-- The key itself is found. -/
theorem texts_dispatched_key : ∃ (k v : Value) (w : World) (c : Site) (steps : Nat) (m : Machine),
    runs (do return (← newStringOfUnits [0xfffd], ← newStringOfUnits [0xfffd])) World.start =
      (.ok (k, v), w) ∧
    (replacing.compile 0x7e0000000000).outcome = .ok c.artifact ∧
    c.Goes steps ⟨holding v v, withStack w, (replacing.stateAt ⟨3, 28⟩ 0 1).asm.offset⟩ m ∧
    replacing.Starts 1 m.place := by
  obtain ⟨k, v, w, h, c, hrun, hw, -, hv, hcompile, hl⟩ := exists_looks [0xfffd] (by decide)
  obtain ⟨u, hu, ⟨steps, m, hgo, -, hstarts⟩, -⟩ := texts_dispatched hl hw fun _ =>
    Option.isSome_iff_exists.mpr hv.cell
  cases (runs_stringUnits? hw.houses.memory.shows (.text hv)).symm.trans hu
  refine ⟨k, v, w, c, steps, m, hrun, hcompile, hgo, ?_⟩
  have hdest : replacementKey.destinationOf (some [0xfffd]) = 1 := by decide +kernel
  rw [hdest] at hstarts
  exact hstarts fun us hus => Option.some.inj hus ▸ Utf16.paired_encode "\ufffd"

/-- A surrogate without its partner goes the way of the replacement character, which it does not
equal. -/
theorem texts_not_strict : ∃ (k v : Value) (w : World) (c : Site) (steps : Nat) (m : Machine),
    runs (do return (← newStringOfUnits [0xfffd], ← newStringOfUnits [0xd800])) World.start =
      (.ok (k, v), w) ∧
    runs (stringUnits k) w = (.ok (Utf16.encode "\ufffd"), w) ∧
    runs (Semantics.strictEq k v) w = (.ok false, w) ∧
    (replacing.compile 0x7e0000000000).outcome = .ok c.artifact ∧
    c.Goes steps ⟨holding v v, withStack w, (replacing.stateAt ⟨3, 28⟩ 0 1).asm.offset⟩ m ∧
    ¬replacing.Starts 2 m.place := by
  obtain ⟨k, v, w, h, c, hrun, hw, hk, hv, hcompile, hl⟩ := exists_looks [0xd800] (by decide)
  have hm := hw.houses.memory
  obtain ⟨steps, m, hgo, -, frame, layout, final, hf, hlabel⟩ := hl.turns hm (.text hv)
  have hdest : replacementKey.destinationOf ((some [0xd800]).map Utf16.mend) = 1 := by decide +kernel
  have hunits : Utf16.encode "\ufffd" = [0xfffd] := by decide +kernel
  refine ⟨k, v, w, c, steps, m, hrun, hunits ▸ runs_stringUnits_of_text hm.shows hk,
    runs_strictEq_of_text hm.shows (.text hv) hk, hcompile, hgo, ?_⟩
  rintro ⟨-, frame', layout', final', hf', hlabel'⟩
  rw [hf] at hf'
  cases hf'
  have hapart : replacing.lower.toOption.map (fun x =>
      decide (x.2.2.asm.labels[1]? = x.2.2.asm.labels[2]?)) = some false := by decide +kernel
  rw [hdest] at hlabel
  rw [hf] at hapart
  have hne := of_decide_eq_false (Option.some.inj hapart)
  exact hne (hlabel.trans hlabel'.symm)

end Plan

end Speculation
