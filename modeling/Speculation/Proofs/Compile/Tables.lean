import Speculation.Proofs.Compile.Ledger
import Speculation.Proofs.Lowering.Completion

/-!
Jump tables and compiles that fail.

Tables are written last, one switch after the other, and what is written stays. So a compile that
fails leaves the code block as it was, unless it fails because of a switch that does not fit its
table; and even then only the targets of tables that the graph goes through can have changed.
-/

namespace Speculation

def SwitchData.Fits (data : SwitchData) (b : CodeBlock) : Prop :=
  match data.kind with
  | .imm => ∃ t, b.dense[data.table]? = some t ∧
    ∀ c ∈ data.cases, ∃ i k, c.1 = .imm i ∧ t.index? i = some k ∧ k < t.length
  | .string => ∃ t, b.strings[data.table]? = some t ∧
    ∀ c ∈ data.cases, ∃ s, c.1 = .string s ∧ s ∈ t.entries.map Prod.fst

def CompileError.isSwitchFault : CompileError → Bool
  | .graph (.noJumpTable _) | .graph (.noStringTable _) | .graph .stringCase
  | .graph .integerCase | .graph (.caseOutside ..) | .graph (.caseMissing ..) => true
  | _ => false

namespace Link

variable {α β : Type} {b b' b'' : CodeBlock} {g : Graph}
  {addr : BlockId → Except Failure UInt64}

/-- From `b` to `b'` only the targets of some tables have changed. -/
structure Relinks (dense strings : Nat → Prop) (b b' : CodeBlock) : Prop where
  name : b'.name = b.name
  parameters : b'.numParameters = b.numParameters
  ranges (i : Nat) : b'.dense[i]?.map (fun t => (t.min, t.length)) =
    b.dense[i]?.map fun t => (t.min, t.length)
  keys (i : Nat) : b'.strings[i]?.map (·.entries.map Prod.fst) =
    b.strings[i]?.map (·.entries.map Prod.fst)
  dense {i : Nat} (h : ¬dense i) : b'.dense[i]? = b.dense[i]?
  strings {i : Nat} (h : ¬strings i) : b'.strings[i]? = b.strings[i]?

namespace Relinks

variable {D D' S S' : Nat → Prop}

lemma refl (b : CodeBlock) : Relinks D S b b :=
  ⟨rfl, rfl, fun _ => rfl, fun _ => rfl, fun _ => rfl, fun _ => rfl⟩

lemma trans (h : Relinks D S b b') (h' : Relinks D S b' b'') : Relinks D S b b'' :=
  ⟨h'.name.trans h.name, h'.parameters.trans h.parameters,
    fun i => (h'.ranges i).trans (h.ranges i), fun i => (h'.keys i).trans (h.keys i),
    fun hi => (h'.dense hi).trans (h.dense hi), fun hi => (h'.strings hi).trans (h.strings hi)⟩

lemma mono (h : Relinks D S b b') (hD : ∀ i, D i → D' i) (hS : ∀ i, S i → S' i) :
    Relinks D' S' b b' :=
  ⟨h.name, h.parameters, h.ranges, h.keys, fun hi => h.dense fun hd => hi (hD _ hd),
    fun hi => h.strings fun hs => hi (hS _ hs)⟩

lemma fits (h : Relinks D S b b') {data : SwitchData} (hf : data.Fits b) : data.Fits b' := by
  unfold SwitchData.Fits at hf ⊢
  split at hf
  · obtain ⟨t, ht, hc⟩ := hf
    have hr := h.ranges data.table
    rw [ht, Option.map_some] at hr
    obtain ⟨t', ht', hr⟩ := Option.map_eq_some_iff.mp hr
    obtain ⟨hmin, hlen⟩ := Prod.mk.inj hr
    refine ⟨t', ht', fun c hc' => ?_⟩
    obtain ⟨i, k, hi, hk, hlt⟩ := hc c hc'
    exact ⟨i, k, hi, by rw [DenseTable.index?, hmin]; exact hk, by rw [hlen]; exact hlt⟩
  · obtain ⟨t, ht, hc⟩ := hf
    have hk := h.keys data.table
    rw [ht, Option.map_some] at hk
    obtain ⟨t', ht', hk⟩ := Option.map_eq_some_iff.mp hk
    refine ⟨t', ht', fun c hc' => ?_⟩
    obtain ⟨s, hs, hmem⟩ := hc c hc'
    exact ⟨s, hs, by rw [hk]; exact hmem⟩

end Relinks

/-- From `b` the step leads to a block with `Q`, or fails and leaves one with `F`. -/
def Writes (b : CodeBlock) (x : TableLink α) (Q : α → CodeBlock → Prop)
    (F : Failure → CodeBlock → Prop) : Prop :=
  match x.run.run b with
  | (.ok a, b') => Q a b'
  | (.error f, b') => F f b'

section Rules

variable {Q Q' : α → CodeBlock → Prop} {F F' : Failure → CodeBlock → Prop}

lemma Writes.mono {x : TableLink α} (h : Writes b x Q F) (hQ : ∀ a b', Q a b' → Q' a b')
    (hF : ∀ f b', F f b' → F' f b') : Writes b x Q' F' := by
  unfold Writes at h ⊢
  rcases hx : x.run.run b with ⟨f | a, b'⟩ <;> rw [hx] at h
  · exact hF _ _ h
  · exact hQ _ _ h

lemma writes_bind {x : TableLink β} {f : β → TableLink α} :
    Writes b (x >>= f) Q F ↔ Writes b x (fun a b' => Writes b' (f a) Q F) F := by
  unfold Writes
  simp only [ExceptT.run_bind, StateT.run_bind]
  rcases x.run.run b with ⟨e | a, b'⟩ <;> rfl

lemma writes_get {Q : CodeBlock → CodeBlock → Prop} : Writes b get Q F ↔ Q b b := Iff.rfl

lemma writes_modify {f : CodeBlock → CodeBlock} {Q : PUnit → CodeBlock → Prop} :
    Writes b (modify f) Q F ↔ Q () (f b) := Iff.rfl

end Rules

/-- If the compile fails here, then because the switch does not fit. -/
def Blames (fits : Prop) (f : Failure) : Prop :=
  ∀ e, f = .compile e → e.isSwitchFault = true ∧ ¬fits

lemma Blames.of_fault {fits : Prop} {f : GraphFault}
    (hf : (CompileError.graph f).isSwitchFault = true) (h : ¬fits) :
    Blames fits (.compile (.graph f)) := by
  rintro _ ⟨⟩
  exact ⟨hf, h⟩

lemma Blames.of_ne {fits : Prop} {f : Failure} (h : ∀ e, f ≠ .compile e) : Blames fits f :=
  fun e he => absurd he (h e)

def Resolves (addr : BlockId → Except Failure UInt64) : Prop :=
  ∀ b e, addr b ≠ .error (.compile e)

lemma relinks_modifyDense (b : CodeBlock) (table : Nat) (f : DenseTable → DenseTable)
    (hf : ∀ t, (f t).min = t.min ∧ (f t).length = t.length) :
    Relinks (· = table) (fun _ => False) b { b with dense := b.dense.modify table f } where
  name := rfl
  parameters := rfl
  ranges i := by
    rw [Array.getElem?_modify]
    split
    · cases b.dense[i]? <;> simp [hf]
    · rfl
  keys _ := rfl
  dense {i} hi := by
    rw [Array.getElem?_modify, if_neg (Ne.symm hi)]
  strings _ := rfl

section Switches

variable (ha : Resolves addr)
include ha

lemma writes_address {blk : BlockId} : Writes b (address addr blk)
    (fun _ b' => b' = b) fun f b' => b' = b ∧ ∀ e, f ≠ .compile e := by
  unfold address
  split
  · rfl
  · rename_i f hf
    exact ⟨rfl, fun e he => ha _ e (he ▸ hf)⟩

lemma writes_linkDenseCases {table : Nat} {t : DenseTable} {cases : List (SwitchCase × BlockId)} :
    Writes b (linkDenseCases addr table t cases)
      (fun _ b' => Relinks (· = table) (fun _ => False) b b')
      fun f b' => Relinks (· = table) (fun _ => False) b b' ∧
        Blames (∀ c ∈ cases, ∃ i k, c.1 = .imm i ∧ t.index? i = some k ∧ k < t.length) f := by
  induction cases generalizing b with
  | nil => exact .refl b
  | cons c cases ih =>
    obtain ⟨i | s, target⟩ := c
    · unfold linkDenseCases
      split
      · rename_i hk
        refine ⟨.refl b, .of_fault rfl fun hc => ?_⟩
        obtain ⟨_, k, ⟨⟩, hi, hlt⟩ := hc _ List.mem_cons_self
        simp [hi] at hk
        omega
      · rename_i k hk
        refine writes_bind.mpr ((writes_address ha).mono ?_ ?_)
        · rintro x b rfl
          have hset := relinks_modifyDense b table
            (fun t => { t with targets := t.targets.setIfInBounds k x }) fun _ => ⟨rfl, rfl⟩
          refine writes_bind.mpr (writes_modify.mpr (ih.mono (fun _ _ => hset.trans) ?_))
          rintro f b' ⟨hb', hf⟩
          exact ⟨hset.trans hb', fun e he =>
            ⟨(hf e he).1, fun hc => (hf e he).2 (List.forall_mem_cons.mp hc).2⟩⟩
        · rintro f _ ⟨rfl, hf⟩
          exact ⟨.refl _, .of_ne hf⟩
    · refine ⟨.refl b, .of_fault rfl fun hc => ?_⟩
      obtain ⟨_, _, ⟨⟩, -⟩ := hc _ List.mem_cons_self

/-- Looking up the targets of a string switch writes nothing, and succeeds only if it fits. -/
lemma writes_stringTargets {table : Nat} {t : StringTable} {found : List (String × UInt64)}
    {cases : List (SwitchCase × BlockId)} :
    Writes b (stringTargets addr table t found cases)
      (fun _ b' => b' = b ∧ ∀ c ∈ cases, ∃ s, c.1 = .string s ∧ s ∈ t.entries.map Prod.fst)
      fun f b' => b' = b ∧
        Blames (∀ c ∈ cases, ∃ s, c.1 = .string s ∧ s ∈ t.entries.map Prod.fst) f := by
  induction cases generalizing found with
  | nil => exact ⟨rfl, by simp⟩
  | cons c cases ih =>
    obtain ⟨i | s, target⟩ := c
    · refine ⟨rfl, .of_fault rfl fun hc => ?_⟩
      obtain ⟨_, ⟨⟩, -⟩ := hc _ List.mem_cons_self
    · unfold stringTargets
      split
      · rename_i hkey
        obtain ⟨k, hk, hks⟩ := List.any_eq_true.mp hkey
        refine writes_bind.mpr ((writes_address ha).mono ?_ fun _ _ h => ⟨h.1, .of_ne h.2⟩)
        rintro x _ rfl
        refine ih.mono (fun _ b' ⟨hb', hc⟩ => ⟨hb', ?_⟩) fun f b' ⟨hb', hf⟩ => ⟨hb', ?_⟩
        · exact List.forall_mem_cons.mpr ⟨⟨s, rfl, List.mem_map.mpr ⟨k, hk, by simpa using hks⟩⟩, hc⟩
        · exact fun e he => ⟨(hf e he).1, fun hc => (hf e he).2 (List.forall_mem_cons.mp hc).2⟩
      · rename_i hkey
        refine ⟨rfl, .of_fault rfl fun hc => ?_⟩
        obtain ⟨_, ⟨⟩, hmem⟩ := hc _ List.mem_cons_self
        obtain ⟨e, he, rfl⟩ := List.mem_map.mp hmem
        exact hkey (List.any_eq_true.mpr ⟨e, he, by simp⟩)

lemma writes_linkImm {data : SwitchData} {fallthrough : UInt64} (hk : data.kind = .imm) :
    Writes b (do
      match (← get).dense[data.table]? with
      | none => fail (.noJumpTable data.table)
      | some t =>
        modifyDense data.table fun t =>
          { t with targets := Array.replicate t.length fallthrough, default := fallthrough }
        linkDenseCases addr data.table t data.cases)
      (fun _ b' => Relinks (· = data.table) (fun _ => False) b b')
      fun f b' => Relinks (· = data.table) (fun _ => False) b b' ∧ Blames (data.Fits b) f := by
  refine writes_bind.mpr (writes_get.mpr ?_)
  unfold SwitchData.Fits
  simp only [hk]
  split
  · rename_i ht
    refine ⟨.refl b, .of_fault rfl ?_⟩
    simp [ht]
  · rename_i t ht
    have hset := relinks_modifyDense b data.table (fun t =>
      { t with targets := Array.replicate t.length fallthrough, default := fallthrough })
      fun _ => ⟨rfl, rfl⟩
    refine writes_bind.mpr (writes_modify.mpr ((writes_linkDenseCases ha).mono
      (fun _ _ => hset.trans) ?_))
    rintro f b' ⟨hb', hf⟩
    refine ⟨hset.trans hb', fun e he => ⟨(hf e he).1, ?_⟩⟩
    rintro ⟨t', ht', hc⟩
    rw [ht] at ht'
    cases ht'
    exact (hf e he).2 hc

lemma writes_linkString {data : SwitchData} {fallthrough : UInt64} (hk : data.kind = .string) :
    Writes b (do
      match (← get).strings[data.table]? with
      | none => fail (.noStringTable data.table)
      | some t =>
        let targets ← stringTargets addr data.table t [] data.cases
        modify fun b =>
          { b with
            strings := b.strings.setIfInBounds data.table
              { entries := t.entries.map fun e => (e.1, (targets.lookup e.1).getD fallthrough)
                default := fallthrough } })
      (fun _ b' => Relinks (fun _ => False) (· = data.table) b b' ∧ data.Fits b)
      fun f b' => b' = b ∧ Blames (data.Fits b) f := by
  refine writes_bind.mpr (writes_get.mpr ?_)
  unfold SwitchData.Fits
  simp only [hk]
  split
  · rename_i ht
    refine ⟨rfl, .of_fault rfl ?_⟩
    simp [ht]
  · rename_i t ht
    refine writes_bind.mpr ((writes_stringTargets ha).mono ?_ ?_)
    · rintro targets _ ⟨rfl, hc⟩
      refine ⟨⟨rfl, rfl, fun _ => rfl, fun i => ?_, fun _ => rfl, fun {i} hi => ?_⟩, t, ht, hc⟩
      · by_cases hi : data.table = i
        · subst hi
          obtain ⟨hlt, ht⟩ := Array.getElem?_eq_some_iff.mp ht
          simp [hlt, ht, Function.comp_def]
        · simp [Array.getElem?_setIfInBounds_ne hi]
      · simp [Array.getElem?_setIfInBounds_ne (Ne.symm hi)]
    · rintro f _ ⟨rfl, hf⟩
      refine ⟨rfl, fun e he => ⟨(hf e he).1, ?_⟩⟩
      rintro ⟨t', ht', hc⟩
      rw [ht] at ht'
      cases ht'
      exact (hf e he).2 hc

/-- A switch writes to its own table only, and if it fails, it does not fit. -/
lemma writes_linkSwitch {data : SwitchData} {D S : Nat → Prop}
    (hD : data.kind = .imm → D data.table) (hS : data.kind = .string → S data.table) :
    Writes b (linkSwitch addr data)
      (fun _ b' => Relinks D S b b' ∧ (data.kind = .string → data.Fits b))
      fun f b' => Relinks D S b b' ∧ Blames (data.Fits b) f ∧ (data.kind = .string → b' = b) := by
  refine writes_bind.mpr ((writes_address ha).mono ?_ ?_)
  · rintro fallthrough b rfl
    split
    · rename_i hk
      have hmono : ∀ {b'}, Relinks (· = data.table) (fun _ => False) b b' → Relinks D S b b' :=
        fun h => h.mono (fun i hi => hi ▸ hD hk) fun _ => False.elim
      exact (writes_linkImm ha hk).mono (fun _ _ h => ⟨hmono h, fun hs => by simp [hk] at hs⟩)
        fun _ _ h => ⟨hmono h.1, h.2, fun hs => by simp [hk] at hs⟩
    · rename_i hk
      refine (writes_linkString ha hk).mono (fun _ _ ⟨h, hfits⟩ => ⟨h.mono (fun _ => False.elim)
        fun i hi => hi ▸ hS hk, fun _ => hfits⟩) ?_
      rintro f _ ⟨rfl, hf⟩
      exact ⟨.refl _, hf, fun _ => rfl⟩
  · rintro f _ ⟨rfl, hf⟩
    exact ⟨.refl _, .of_ne hf, fun _ => rfl⟩

def Through (g : Graph) (kind : SwitchKind) (table : Nat) : Prop :=
  ∃ n data, g.op? n = some (.switch data) ∧ data.kind = kind ∧ data.table = table

def AllFit (g : Graph) (b : CodeBlock) : Prop :=
  ∀ n data, g.op? n = some (.switch data) → data.Fits b

lemma writes_linkSwitches {ns : List NodeId}
    (hns : ∀ n ∈ ns, ∃ data, g.op? n = some (.switch data)) :
    Writes b (linkSwitches g addr ns)
      (fun _ b' => Relinks (Through g .imm) (Through g .string) b b')
      fun f b' => Relinks (Through g .imm) (Through g .string) b b' ∧ Blames (AllFit g b) f := by
  induction ns generalizing b with
  | nil => exact .refl b
  | cons n ns ih =>
    obtain ⟨data, hn⟩ := hns n List.mem_cons_self
    unfold linkSwitches
    simp only [hn]
    refine writes_bind.mpr ((writes_linkSwitch ha (D := Through g .imm) (S := Through g .string)
      (fun hk => ⟨n, data, hn, hk, rfl⟩) fun hk => ⟨n, data, hn, hk, rfl⟩).mono ?_ ?_)
    · rintro _ b₁ ⟨h₁, -⟩
      refine (ih fun m hm => hns m (List.mem_cons_of_mem _ hm)).mono (fun _ _ => h₁.trans) ?_
      rintro f b₂ ⟨h₂, hf⟩
      refine ⟨h₁.trans h₂, fun e he => ⟨(hf e he).1, fun hall => (hf e he).2 ?_⟩⟩
      exact fun m data' hm => h₁.fits (hall m data' hm)
    · rintro f b₁ ⟨h₁, hf, -⟩
      exact ⟨h₁, fun e he => ⟨(hf e he).1, fun hall => (hf e he).2 (hall n data hn)⟩⟩

def OnlyString (g : Graph) : Prop :=
  ∀ m n data data', g.op? m = some (.switch data) → g.op? n = some (.switch data') →
    m = n ∧ data.kind = .string

lemma writes_linkOnlyString {ns : List NodeId} (hg : OnlyString g)
    (hns : ∀ n ∈ ns, ∃ data, g.op? n = some (.switch data)) :
    Writes b (linkSwitches g addr ns) (fun _ _ => True) fun f b' => ∀ e, f = .compile e → b' = b := by
  cases ns with
  | nil => trivial
  | cons n ns =>
    obtain ⟨data, hn⟩ := hns n List.mem_cons_self
    have hk := (hg n n data data hn hn).2
    unfold linkSwitches
    simp only [hn]
    refine writes_bind.mpr ((writes_linkSwitch ha (D := Through g .imm) (S := Through g .string)
      (fun hk => ⟨n, data, hn, hk, rfl⟩) fun hk => ⟨n, data, hn, hk, rfl⟩).mono ?_ ?_)
    · rintro _ b₁ ⟨h₁, hfits⟩
      -- it fitted, so it does not fail if it is met again
      have hall : AllFit g b₁ := fun m data' hm => by
        obtain rfl := (hg m n data' data hm hn).1
        rw [hn] at hm
        cases hm
        exact h₁.fits (hfits hk)
      refine (writes_linkSwitches ha fun m hm => hns m (List.mem_cons_of_mem _ hm)).mono
        (fun _ _ _ => trivial) ?_
      rintro f b₂ ⟨-, hf⟩ e he
      exact absurd hall (hf e he).2
    · rintro f b₁ ⟨-, -, hf⟩ - -
      exact hf hk

/-- How linking the tables can fail; emptying the tables that no switch uses cannot. -/
lemma writes_linkTables {ns : List NodeId}
    (hns : ∀ n ∈ ns, ∃ data, g.op? n = some (.switch data)) :
    Writes b (linkTables g addr ns) (fun _ _ => True)
      fun f b' => Relinks (Through g .imm) (Through g .string) b b' ∧ Blames (AllFit g b) f ∧
        (OnlyString g → ∀ e, f = .compile e → b' = b) := by
  refine writes_bind.mpr ?_
  have hlink := writes_linkSwitches ha (b := b) hns
  by_cases hg : OnlyString g
  · have hone := writes_linkOnlyString ha (b := b) hg hns
    unfold Writes at hlink hone ⊢
    rcases hx : (linkSwitches g addr ns).run.run b with ⟨f | _, b'⟩ <;> rw [hx] at hlink hone
    · exact ⟨hlink.1, hlink.2, fun _ => hone⟩
    · trivial
  · exact hlink.mono (fun _ _ _ => trivial) fun f b' h => ⟨h.1, h.2, fun h => absurd h hg⟩

end Switches

end Link

namespace Plan

open Link Lowering

variable {p : Plan} {base : UInt64}

/-- Before lowering there are the labels of the blocks and of the handlers, and nothing else. -/
lemma aimed_start (p : Plan) (frame : FrameLayout) : Aimed (p.env frame) p.start := by
  have hlabel : ∀ l : Nat, l < p.graph.blocks.size + 2 → p.start.IsCode l :=
    fun l hl => ⟨by simpa [start] using hl, by simp [start]⟩
  refine ⟨⟨[], ⟨rfl, rfl, by simp⟩, by simp, fun _ _ _ h => h.not_nil.elim, fun l o ho => ?_,
      followed_nil⟩,
    ⟨fun {b l} hb => hlabel l ?_, hlabel _ (by simp [env]), hlabel _ (by simp [env]),
      fun h => ?_, fun h => ?_⟩, ⟨rfl, fun h => ?_, fun h => ?_⟩,
    ⟨fun h => ?_, .nil, fun h => ?_, .nil, fun h => ?_⟩⟩
  · simp [start, Array.getElem?_replicate] at ho
  · obtain ⟨hlt, rfl⟩ := Array.getElem?_eq_some_iff.mp hb
    simp only [env, Array.size_range] at hlt
    simp only [env, Array.getElem_range]
    omega
  all_goals simp [start] at h

lemma outcome_of_lower {frame : FrameLayout} {layout : Layout} {s : State}
    (h : p.lower = .ok (frame, layout, s)) : FrameLayout.ofGraph p.graph = .ok frame ∧
      outcome (lowerGraph p.block.numParameters) (p.env frame) p.start = (.ok layout, s) := by
  unfold lower at h
  split at h
  · cases h
  · rename_i hframe
    split at h
    · rename_i hs
      cases h
      exact ⟨hframe, hs⟩
    · cases h
    · cases h

lemma assembled_of_lower {frame : FrameLayout} {layout : Layout} {s : State}
    (h : p.lower = .ok (frame, layout, s)) :
    ∃ s₁, Assembled (p.env frame) layout p.start s₁ s :=
  (assembled_lowerGraph (aimed_start p frame)).result (outcome_of_lower h).2

/-- What a successful lowering leaves. -/
lemma complete_of_lower {frame : FrameLayout} {layout : Layout} {s : State}
    (h : p.lower = .ok (frame, layout, s)) :
    Extends (p.env frame) p.start s ∧ Complete (p.env frame) layout s := by
  obtain ⟨s₁, ha⟩ := assembled_of_lower h
  exact ⟨ha.insts.toExtends.trans ha.pools.toExtends,
    ha.complete.extends ha.pools.toExtends (by rw [ha.pools.rest])⟩

def Sure {α : Type} (x : Except Failure α) : Prop := ∀ e, x ≠ .error (.compile e)

namespace Sure

variable {α β : Type}

lemma ok (a : α) : Sure (.ok a) := fun _ h => by cases h

lemma breach (b : Breach) : Sure (.error (.breach b) : Except Failure α) := fun _ h => by cases h

lemma bind {x : Except Failure α} {f : α → Except Failure β} (hx : Sure x)
    (hf : ∀ a, Sure (f a)) : Sure (x >>= f) := by
  cases x with
  | error f => exact fun e h => hx e (congrArg Except.error (Except.error.inj h))
  | ok a => exact hf a

lemma lift (x : Except Breach α) : Sure (Breach.lift x) := by
  cases x with
  | error b => exact breach b
  | ok a => exact ok a

lemma mapM_list {f : α → Except Failure β} {xs : List α} (hf : ∀ x ∈ xs, Sure (f x)) :
    Sure (xs.mapM f) := by
  induction xs with
  | nil => exact ok _
  | cons x xs ih =>
    rw [List.mapM_cons]
    exact (hf x List.mem_cons_self).bind fun _ =>
      (ih fun y hy => hf y (List.mem_cons_of_mem _ hy)).bind fun _ => ok _

lemma mapM {f : α → Except Failure β} {xs : Array α} (hf : ∀ x ∈ xs, Sure (f x)) :
    Sure (xs.mapM f) := by
  rw [Array.mapM_eq_mapM_toList]
  refine Sure.bind (mapM_list fun x hx => hf x (Array.mem_toList_iff.mp hx)) fun _ => ok _

lemma labelOffset {s : State} {l : Label} (h : s.Attached l) : Sure (s.asm.labelOffset l) := by
  obtain ⟨o, ho⟩ := h
  rw [labelOffset_eq ho]
  exact ok o

end Sure

lemma sure_artifact {frame : FrameLayout} {layout : Layout} {s : State} {code : ByteArray}
    (h : Complete (p.env frame) layout s) : Sure (p.artifact base frame layout s code) := by
  unfold artifact
  refine .bind (.mapM fun x hx => .bind (.labelOffset (h.stubs hx)) fun _ => .ok _) fun exits => ?_
  refine .bind (.mapM fun w hw => .bind (.lift _) fun _ => .ok _) fun jumps => ?_
  refine .bind (.mapM fun c hc => .bind (.lift _) fun _ => .ok _) fun caches => ?_
  refine .bind (.labelOffset h.entry) fun entry => .bind ?_ fun arity => ?_
  · cases harity : layout.arityEntry with
    | none => exact .ok _
    | some l => exact .bind (.labelOffset (h.arity harity)) fun _ => .ok _
  · exact .bind (.mapM_list fun e he => .bind (.labelOffset (h.osr he)) fun _ => .ok _)
      fun _ => .ok _

lemma resolves_blockAddress (base : UInt64) {frame : FrameLayout} {layout : Layout} {s : State}
    (h : Complete (p.env frame) layout s) :
    Resolves (blockAddress s.asm p.graph.blocks.size base) := by
  intro b
  unfold blockAddress
  split
  · rename_i hb
    exact (Sure.labelOffset (h.blocks hb (by simp [env, hb]))).bind fun _ => .ok _
  · exact Sure.breach _

/-- Where a compile fails: before any table is touched, while the tables are linked, or afterwards. -/
lemma build_error {f : Failure} (h : (p.build base).1 = .error f) :
    (p.build base).2 = p.block ∨ ∃ frame layout s, p.lower = .ok (frame, layout, s) ∧
      ((linkTables p.graph (blockAddress s.asm p.graph.blocks.size base)
          s.switches.toList).run.run p.block = (.error f, (p.build base).2) ∨
        ∃ code, p.artifact base frame layout s code = .error f) := by
  revert h
  unfold build
  split
  · exact fun _ => .inl rfl
  · rename_i frame layout s hs
    dsimp only
    split
    · exact fun _ => .inl rfl
    · split
      · exact fun _ => .inl rfl
      · rename_i code _
        split
        · rename_i hx
          rintro ⟨⟩
          exact .inr ⟨frame, layout, s, hs, .inl hx⟩
        · exact fun h => .inr ⟨frame, layout, s, hs, .inr ⟨code, h⟩⟩

/-- A compile that fails leaves the code block as it was, unless it fails because some switch does not
fit its table. Even then nothing but targets has changed, and those only in tables that a switch of
the graph goes through; and a lone switch over strings, which is checked before it is linked, changes
nothing. -/
theorem compile_failed_block {e : CompileError}
    (h : (p.compile base).outcome = .error (.compile e)) :
    (e.isSwitchFault = false ∨ AllFit p.graph p.block ∨ OnlyString p.graph →
      (p.compile base).block = p.block) ∧
    Relinks (Through p.graph .imm) (Through p.graph .string) p.block (p.compile base).block := by
  change (_ → (p.build base).2 = p.block) ∧ Relinks _ _ _ (p.build base).2
  obtain hkept | ⟨frame, layout, s, hs, hlink | ⟨code, hcode⟩⟩ := build_error h
  · exact ⟨fun _ => hkept, hkept ▸ .refl _⟩
  · obtain ⟨hext, hcomplete⟩ := complete_of_lower hs
    have hswitches : ∀ n ∈ s.switches.toList, ∃ data, p.graph.op? n = some (.switch data) :=
      fun n hn => (hext.switches (Array.mem_toList_iff.mp hn)).resolve_left (by simp [start])
    have hwrites := writes_linkTables (b := p.block) (resolves_blockAddress base hcomplete) hswitches
    unfold Writes at hwrites
    rw [hlink] at hwrites
    obtain ⟨hrelinks, hblames, honly⟩ := hwrites
    refine ⟨?_, hrelinks⟩
    rintro (hfault | hfit | hstring)
    · simp [(hblames e rfl).1] at hfault
    · exact absurd hfit (hblames e rfl).2
    · exact honly hstring e rfl
  · exact absurd hcode (sure_artifact (complete_of_lower hs).2 e)

def switching (data : SwitchData) : Draft :=
  let d : Draft := { name := "switching", kind := .function }
  let d := d.addBlock.addBlock.select 0
  let d := (d.addNode (.constant (.ofInt32 5)) [] .int32).2
  let d := ((d.addNode (.switch data) [0] .empty).2).select 1
  (d.addNode .ret [] .empty).2

def linkedBlock : CodeBlock where
  name := "switching"
  numParameters := 1
  dense := #[{ min := 0, length := 2, targets := #[16, 32], default := 48 }]
  strings := #[{ entries := [("a", 64)], default := 80 }]

def relink (data : SwitchData) : Plan := { ofDraft (switching data) with block := linkedBlock }

def missing : SwitchData where
  kind := .string
  table := 0
  cases := [(.string "a", 1), (.string "b", 1)]
  fallthrough := 1

def outside : SwitchData where
  kind := .imm
  table := 0
  cases := [(.imm 0, 1), (.imm 7, 1)]
  fallthrough := 1

def errorOf (p : Plan) (base : UInt64) : Option CompileError :=
  match (p.compile base).outcome with
  | .error (.compile e) => some e
  | _ => none

lemma errorOf_eq_some {e : CompileError} :
    p.errorOf base = some e ↔ (p.compile base).outcome = .error (.compile e) := by
  unfold errorOf
  split <;> simp_all

def onlySecond (x : Node × NodeId) : Bool :=
  match x.1.op with
  | .switch data => x.2 == 1 && data.kind == .string
  | _ => true

lemma onlyString_missing : OnlyString (relink missing).graph := by
  have hall : (relink missing).graph.nodes.toList.zipIdx.all onlySecond = true := by
    decide +kernel
  have hone : ∀ m data, (relink missing).graph.op? m = some (.switch data) →
      m = 1 ∧ data.kind = .string := by
    intro m data hm
    obtain ⟨d, hd, hop⟩ := Option.map_eq_some_iff.mp hm
    have hmem : (d, m) ∈ (relink missing).graph.nodes.toList.zipIdx :=
      List.mk_mem_zipIdx_iff_getElem?.mpr (by rw [Array.getElem?_toList, hd])
    have hx := List.all_eq_true.mp hall _ hmem
    simpa [onlySecond, hop] using hx
  exact fun m n data data' hm hn => ⟨(hone m data hm).1.trans (hone n data' hn).1.symm,
    (hone m data hm).2⟩

theorem compile_failed_block_missing :
    ((relink missing).compile 4096).outcome = .error (.compile (.graph (.caseMissing "b" 0))) ∧
      ((relink missing).compile 4096).block = linkedBlock := by
  have h : (relink missing).errorOf 4096 = some (.graph (.caseMissing "b" 0)) := by decide +kernel
  have h := errorOf_eq_some.mp h
  exact ⟨h, (compile_failed_block h).1 (.inr (.inr onlyString_missing))⟩

/-- A dense table is written before the cases are checked, so it is lost when one of them is outside
of it. -/
theorem compile_failed_block_outside :
    ((relink outside).compile 4096).outcome = .error (.compile (.graph (.caseOutside 7 0))) ∧
      ((relink outside).compile 4096).block.dense ≠ linkedBlock.dense := by
  have h : (relink outside).errorOf 4096 = some (.graph (.caseOutside 7 0)) ∧
      ((relink outside).compile 4096).block.dense ≠ linkedBlock.dense := by
    decide +kernel
  exact ⟨errorOf_eq_some.mp h.1, h.2⟩

end Plan
end Speculation
