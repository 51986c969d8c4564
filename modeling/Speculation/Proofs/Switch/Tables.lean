import Speculation.Execution.Service
import Speculation.Proofs.Compile.Tables
import Speculation.Proofs.Switch.Keys

/-!
What is in the table of a switch.

Linking goes through the cases from the first to the last, so that each entry of the table leads to
the block of the last case of its key, and an entry without a case to the fallthrough block. Other
switches leave the table alone if they go through other tables.
-/

namespace Speculation

/-- The block of the last case that has the property, or the block `b` if none has. -/
def lastCase (p : SwitchCase → Bool) (cases : List (SwitchCase × BlockId)) (b : BlockId) : BlockId :=
  ((cases.filter fun c => p c.1).getLast?.map Prod.snd).getD b

section LastCase

variable {p q : SwitchCase → Bool} {c : SwitchCase × BlockId} {cases : List (SwitchCase × BlockId)}
  {b : BlockId}

lemma lastCase_cons : lastCase p (c :: cases) b = lastCase p cases (if p c.1 then c.2 else b) := by
  unfold lastCase
  by_cases hc : p c.1 = true
  · rw [List.filter_cons_of_pos (by exact hc), List.getLast?_cons, if_pos hc]
    cases (cases.filter fun c => p c.1).getLast? <;> rfl
  · rw [List.filter_cons_of_neg (by exact hc), if_neg hc]

lemma lastCase_congr (h : ∀ c ∈ cases, p c.1 = q c.1) : lastCase p cases b = lastCase q cases b := by
  rw [lastCase, lastCase, List.filter_congr h]

lemma lastCase_of_none (h : ∀ c ∈ cases, p c.1 = false) : lastCase p cases b = b := by
  rw [lastCase, List.filter_eq_nil_iff.mpr fun c hc => by simp [h c hc]]
  rfl

end LastCase

def DenseTable.keyAt (t : DenseTable) (k : Nat) : SwitchCase → Bool
  | .imm i => t.index? i == some k
  | .string _ => false

def DenseTable.Leads (addr : BlockId → Except Failure UInt64) (t : DenseTable) (k : Nat)
    (b : BlockId) : Prop :=
  ∃ x, addr b = .ok x ∧ t.targets[k]? = some x

structure SwitchData.Linked (addr : BlockId → Except Failure UInt64) (data : SwitchData)
    (t : DenseTable) : Prop where
  size : t.targets.size = t.length
  default : addr data.fallthrough = .ok t.default
  entry {k : Nat} (h : k < t.length) :
    t.Leads addr k (lastCase (t.keyAt k) data.cases data.fallthrough)
  fits {c : SwitchCase × BlockId} (h : c ∈ data.cases) :
    ∃ i k, c.1 = .imm i ∧ t.index? i = some k ∧ k < t.length

def SwitchCase.equals (v : Value) : SwitchCase → Bool
  | .imm i => v.number?.any fun d => (Double.ofInt32 i).eq d
  | .string _ => false

/-- Where a switch over integers goes with a value: to the block of the last case whose key equals
it. -/
def SwitchData.destination (data : SwitchData) (v : Value) : BlockId :=
  lastCase (SwitchCase.equals v) data.cases data.fallthrough

section Destination

open Semantics

variable {addr : BlockId → Except Failure UInt64} {data : SwitchData} {t : DenseTable} {v : Value}
  {i j : Int32} {k : Nat}

lemma SwitchCase.equals_imm : SwitchCase.equals v (.imm i) = true ↔ switchKey? v = some i := by
  rw [switchKey?_eq_some_iff, equals, Option.any_eq_true]

lemma DenseTable.index?_eq_some : t.index? i = some k ↔ i.toInt - t.min.toInt = k := by
  unfold index?
  dsimp only
  split <;> simp <;> omega

lemma DenseTable.keyAt_imm : t.keyAt k (.imm i) = true ↔ i.toInt - t.min.toInt = k := by
  rw [keyAt, beq_iff_eq, index?_eq_some]

namespace SwitchData.Linked

variable (h : data.Linked addr t)
include h

/-- The entry of an integer in the table is that of its key. -/
lemma leads_of_key (hv : switchKey? v = some i) (hi : i.toInt - t.min.toInt = k)
    (hk : k < t.length) : t.Leads addr k (data.destination v) := by
  have hcases : data.destination v = lastCase (t.keyAt k) data.cases data.fallthrough := by
    refine lastCase_congr fun c hc => ?_
    obtain ⟨j, n, hj, -, -⟩ := h.fits hc
    rw [hj, Bool.eq_iff_iff, SwitchCase.equals_imm, DenseTable.keyAt_imm, hv, Option.some.injEq]
    constructor
    · rintro rfl
      exact hi
    · exact fun hj => Int32.toInt_inj.mp (by omega)
  rw [hcases]
  exact h.entry hk

/-- A value that is no key of the table has no case. -/
lemma destination_of_not (hv : ∀ i (k : Nat), switchKey? v = some i → i.toInt - t.min.toInt = k →
    k < t.length → False) : data.destination v = data.fallthrough := by
  refine lastCase_of_none fun c hc => ?_
  obtain ⟨i, k, hi, hk, hlt⟩ := h.fits hc
  rw [hi, Bool.eq_false_iff]
  exact fun he => hv i k (SwitchCase.equals_imm.mp he) (DenseTable.index?_eq_some.mp hk) hlt

/-- The difference from the least key may wrap around, but then the entry is of no case. -/
lemma leads_wrapped (hv : switchKey? v = some i)
    (hk : (k : Int) = (i.toInt - t.min.toInt) % 4294967296) (hlt : k < t.length) :
    t.Leads addr k (data.destination v) := by
  by_cases hi : t.min.toInt ≤ i.toInt
  · refine h.leads_of_key hv ?_ hlt
    have := i.toInt_lt
    have := t.min.le_toInt
    omega
  · have hnone : lastCase (t.keyAt k) data.cases data.fallthrough = data.fallthrough := by
      refine lastCase_of_none fun c hc => ?_
      obtain ⟨j, n, hj, -, -⟩ := h.fits hc
      rw [hj, Bool.eq_false_iff]
      intro he
      have := DenseTable.keyAt_imm.mp he
      have := i.le_toInt
      have := j.toInt_lt
      have := t.min.toInt_lt
      omega
    have hdest : data.destination v = data.fallthrough := by
      refine h.destination_of_not fun j n hj hn _ => ?_
      rw [hv] at hj
      cases hj
      omega
    rw [hdest, ← hnone]
    exact h.entry hlt

/-- Beyond the table there are no cases. -/
lemma destination_wrapped (hv : switchKey? v = some i)
    (hk : (k : Int) = (i.toInt - t.min.toInt) % 4294967296) (hle : t.length ≤ k) :
    data.destination v = data.fallthrough := by
  refine h.destination_of_not fun j n hj hn hlt => ?_
  rw [hv] at hj
  cases hj
  have := i.toInt_lt
  have := t.min.le_toInt
  omega

/-- The helper finds the address of the destination. -/
lemma switchInteger {b : CodeBlock} (ht : b.dense[data.table]? = some t) :
    ∃ x, addr (data.destination v) = .ok x ∧
      Execution.switchInteger? b data.table v = some x := by
  have hdefault : (switchKey? v).bind (b.denseTarget? data.table) = none →
      data.destination v = data.fallthrough →
      ∃ x, addr (data.destination v) = .ok x ∧
        Execution.switchInteger? b data.table v = some x := by
    intro hnone hdest
    refine ⟨t.default, hdest ▸ h.default, ?_⟩
    rw [Execution.switchInteger?, hnone, ht]
    rfl
  rcases hv : switchKey? v with _ | i
  · refine hdefault (by rw [hv]; rfl) (h.destination_of_not fun i k hi => ?_)
    rw [hv] at hi
    cases hi
  · by_cases hin : ∃ k : Nat, i.toInt - t.min.toInt = k ∧ k < t.length
    · obtain ⟨k, hk, hlt⟩ := hin
      obtain ⟨x, hx, hentry⟩ := h.leads_of_key hv hk hlt
      have htarget : b.denseTarget? data.table i = some x := by
        simp [CodeBlock.denseTarget?, ht, DenseTable.index?_eq_some.mpr hk, hentry]
      refine ⟨x, hx, ?_⟩
      rw [Execution.switchInteger?, hv, Option.bind_some, htarget]
    · refine hdefault ?_ (h.destination_of_not fun j k hj hk hlt => ?_)
      · rw [hv, Option.bind_some]
        rcases hi : t.index? i with _ | k
        · simp [CodeBlock.denseTarget?, ht, hi]
        · have hk := DenseTable.index?_eq_some.mp hi
          have hle : t.targets.size ≤ k := by
            rw [h.size]
            exact Nat.le_of_not_lt fun hlt => hin ⟨k, hk, hlt⟩
          simp [CodeBlock.denseTarget?, ht, hi, hle]
      · rw [hv] at hj
        cases hj
        exact hin ⟨k, hk, hlt⟩

end SwitchData.Linked
end Destination

namespace Link

variable {b b' : CodeBlock} {g : Graph} {addr : BlockId → Except Failure UInt64} {data : SwitchData}
  {t u : DenseTable}

lemma writes_address_ok {blk : BlockId} :
    Writes b (address addr blk) (fun x b' => b' = b ∧ addr blk = .ok x) fun _ _ => True := by
  unfold address
  split
  · exact ⟨rfl, ‹_›⟩
  · trivial

/-- Each case is written to its entry. -/
lemma writes_cases {table : Nat} {cases : List (SwitchCase × BlockId)}
    (hu : b.dense[table]? = some u) (hsize : u.targets.size = t.length) :
    Writes b (linkDenseCases addr table t cases) (fun _ b' => ∃ u', b'.dense[table]? = some u' ∧
      u'.min = u.min ∧ u'.length = u.length ∧ u'.default = u.default ∧
      u'.targets.size = t.length ∧
      (∀ k blk, u.Leads addr k blk → u'.Leads addr k (lastCase (t.keyAt k) cases blk)) ∧
      ∀ c ∈ cases, ∃ i k, c.1 = .imm i ∧ t.index? i = some k ∧ k < t.length) fun _ _ => True := by
  induction cases generalizing b u with
  | nil => exact ⟨u, hu, rfl, rfl, rfl, hsize, fun k blk h => h, nofun⟩
  | cons c cases ih =>
    obtain ⟨i | s, target⟩ := c
    · unfold linkDenseCases
      split
      · trivial
      · rename_i j hj
        obtain ⟨hj, hlt⟩ := Option.filter_eq_some_iff.mp hj
        have hlt : j < t.length := by simpa using hlt
        refine writes_bind.mpr (writes_address_ok.mono ?_ fun _ _ _ => trivial)
        rintro x b ⟨rfl, hx⟩
        refine writes_bind.mpr (writes_modify.mpr ((ih (u := { u with
          targets := u.targets.setIfInBounds j x }) ?_ ?_).mono ?_ fun _ _ _ => trivial))
        · rw [Array.getElem?_modify, if_pos rfl, hu]
          rfl
        · simpa using hsize
        · rintro - b' ⟨u', hu', hmin, hlen, hdef, hsize', hlead, hfits⟩
          refine ⟨u', hu', hmin, hlen, hdef, hsize', fun k blk h => ?_,
            List.forall_mem_cons.mpr ⟨⟨i, j, rfl, hj, hlt⟩, hfits⟩⟩
          rw [lastCase_cons]
          refine hlead k _ ?_
          obtain ⟨y, hy, hk⟩ := h
          by_cases hjk : j = k
          · subst hjk
            have hkey : t.keyAt j (.imm i) = true := by simp [DenseTable.keyAt, hj]
            rw [if_pos hkey]
            exact ⟨x, hx, Array.getElem?_setIfInBounds_self_of_lt (hsize ▸ hlt)⟩
          · have hkey : t.keyAt k (.imm i) = false := by simp [DenseTable.keyAt, hj, hjk]
            rw [hkey, if_neg nofun]
            exact ⟨y, hy, (Array.getElem?_setIfInBounds_ne hjk).trans hk⟩
    · trivial

lemma writes_linked (hk : data.kind = .imm) :
    Writes b (linkSwitch addr data) (fun _ b' => ∃ u t, b.dense[data.table]? = some u ∧
      b'.dense[data.table]? = some t ∧ t.min = u.min ∧ t.length = u.length ∧ data.Linked addr t)
      fun _ _ => True := by
  unfold linkSwitch
  refine writes_bind.mpr (writes_address_ok.mono ?_ fun _ _ _ => trivial)
  rintro x b ⟨rfl, hx⟩
  simp only [hk]
  refine writes_bind.mpr (writes_get.mpr ?_)
  split
  · trivial
  rename_i u hu
  refine writes_bind.mpr (writes_modify.mpr ((writes_cases (u := { u with
    targets := Array.replicate u.length x, default := x }) ?_ ?_).mono ?_ fun _ _ _ => trivial))
  · rw [Array.getElem?_modify, if_pos rfl, hu]
    rfl
  · simp
  · rintro - b' ⟨t, ht, hmin, hlen, hdef, hsize, hlead, hfits⟩
    have hmin : t.min = u.min := hmin
    have hlen : t.length = u.length := hlen
    have hdef : t.default = x := hdef
    have hindex : t.index? = u.index? := by
      funext i
      rw [DenseTable.index?, DenseTable.index?, hmin]
    have hkey : t.keyAt = u.keyAt := by
      funext k c
      cases c <;> simp [DenseTable.keyAt, hindex]
    refine ⟨u, t, hu, ht, hmin, hlen, ⟨hsize.trans hlen.symm, hdef ▸ hx, fun {k} hlt => ?_, fun hc => ?_⟩⟩
    · rw [hkey]
      refine hlead k _ ⟨x, hx, ?_⟩
      rw [hlen] at hlt
      simp [hlt]
    · rw [hindex, hlen]
      exact hfits _ hc

section Switches

variable (ha : Resolves addr)
include ha

/-- The switches of a graph link the table of one of them, if no other one goes through it. -/
lemma writes_linkSwitches_linked {n : NodeId} {ns : List NodeId} (hn : g.op? n = some (.switch data))
    (hk : data.kind = .imm)
    (hother : ∀ m ∈ ns, ∀ data', g.op? m = some (.switch data') → data'.kind = .imm →
      data'.table = data.table → m = n) :
    Writes b (linkSwitches g addr ns) (fun _ b' =>
      (n ∈ ns → ∃ u, b.dense[data.table]? = some u) ∧ ∀ u, b.dense[data.table]? = some u →
        ∃ t, b'.dense[data.table]? = some t ∧ t.min = u.min ∧ t.length = u.length ∧
          (n ∈ ns ∨ data.Linked addr u → data.Linked addr t)) fun _ _ => True := by
  induction ns generalizing b with
  | nil => exact ⟨fun h => absurd h List.not_mem_nil,
      fun u hu => ⟨u, hu, rfl, rfl, fun h => h.resolve_left List.not_mem_nil⟩⟩
  | cons m ns ih =>
    obtain ⟨hm, hother⟩ := List.forall_mem_cons.mp hother
    unfold linkSwitches
    dsimp only
    split
    · rename_i data' hd
      refine writes_bind.mpr ?_
      by_cases hmn : m = n
      · subst hmn
        rw [hn] at hd
        cases hd
        refine (writes_linked hk).mono ?_ fun _ _ _ => trivial
        rintro - b₁ ⟨u, t₁, hu, ht₁, hmin₁, hlen₁, hlinked⟩
        refine (ih hother).mono ?_ fun _ _ _ => trivial
        rintro - b₂ ⟨-, h₂⟩
        obtain ⟨t₂, ht₂, hmin₂, hlen₂, h₂⟩ := h₂ t₁ ht₁
        refine ⟨fun _ => ⟨u, hu⟩, fun u' hu' => ?_⟩
        obtain rfl := Option.some.inj (hu.symm.trans hu')
        exact ⟨t₂, ht₂, hmin₂.trans hmin₁, hlen₂.trans hlen₁, fun _ => h₂ (.inr hlinked)⟩
      · have hne : data'.kind = .imm → data'.table ≠ data.table := fun hk' ht =>
          hmn (hm data' hd hk' ht)
        refine (writes_linkSwitch ha (D := (· ≠ data.table)) (S := fun _ => True) hne
          fun _ => trivial).mono ?_ fun _ _ _ => trivial
        rintro - b₁ ⟨h₁, -⟩
        refine (ih hother).mono ?_ fun _ _ _ => trivial
        have hsame : b₁.dense[data.table]? = b.dense[data.table]? := h₁.dense fun h => h rfl
        rw [hsame]
        have hmem : n ∈ m :: ns → n ∈ ns := fun h => (List.mem_cons.mp h).resolve_left (Ne.symm hmn)
        rintro - b₂ ⟨hsome, h₂⟩
        refine ⟨fun h => hsome (hmem h), fun u hu => ?_⟩
        obtain ⟨t₂, ht₂, hmin₂, hlen₂, h₂⟩ := h₂ u hu
        exact ⟨t₂, ht₂, hmin₂, hlen₂, fun h => h₂ (h.imp_left hmem)⟩
    · trivial

lemma writes_linkTables_linked {n : NodeId} {ns : List NodeId} (hn : g.op? n = some (.switch data))
    (hk : data.kind = .imm) (hmem : n ∈ ns)
    (hother : ∀ m ∈ ns, ∀ data', g.op? m = some (.switch data') → data'.kind = .imm →
      data'.table = data.table → m = n) :
    Writes b (linkTables g addr ns) (fun _ b' => ∃ u t, b.dense[data.table]? = some u ∧
      b'.dense[data.table]? = some t ∧ t.min = u.min ∧ t.length = u.length ∧ data.Linked addr t)
      fun _ _ => True := by
  refine writes_bind.mpr ((writes_linkSwitches_linked ha hn hk hother).mono ?_ fun _ _ _ => trivial)
  rintro - b₁ ⟨hsome, h₁⟩
  obtain ⟨u, hu⟩ := hsome hmem
  obtain ⟨t, ht, hmin, hlen, hlinked⟩ := h₁ u hu
  refine writes_modify.mpr ⟨u, t, hu, ?_, hmin, hlen, hlinked (.inl hmem)⟩
  have hused : usesDense g ns data.table = true := by
    refine List.any_eq_true.mpr ⟨n, hmem, ?_⟩
    simp [hn, hk]
  simp [ht, hused]

end Switches

end Link
end Speculation
