import Speculation.Proofs.Bank
import Speculation.Proofs.Graph.Built
import Speculation.Proofs.Lowering.Logic
import Speculation.Proofs.Replay
import Mathlib.Tactic.ByContra

/-!
The agreement of ledger, register banks and event log.

`Agrees` is about the ledger and the owners of registers only: a bound register is where the ledger
has the value of its owner, and a value that the ledger has in a register owns it. Between the
result of a node and the consumption of its operands there is one exception, an operand whose
register was taken over by the result; such an operand is `pending`.
-/

namespace Speculation
namespace Lowering

namespace State

def owner (s : State) : Location → Option Slot
  | .none => none
  | .gpr r => s.gprs.owner r
  | .fpr r => s.fprs.owner r

def locks (s : State) : Location → Nat
  | .none => 0
  | .gpr r => s.gprs.locksOf r
  | .fpr r => s.fprs.locksOf r

/-- A register that a step has taken for itself: locked, and bound to nothing. -/
def Taken (s : State) (l : Location) : Prop := 0 < s.locks l ∧ s.owner l = none

/-- A register is locked once for each of its guards. -/
def Guarded (s : State) : Prop := ∀ l, s.locks l = s.guards.count l

variable {s s' : State} {l : Location}

lemma locks_congr (hg : s'.gprs = s.gprs) (hf : s'.fprs = s.fprs) (q : Location) :
    s'.locks q = s.locks q := by
  cases q <;> simp [locks, hg, hf]

lemma Guarded.congr (h : s.Guarded) (hl : ∀ q, s'.locks q = s.locks q)
    (hg : s'.guards = s.guards) : s'.Guarded := fun q => by rw [hl, h q, hg]

lemma Guarded.holdGpr (h : s.Guarded) {b : Bank Gpr} {r : Gpr} (hb : s.gprs.Adds r b) :
    ({ s with gprs := b, guards := .gpr r :: s.guards } : State).Guarded := fun q => by
  have hq := h q
  cases q with
  | none => simpa [locks] using hq
  | gpr q =>
    show b.locksOf q = (Location.gpr r :: s.guards).count (.gpr q)
    rw [hb q, List.count_cons, ← hq]
    by_cases hqr : q = r
    · simp [locks, hqr]
    · simp [locks, hqr, Ne.symm hqr]
  | fpr f => simpa [locks] using hq

lemma Guarded.holdFpr (h : s.Guarded) {b : Bank Fpr} {f : Fpr} (hb : s.fprs.Adds f b) :
    ({ s with fprs := b, guards := .fpr f :: s.guards } : State).Guarded := fun q => by
  have hq := h q
  cases q with
  | none => simpa [locks] using hq
  | gpr r => simpa [locks] using hq
  | fpr q =>
    show b.locksOf q = (Location.fpr f :: s.guards).count (.fpr q)
    rw [hb q, List.count_cons, ← hq]
    by_cases hqf : q = f
    · simp [locks, hqf]
    · simp [locks, hqf, Ne.symm hqf]

@[simp] lemma owner_drop (q : Location) : (s.drop l).owner q = s.owner q := by
  cases l <;> cases q <;> simp [State.owner, drop]

lemma locks_drop (q : Location) :
    (s.drop l).locks q = if q = l then s.locks q - 1 else s.locks q := by
  cases l <;> cases q <;> simp [State.locks, drop, Bank.locksOf_unlock]

lemma guards_drop : (s.drop l).guards = s.guards.erase l := by cases l <;> rfl

lemma Guarded.drop (h : s.Guarded) : (s.drop l).Guarded := fun q => by
  rw [locks_drop, guards_drop, List.count_erase, h q]
  by_cases hq : q = l
  · simp [hq]
  · simp [hq, Ne.symm hq]

/-- All guards are dropped, one after the other. -/
lemma guards_dropAll : (s.guards.foldl drop s).guards = [] := by
  generalize hg : s.guards = ls
  induction ls generalizing s with
  | nil => exact hg
  | cons l ls ih => exact ih (by rw [guards_drop, hg, List.erase_cons_head])

lemma owner_foldl_drop (ls : List Location) (q : Location) :
    (ls.foldl drop s).owner q = s.owner q := by
  induction ls generalizing s with
  | nil => rfl
  | cons l ls ih => exact ih.trans (owner_drop q)

/-- Dropping guards changes nothing but the banks. -/
lemma exists_foldl_drop (s : State) (ls : List Location) :
    ∃ b c gs, ls.foldl drop s = { s with gprs := b, fprs := c, guards := gs } := by
  refine List.foldlRecOn (motive := fun t => ∃ b c gs, t = { s with gprs := b, fprs := c, guards := gs })
    ls drop ⟨s.gprs, s.fprs, s.guards, rfl⟩ ?_
  rintro _ ⟨b, c, gs, rfl⟩ l -
  cases l <;> exact ⟨_, _, _, rfl⟩

/-- Where no guard is left, nothing is locked. -/
lemma Guarded.unlocked (h : s.Guarded) (hg : s.guards = []) (q : Location) : s.locks q = 0 := by
  rw [h q, hg, List.count_nil]

end State

/-- A value of this format may be in this register: raw doubles, and nothing else, are in floating-point
registers. -/
structure Suits (l : Location) (format : DataFormat) : Prop where
  ne_none : format ≠ .none
  double : format = .double ↔ ∃ f, l = .fpr f

lemma Suits.of_gprFormat {format : DataFormat} {r : Gpr} (h : ValueInfo.gprFormat format = true) :
    Suits (.gpr r) format := by
  simp only [ValueInfo.gprFormat, Bool.and_eq_true, bne_iff_ne] at h
  exact ⟨h.2, fun hd => absurd hd h.1, fun ⟨_, hf⟩ => Location.noConfusion hf⟩

lemma Suits.fpr (f : Fpr) : Suits (.fpr f) .double :=
  ⟨DataFormat.noConfusion, fun _ => ⟨f, rfl⟩, fun _ => rfl⟩

/-- The ledger and the owners of registers agree, values being those of the nodes `before`, but for
operands among `pending` that are about to end. -/
structure Agrees (g : Graph) (before pending : List NodeId) (ledger : Array ValueInfo)
    (owner : Location → Option Slot) : Prop where
  nowhere : owner .none = none
  bound {l : Location} {o : Slot} (h : owner l = some o) :
    ∃ i x, o = .ofLocal i ∧ o.local? = some i ∧ ledger[i]? = some x ∧ x.location = l
  resident {i : Nat} {x : ValueInfo} (h : ledger[i]? = some x) (hl : x.location ≠ .none) :
    x.node.isSome ∧ Suits x.location x.registerFormat ∧
      (owner x.location = some (.ofLocal i) ∨ ∃ n ∈ pending, x.node = some n ∧ x.useCount = 1)
  named {i : Nat} {x : ValueInfo} {n : NodeId} (h : ledger[i]? = some x) (hn : x.node = some n) :
    n ∈ before ∧ ∃ d, g.nodes[n]? = some d ∧ d.slot = some (.ofLocal i) ∧
      (Slot.ofLocal i).local? = some i ∧ d.op.isConstant = x.isConstant
  constant {i : Nat} {x : ValueInfo} (h : ledger[i]? = some x) (hc : x.isConstant = true) :
    x.location = .none ∧ x.spillFormat = .none

namespace Agrees

variable {g : Graph} {before pending : List NodeId} {ledger : Array ValueInfo}
  {owner owner' : Location → Option Slot} {i : Nat} {x y : ValueInfo} {n : NodeId} {l : Location}

lemma mono {before' pending' : List NodeId} (h : Agrees g before pending ledger owner)
    (hb : ∀ n ∈ before, n ∈ before') (hp : ∀ n ∈ pending, n ∈ pending') :
    Agrees g before' pending' ledger owner where
  nowhere := h.nowhere
  bound := h.bound
  resident hx hl := by
    obtain ⟨ha, hf, ho | ⟨n, hn, hx⟩⟩ := h.resident hx hl
    · exact ⟨ha, hf, .inl ho⟩
    · exact ⟨ha, hf, .inr ⟨n, hp n hn, hx⟩⟩
  named hx hn := by
    obtain ⟨hm, hd⟩ := h.named hx hn
    exact ⟨hb _ hm, hd⟩
  constant := h.constant

lemma set_cases {j : Nat} {z : ValueInfo} (h : (ledger.setIfInBounds i y)[j]? = some z) :
    i = j ∧ z = y ∨ i ≠ j ∧ ledger[j]? = some z := by
  rw [Array.getElem?_setIfInBounds] at h
  by_cases hij : i = j
  · rw [if_pos hij] at h
    split at h
    · exact .inl ⟨hij, (Option.some.inj h).symm⟩
    · cases h
  · exact .inr ⟨hij, by simpa [hij] using h⟩

/-- Values that are alive have slots of their own. -/
lemma index_inj (h : Agrees g before pending ledger owner) {j : Nat} {z : ValueInfo}
    (hx : ledger[i]? = some x) (hz : ledger[j]? = some z) (hxa : x.node.isSome)
    (hza : z.node.isSome) (he : Slot.ofLocal i = .ofLocal j) : i = j := by
  obtain ⟨n, hn⟩ := Option.isSome_iff_exists.mp hxa
  obtain ⟨m, hm⟩ := Option.isSome_iff_exists.mp hza
  obtain ⟨-, _, -, -, hi, -⟩ := h.named hx hn
  obtain ⟨-, _, -, -, hj, -⟩ := h.named hz hm
  rw [he, hj] at hi
  exact (Option.some.inj hi).symm

/-- The entry of a value changes, but not where it is. -/
lemma stay (h : Agrees g before pending ledger owner) (hx : ledger[i]? = some x)
    (hn : y.node = x.node) (hc : y.isConstant = x.isConstant) (hl : y.location = x.location)
    (hf : x.isConstant = true → y.spillFormat = .none)
    (hr : x.location ≠ .none → Suits x.location y.registerFormat)
    (hu : y.useCount = x.useCount ∨
      (x.location ≠ .none → owner x.location = some (.ofLocal i))) :
    Agrees g before pending (ledger.setIfInBounds i y) owner where
  nowhere := h.nowhere
  bound {q o} hq := by
    obtain ⟨j, z, ho, hj, hz, hloc⟩ := h.bound hq
    by_cases hij : i = j
    · subst hij
      rw [hx] at hz
      cases hz
      have hlt := (Array.getElem?_eq_some_iff.mp hx).1
      exact ⟨i, y, ho, hj, by simp [hlt], by rw [hl, hloc]⟩
    · exact ⟨j, z, ho, hj, by simp [hij, hz], hloc⟩
  resident {j z} hz hzl := by
    rcases set_cases hz with ⟨rfl, rfl⟩ | ⟨-, hz⟩
    · rw [hl] at hzl ⊢
      obtain ⟨ha, -, ho | ⟨m, hm, hxm, hxu⟩⟩ := h.resident hx hzl
      · exact ⟨hn ▸ ha, hr hzl, .inl ho⟩
      · rcases hu with hu | hu
        · exact ⟨hn ▸ ha, hr hzl, .inr ⟨m, hm, by rw [hn, hxm], by rw [hu, hxu]⟩⟩
        · exact ⟨hn ▸ ha, hr hzl, .inl (hu hzl)⟩
    · exact h.resident hz hzl
  named {j z m} hz hm := by
    rcases set_cases hz with ⟨rfl, rfl⟩ | ⟨-, hz⟩
    · rw [hc]
      exact h.named hx (hn ▸ hm)
    · exact h.named hz hm
  constant {j z} hz hzc := by
    rcases set_cases hz with ⟨rfl, rfl⟩ | ⟨-, hz⟩
    · rw [hc] at hzc
      exact ⟨by rw [hl, (h.constant hx hzc).1], hf hzc⟩
    · exact h.constant hz hzc

/-- A value leaves its register, which has been unbound. -/
lemma leave (h : Agrees g before [] ledger owner) (hx : ledger[i]? = some x)
    (ho : owner x.location = some (.ofLocal i)) (hxl : x.location ≠ .none)
    (ho' : ∀ q, owner' q = if q = x.location then none else owner q)
    (hn : y.node = x.node) (hc : y.isConstant = x.isConstant) (hl : y.location = .none)
    (hf : x.isConstant = true → y.spillFormat = .none) :
    Agrees g before [] (ledger.setIfInBounds i y) owner' where
  nowhere := by rw [ho', if_neg hxl.symm, h.nowhere]
  bound {q o} hq := by
    rw [ho'] at hq
    split at hq
    · cases hq
    · rename_i hne
      obtain ⟨j, z, rfl, hj, hz, hloc⟩ := h.bound hq
      have hij : i ≠ j := by
        rintro rfl
        rw [hx] at hz
        cases hz
        exact hne hloc.symm
      exact ⟨j, z, rfl, hj, by simp [hij, hz], hloc⟩
  resident {j z} hz hzl := by
    rcases set_cases hz with ⟨rfl, rfl⟩ | ⟨hij, hz⟩
    · exact absurd hl hzl
    · obtain ⟨ha, hrf, hown | ⟨m, hm, -⟩⟩ := h.resident hz hzl
      · refine ⟨ha, hrf, .inl ?_⟩
        rw [ho', if_neg]
        · exact hown
        · -- two values are never in one register
          intro heq
          rw [heq, ho] at hown
          exact hij (h.index_inj hx hz (h.resident hx hxl).1 ha (Option.some.inj hown))
      · cases hm
  named {j z m} hz hm := by
    rcases set_cases hz with ⟨rfl, rfl⟩ | ⟨-, hz⟩
    · rw [hc]
      exact h.named hx (hn ▸ hm)
    · exact h.named hz hm
  constant {j z} hz hzc := by
    rcases set_cases hz with ⟨rfl, rfl⟩ | ⟨-, hz⟩
    · exact ⟨hl, hf (hc ▸ hzc)⟩
    · exact h.constant hz hzc

/-- A value that was in no register is put into a free one. -/
lemma enter (h : Agrees g before [] ledger owner) (hx : ledger[i]? = some x)
    (hxa : x.node.isSome) (hxl : x.location = .none) (hxc : x.isConstant = false)
    (hfree : owner l = none) (hne : l ≠ .none)
    (ho' : ∀ q, owner' q = if q = l then some (.ofLocal i) else owner q)
    (hn : y.node = x.node) (hc : y.isConstant = false) (hl : y.location = l)
    (hr : Suits l y.registerFormat) :
    Agrees g before [] (ledger.setIfInBounds i y) owner' where
  nowhere := by rw [ho', if_neg hne.symm, h.nowhere]
  bound {q o} hq := by
    have hlt := (Array.getElem?_eq_some_iff.mp hx).1
    rw [ho'] at hq
    split at hq
    · rename_i hql
      obtain ⟨n, hn⟩ := Option.isSome_iff_exists.mp hxa
      obtain ⟨-, _, -, -, hi, -⟩ := h.named hx hn
      have ho := Option.some.inj hq
      exact ⟨i, y, ho.symm, ho ▸ hi, by simp [hlt], by rw [hl, hql]⟩
    · obtain ⟨j, z, rfl, hj, hz, hloc⟩ := h.bound hq
      have hij : i ≠ j := by
        rintro rfl
        rw [hx] at hz
        cases hz
        rw [← hloc, hxl, h.nowhere] at hq
        cases hq
      exact ⟨j, z, rfl, hj, by simp [hij, hz], hloc⟩
  resident {j z} hz hzl := by
    rcases set_cases hz with ⟨rfl, rfl⟩ | ⟨hij, hz⟩
    · refine ⟨hn ▸ hxa, hl ▸ hr, .inl ?_⟩
      rw [ho', hl, if_pos rfl]
    · obtain ⟨ha, hrf, hown | ⟨m, hm, -⟩⟩ := h.resident hz hzl
      · refine ⟨ha, hrf, .inl ?_⟩
        rw [ho', if_neg]
        · exact hown
        · intro heq
          rw [heq, hfree] at hown
          cases hown
      · cases hm
  named {j z m} hz hm := by
    rcases set_cases hz with ⟨rfl, rfl⟩ | ⟨-, hz⟩
    · rw [hc, ← hxc]
      exact h.named hx (hn ▸ hm)
    · exact h.named hz hm
  constant {j z} hz hzc := by
    rcases set_cases hz with ⟨rfl, rfl⟩ | ⟨-, hz⟩
    · rw [hc] at hzc
      cases hzc
    · exact h.constant hz hzc

lemma location_of_dead (h : Agrees g before pending ledger owner) (hx : ledger[i]? = some x)
    (hn : x.node = none) : x.location = .none := by
  by_contra hl
  have ha := (h.resident hx hl).1
  rw [hn] at ha
  cases ha

/-- A new value in a register, whose former owner, if there is one, is about to end. -/
lemma birth {d : Node} (h : Agrees g before [] ledger owner) (hx : ledger[i]? = some x)
    (hxn : x.node = none) (hd : g.nodes[n]? = some d) (hs : d.slot = some (.ofLocal i))
    (hi : (Slot.ofLocal i).local? = some i) (hdc : d.op.isConstant = false)
    (hdying : ∀ (j : Nat) (z : ValueInfo), ledger[j]? = some z → z.location = l →
      ∃ m ∈ pending, z.node = some m ∧ z.useCount = 1)
    (hne : l ≠ .none) (ho' : ∀ q, owner' q = if q = l then some (.ofLocal i) else owner q)
    (hn : y.node = some n) (hc : y.isConstant = false) (hl : y.location = l)
    (hr : Suits l y.registerFormat) :
    Agrees g (n :: before) pending (ledger.setIfInBounds i y) owner' where
  nowhere := by rw [ho', if_neg hne.symm, h.nowhere]
  bound {q o} hq := by
    have hlt := (Array.getElem?_eq_some_iff.mp hx).1
    rw [ho'] at hq
    split at hq
    · rename_i hql
      have ho := Option.some.inj hq
      exact ⟨i, y, ho.symm, ho ▸ hi, by simp [hlt], by rw [hl, hql]⟩
    · obtain ⟨j, z, rfl, hj, hz, hloc⟩ := h.bound hq
      have hij : i ≠ j := by
        rintro rfl
        rw [hx] at hz
        cases hz
        rw [← hloc, h.location_of_dead hx hxn, h.nowhere] at hq
        cases hq
      exact ⟨j, z, rfl, hj, by simp [hij, hz], hloc⟩
  resident {j z} hz hzl := by
    rcases set_cases hz with ⟨rfl, rfl⟩ | ⟨hij, hz⟩
    · refine ⟨by simp [hn], hl ▸ hr, .inl ?_⟩
      rw [ho', hl, if_pos rfl]
    · obtain ⟨ha, hrf, hown | ⟨m, hm, -⟩⟩ := h.resident hz hzl
      · refine ⟨ha, hrf, ?_⟩
        by_cases hzq : z.location = l
        · exact .inr (hdying j z hz hzq)
        · exact .inl (by rw [ho', if_neg hzq, hown])
      · cases hm
  named {j z m} hz hm := by
    rcases set_cases hz with ⟨rfl, rfl⟩ | ⟨-, hz⟩
    · obtain rfl : n = m := by rw [hn] at hm; exact Option.some.inj hm
      exact ⟨List.mem_cons_self, d, hd, hs, hi, by rw [hdc, hc]⟩
    · obtain ⟨hb, hd⟩ := h.named hz hm
      exact ⟨List.mem_cons_of_mem _ hb, hd⟩
  constant {j z} hz hzc := by
    rcases set_cases hz with ⟨rfl, rfl⟩ | ⟨-, hz⟩
    · rw [hc] at hzc
      cases hzc
    · exact h.constant hz hzc

lemma record {d : Node} (h : Agrees g before [] ledger owner) (hx : ledger[i]? = some x)
    (hxn : x.node = none) (hd : g.nodes[n]? = some d) (hs : d.slot = some (.ofLocal i))
    (hi : (Slot.ofLocal i).local? = some i) (hdc : d.op.isConstant = true)
    (hn : y.node = some n) (hc : y.isConstant = true) (hl : y.location = .none)
    (hf : y.spillFormat = .none) :
    Agrees g (n :: before) [] (ledger.setIfInBounds i y) owner where
  nowhere := h.nowhere
  bound {q o} hq := by
    obtain ⟨j, z, rfl, hj, hz, hloc⟩ := h.bound hq
    have hij : i ≠ j := by
      rintro rfl
      rw [hx] at hz
      cases hz
      rw [← hloc, h.location_of_dead hx hxn, h.nowhere] at hq
      cases hq
    exact ⟨j, z, rfl, hj, by simp [hij, hz], hloc⟩
  resident {j z} hz hzl := by
    rcases set_cases hz with ⟨rfl, rfl⟩ | ⟨-, hz⟩
    · exact absurd hl hzl
    · exact h.resident hz hzl
  named {j z m} hz hm := by
    rcases set_cases hz with ⟨rfl, rfl⟩ | ⟨-, hz⟩
    · obtain rfl : n = m := by rw [hn] at hm; exact Option.some.inj hm
      exact ⟨List.mem_cons_self, d, hd, hs, hi, by rw [hdc, hc]⟩
    · obtain ⟨hb, hd⟩ := h.named hz hm
      exact ⟨List.mem_cons_of_mem _ hb, hd⟩
  constant {j z} hz hzc := by
    rcases set_cases hz with ⟨rfl, rfl⟩ | ⟨-, hz⟩
    · exact ⟨hl, hf⟩
    · exact h.constant hz hzc

/-- An operand that is not about to end is not pending. -/
lemma drop (h : Agrees g before (n :: pending) ledger owner)
    (hn : ∀ (j : Nat) (z : ValueInfo), ledger[j]? = some z → z.node = some n → z.useCount ≠ 1) :
    Agrees g before pending ledger owner where
  nowhere := h.nowhere
  bound := h.bound
  resident {j z} hz hzl := by
    obtain ⟨ha, hf, ho | ⟨m, hm, hzm, hzu⟩⟩ := h.resident hz hzl
    · exact ⟨ha, hf, .inl ho⟩
    · rcases List.mem_cons.mp hm with rfl | hm
      · exact absurd hzu (hn j z hz hzm)
      · exact ⟨ha, hf, .inr ⟨m, hm, hzm, hzu⟩⟩
  named := h.named
  constant := h.constant

/-- A value ends, and its register is unbound if it is still its own. -/
lemma die (h : Agrees g before (n :: pending) ledger owner) (hx : ledger[i]? = some x)
    (hxn : x.node = some n)
    (ho' : ∀ q, owner' q =
      if q = x.location ∧ owner q = some (.ofLocal i) then none else owner q)
    (hy : y = .dead) : Agrees g before pending (ledger.setIfInBounds i y) owner' where
  nowhere := by
    rw [ho', h.nowhere]
    split <;> rfl
  bound {q o} hq := by
    rw [ho'] at hq
    split at hq
    · cases hq
    · rename_i hne
      obtain ⟨j, z, rfl, hj, hz, hloc⟩ := h.bound hq
      have hij : i ≠ j := by
        rintro rfl
        rw [hx] at hz
        cases hz
        exact hne ⟨hloc.symm, hq⟩
      exact ⟨j, z, rfl, hj, by simp [hij, hz], hloc⟩
  resident {j z} hz hzl := by
    rcases set_cases hz with ⟨rfl, rfl⟩ | ⟨hij, hz⟩
    · subst hy
      exact absurd rfl hzl
    · obtain ⟨ha, hf, hown | ⟨m, hm, hzm, hzu⟩⟩ := h.resident hz hzl
      · refine ⟨ha, hf, .inl ?_⟩
        rw [ho', if_neg]
        · exact hown
        · rintro ⟨-, hown'⟩
          rw [hown] at hown'
          exact hij (h.index_inj hx hz (by simp [hxn]) ha (Option.some.inj hown').symm)
      · rcases List.mem_cons.mp hm with rfl | hm
        · obtain ⟨-, d, hd, hs, -⟩ := h.named hx hxn
          obtain ⟨-, d', hd', hs', -⟩ := h.named hz hzm
          rw [hd] at hd'
          cases hd'
          rw [hs] at hs'
          exact absurd (h.index_inj hx hz (by simp [hxn]) ha (Option.some.inj hs')) hij
        · exact ⟨ha, hf, .inr ⟨m, hm, hzm, hzu⟩⟩
  named {j z m} hz hm := by
    rcases set_cases hz with ⟨rfl, rfl⟩ | ⟨-, hz⟩
    · subst hy
      cases hm
    · exact h.named hz hm
  constant {j z} hz hzc := by
    rcases set_cases hz with ⟨rfl, rfl⟩ | ⟨-, hz⟩
    · subst hy
      cases hzc
    · exact h.constant hz hzc

/-- Nothing is alive and nothing bound. -/
lemma reset {owner : Location → Option Slot} (ho : ∀ q, owner q = none)
    (hl : ∀ (i : Nat) (x : ValueInfo), ledger[i]? = some x → x = .dead) : Agrees g before pending ledger owner where
  nowhere := ho _
  bound {q o} hq := by
    rw [ho] at hq
    cases hq
  resident {j z} hz hzl := by
    rw [hl j z hz] at hzl
    exact absurd rfl hzl
  named {j z m} hz hm := by
    rw [hl j z hz] at hm
    cases hm
  constant {j z} hz hzc := by
    rw [hl j z hz] at hzc
    cases hzc

end Agrees

end Lowering
end Speculation
