import Speculation.Bank
import Mathlib.Tactic.Lemma
import Mathlib.Tactic.FinCases
import Mathlib.Tactic.IntervalCases

/-!
What the operations of a register bank do, seen through two views: the owner of a register and how
often it is locked.

Handing out a register has one law whichever way the register is chosen: it was not locked, its
owner is reported as evicted, and afterwards it has no owner and one lock.
-/

namespace Speculation

/-- The index of a register is its place among those the allocator hands out. -/
class LawfulRegisterClass (R : Type) [RegisterClass R] : Prop where
  index?_eq_some {r : R} {i : Nat} :
    RegisterClass.index? r = some i ↔ (RegisterClass.allocatable : List R)[i]? = some r

instance : LawfulRegisterClass Gpr where
  index?_eq_some {r i} := by
    constructor
    · revert r
      simp only [RegisterClass.index?, RegisterClass.allocatable]
      intro r h
      split at h
      · cases h
        revert r
        decide
      · cases h
    · intro h
      have hi : i < 12 := (List.getElem?_eq_some_iff.mp h).1
      interval_cases i <;> (cases h; rfl)

instance : LawfulRegisterClass Fpr where
  index?_eq_some {r i} := by
    constructor
    · revert r
      simp only [RegisterClass.index?, RegisterClass.allocatable]
      intro r h
      split at h
      · cases h
        revert r
        decide
      · cases h
    · intro h
      have hi : i < 8 := (List.getElem?_eq_some_iff.mp h).1
      interval_cases i <;> (cases h; rfl)

namespace Bank

variable {R : Type} [RegisterClass R] {b b' : Bank R} {r q : R}

def locksOf (b : Bank R) (r : R) : Nat := ((b.entryAt r).map BankEntry.locks).getD 0

lemma locksOf_eq_zero (h : b.isLocked r = false) : b.locksOf r = 0 := by
  unfold isLocked at h
  unfold locksOf
  rcases he : b.entryAt r with _ | e
  · rfl
  · simpa [he] using h

def Sound (b : Bank R) : Prop :=
  b.entries.toList.map BankEntry.register = RegisterClass.allocatable

lemma sound_new : (Bank.new R).Sound := by
  simp [Sound, Bank.new, Function.comp_def]

lemma Sound.modify {f : BankEntry R → BankEntry R} (hb : b.Sound)
    (hf : ∀ e, (f e).register = e.register) : (b.modify r f).Sound := by
  unfold Bank.modify
  split
  · rename_i i _
    unfold Sound at hb ⊢
    rw [← hb]
    apply List.ext_getElem?
    intro j
    simp only [List.getElem?_map, Array.getElem?_toList, Array.getElem?_modify]
    split <;> simp [hf, Function.comp_def]
  · exact hb

lemma entryAt_retain {s : Slot} {o : SpillOrder} :
    (b.retain r s o).entryAt q =
      (b.modify r fun e => { e with owner := some s, order := o, stamp := b.clock + 1 }).entryAt q := by
  unfold retain modify entryAt
  split <;> simp_all

lemma entryAt_map {f : BankEntry R → BankEntry R} :
    ({ b with entries := b.entries.map f } : Bank R).entryAt q = (b.entryAt q).map f := by
  unfold entryAt
  rcases RegisterClass.index? q <;> simp

@[simp] lemma owner_releaseAll : b.releaseAll.owner q = none := by
  unfold owner releaseAll
  rw [entryAt_map]
  rcases b.entryAt q <;> rfl

@[simp] lemma locksOf_releaseAll : b.releaseAll.locksOf q = b.locksOf q := by
  unfold locksOf releaseAll
  rw [entryAt_map]
  rcases b.entryAt q <;> rfl

lemma Sound.addLock (hb : b.Sound) : (b.addLock r).Sound := hb.modify fun _ => rfl

lemma Sound.unlock (hb : b.Sound) : (b.unlock r).Sound := hb.modify fun _ => rfl

lemma Sound.evict (hb : b.Sound) : (b.evict r).Sound := hb.modify fun _ => rfl

lemma Sound.release (hb : b.Sound) : (b.release r).Sound := hb.evict

lemma Sound.setOrder {o : SpillOrder} (hb : b.Sound) : (b.setOrder r o).Sound :=
  hb.modify fun _ => rfl

lemma Sound.retain {s : Slot} {o : SpillOrder} (hb : b.Sound) : (b.retain r s o).Sound := by
  have h := hb.modify (r := r)
    (f := fun e => { e with owner := some s, order := o, stamp := b.clock + 1 }) fun _ => rfl
  unfold Bank.retain
  split
  · exact h
  · exact hb

lemma Sound.releaseAll (hb : b.Sound) : b.releaseAll.Sound := by
  simpa [Sound, Bank.releaseAll, Function.comp_def] using hb

/-- A fold that keeps what it has or takes the next element ends with what it began with, or with an
element. -/
lemma foldl_eq_some {α : Type} {f : Option α → α → Option α}
    (hf : ∀ best x, f best x = some x ∨ f best x = best) {xs : List α} {best : Option α} {y : α}
    (h : xs.foldl f best = some y) : best = some y ∨ y ∈ xs := by
  induction xs generalizing best with
  | nil => exact .inl h
  | cons x xs ih =>
    rcases ih h with h | h
    · rcases hf best x with hx | hx
      · rw [hx] at h
        exact .inr (by simp_all)
      · exact .inl (hx ▸ h)
    · exact .inr (List.mem_cons_of_mem _ h)

/-- A fold that always has something from its first step on ends with something. -/
lemma isSome_foldl {α : Type} {f : Option α → α → Option α} (hf : ∀ best x, (f best x).isSome = true)
    {xs : List α} {best : Option α} (h : best.isSome = true ∨ xs ≠ []) :
    (xs.foldl f best).isSome = true := by
  induction xs generalizing best with
  | nil => simpa using h
  | cons x xs ih => exact ih (.inl (hf best x))

omit [RegisterClass R] in
lemma victim?_mem {e : BankEntry R} (h : b.victim? = some e) : e ∈ b.entries ∧ e.locks = 0 := by
  unfold victim? at h
  refine (foldl_eq_some (fun best d => ?_) h).elim (fun h => by cases h) fun h => by simpa using h
  cases best with
  | none => exact .inl rfl
  | some f =>
    dsimp only
    split
    · exact .inl rfl
    · exact .inr rfl

omit [RegisterClass R] in
lemma victim?_isSome {e : BankEntry R} (he : e ∈ b.entries) (hl : e.locks = 0) :
    b.victim?.isSome = true := by
  refine isSome_foldl (fun best d => ?_) (.inr (List.ne_nil_of_mem (a := e) (by simpa [hl] using he)))
  cases best with
  | none => rfl
  | some f =>
    dsimp only
    split <;> rfl

lemma lock_eq_ok (h : b.lock r = .ok b') :
    b' = b.addLock r ∧ (RegisterClass.index? r).isSome := by
  unfold lock at h
  split at h
  · rename_i i hi
    cases h
    exact ⟨rfl, by simp [hi]⟩
  · cases h

variable [LawfulRegisterClass R]

lemma index?_inj {i : Nat} (h : RegisterClass.index? r = some i)
    (h' : RegisterClass.index? q = some i) : r = q := by
  rw [LawfulRegisterClass.index?_eq_some] at h h'
  rw [h] at h'
  exact Option.some.inj h'

lemma entryAt_modify {f : BankEntry R → BankEntry R} [DecidableEq R] :
    (b.modify r f).entryAt q = if q = r then (b.entryAt q).map f else b.entryAt q := by
  unfold modify entryAt
  rcases hr : RegisterClass.index? r with _ | i
  · by_cases h : q = r
    · subst h
      simp [hr]
    · simp [h]
  · rcases hq : RegisterClass.index? q with _ | j
    · have hne : q ≠ r := by rintro rfl; simp_all
      simp [hne]
    · by_cases h : q = r
      · subst h
        obtain rfl : i = j := by simpa [hr] using hq
        simp [Array.getElem?_modify]
      · have hij : i ≠ j := by
          rintro rfl
          exact h (index?_inj hq hr)
        simp [Array.getElem?_modify, h, hij]

lemma Sound.entryAt_of_mem (hb : b.Sound) {e : BankEntry R} (he : e ∈ b.entries) :
    b.entryAt e.register = some e := by
  obtain ⟨i, hi⟩ := List.getElem?_of_mem (Array.mem_toList_iff.mpr he)
  have hr : (b.entries.toList.map BankEntry.register)[i]? = some e.register := by
    rw [List.getElem?_map, hi]
    rfl
  rw [hb, ← LawfulRegisterClass.index?_eq_some] at hr
  simp only [entryAt, hr, Option.bind_some]
  simpa using hi

lemma Sound.register_of_entryAt (hb : b.Sound) {e : BankEntry R} (he : b.entryAt r = some e) :
    e.register = r := by
  obtain ⟨i, hi, he⟩ := Option.bind_eq_some_iff.mp he
  have hr : (b.entries.toList.map BankEntry.register)[i]? = some e.register := by
    rw [List.getElem?_map, Array.getElem?_toList, he]
    rfl
  rw [hb] at hr
  rw [LawfulRegisterClass.index?_eq_some, hr] at hi
  exact Option.some.inj hi

lemma Sound.entryAt_isSome (hb : b.Sound) :
    (b.entryAt r).isSome ↔ (RegisterClass.index? r).isSome := by
  unfold entryAt
  rcases hr : RegisterClass.index? r with _ | i
  · simp
  · rw [LawfulRegisterClass.index?_eq_some, ← hb, List.getElem?_map] at hr
    simp only [Option.bind_some, Option.isSome_some, iff_true]
    rw [← Array.getElem?_toList]
    rcases h : b.entries.toList[i]? with _ | e
    · rw [h] at hr
      cases hr
    · rfl

lemma mem_allocatable {e : BankEntry R} (he : b.entryAt r = some e) :
    r ∈ (RegisterClass.allocatable : List R) := by
  obtain ⟨i, hi, -⟩ := Option.bind_eq_some_iff.mp he
  exact List.mem_of_getElem? (LawfulRegisterClass.index?_eq_some.mp hi)

lemma mem_allocatable_of_owner {o : Slot} (h : b.owner r = some o) :
    r ∈ (RegisterClass.allocatable : List R) :=
  let ⟨_, he, _⟩ := Option.bind_eq_some_iff.mp h
  mem_allocatable he

lemma mem_allocatable_of_locksOf (h : 0 < b.locksOf r) :
    r ∈ (RegisterClass.allocatable : List R) := by
  unfold locksOf at h
  rcases he : b.entryAt r with _ | e
  · simp [he] at h
  · exact mem_allocatable he

/-- The list of bound registers is the graph of `owner`. -/
lemma Sound.mem_bound (hb : b.Sound) {o : Slot} : (r, o) ∈ b.bound ↔ b.owner r = some o := by
  unfold bound owner
  simp only [List.mem_filterMap, Array.mem_toList_iff, Option.map_eq_some_iff, Prod.mk.injEq,
    Option.bind_eq_some_iff]
  constructor
  · rintro ⟨e, he, _, ho, rfl, rfl⟩
    exact ⟨e, hb.entryAt_of_mem he, ho⟩
  · rintro ⟨e, he, ho⟩
    have hr := hb.register_of_entryAt he
    obtain ⟨i, -, hi⟩ := Option.bind_eq_some_iff.mp he
    exact ⟨e, Array.mem_of_getElem? hi, o, ho, hr, rfl⟩

lemma Sound.anyLocked_eq_false (hb : b.Sound) : b.anyLocked = false ↔ ∀ r, b.locksOf r = 0 := by
  unfold anyLocked locksOf
  rw [Array.any_eq_false']
  simp only [decide_eq_true_eq, not_lt, Nat.le_zero]
  constructor
  · intro h r
    rcases he : b.entryAt r with _ | e
    · rfl
    · obtain ⟨i, -, hi⟩ := Option.bind_eq_some_iff.mp he
      exact h e (Array.mem_of_getElem? hi)
  · intro h e he
    simpa [hb.entryAt_of_mem he] using h e.register

variable [DecidableEq R]

lemma owner_modify {f : BankEntry R → BankEntry R} :
    (b.modify r f).owner q =
      if q = r then (b.entryAt q).bind fun e => (f e).owner else b.owner q := by
  unfold owner
  rw [entryAt_modify]
  split
  · rw [Option.bind_map]
    rfl
  · rfl

lemma locksOf_modify {f : BankEntry R → BankEntry R} :
    (b.modify r f).locksOf q =
      if q = r then ((b.entryAt q).map fun e => (f e).locks).getD 0 else b.locksOf q := by
  unfold locksOf
  rw [entryAt_modify]
  split
  · rw [Option.map_map]
    rfl
  · rfl

@[simp] lemma owner_addLock : (b.addLock r).owner q = b.owner q := by
  rw [addLock, owner_modify]
  split <;> rfl

lemma locksOf_addLock (hr : (b.entryAt r).isSome) :
    (b.addLock r).locksOf q = if q = r then b.locksOf q + 1 else b.locksOf q := by
  rw [addLock, locksOf_modify]
  split
  · subst q
    obtain ⟨e, he⟩ := Option.isSome_iff_exists.mp hr
    simp [locksOf, he]
  · rfl

@[simp] lemma owner_unlock : (b.unlock r).owner q = b.owner q := by
  rw [unlock, owner_modify]
  split <;> rfl

lemma locksOf_unlock :
    (b.unlock r).locksOf q = if q = r then b.locksOf q - 1 else b.locksOf q := by
  rw [unlock, locksOf_modify]
  split
  · subst q
    rcases h : b.entryAt r <;> simp [locksOf, h]
  · rfl

lemma owner_evict : (b.evict r).owner q = if q = r then none else b.owner q := by
  rw [evict, owner_modify]
  split
  · simp
  · rfl

@[simp] lemma locksOf_evict : (b.evict r).locksOf q = b.locksOf q := by
  rw [evict, locksOf_modify]
  split <;> rfl

lemma owner_release : (b.release r).owner q = if q = r then none else b.owner q := owner_evict

@[simp] lemma locksOf_release : (b.release r).locksOf q = b.locksOf q := locksOf_evict

@[simp] lemma owner_setOrder {o : SpillOrder} : (b.setOrder r o).owner q = b.owner q := by
  rw [setOrder, owner_modify]
  split <;> rfl

@[simp] lemma locksOf_setOrder {o : SpillOrder} : (b.setOrder r o).locksOf q = b.locksOf q := by
  rw [setOrder, locksOf_modify]
  split <;> rfl

lemma owner_retain {s : Slot} {o : SpillOrder} (hr : (b.entryAt r).isSome) :
    (b.retain r s o).owner q = if q = r then some s else b.owner q := by
  obtain ⟨e, he⟩ := Option.isSome_iff_exists.mp hr
  unfold owner
  rw [entryAt_retain, entryAt_modify]
  split
  · subst q
    simp [he]
  · rfl

@[simp] lemma locksOf_retain {s : Slot} {o : SpillOrder} :
    (b.retain r s o).locksOf q = b.locksOf q := by
  unfold locksOf
  rw [entryAt_retain, entryAt_modify]
  split
  · rw [Option.map_map]
    rfl
  · rfl

/-! ### Handing out registers -/

/-- The register has one lock more, and the others have as many as before. -/
def Adds (b : Bank R) (r : R) (b' : Bank R) : Prop :=
  ∀ q, b'.locksOf q = if q = r then b.locksOf q + 1 else b.locksOf q

/-- What handing out a register does: it was unlocked, its owner is reported, and it ends up without
owner and with one lock. All other registers are as before. -/
structure Hands (b : Bank R) (a : Allocation R) (b' : Bank R) : Prop where
  sound : b'.Sound
  present : (b'.entryAt a.register).isSome
  unlocked : b.locksOf a.register = 0
  evicted : a.evicted = b.owner a.register
  owner (q : R) : b'.owner q = if q = a.register then none else b.owner q
  locks (q : R) : b'.locksOf q = if q = a.register then 1 else b.locksOf q

omit [LawfulRegisterClass R] in
lemma Hands.adds {a : Allocation R} (h : Hands b a b') : b.Adds a.register b' := by
  intro q
  rw [h.locks]
  split
  · rename_i hq
    rw [hq, h.unlocked]
  · rfl

/-- Evicting and locking an unlocked register hands it out. -/
lemma Sound.hands_evict (hb : b.Sound) {e : BankEntry R} (he : b.entryAt r = some e)
    (hl : e.locks = 0) :
    Hands b { register := r, evicted := e.owner } ((b.evict r).addLock r) where
  sound := hb.evict.addLock
  present := by
    rw [hb.evict.addLock.entryAt_isSome, ← hb.entryAt_isSome, he]
    rfl
  unlocked := by simp [locksOf, he, hl]
  evicted := by simp [Bank.owner, he]
  owner q := by
    rw [owner_addLock, owner_evict]
  locks q := by
    have hr : ((b.evict r).entryAt r).isSome := by
      rw [hb.evict.entryAt_isSome, ← hb.entryAt_isSome, he]
      rfl
    rw [locksOf_addLock hr, locksOf_evict]
    split
    · subst q
      simp [locksOf, he, hl]
    · rfl

lemma Sound.allocate (hb : b.Sound) {a : Allocation R} (h : b.allocate = .ok (a, b')) :
    Hands b a b' := by
  unfold Bank.allocate at h
  split at h
  · rename_i e he
    have hmem := Array.mem_of_find?_eq_some he
    have hp := Array.find?_some he
    simp only [Bool.and_eq_true, Option.isNone_iff_eq_none, beq_iff_eq] at hp
    have hent := hb.entryAt_of_mem hmem
    cases h
    -- a free register has nothing to evict
    have hfree : b.owner e.register = none := by simp [Bank.owner, hent, hp.1]
    have hh := hb.hands_evict hent hp.2
    have hl : (b.entryAt e.register).isSome := by simp [hent]
    refine ⟨hb.addLock, ?_, hh.unlocked, hfree.symm, fun q => ?_, fun q => ?_⟩
    · rw [hb.addLock.entryAt_isSome, ← hb.entryAt_isSome, hent]
      rfl
    · rw [owner_addLock]
      split
      · subst q
        exact hfree
      · rfl
    · rw [locksOf_addLock hl]
      split
      · subst q
        simp [locksOf, hent, hp.2]
      · rfl
  · split at h
    · rename_i e he
      cases h
      obtain ⟨hmem, hl⟩ := victim?_mem he
      exact hb.hands_evict (hb.entryAt_of_mem hmem) hl
    · cases h

omit [DecidableEq R] in
lemma Sound.exists_allocate (hb : b.Sound) (hr : (RegisterClass.index? r).isSome = true)
    (hl : b.locksOf r = 0) : ∃ a b', b.allocate = .ok (a, b') := by
  obtain ⟨e, he⟩ := Option.isSome_iff_exists.mp (hb.entryAt_isSome.mpr hr)
  have hmem : e ∈ b.entries := by
    obtain ⟨i, -, hi⟩ := Option.bind_eq_some_iff.mp he
    exact Array.mem_of_getElem? hi
  have hlocks : e.locks = 0 := by simpa [locksOf, he] using hl
  unfold Bank.allocate
  split
  · exact ⟨_, _, rfl⟩
  · obtain ⟨f, hf⟩ := Option.isSome_iff_exists.mp (victim?_isSome hmem hlocks)
    rw [hf]
    exact ⟨_, _, rfl⟩

lemma Sound.allocatePreferring (hb : b.Sound) {a : Allocation R}
    (h : b.allocatePreferring r = .ok (a, b')) : Hands b a b' := by
  unfold Bank.allocatePreferring at h
  split at h
  · cases h
  · rename_i e he
    split at h
    · exact hb.allocate h
    · cases h
      exact hb.hands_evict he (by omega)

end Bank

end Speculation
