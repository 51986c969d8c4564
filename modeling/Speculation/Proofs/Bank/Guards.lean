import Speculation.Bank.Guards
import Speculation.Proofs.Bank
import Mathlib.Data.Prod.Lex

/-!
The discipline of a register bank.

Whatever is done with a bank, a register is locked as often as there are guards for it, and which
register is handed out follows from what was done: the preferred one, or the first one that is free,
or the one whose value is given up first. The order in which values are given up is read off the past
and not off the bank: it is the spill order that a register was last given, and then the moment at
which it was last bound.
-/

namespace Speculation

inductive BankAction (R : Type) where
  | allocate (name : String)
  | prefer (name : String) (r : R)
  | lock (name : String) (r : R)
  | clone (name old : String)
  | drop (name : String)
  | retain (r : R) (owner : Slot) (order : SpillOrder)
  | setOrder (r : R) (order : SpillOrder)
  | release (r : R)
  | releaseAll

namespace BankAction

variable {R : Type} {past : List (BankAction R)} {a : BankAction R} {r q : R} {s : Slot} {o : SpillOrder}

def Rebinds : BankAction R → R → Prop
  | retain r _ _, q | release r, q => q = r
  | releaseAll, _ => True
  | _, _ => False

def Orders : BankAction R → R → Prop
  | retain r _ _, q | setOrder r _, q => q = r
  | _, _ => False

variable [DecidableEq R]

def lastBound (r : R) : List (BankAction R) → Nat
  | [] => 0
  | retain q _ _ :: past => if r = q then past.length + 1 else lastBound r past
  | _ :: past => lastBound r past

def lastOrder (r : R) : List (BankAction R) → SpillOrder
  | [] => .free
  | retain q _ o :: past | setOrder q o :: past => if r = q then o else lastOrder r past
  | _ :: past => lastOrder r past

/-- Values are given up by spill order, and those of one order by when they were bound. -/
def spillKey (past : List (BankAction R)) (r : R) : ℕ ×ₗ ℕ :=
  toLex ((lastOrder r past).rank, lastBound r past)

lemma lastBound_le : lastBound r past ≤ past.length := by
  induction past with
  | nil => exact Nat.le_refl 0
  | cons a past ih =>
    have hle := Nat.le_succ_of_le ih
    cases a with
    | retain q s o =>
      rw [lastBound]
      split
      · exact Nat.le_refl _
      · exact hle
    | _ => exact hle

/-- Registers are bound one at a time. -/
lemma lastBound_inj (h : lastBound r past = lastBound q past) (hr : 0 < lastBound r past) : r = q := by
  induction past with
  | nil => exact absurd hr (Nat.lt_irrefl 0)
  | cons a past ih =>
    cases a with
    | retain p s o =>
      have hlast : ∀ t : R, lastBound t past ≤ past.length := fun _ => lastBound_le
      simp only [lastBound] at h hr
      split at h <;> rename_i hrp
      · split at h <;> rename_i hqp
        · exact hrp.trans hqp.symm
        · exact absurd (hlast q) (by omega)
      · split at h
        · exact absurd (hlast r) (by omega)
        · rw [if_neg hrp] at hr
          exact ih h hr
    | _ => exact ih h hr

lemma lastBound_cons (h : ¬a.Orders r) : lastBound r (a :: past) = lastBound r past := by
  cases a with
  | retain q s o => exact if_neg h
  | _ => rfl

lemma lastOrder_cons (h : ¬a.Orders r) : lastOrder r (a :: past) = lastOrder r past := by
  cases a with
  | retain q s o => exact if_neg h
  | setOrder q o => exact if_neg h
  | _ => rfl

end BankAction

/-! ### Banks -/

def BankEntry.key {R : Type} (e : BankEntry R) : ℕ ×ₗ ℕ := toLex (e.order.rank, e.stamp)

namespace Bank

variable {R : Type} [RegisterClass R] {b b' b'' : Bank R} {r q : R} {e f : BankEntry R} {s : Slot}
  {o : SpillOrder}

def orderOf (b : Bank R) (r : R) : SpillOrder := ((b.entryAt r).map BankEntry.order).getD .free

def stampOf (b : Bank R) (r : R) : Nat := ((b.entryAt r).map BankEntry.stamp).getD 0

omit [RegisterClass R] in
lemma cheaper_iff : cheaper e f = true ↔ e.key < f.key := by
  simp [cheaper, BankEntry.key, Prod.Lex.toLex_lt_toLex]

omit [RegisterClass R] in
/-- A fold that keeps the lesser of what it has and the next element ends with the least. -/
lemma foldl_le {xs : List (BankEntry R)} {best : Option (BankEntry R)}
    (h : xs.foldl (fun best e =>
      match best with
      | none => some e
      | some f => if cheaper e f then some e else some f) best = some e) :
    (∀ f ∈ best, e.key ≤ f.key) ∧ ∀ f ∈ xs, e.key ≤ f.key := by
  induction xs generalizing best with
  | nil =>
    cases h
    exact ⟨by simp, nofun⟩
  | cons x xs ih =>
    obtain ⟨hbest, hxs⟩ := ih h
    rcases best with _ | f
    · exact ⟨nofun, List.forall_mem_cons.mpr ⟨hbest x rfl, hxs⟩⟩
    · by_cases hc : cheaper x f = true
      · have hx : e.key ≤ x.key := hbest x (by simp [hc])
        have hf : e.key ≤ f.key := hx.trans (cheaper_iff.mp hc).le
        exact ⟨by simpa using hf, List.forall_mem_cons.mpr ⟨hx, hxs⟩⟩
      · have hf : e.key ≤ f.key := hbest f (by simp [hc])
        have hx : e.key ≤ x.key := hf.trans (not_lt.mp (cheaper_iff.not.mp hc))
        exact ⟨by simpa using hf, List.forall_mem_cons.mpr ⟨hx, hxs⟩⟩

omit [RegisterClass R] in
lemma victim?_le (h : b.victim? = some e) (hf : f ∈ b.entries) (hl : f.locks = 0) :
    e.key ≤ f.key :=
  (foldl_le h).2 f (by simpa [hl] using hf)

/-- Registers may have lost their owners; otherwise nothing about owners has changed. -/
structure Loses (b b' : Bank R) : Prop where
  clock : b'.clock = b.clock
  stamp (r : R) : b'.stampOf r = b.stampOf r
  owned {r : R} {s : Slot} (h : b'.owner r = some s) :
    b.owner r = some s ∧ b'.orderOf r = b.orderOf r

lemma Loses.refl (b : Bank R) : Loses b b := ⟨rfl, fun _ => rfl, fun h => ⟨h, rfl⟩⟩

lemma Loses.trans (h : Loses b b') (h' : Loses b' b'') : Loses b b'' where
  clock := h'.clock.trans h.clock
  stamp r := (h'.stamp r).trans (h.stamp r)
  owned hs :=
    let ⟨hs', ho'⟩ := h'.owned hs
    let ⟨hs, ho⟩ := h.owned hs'
    ⟨hs, ho'.trans ho⟩

lemma loses_releaseAll : Loses b b.releaseAll where
  clock := rfl
  stamp r := by
    unfold stampOf releaseAll
    rw [entryAt_map]
    rcases b.entryAt r <;> rfl
  owned h := by
    rw [owner_releaseAll] at h
    cases h

lemma isLocked_eq_false : b.isLocked r = false ↔ b.locksOf r = 0 := by
  unfold isLocked locksOf
  rcases b.entryAt r with _ | e <;> simp

lemma clock_modify {f : BankEntry R → BankEntry R} : (b.modify r f).clock = b.clock := by
  unfold modify
  split <;> rfl

variable [LawfulRegisterClass R] [DecidableEq R]

lemma orderOf_modify {f : BankEntry R → BankEntry R} :
    (b.modify r f).orderOf q =
      if q = r then ((b.entryAt q).map fun e => (f e).order).getD .free else b.orderOf q := by
  unfold orderOf
  rw [entryAt_modify]
  split
  · rw [Option.map_map]
    rfl
  · rfl

lemma stampOf_modify {f : BankEntry R → BankEntry R} :
    (b.modify r f).stampOf q =
      if q = r then ((b.entryAt q).map fun e => (f e).stamp).getD 0 else b.stampOf q := by
  unfold stampOf
  rw [entryAt_modify]
  split
  · rw [Option.map_map]
    rfl
  · rfl

/-- Only the locks of a register have changed. -/
lemma loses_modify_locks {f : BankEntry R → BankEntry R}
    (hf : ∀ e, (f e).owner = e.owner ∧ (f e).order = e.order ∧ (f e).stamp = e.stamp) :
    Loses b (b.modify r f) where
  clock := clock_modify
  stamp q := by
    rw [stampOf_modify]
    simp [hf, stampOf]
  owned {q s} h := by
    rw [owner_modify] at h
    rw [orderOf_modify]
    simp only [hf] at h ⊢
    refine ⟨?_, ite_self _⟩
    split at h
    · exact h
    · exact h

lemma loses_addLock : Loses b (b.addLock r) := loses_modify_locks fun _ => ⟨rfl, rfl, rfl⟩

lemma loses_unlock : Loses b (b.unlock r) := loses_modify_locks fun _ => ⟨rfl, rfl, rfl⟩

lemma loses_evict : Loses b (b.evict r) where
  clock := clock_modify
  stamp q := by
    rw [evict, stampOf_modify]
    split <;> rfl
  owned {q s} h := by
    rw [owner_evict] at h
    split at h
    · cases h
    · rename_i hq
      rw [evict, orderOf_modify, if_neg hq]
      exact ⟨h, rfl⟩

lemma loses_allocate {a : Allocation R} (h : b.allocate = .ok (a, b')) :
    Loses b b' := by
  unfold Bank.allocate at h
  split at h
  · cases h
    exact loses_addLock
  · split at h
    · cases h
      exact loses_evict.trans loses_addLock
    · cases h

lemma loses_allocatePreferring {a : Allocation R} (h : b.allocatePreferring r = .ok (a, b')) :
    Loses b b' := by
  unfold Bank.allocatePreferring at h
  split at h
  · cases h
  · split at h
    · exact loses_allocate h
    · cases h
      exact loses_evict.trans loses_addLock

omit [DecidableEq R] [LawfulRegisterClass R] in
lemma entryAt_new (h : (Bank.new R).entryAt r = some e) : ∃ q, e = { register := q } := by
  obtain ⟨i, -, hi⟩ := Option.bind_eq_some_iff.mp h
  have hmem := Array.mem_of_getElem? hi
  simp only [Bank.new, List.mem_toArray, List.mem_map] at hmem
  obtain ⟨q, -, rfl⟩ := hmem
  exact ⟨q, rfl⟩

/-! ### The past -/

/-- What the bank keeps of the past: who was bound before whom, and with what spill order. -/
structure Recalls (past : List (BankAction R)) (b : Bank R) : Prop where
  sound : b.Sound
  clock (r : R) : b.stampOf r ≤ b.clock
  earlier {r q : R} (hr : r ∈ (RegisterClass.allocatable : List R))
    (hq : q ∈ (RegisterClass.allocatable : List R)) :
    b.stampOf r < b.stampOf q ↔ BankAction.lastBound r past < BankAction.lastBound q past
  owned {r : R} {s : Slot} (h : b.owner r = some s) :
    b.orderOf r = BankAction.lastOrder r past ∧ 0 < BankAction.lastBound r past

namespace Recalls

open BankAction

variable {past : List (BankAction R)} {a : BankAction R}

omit [LawfulRegisterClass R] in
lemma new : Recalls [] (.new R) where
  sound := sound_new
  clock r := by
    unfold stampOf
    rcases he : (Bank.new R).entryAt r with _ | e
    · exact Nat.le_refl 0
    · obtain ⟨q, rfl⟩ := entryAt_new he
      exact Nat.le_refl 0
  earlier {r q} _ _ := by
    have hzero : ∀ r, (Bank.new R).stampOf r = 0 := fun r => by
      unfold stampOf
      rcases he : (Bank.new R).entryAt r with _ | e
      · rfl
      · obtain ⟨p, rfl⟩ := entryAt_new he
        rfl
    rw [hzero, hzero]
    exact Iff.rfl
  owned {r s} h := by
    obtain ⟨e, he, hs⟩ := Option.bind_eq_some_iff.mp h
    obtain ⟨q, rfl⟩ := entryAt_new he
    cases hs

/-- The action gives no spill order to a register of the bank. -/
lemma of_loses (h : Recalls past b) (hl : Loses b b') (hs : b'.Sound)
    (ho : ∀ r ∈ (RegisterClass.allocatable : List R), ¬a.Orders r) : Recalls (a :: past) b' where
  sound := hs
  clock r := by
    rw [hl.stamp, hl.clock]
    exact h.clock r
  earlier {r q} hr hq := by
    rw [hl.stamp, hl.stamp, lastBound_cons (ho r hr), lastBound_cons (ho q hq)]
    exact h.earlier hr hq
  owned {r s} hs := by
    have hr := ho r (mem_allocatable_of_owner hs)
    obtain ⟨hs, horder⟩ := hl.owned hs
    rw [horder, lastBound_cons hr, lastOrder_cons hr]
    exact h.owned hs

lemma retain (h : Recalls past b) (s : Slot) (o : SpillOrder) :
    Recalls (.retain r s o :: past) (b.retain r s o) := by
  rcases hr : RegisterClass.index? r with _ | i
  · -- the register is none of the bank
    have hself : b.retain r s o = b := by rw [Bank.retain, hr]
    rw [hself]
    refine h.of_loses (.refl b) h.sound fun q hq => ?_
    rintro rfl
    obtain ⟨j, hj⟩ := List.mem_iff_getElem?.mp hq
    rw [LawfulRegisterClass.index?_eq_some.mpr hj] at hr
    cases hr
  obtain ⟨e, he⟩ := Option.isSome_iff_exists.mp (h.sound.entryAt_isSome.mpr (by rw [hr]; rfl))
  have hclock : (b.retain r s o).clock = b.clock + 1 := by rw [Bank.retain, hr]
  have hstamp : ∀ q, (b.retain r s o).stampOf q = if q = r then b.clock + 1 else b.stampOf q := by
    intro q
    unfold stampOf
    rw [entryAt_retain, entryAt_modify]
    split
    · subst q
      rw [he]
      rfl
    · rfl
  have horder : ∀ q, (b.retain r s o).orderOf q = if q = r then o else b.orderOf q := by
    intro q
    unfold orderOf
    rw [entryAt_retain, entryAt_modify]
    split
    · subst q
      rw [he]
      rfl
    · rfl
  have hbound : ∀ q, lastBound q (.retain r s o :: past) =
      if q = r then past.length + 1 else lastBound q past := fun _ => rfl
  refine ⟨h.sound.retain, fun q => ?_, fun {p q} hp hq => ?_, fun {q s'} hs => ?_⟩
  · rw [hstamp, hclock]
    split
    · exact Nat.le_refl _
    · exact Nat.le_succ_of_le (h.clock q)
  · have hlast : ∀ t : R, lastBound t past ≤ past.length := fun _ => lastBound_le
    have hp' := h.clock p
    have hq' := h.clock q
    rw [hstamp, hstamp, hbound, hbound]
    split <;> split
    · exact iff_of_false (Nat.lt_irrefl _) (Nat.lt_irrefl _)
    · exact iff_of_false (by omega) (by have := hlast q; omega)
    · exact iff_of_true (by omega) (by have := hlast p; omega)
    · exact h.earlier hp hq
  · rw [owner_retain (by rw [he]; rfl)] at hs
    rw [horder, hbound, lastOrder]
    split
    · exact ⟨rfl, Nat.succ_pos _⟩
    · rename_i hq
      rw [if_neg hq] at hs
      exact h.owned hs

lemma setOrder (h : Recalls past b) (o : SpillOrder) :
    Recalls (.setOrder r o :: past) (b.setOrder r o) := by
  have hstamp : ∀ q, (b.setOrder r o).stampOf q = b.stampOf q := by
    intro q
    rw [Bank.setOrder, stampOf_modify]
    split <;> rfl
  refine ⟨h.sound.setOrder, fun q => ?_, fun {p q} hp hq => ?_, fun {q s} hs => ?_⟩
  · rw [hstamp, Bank.setOrder, clock_modify]
    exact h.clock q
  · rw [hstamp, hstamp]
    exact h.earlier hp hq
  · rw [owner_setOrder] at hs
    obtain ⟨horder, hbound⟩ := h.owned hs
    refine ⟨?_, hbound⟩
    obtain ⟨e, he, -⟩ := Option.bind_eq_some_iff.mp hs
    rw [Bank.setOrder, orderOf_modify, lastOrder]
    split
    · rw [he]
      rfl
    · exact horder

/-- The place of an owned register among those that are given up is the one that the past gives it. -/
lemma key_lt (h : Recalls past b) {e f : BankEntry R} (he : e ∈ b.entries) (hf : f ∈ b.entries)
    (heo : e.owner.isSome) (hfo : f.owner.isSome) (hle : e.key ≤ f.key)
    (hne : f.register ≠ e.register) : spillKey past e.register < spillKey past f.register := by
  have hentry := h.sound.entryAt_of_mem he
  have hentry' := h.sound.entryAt_of_mem hf
  have hown : ∀ {d : BankEntry R}, b.entryAt d.register = some d → d.owner.isSome →
      d.order = lastOrder d.register past ∧ 0 < lastBound d.register past := by
    intro d hd ho
    obtain ⟨s, hs⟩ := Option.isSome_iff_exists.mp ho
    have := h.owned (r := d.register) (s := s) (by rw [Bank.owner, hd]; exact hs)
    rwa [orderOf, hd] at this
  obtain ⟨horder, hpos⟩ := hown hentry heo
  obtain ⟨horder', -⟩ := hown hentry' hfo
  have hnot : ¬f.stamp < e.stamp ↔ ¬lastBound f.register past < lastBound e.register past := by
    have := h.earlier (mem_allocatable hentry') (mem_allocatable hentry)
    rw [stampOf, stampOf, hentry, hentry'] at this
    exact not_congr this
  have hinj : lastBound e.register past ≠ lastBound f.register past :=
    fun heq => hne (lastBound_inj heq hpos).symm
  rw [BankEntry.key, BankEntry.key, Prod.Lex.toLex_le_toLex, horder, horder'] at hle
  rw [spillKey, spillKey, Prod.Lex.toLex_lt_toLex]
  refine hle.imp_right fun hrank => ⟨hrank.1, ?_⟩
  have := hnot.mp (Nat.not_lt.mpr hrank.2)
  dsimp only
  omega

end Recalls

/-! ### The choice of a register -/

def firstFree? (b : Bank R) : Option R :=
  RegisterClass.allocatable.find? fun r => !b.isLocked r && (b.owner r).isNone

omit [DecidableEq R] in
lemma Sound.firstFree?_eq (hb : b.Sound) : b.firstFree? =
    (b.entries.find? fun e => e.owner.isNone && e.locks == 0).map BankEntry.register := by
  have hsame : ∀ e ∈ b.entries.toList, (!b.isLocked e.register && (b.owner e.register).isNone) =
      (e.owner.isNone && e.locks == 0) := by
    intro e he
    have hentry := hb.entryAt_of_mem (Array.mem_toList_iff.mp he)
    have hlocks : (!decide (0 < e.locks)) = (e.locks == 0) := by
      rcases Nat.eq_zero_or_pos e.locks with h | h
      · simp [h]
      · simp [h, Nat.ne_of_gt h]
    simp [isLocked, Bank.owner, hentry, hlocks, Bool.and_comm]
  unfold firstFree?
  rw [← hb, List.find?_map, ← Array.find?_toList]
  congr 1
  generalize b.entries.toList = es at hsame
  induction es with
  | nil => rfl
  | cons e es ih =>
    obtain ⟨he, hes⟩ := List.forall_mem_cons.mp hsame
    rw [List.find?_cons, List.find?_cons, ih hes, Function.comp_apply, he]

/-- What is asked of the choice of a register: it is the first free one, or else the one that is given
up first of those that are not locked. -/
structure Chosen (past : List (BankAction R)) (b : Bank R) (x : Allocation R) : Prop where
  free (h : x.evicted = none) : b.firstFree? = some x.register
  owned (h : x.evicted ≠ none) : b.firstFree? = none
  least (h : x.evicted ≠ none) {q : R} (hq : q ∈ (RegisterClass.allocatable : List R))
    (hl : b.isLocked q = false) (hne : q ≠ x.register) :
    BankAction.spillKey past x.register < BankAction.spillKey past q

lemma Recalls.chosen {past : List (BankAction R)} {x : Allocation R} (h : Recalls past b)
    (hx : b.allocate = .ok (x, b')) : Chosen past b x := by
  have hfree := h.sound.firstFree?_eq
  unfold Bank.allocate at hx
  split at hx
  · rename_i e he
    rw [he] at hfree
    cases hx
    exact ⟨fun _ => hfree, fun h => absurd rfl h, fun h => absurd rfl h⟩
  · rename_i hnone
    rw [hnone] at hfree
    -- all registers that are not locked have owners
    have howner : ∀ e ∈ b.entries, e.locks = 0 → e.owner.isSome := by
      intro e he hl
      have := Array.find?_eq_none.mp hnone e he
      simpa [hl, Option.isSome_iff_ne_none] using this
    split at hx
    · rename_i e he
      cases hx
      obtain ⟨hmem, hl⟩ := victim?_mem he
      have heo := howner e hmem hl
      refine ⟨fun hnone => ?_, fun _ => hfree, fun _ {q} hq hql hne => ?_⟩
      · rw [Option.isSome_iff_ne_none] at heo
        exact absurd hnone heo
      · obtain ⟨i, hi⟩ := List.mem_iff_getElem?.mp hq
        obtain ⟨f, hf⟩ := Option.isSome_iff_exists.mp (h.sound.entryAt_isSome.mpr
          (Option.isSome_of_eq_some (LawfulRegisterClass.index?_eq_some.mpr hi)))
        obtain rfl := h.sound.register_of_entryAt hf
        obtain ⟨j, -, hj⟩ := Option.bind_eq_some_iff.mp hf
        have hfmem := Array.mem_of_getElem? hj
        have hfl : f.locks = 0 := by simpa [isLocked, hf] using hql
        exact h.key_lt hmem hfmem heo (howner f hfmem hfl) (victim?_le he hfmem hfl) hne
    · cases hx

lemma Hands.mem {x : Allocation R} (h : Hands b x b') :
    x.register ∈ (RegisterClass.allocatable : List R) :=
  mem_allocatable_of_locksOf (b := b') (by rw [h.locks, if_pos rfl]; exact Nat.one_pos)

omit [DecidableEq R] in
lemma Sound.allocatePreferring_eq_ok (hb : b.Sound) (hr : r ∈ (RegisterClass.allocatable : List R))
    (hl : b.isLocked r = false) :
    ∃ b', b.allocatePreferring r = .ok ({ register := r, evicted := b.owner r }, b') := by
  obtain ⟨i, hi⟩ := List.mem_iff_getElem?.mp hr
  obtain ⟨e, he⟩ := Option.isSome_iff_exists.mp (hb.entryAt_isSome.mpr
    (Option.isSome_of_eq_some (LawfulRegisterClass.index?_eq_some.mpr hi)))
  have hlocks : ¬0 < e.locks := by simpa [isLocked, he] using hl
  refine ⟨(b.evict r).addLock r, ?_⟩
  rw [Bank.allocatePreferring, Bank.owner, he]
  exact if_neg hlocks

omit [DecidableEq R] [LawfulRegisterClass R] in
lemma allocatePreferring_of_isLocked (hl : b.isLocked r = true) :
    b.allocatePreferring r = b.allocate := by
  rcases he : b.entryAt r with _ | e
  · rw [isLocked, he] at hl
    cases hl
  · have hlocks : 0 < e.locks := by simpa [isLocked, he] using hl
    rw [Bank.allocatePreferring, he]
    exact if_pos hlocks

omit [DecidableEq R] in
lemma allocatePreferring_of_not_mem (hr : r ∉ (RegisterClass.allocatable : List R)) :
    b.allocatePreferring r = .error (.internal (.notAllocatable (RegisterClass.location r))) := by
  rcases he : b.entryAt r with _ | e
  · rw [Bank.allocatePreferring, he]
  · exact absurd (mem_allocatable he) hr

lemma Sound.allocate_eq_error (hb : b.Sound) : b.allocate = .error (.internal .allLocked) ↔
    ∀ r ∈ (RegisterClass.allocatable : List R), b.isLocked r = true := by
  constructor
  · intro h r hr
    obtain ⟨i, hi⟩ := List.mem_iff_getElem?.mp hr
    by_contra hl
    obtain ⟨a, b', hok⟩ := hb.exists_allocate
      (Option.isSome_of_eq_some (LawfulRegisterClass.index?_eq_some.mpr hi))
      (isLocked_eq_false.mp (by simpa using hl))
    rw [h] at hok
    cases hok
  · intro h
    rcases hx : b.allocate with e | ⟨x, b'⟩
    · unfold Bank.allocate at hx
      split at hx
      · cases hx
      · split at hx
        · cases hx
        · exact hx.symm
    · have hh := hb.allocate hx
      have hlocked := h _ hh.mem
      rw [isLocked_eq_false.mpr hh.unlocked] at hlocked
      cases hlocked

end Bank

/-! ### Guards -/

namespace GuardedBank

variable {R : Type} [RegisterClass R] {b b' : GuardedBank R} {bank : Bank R} {r q : R} {name : String}

/-- What comes of an action: the register that it hands out or locks, if there is one, and the bank
afterwards. -/
def perform (b : GuardedBank R) : BankAction R →
    Except CompileError (Option (Bank.Allocation R) × GuardedBank R)
  | .allocate name => (b.allocate name).map fun (x, b) => (some x, b)
  | .prefer name r => (b.allocatePreferring name r).map fun (x, b) => (some x, b)
  | .lock name r => (b.lock name r).map fun (x, b) => (some x, b)
  | .clone name old => .ok (none, b.clone name old)
  | .drop name => .ok (none, b.drop name)
  | .retain r o k => .ok (none, { b with bank := b.bank.retain r o k })
  | .setOrder r k => .ok (none, { b with bank := b.bank.setOrder r k })
  | .release r => .ok (none, { b with bank := b.bank.release r })
  | .releaseAll => .ok (none, { b with bank := b.bank.releaseAll })

/-- The bank after an action; if that was refused, it is as before. -/
def next (b : GuardedBank R) (a : BankAction R) : GuardedBank R :=
  match b.perform a with
  | .ok (_, b') => b'
  | .error _ => b

/-- The bank after what was done, the latest first. -/
def after (R : Type) [RegisterClass R] : List (BankAction R) → GuardedBank R
  | [] => .new R
  | a :: past => (after R past).next a

variable [DecidableEq R]

def guardsOf (b : GuardedBank R) (r : R) : Nat := b.guards.countP fun g => g.2 = r

def guardsUnder (b : GuardedBank R) (name : String) (r : R) : Nat :=
  if b.guard? name = some r then 1 else 0

omit [RegisterClass R] in
/-- One guard fewer has the register. -/
lemma countP_filter_ne (name : String) {gs : List (String × R)} (hn : (gs.map Prod.fst).Nodup) :
    (gs.filter fun g => g.1 != name).countP (fun g => g.2 = r) +
      (if gs.lookup name = some r then 1 else 0) = gs.countP fun g => g.2 = r := by
  induction gs with
  | nil => rfl
  | cons g gs ih =>
    obtain ⟨hg, hn⟩ := List.nodup_cons.mp hn
    by_cases hname : g.1 = name
    · -- no other guard has the name
      have hself : gs.filter (fun g => g.1 != name) = gs := by
        refine List.filter_eq_self.mpr fun p hp => ?_
        have hne : p.1 ≠ name := fun h => hg (hname.trans h.symm ▸ List.mem_map_of_mem hp)
        simpa using hne
      obtain ⟨_, q⟩ := g
      subst hname
      simp [hself, List.countP_cons]
    · have hbeq : (name == g.1) = false := by simpa using Ne.symm hname
      rw [List.filter_cons_of_pos (by simpa using hname), List.countP_cons, List.countP_cons,
        List.lookup_cons, hbeq, ← ih hn]
      exact Nat.add_right_comm _ _ _

omit [RegisterClass R] in
lemma guardsUnder_eq (h : b.guard? name = none) : b.guardsUnder name r = 0 := by
  rw [guardsUnder, h]
  rfl

variable (name) in
lemma guardsOf_drop (hn : (b.guards.map Prod.fst).Nodup) :
    (b.drop name).guardsOf r + b.guardsUnder name r = b.guardsOf r := by
  have hcount := countP_filter_ne name (r := r) hn
  unfold drop
  split
  · exact hcount
  · rename_i hnone
    rw [guardsUnder_eq hnone, Nat.add_zero]

lemma locksOf_drop [LawfulRegisterClass R] :
    (b.drop name).bank.locksOf r = b.bank.locksOf r - b.guardsUnder name r := by
  unfold drop guardsUnder
  split
  · rename_i q hq
    dsimp only
    rw [Bank.locksOf_unlock, hq]
    by_cases h : r = q
    · rw [if_pos h, if_pos (congrArg some h.symm)]
    · rw [if_neg h, if_neg fun heq => h (Option.some.inj heq).symm, Nat.sub_zero]
  · rename_i hnone
    rw [hnone]
    rfl

lemma loses_drop [LawfulRegisterClass R] : Bank.Loses b.bank (b.drop name).bank := by
  unfold drop
  split
  · exact Bank.loses_unlock
  · exact .refl _

omit [DecidableEq R] in
lemma sound_drop (h : b.bank.Sound) : (b.drop name).bank.Sound := by
  unfold drop
  split
  · exact h.unlock
  · exact h

omit [DecidableEq R] in
lemma names_drop (name : String) (hn : (b.guards.map Prod.fst).Nodup) :
    ((b.drop name).guards.map Prod.fst).Nodup ∧ name ∉ (b.drop name).guards.map Prod.fst := by
  unfold drop
  split
  · refine ⟨hn.sublist (List.filter_sublist.map Prod.fst), fun hmem => ?_⟩
    obtain ⟨g, hg, hname⟩ := List.mem_map.mp hmem
    have hne := (List.mem_filter.mp hg).2
    rw [hname] at hne
    simp at hne
  · rename_i hnone
    refine ⟨hn, fun hmem => ?_⟩
    obtain ⟨g, hg, rfl⟩ := List.mem_map.mp hmem
    have := List.lookup_eq_none_iff.mp hnone g hg
    simp at this

variable [LawfulRegisterClass R]

/-- What holds after everything that was done: the bank recalls the past, every lock is that of a
guard, and guards go by their names. -/
structure Kept (past : List (BankAction R)) (b : GuardedBank R) : Prop where
  recalls : Bank.Recalls past b.bank
  locks (r : R) : b.bank.locksOf r = b.guardsOf r
  names : (b.guards.map Prod.fst).Nodup

namespace Kept

variable {past : List (BankAction R)} {a : BankAction R}

omit [LawfulRegisterClass R] in
lemma guardsUnder_le (h : (b.guards.map Prod.fst).Nodup) : b.guardsUnder name r ≤ b.guardsOf r :=
  guardsOf_drop name h ▸ Nat.le_add_left _ _

/-- A lock is dropped with its guard. -/
lemma drop (h : Kept past b) : Kept (.drop name :: past) (b.drop name) where
  recalls := h.recalls.of_loses loses_drop (sound_drop h.recalls.sound) fun _ _ => id
  locks q := by
    have := guardsOf_drop name (r := q) h.names
    rw [locksOf_drop, h.locks]
    omega
  names := (names_drop name h.names).1

lemma keep (h : Kept past b) (hs : bank.Sound) (hl : Bank.Loses b.bank bank)
    (hlocks : ∀ q, bank.locksOf q = b.bank.locksOf q + if q = r then 1 else 0)
    (ha : ∀ q, ¬a.Orders q) : Kept (a :: past) (b.keep bank name r) where
  recalls := h.recalls.of_loses (hl.trans (loses_drop (b := { b with bank })))
    (sound_drop (b := { b with bank }) hs) fun q _ => ha q
  locks q := by
    have hdrop := guardsOf_drop (b := { b with bank }) name (r := q) h.names
    have hold : guardsOf { b with bank } q = b.guardsOf q := rfl
    have hnew : (b.keep bank name r).guardsOf q =
        (({ b with bank } : GuardedBank R).drop name).guardsOf q + if q = r then 1 else 0 := by
      rw [guardsOf, GuardedBank.keep, List.countP_cons]
      by_cases hq : q = r
      · subst q
        simp [guardsOf]
      · simp [guardsOf, hq, Ne.symm hq]
    have hbank : (b.keep bank name r).bank.locksOf q =
        (({ b with bank } : GuardedBank R).drop name).bank.locksOf q := rfl
    have hlock : bank.locksOf q = _ := hlocks q
    rw [hnew, hbank, locksOf_drop]
    show bank.locksOf q - _ = _
    rw [hlock, h.locks]
    omega
  names := by
    obtain ⟨hnodup, hfree⟩ := names_drop (b := { b with bank }) name h.names
    exact List.nodup_cons.mpr ⟨hfree, hnodup⟩

/-- Nothing has happened to the bank. -/
lemma same (h : Kept past b) (ha : ∀ q, ¬a.Orders q) : Kept (a :: past) b :=
  ⟨h.recalls.of_loses (.refl _) h.recalls.sound fun q _ => ha q, h.locks, h.names⟩

omit [LawfulRegisterClass R] in
/-- The guards stay as they are. -/
lemma change (h : Kept past b) (hr : Bank.Recalls (a :: past) bank)
    (hlocks : ∀ q, bank.locksOf q = b.bank.locksOf q) :
    Kept (a :: past) { b with bank } :=
  ⟨hr, fun q => (hlocks q).trans (h.locks q), h.names⟩

omit [LawfulRegisterClass R] in
lemma new : Kept [] (.new R) where
  recalls := .new
  locks r := by
    rcases he : (Bank.new R).entryAt r with _ | e
    · simp [GuardedBank.new, Bank.locksOf, he, guardsOf]
    · obtain ⟨q, rfl⟩ := Bank.entryAt_new he
      simp [GuardedBank.new, Bank.locksOf, he, guardsOf]
  names := List.nodup_nil

lemma hand {x : Bank.Allocation R} (h : Kept past b) (hh : Bank.Hands b.bank x bank)
    (hl : Bank.Loses b.bank bank) (ha : ∀ q, ¬a.Orders q) :
    Kept (a :: past) (b.keep bank name x.register) := by
  refine h.keep hh.sound hl (fun q => ?_) ha
  rw [hh.locks]
  split
  · subst q
    rw [hh.unlocked]
  · rfl

lemma addLock (h : Kept past b) (hr : (b.bank.entryAt r).isSome) (ha : ∀ q, ¬a.Orders q) :
    Kept (a :: past) (b.keep (b.bank.addLock r) name r) := by
  refine h.keep h.recalls.sound.addLock Bank.loses_addLock (fun q => ?_) ha
  rw [Bank.locksOf_addLock hr]
  split <;> rfl

end Kept

/-! ### Actions -/

omit [DecidableEq R] [LawfulRegisterClass R] in
lemma perform_allocate_eq_ok {x : Option (Bank.Allocation R)}
    (h : b.perform (.allocate name) = .ok (x, b')) :
    ∃ y bank, b.bank.allocate = .ok (y, bank) ∧ x = some y ∧ b' = b.keep bank name y.register := by
  rcases hx : b.bank.allocate with e | ⟨y, bank⟩
  · simp [perform, GuardedBank.allocate, guarded, hx, Except.map] at h
  · simp only [perform, GuardedBank.allocate, guarded, hx, Except.map, Except.ok.injEq,
      Prod.mk.injEq] at h
    exact ⟨y, bank, rfl, h.1.symm, h.2.symm⟩

omit [DecidableEq R] [LawfulRegisterClass R] in
lemma perform_prefer_eq_ok {x : Option (Bank.Allocation R)}
    (h : b.perform (.prefer name r) = .ok (x, b')) :
    ∃ y bank, b.bank.allocatePreferring r = .ok (y, bank) ∧ x = some y ∧
      b' = b.keep bank name y.register := by
  rcases hx : b.bank.allocatePreferring r with e | ⟨y, bank⟩
  · simp [perform, GuardedBank.allocatePreferring, guarded, hx, Except.map] at h
  · simp only [perform, GuardedBank.allocatePreferring, guarded, hx, Except.map, Except.ok.injEq,
      Prod.mk.injEq] at h
    exact ⟨y, bank, rfl, h.1.symm, h.2.symm⟩

omit [DecidableEq R] [LawfulRegisterClass R] in
lemma perform_lock_eq_ok {x : Option (Bank.Allocation R)}
    (h : b.perform (.lock name r) = .ok (x, b')) :
    (RegisterClass.index? r).isSome ∧ b' = b.keep (b.bank.addLock r) name r := by
  rcases hx : b.bank.lock r with e | bank
  · simp [perform, GuardedBank.lock, guarded, hx, Except.map] at h
  · simp only [perform, GuardedBank.lock, guarded, hx, Except.map, Except.ok.injEq,
      Prod.mk.injEq] at h
    obtain ⟨rfl, hr⟩ := Bank.lock_eq_ok hx
    exact ⟨hr, h.2.symm⟩

omit [DecidableEq R] [LawfulRegisterClass R] in
lemma next_eq_of_ok {a : BankAction R} {x : Option (Bank.Allocation R)}
    (h : b.perform a = .ok (x, b')) : b.next a = b' := by
  rw [next, h]

omit [DecidableEq R] [LawfulRegisterClass R] in
lemma next_eq_of_error {a : BankAction R} {e : CompileError} (h : b.perform a = .error e) :
    b.next a = b := by
  rw [next, h]

namespace Kept

variable {past : List (BankAction R)}

omit [LawfulRegisterClass R] in
lemma entryAt_isSome (h : Kept past b) (hg : b.guard? name = some r) :
    (b.bank.entryAt r).isSome := by
  have hlocks : 0 < b.bank.locksOf r := by
    have hle : b.guardsUnder name r ≤ b.guardsOf r := guardsUnder_le h.names
    rw [guardsUnder, if_pos hg] at hle
    rw [h.locks]
    exact Nat.lt_of_lt_of_le Nat.one_pos hle
  by_contra hnone
  rw [Bank.locksOf, Option.not_isSome_iff_eq_none.mp hnone] at hlocks
  exact absurd hlocks (Nat.lt_irrefl 0)

lemma next (h : Kept past b) (a : BankAction R) : Kept (a :: past) (b.next a) := by
  cases a with
  | allocate name =>
    rcases hok : b.perform (.allocate name) with e | ⟨x, b'⟩
    · rw [next_eq_of_error hok]
      exact h.same fun _ => id
    · obtain ⟨y, bank, hy, -, rfl⟩ := perform_allocate_eq_ok hok
      rw [next_eq_of_ok hok]
      exact h.hand (h.recalls.sound.allocate hy) (Bank.loses_allocate hy) fun _ => id
  | prefer name r =>
    rcases hok : b.perform (.prefer name r) with e | ⟨x, b'⟩
    · rw [next_eq_of_error hok]
      exact h.same fun _ => id
    · obtain ⟨y, bank, hy, -, rfl⟩ := perform_prefer_eq_ok hok
      rw [next_eq_of_ok hok]
      exact h.hand (h.recalls.sound.allocatePreferring hy) (Bank.loses_allocatePreferring hy)
        fun _ => id
  | lock name r =>
    rcases hok : b.perform (.lock name r) with e | ⟨x, b'⟩
    · rw [next_eq_of_error hok]
      exact h.same fun _ => id
    · obtain ⟨hr, rfl⟩ := perform_lock_eq_ok hok
      rw [next_eq_of_ok hok]
      exact h.addLock (h.recalls.sound.entryAt_isSome.mpr hr) fun _ => id
  | clone name old =>
    show Kept _ (b.clone name old)
    unfold GuardedBank.clone
    split
    · rename_i r hr
      exact h.addLock (h.entryAt_isSome hr) fun _ => id
    · exact h.same fun _ => id
  | drop name => exact h.drop
  | retain r s o => exact h.change (h.recalls.retain s o) fun _ => Bank.locksOf_retain
  | setOrder r o => exact h.change (h.recalls.setOrder o) fun _ => Bank.locksOf_setOrder
  | release r =>
    refine h.change ?_ fun _ => Bank.locksOf_release
    exact h.recalls.of_loses Bank.loses_evict h.recalls.sound.release fun _ _ => id
  | releaseAll =>
    refine h.change ?_ fun _ => Bank.locksOf_releaseAll
    exact h.recalls.of_loses Bank.loses_releaseAll h.recalls.sound.releaseAll fun _ _ => id

end Kept

/-- Whatever was done. -/
lemma kept_after (past : List (BankAction R)) : Kept past (after R past) := by
  induction past with
  | nil => exact .new
  | cons a past ih => exact ih.next a

/-- To drop a guard changes no owner. -/
lemma owner_keep : (b.keep bank name r).bank.owner q = bank.owner q := by
  show (drop _ name).bank.owner q = _
  unfold drop
  split
  · exact Bank.owner_unlock
  · rfl

/-- What is asked of a register that is handed out, and is guarded under the name: it was not locked,
and is locked once now; it has no owner any more, and the owner that it had is reported. -/
structure Granted (b : GuardedBank R) (name : String) (x : Bank.Allocation R) (b' : GuardedBank R) :
    Prop where
  mem : x.register ∈ (RegisterClass.allocatable : List R)
  unlocked : b.bank.isLocked x.register = false
  reported : x.evicted = b.bank.owner x.register
  locks : b'.bank.locksOf x.register = 1
  owner : b'.bank.owner x.register = none
  guard : b'.guard? name = some x.register

/-- The guard that makes way for the new one does not guard the register. -/
lemma Kept.granted {past : List (BankAction R)} {x : Bank.Allocation R} (h : Kept past b)
    (hh : Bank.Hands b.bank x bank) : b.Granted name x (b.keep bank name x.register) where
  mem := hh.mem
  unlocked := Bank.isLocked_eq_false.mpr hh.unlocked
  reported := hh.evicted
  locks := by
    have hunder : guardsUnder { b with bank } name x.register = 0 := by
      have hle : b.guardsUnder name x.register ≤ b.guardsOf x.register := Kept.guardsUnder_le h.names
      rw [← h.locks, hh.unlocked] at hle
      exact Nat.le_zero.mp hle
    show (GuardedBank.drop { b with bank } name).bank.locksOf _ = _
    rw [locksOf_drop, hunder, hh.locks, if_pos rfl]
  owner := by rw [owner_keep, hh.owner, if_pos rfl]
  guard := by simp [GuardedBank.keep, guard?]

/-- A register keeps its owner unless the action is about that or reports the owner. -/
lemma Kept.owners {past : List (BankAction R)} (h : Kept past b) (a : BankAction R) (r : R) :
    (b.next a).bank.owner r = b.bank.owner r ∨ a.Rebinds r ∨
      ∃ x, b.perform a = .ok (some x, b.next a) ∧ x.register = r ∧ x.evicted = b.bank.owner r := by
  have hands : ∀ {x : Bank.Allocation R} {bank name}, Bank.Hands b.bank x bank →
      b.perform a = .ok (some x, b.keep bank name x.register) →
      (b.next a).bank.owner r = b.bank.owner r ∨ a.Rebinds r ∨
        ∃ x, b.perform a = .ok (some x, b.next a) ∧ x.register = r ∧ x.evicted = b.bank.owner r := by
    intro x bank name hh hok
    rw [next_eq_of_ok hok]
    by_cases hr : r = x.register
    · exact .inr (.inr ⟨x, hok, hr.symm, hr ▸ hh.evicted⟩)
    · exact .inl (by rw [owner_keep, hh.owner, if_neg hr])
  rcases hok : b.perform a with e | ⟨x, b'⟩
  · exact .inl (by rw [next_eq_of_error hok])
  cases a with
  | allocate name =>
    obtain ⟨y, bank, hy, rfl, rfl⟩ := perform_allocate_eq_ok hok
    exact hok ▸ hands (h.recalls.sound.allocate hy) hok
  | prefer name q =>
    obtain ⟨y, bank, hy, rfl, rfl⟩ := perform_prefer_eq_ok hok
    exact hok ▸ hands (h.recalls.sound.allocatePreferring hy) hok
  | lock name q =>
    obtain ⟨-, rfl⟩ := perform_lock_eq_ok hok
    rw [next_eq_of_ok hok]
    exact .inl (owner_keep.trans Bank.owner_addLock)
  | clone name old =>
    refine .inl ?_
    show (b.clone name old).bank.owner r = _
    unfold GuardedBank.clone
    split
    · exact owner_keep.trans Bank.owner_addLock
    · rfl
  | drop name =>
    refine .inl ?_
    show (b.drop name).bank.owner r = _
    unfold GuardedBank.drop
    split
    · exact Bank.owner_unlock
    · rfl
  | retain q s o =>
    by_cases hq : r = q
    · exact .inr (.inl hq)
    · refine .inl ?_
      show (b.bank.retain q s o).owner r = _
      rw [Bank.owner, Bank.entryAt_retain, Bank.entryAt_modify, if_neg hq, Bank.owner]
  | setOrder q o => exact .inl Bank.owner_setOrder
  | release q =>
    by_cases hq : r = q
    · exact .inr (.inl hq)
    · exact .inl (Bank.owner_release.trans (if_neg hq))
  | releaseAll => exact .inr (.inl trivial)

structure Disciplined (past : List (BankAction R)) (b : GuardedBank R) : Prop where
  /-- Every lock is that of a guard. -/
  locks (r : R) : b.bank.locksOf r = b.guardsOf r
  /-- No register is handed out if all are locked. -/
  full (name : String) (h : ∀ r ∈ (RegisterClass.allocatable : List R), b.bank.isLocked r = true) :
    b.perform (.allocate name) = .error (.internal .allLocked) ∧ b.next (.allocate name) = b
  /-- If one is not, a register is handed out. -/
  granted (name : String) (h : ∃ r ∈ (RegisterClass.allocatable : List R), b.bank.isLocked r = false) :
    ∃ x b', b.perform (.allocate name) = .ok (some x, b') ∧ b.Granted name x b' ∧
      Bank.Chosen past b.bank x
  /-- The preferred register is handed out unless it is locked. -/
  preferred (name : String) {r : R} (hr : r ∈ (RegisterClass.allocatable : List R))
    (h : b.bank.isLocked r = false) :
    ∃ b', b.perform (.prefer name r) = .ok (some { register := r, evicted := b.bank.owner r }, b') ∧
      b.Granted name { register := r, evicted := b.bank.owner r } b'
  taken (name : String) {r : R} (h : b.bank.isLocked r = true) :
    b.perform (.prefer name r) = b.perform (.allocate name)
  foreign (name : String) {r : R} (hr : r ∉ (RegisterClass.allocatable : List R)) :
    b.perform (.prefer name r) = .error (.internal (.notAllocatable (RegisterClass.location r)))
  /-- No owner is lost unless the action is about it or it is reported. -/
  owners (a : BankAction R) (r : R) : (b.next a).bank.owner r = b.bank.owner r ∨ a.Rebinds r ∨
    ∃ x, b.perform a = .ok (some x, b.next a) ∧ x.register = r ∧ x.evicted = b.bank.owner r

end GuardedBank

end Speculation
