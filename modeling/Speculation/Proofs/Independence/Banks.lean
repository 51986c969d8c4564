import Speculation.Proofs.Bank

/-!
Banks that the allocator treats alike.

Of the stamps in a bank only their order counts, and only among registers that hold a value: a free
register is taken before any victim is looked for. So two banks may have seen any number of values
come and go; as long as they agree on what their registers hold now, and on which of these was bound
first, they hand out the same registers from then on.
-/

namespace Speculation
namespace Bank

variable {R : Type} [RegisterClass R] {b c b' c' : Bank R} {r : R}

/-- The banks differ in their stamps at most, and these order the bound registers alike. -/
structure Alike (b c : Bank R) : Prop where
  sound : b.Sound
  size : c.entries.size = b.entries.size
  same {i : Nat} {e f : BankEntry R} (he : b.entries[i]? = some e) (hf : c.entries[i]? = some f) :
    f = { e with stamp := f.stamp }
  order {i j : Nat} {e f e' f' : BankEntry R} (he : b.entries[i]? = some e)
    (hf : c.entries[i]? = some f) (he' : b.entries[j]? = some e') (hf' : c.entries[j]? = some f')
    (ho : e.owner.isSome) (ho' : e'.owner.isSome) : e.stamp < e'.stamp ↔ f.stamp < f'.stamp
  recent {i : Nat} {e f : BankEntry R} (he : b.entries[i]? = some e) (hf : c.entries[i]? = some f)
    (ho : e.owner.isSome) : e.stamp ≤ b.clock ∧ f.stamp ≤ c.clock

namespace Alike

/-! ### What the banks are asked -/

lemma exists_pairs (h : Alike b c) : ∃ ps : List (BankEntry R × Nat),
    b.entries.toList = ps.map Prod.fst ∧
      c.entries.toList = ps.map (fun p => { p.1 with stamp := p.2 }) ∧
      ∀ p ∈ ps, ∃ i : Nat, b.entries[i]? = some p.1 ∧ c.entries[i]? = some { p.1 with stamp := p.2 } := by
  have hzip : ∀ p ∈ b.entries.toList.zip c.entries.toList,
      ∃ i : Nat, b.entries[i]? = some p.1 ∧ c.entries[i]? = some p.2 := by
    intro p hp
    obtain ⟨i, hi⟩ := List.mem_iff_getElem?.mp hp
    rw [List.getElem?_zip_eq_some] at hi
    exact ⟨i, by simpa using hi⟩
  refine ⟨(b.entries.toList.zip c.entries.toList).map fun p => (p.1, p.2.stamp), ?_, ?_, ?_⟩
  · rw [List.map_map]
    exact (List.map_fst_zip (by simp [h.size])).symm
  · rw [List.map_map]
    have hsnd : (b.entries.toList.zip c.entries.toList).map Prod.snd = c.entries.toList :=
      List.map_snd_zip (by simp [h.size])
    conv_lhs => rw [← hsnd]
    refine List.map_congr_left fun p hp => ?_
    obtain ⟨i, hb, hc⟩ := hzip p hp
    exact h.same hb hc
  · intro q hq
    obtain ⟨p, hp, rfl⟩ := List.mem_map.mp hq
    obtain ⟨i, hb, hc⟩ := hzip p hp
    exact ⟨i, hb, hc.trans (congrArg some (h.same hb hc))⟩

/-- The entries of a register are alike, or neither bank has one. -/
lemma entryAt (h : Alike b c) (r : R) :
    (b.entryAt r = none ∧ c.entryAt r = none) ∨
      ∃ e k, b.entryAt r = some e ∧ c.entryAt r = some { e with stamp := k } := by
  unfold Bank.entryAt
  rcases RegisterClass.index? r with _ | i
  · exact .inl ⟨rfl, rfl⟩
  simp only [Option.bind_some]
  rcases he : b.entries[i]? with _ | e
  · refine .inl ⟨rfl, Array.getElem?_eq_none ?_⟩
    rw [h.size]
    exact Array.getElem?_eq_none_iff.mp he
  · obtain ⟨f, hf⟩ : ∃ f, c.entries[i]? = some f :=
      ⟨_, Array.getElem?_eq_getElem (h.size ▸ (Array.getElem?_eq_some_iff.mp he).1)⟩
    exact .inr ⟨e, f.stamp, rfl, hf.trans (congrArg some (h.same he hf))⟩

lemma owner (h : Alike b c) : c.owner r = b.owner r := by
  unfold Bank.owner
  obtain ⟨hb, hc⟩ | ⟨e, k, hb, hc⟩ := h.entryAt r
  all_goals simp [hb, hc]

lemma isLocked (h : Alike b c) : c.isLocked r = b.isLocked r := by
  unfold Bank.isLocked
  obtain ⟨hb, hc⟩ | ⟨e, k, hb, hc⟩ := h.entryAt r
  all_goals simp [hb, hc]

lemma bound (h : Alike b c) : c.bound = b.bound := by
  obtain ⟨ps, hb, hc, -⟩ := h.exists_pairs
  unfold Bank.bound
  rw [hb, hc, List.filterMap_map, List.filterMap_map]
  rfl

lemma anyLocked (h : Alike b c) : c.anyLocked = b.anyLocked := by
  obtain ⟨ps, hb, hc, -⟩ := h.exists_pairs
  unfold Bank.anyLocked
  rw [← Array.any_toList, ← Array.any_toList, hb, hc, List.any_map, List.any_map]
  rfl

/-! ### What is done to them -/

/-- What is done to each entry may bind no register and must not look at stamps. -/
lemma map {g : Nat → BankEntry R → BankEntry R} (h : Alike b c)
    (hb : ∀ j : Nat, b'.entries[j]? = b.entries[j]?.map (g j))
    (hc : ∀ j : Nat, c'.entries[j]? = c.entries[j]?.map (g j))
    (hbs : b'.entries.size = b.entries.size) (hcs : c'.entries.size = c.entries.size)
    (hbc : b'.clock = b.clock) (hcc : c'.clock = c.clock) (hs : b'.Sound)
    (hg : ∀ j e k, g j { e with stamp := k } = { g j e with stamp := k })
    (ho : ∀ j e, (g j e).owner.isSome → e.owner.isSome) : Alike b' c' := by
  have hstamp : ∀ j e, (g j e).stamp = e.stamp := by
    intro j e
    rw [show g j e = { g j e with stamp := e.stamp } from hg j e e.stamp]
  have hpair : ∀ {j : Nat} {e f : BankEntry R}, b'.entries[j]? = some e → c'.entries[j]? = some f →
      ∃ e₀ f₀, b.entries[j]? = some e₀ ∧ c.entries[j]? = some f₀ ∧ g j e₀ = e ∧ g j f₀ = f := by
    intro j e f he hf
    rw [hb, Option.map_eq_some_iff] at he
    rw [hc, Option.map_eq_some_iff] at hf
    obtain ⟨e₀, he₀, rfl⟩ := he
    obtain ⟨f₀, hf₀, rfl⟩ := hf
    exact ⟨e₀, f₀, he₀, hf₀, rfl, rfl⟩
  refine ⟨hs, by rw [hcs, hbs, h.size], fun he hf => ?_, fun he hf he' hf' hoe hoe' => ?_,
    fun he hf hoe => ?_⟩
  · obtain ⟨e₀, f₀, he₀, hf₀, rfl, rfl⟩ := hpair he hf
    conv_lhs => rw [h.same he₀ hf₀]
    rw [hg, hstamp]
  · obtain ⟨e₀, f₀, he₀, hf₀, rfl, rfl⟩ := hpair he hf
    obtain ⟨e₁, f₁, he₁, hf₁, rfl, rfl⟩ := hpair he' hf'
    simp only [hstamp]
    exact h.order he₀ hf₀ he₁ hf₁ (ho _ _ hoe) (ho _ _ hoe')
  · obtain ⟨e₀, f₀, he₀, hf₀, rfl, rfl⟩ := hpair he hf
    rw [hstamp, hstamp, hbc, hcc]
    exact h.recent he₀ hf₀ (ho _ _ hoe)

lemma modify {f : BankEntry R → BankEntry R} (h : Alike b c)
    (hr : ∀ e, (f e).register = e.register) (hf : ∀ e k, f { e with stamp := k } = { f e with stamp := k })
    (ho : ∀ e, (f e).owner.isSome → e.owner.isSome) : Alike (b.modify r f) (c.modify r f) := by
  rcases hi : RegisterClass.index? r with _ | i
  · simpa only [Bank.modify, hi] using h
  have hm : ∀ d : Bank R, d.modify r f = { d with entries := d.entries.modify i f } := fun d => by
    rw [Bank.modify, hi]
  refine h.map (g := fun j => if i = j then f else id) (fun j => ?_) (fun j => ?_) (by simp [hm])
    (by simp [hm]) (by simp [hm]) (by simp [hm]) (h.sound.modify hr) (fun j e k => ?_) fun j e he => ?_
  · rw [hm, Array.getElem?_modify]
    split <;> simp
  · rw [hm, Array.getElem?_modify]
    split <;> simp
  · dsimp only
    split
    · exact hf e k
    · rfl
  · split at he
    · exact ho e he
    · exact he

lemma addLock (h : Alike b c) : Alike (b.addLock r) (c.addLock r) :=
  h.modify (fun _ => rfl) (fun _ _ => rfl) fun _ => id

lemma unlock (h : Alike b c) : Alike (b.unlock r) (c.unlock r) :=
  h.modify (fun _ => rfl) (fun _ _ => rfl) fun _ => id

lemma evict (h : Alike b c) : Alike (b.evict r) (c.evict r) :=
  h.modify (fun _ => rfl) (fun _ _ => rfl) fun _ ho => by cases ho

lemma release (h : Alike b c) : Alike (b.release r) (c.release r) := h.evict

lemma setOrder {o : SpillOrder} (h : Alike b c) : Alike (b.setOrder r o) (c.setOrder r o) :=
  h.modify (fun _ => rfl) (fun _ _ => rfl) fun _ => id

/-- A register that is bound gets a stamp later than all others. -/
lemma retain {s : Slot} {o : SpillOrder} (h : Alike b c) : Alike (b.retain r s o) (c.retain r s o) := by
  rcases hi : RegisterClass.index? r with _ | i
  · simpa only [Bank.retain, hi] using h
  have hget : ∀ (d : Bank R) (j : Nat), (d.retain r s o).entries[j]? = d.entries[j]?.map fun e =>
      if i = j then { e with owner := some s, order := o, stamp := d.clock + 1 } else e := by
    intro d j
    simp only [Bank.retain, hi, Bank.modify, Array.getElem?_modify]
    split
    · rfl
    · simp
  have hclock : ∀ d : Bank R, (d.retain r s o).clock = d.clock + 1 := fun d => by
    simp only [Bank.retain, hi]
  have hsize : ∀ d : Bank R, (d.retain r s o).entries.size = d.entries.size := fun d => by
    simp [Bank.retain, hi, Bank.modify]
  have hpair : ∀ {j : Nat} {e f : BankEntry R}, (b.retain r s o).entries[j]? = some e →
      (c.retain r s o).entries[j]? = some f → (i = j ∧ e.stamp = b.clock + 1 ∧ f.stamp = c.clock + 1) ∨
        i ≠ j ∧ b.entries[j]? = some e ∧ c.entries[j]? = some f := by
    intro j e f he hf
    rw [hget, Option.map_eq_some_iff] at he hf
    obtain ⟨e₀, he₀, rfl⟩ := he
    obtain ⟨f₀, hf₀, rfl⟩ := hf
    by_cases hij : i = j
    · simp [hij]
    · exact .inr ⟨hij, by simpa [hij] using he₀, by simpa [hij] using hf₀⟩
  refine ⟨h.sound.retain, by rw [hsize, hsize, h.size], fun {j e f} he hf => ?_,
    fun he hf he' hf' ho ho' => ?_, fun he hf ho => ?_⟩
  · rw [hget, Option.map_eq_some_iff] at he hf
    obtain ⟨e₀, he₀, rfl⟩ := he
    obtain ⟨f₀, hf₀, rfl⟩ := hf
    have hsame := h.same he₀ hf₀
    split
    · rw [hsame]
    · exact hsame
  · rcases hpair he hf with ⟨rfl, hse, hsf⟩ | ⟨hne, he₀, hf₀⟩ <;>
      rcases hpair he' hf' with ⟨rfl, hse', hsf'⟩ | ⟨hne', he₁, hf₁⟩
    · omega
    · have := h.recent he₁ hf₁ ho'
      omega
    · have := h.recent he₀ hf₀ ho
      omega
    · exact h.order he₀ hf₀ he₁ hf₁ ho ho'
  · rw [hclock, hclock]
    rcases hpair he hf with ⟨rfl, hse, hsf⟩ | ⟨hne, he₀, hf₀⟩
    · omega
    · have := h.recent he₀ hf₀ ho
      omega

end Alike

/-- With no locks left, banks whose registers were all unbound are alike, whatever they held. -/
lemma alike_releaseAll (hb : b.Sound) (hc : c.Sound) (hbl : b.anyLocked = false)
    (hcl : c.anyLocked = false) : Alike b.releaseAll c.releaseAll := by
  have hget : ∀ {d : Bank R} {j : Nat} {e : BankEntry R}, d.Sound → d.anyLocked = false →
      d.releaseAll.entries[j]? = some e → (RegisterClass.allocatable : List R)[j]? = some e.register ∧
        e.owner = none ∧ e.order = .free ∧ e.locks = 0 := by
    intro d j e hd hl he
    simp only [Bank.releaseAll, Array.getElem?_map, Option.map_eq_some_iff] at he
    obtain ⟨e, he, rfl⟩ := he
    refine ⟨?_, rfl, rfl, ?_⟩
    · rw [← hd, List.getElem?_map, Array.getElem?_toList, he]
      rfl
    · by_contra hne
      have hany : d.anyLocked = true := Array.any_eq_true'.mpr
        ⟨e, Array.mem_of_getElem? he, decide_eq_true (Nat.pos_of_ne_zero hne)⟩
      rw [hl] at hany
      cases hany
  have hsize : ∀ {d : Bank R}, d.Sound →
      d.releaseAll.entries.size = (RegisterClass.allocatable : List R).length := fun {d} hd => by
    rw [← hd]
    simp [Bank.releaseAll]
  refine ⟨hb.releaseAll, by rw [hsize hb, hsize hc], fun {i e f} he hf => ?_,
    fun he _ _ _ ho => ?_, fun he _ ho => ?_⟩
  · obtain ⟨hr, ho, hor, hl⟩ := hget hb hbl he
    obtain ⟨hr', ho', hor', hl'⟩ := hget hc hcl hf
    cases e
    cases f
    simp_all
  · rw [(hget hb hbl he).2.1] at ho
    cases ho
  · rw [(hget hb hbl he).2.1] at ho
    cases ho

/-! ### Handing out registers -/

lemma Alike.cheaper (h : Alike b c) {i j : Nat} {e f e' f' : BankEntry R}
    (he : b.entries[i]? = some e) (hf : c.entries[i]? = some f) (he' : b.entries[j]? = some e')
    (hf' : c.entries[j]? = some f') (ho : e.owner.isSome) (ho' : e'.owner.isSome) :
    cheaper f f' = cheaper e e' := by
  have hlt := h.order he hf he' hf' ho ho'
  have horder : f.order = e.order := by rw [h.same he hf]
  have horder' : f'.order = e'.order := by rw [h.same he' hf']
  simp only [Bank.cheaper, horder, horder', decide_eq_decide.mpr hlt]

def better (best : Option (BankEntry R)) (e : BankEntry R) : Option (BankEntry R) :=
  match best with
  | none => some e
  | some f => if Bank.cheaper e f then some e else some f

def restamp (p : BankEntry R × Nat) : BankEntry R := { p.1 with stamp := p.2 }

/-- The two searches for a victim carry the two halves of one pair. -/
lemma Alike.foldl_better (h : Alike b c) {qs : List (BankEntry R × Nat)}
    (hqs : ∀ p ∈ qs, (∃ i : Nat, b.entries[i]? = some p.1 ∧ c.entries[i]? = some (restamp p)) ∧
      p.1.owner.isSome) (best : Option (BankEntry R × Nat))
    (hbest : ∀ p ∈ best, (∃ i : Nat, b.entries[i]? = some p.1 ∧ c.entries[i]? = some (restamp p)) ∧
      p.1.owner.isSome) :
    ∃ best' : Option (BankEntry R × Nat), (qs.map Prod.fst).foldl better (best.map Prod.fst) = best'.map Prod.fst ∧
      (qs.map restamp).foldl better (best.map restamp) = best'.map restamp := by
  induction qs generalizing best with
  | nil => exact ⟨best, rfl, rfl⟩
  | cons x xs ih =>
    have hx := hqs x List.mem_cons_self
    have hstep : ∀ best, (∀ p ∈ best, (∃ i : Nat, b.entries[i]? = some p.1 ∧
        c.entries[i]? = some (restamp p)) ∧ p.1.owner.isSome) → _ :=
      fun best hbest => ih (fun p hp => hqs p (List.mem_cons_of_mem _ hp)) best hbest
    simp only [List.map_cons, List.foldl_cons]
    rcases best with _ | y
    · exact hstep (some x) (by simpa using hx)
    · obtain ⟨⟨i, hbi, hci⟩, ho⟩ := hx
      obtain ⟨⟨j, hbj, hcj⟩, ho'⟩ := hbest y rfl
      simp only [better, Option.map_some, h.cheaper hbi hci hbj hcj ho ho']
      split
      · exact hstep (some x) (by simpa using ⟨⟨i, hbi, hci⟩, ho⟩)
      · exact hstep (some y) hbest

/-- While all registers that could be taken are bound, the banks have the same victim. -/
lemma Alike.victim? (h : Alike b c) (hbound : ∀ e ∈ b.entries, e.locks = 0 → e.owner.isSome) :
    ∃ best : Option (BankEntry R × Nat),
      b.victim? = best.map Prod.fst ∧ c.victim? = best.map restamp := by
  obtain ⟨ps, hb, hc, hps⟩ := h.exists_pairs
  have hqs : ∀ p ∈ ps.filter fun p => p.1.locks == 0, (∃ i : Nat, b.entries[i]? = some p.1 ∧
      c.entries[i]? = some (restamp p)) ∧ p.1.owner.isSome := by
    intro p hp
    obtain ⟨hp, hl⟩ := List.mem_filter.mp hp
    obtain ⟨i, hbi, hci⟩ := hps p hp
    exact ⟨⟨i, hbi, hci⟩, hbound _ (Array.mem_of_getElem? hbi) (by simpa using hl)⟩
  obtain ⟨best, hfst, hsnd⟩ := h.foldl_better hqs none (by simp)
  refine ⟨best, ?_, ?_⟩
  · rw [← hfst, Bank.victim?, hb, List.filter_map]
    rfl
  · rw [← hsnd, Bank.victim?, hc, List.filter_map]
    rfl

/-- Results of an allocation: both banks fail alike, or hand out the same register. -/
def AllocateAlike (x y : Except CompileError (Allocation R × Bank R)) : Prop :=
  (∃ e, x = .error e ∧ y = .error e) ∨
    ∃ a b' c', x = .ok (a, b') ∧ y = .ok (a, c') ∧ Alike b' c'

lemma Alike.allocate (h : Alike b c) : AllocateAlike b.allocate c.allocate := by
  obtain ⟨ps, hb, hc, hps⟩ := h.exists_pairs
  have hfind : (b.entries.find? fun e => e.owner.isNone && e.locks == 0) =
      (ps.find? fun p => p.1.owner.isNone && p.1.locks == 0).map Prod.fst := by
    rw [← Array.find?_toList, hb, List.find?_map]
    rfl
  have hfind' : (c.entries.find? fun e => e.owner.isNone && e.locks == 0) =
      (ps.find? fun p => p.1.owner.isNone && p.1.locks == 0).map restamp := by
    rw [← Array.find?_toList, hc, List.find?_map]
    rfl
  unfold Bank.allocate
  rw [hfind, hfind']
  rcases hp : ps.find? fun p => p.1.owner.isNone && p.1.locks == 0 with _ | p
  · have hbound : ∀ e ∈ b.entries, e.locks = 0 → e.owner.isSome := by
      intro e he hl
      rw [← Array.mem_toList_iff, hb] at he
      obtain ⟨p, hmem, rfl⟩ := List.mem_map.mp he
      have hno := List.find?_eq_none.mp hp p hmem
      simp only [hl, beq_self_eq_true, Bool.and_true, Option.isNone_iff_eq_none] at hno
      exact Option.isSome_iff_ne_none.mpr hno
    obtain ⟨best, hv, hv'⟩ := h.victim? hbound
    rw [hv, hv', hp]
    rcases best with _ | p
    · exact .inl ⟨_, rfl, rfl⟩
    · exact .inr ⟨⟨p.1.register, p.1.owner⟩, _, _, rfl, rfl, h.evict.addLock⟩
  · rw [hp]
    exact .inr ⟨⟨p.1.register, none⟩, _, _, rfl, rfl, h.addLock⟩

lemma Alike.allocatePreferring (h : Alike b c) (r : R) :
    AllocateAlike (b.allocatePreferring r) (c.allocatePreferring r) := by
  unfold Bank.allocatePreferring
  rcases h.entryAt r with ⟨hb, hc⟩ | ⟨e, k, hb, hc⟩
  · exact .inl ⟨_, by rw [hb], by rw [hc]⟩
  · rw [hb, hc]
    dsimp only
    split
    · exact h.allocate
    · exact .inr ⟨_, _, _, rfl, rfl, h.evict.addLock⟩

/-- Both banks refuse a register, or lock it. -/
lemma Alike.lock (h : Alike b c) (r : R) :
    (∃ e, b.lock r = .error e ∧ c.lock r = .error e) ∨
      ∃ b' c', b.lock r = .ok b' ∧ c.lock r = .ok c' ∧ Alike b' c' := by
  unfold Bank.lock
  rcases RegisterClass.index? r with _ | i
  · exact .inl ⟨_, rfl, rfl⟩
  · exact .inr ⟨_, _, rfl, rfl, h.addLock⟩

end Bank
end Speculation
