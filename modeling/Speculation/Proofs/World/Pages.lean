import Speculation.Proofs.World.Frames

/-!
Mapping memory.

Pages that are mapped anew hold zeros, and pages that were there before stay as they are. So there is
a stack from the start, and it stays while the heap below it grows.
-/

namespace Speculation

namespace Memory

variable {m : Memory} {a : UInt64} {start length : Nat}

lemma getElem?_mapPages (pages : Std.TreeMap UInt64 ByteArray) {p count : Nat}
    (h : p + count ≤ UInt64.size) (q : UInt64) : (mapPages pages p count)[q]? =
      pages[q]?.or (if p ≤ q.toNat ∧ q.toNat < p + count then some zeroPage else none) := by
  induction count generalizing pages p with
  | zero =>
    rw [mapPages, if_neg (by omega), Option.or_none]
  | succ count ih =>
    have hp : (UInt64.ofNat p).toNat = p := UInt64.toNat_ofNat_of_lt' (by omega)
    rw [mapPages, ih _ (by omega), Std.TreeMap.getElem?_insertIfNew]
    simp only [Std.LawfulEqOrd.compare_eq_iff_eq]
    by_cases hq : UInt64.ofNat p = q
    · subst hq
      rw [hp, if_neg (show ¬(p + 1 ≤ p ∧ _) by omega), if_pos (show p ≤ p ∧ _ by omega),
        Option.or_none]
      by_cases hmem : UInt64.ofNat p ∈ pages
      · rw [if_neg (fun h => h.2 hmem), Std.TreeMap.getElem?_eq_some_getElem hmem]
        rfl
      · rw [if_pos ⟨rfl, hmem⟩, Std.TreeMap.getElem?_eq_none hmem, Option.none_or]
    · have hne : q.toNat ≠ p := fun h => hq (by rw [← h, UInt64.ofNat_toNat])
      rw [if_neg fun h => hq h.1]
      congr 2
      apply propext
      omega

lemma pageSize_eq : pageSize = 4096 := rfl

lemma placeOf_lt (a : UInt64) : placeOf a < pageSize := by
  show (a % UInt64.ofNat pageSize).toNat < _
  rw [UInt64.toNat_mod]
  exact Nat.mod_lt _ (by decide)

lemma getElem?_zeroPage (a : UInt64) : zeroPage[placeOf a]? = some 0 := by
  rw [Bytes.getElem?_eq_data]
  exact Array.getElem?_replicate.trans (if_pos (placeOf_lt a))

/-- Memory after more was mapped: what was there, and zeros. -/
lemma byte?_map (h : start + length + pageSize ≤ UInt64.size) : (m.map start length).byte? a =
    if m.isMapped a then m.byte? a
    else if start / pageSize ≤ a.toNat / pageSize ∧
      a.toNat / pageSize < (start + length + pageSize - 1) / pageSize then some 0 else none := by
  have hsize := pageSize_eq
  have hpage : (pageOf a).toNat = a.toNat / pageSize := UInt64.toNat_div _ _
  have hle : start / pageSize ≤ (start + length + pageSize - 1) / pageSize :=
    Nat.div_le_div_right (by omega)
  have hroom : start / pageSize + ((start + length + pageSize - 1) / pageSize -
      start / pageSize) ≤ UInt64.size := by
    have := Nat.div_le_self (start + length + pageSize - 1) pageSize
    omega
  unfold byte? isMapped map
  dsimp only
  rw [getElem?_mapPages _ hroom, hpage, Nat.add_sub_cancel' hle,
    Std.TreeMap.contains_eq_isSome_getElem?]
  rcases m.pages[pageOf a]? with _ | page
  · rw [Option.none_or, Option.isSome_none, if_neg Bool.false_ne_true]
    split
    · rw [Option.bind_eq_bind, Option.bind_some, getElem?_zeroPage]
    · rfl
  · rfl

/-- What was there is there. -/
lemma byte?_map_of_isSome (h : start + length + pageSize ≤ UInt64.size) (ha : (m.byte? a).isSome) :
    (m.map start length).byte? a = m.byte? a := by
  rw [byte?_map h, if_pos (isMapped_of_byte? ha)]

lemma byte?_of_not_isMapped (h : m.isMapped a = false) : m.byte? a = none := by
  unfold isMapped at h
  rw [Std.TreeMap.contains_eq_isSome_getElem?, Option.isSome_eq_false_iff,
    Option.isNone_iff_eq_none] at h
  unfold byte?
  rw [h]
  rfl

/-- Nothing is mapped on other pages. -/
lemma byte?_map_of_lt (h : start + length + pageSize ≤ UInt64.size)
    (ha : a.toNat / pageSize < start / pageSize ∨
      (start + length + pageSize - 1) / pageSize ≤ a.toNat / pageSize) :
    (m.map start length).byte? a = m.byte? a := by
  rw [byte?_map h]
  split
  · rfl
  · rename_i hno
    rw [if_neg (by omega), byte?_of_not_isMapped (Bool.eq_false_iff.mpr hno)]

def Whole (m : Memory) : Prop :=
  ∀ (p : UInt64) (page : ByteArray), m.pages[p]? = some page → page.size = pageSize

lemma Whole.isMapped (hm : m.Whole) (a : UInt64) : m.isMapped a = (m.byte? a).isSome := by
  refine Bool.eq_iff_iff.mpr ⟨fun h => ?_, isMapped_of_byte?⟩
  rw [Memory.isMapped, Std.TreeMap.contains_eq_isSome_getElem?] at h
  obtain ⟨page, hpage⟩ := Option.isSome_iff_exists.mp h
  have hlt : placeOf a < page.size := by
    rw [hm _ _ hpage]
    exact placeOf_lt a
  rw [byte?, hpage, Option.bind_eq_bind, Option.bind_some, getElem?_pos page (placeOf a) hlt]
  rfl

lemma Whole.map (hm : m.Whole) (start length : Nat) : (m.map start length).Whole := by
  unfold Memory.map
  dsimp only
  generalize (start + length + pageSize - 1) / pageSize - start / pageSize = count
  generalize start / pageSize = p
  induction count generalizing m p with
  | zero => exact hm
  | succ count ih =>
    have hone : Whole { m with pages := m.pages.insertIfNew (UInt64.ofNat p) zeroPage } := by
      intro q page hq
      rw [Std.TreeMap.getElem?_insertIfNew] at hq
      split at hq
      · rw [← Option.some.inj hq]
        exact Array.size_replicate
      · exact hm _ _ hq
    exact ih hone (p + 1)

lemma whole_new : new.Whole := by
  refine Whole.map (fun p page hp => ?_) _ _
  rw [Std.TreeMap.getElem?_emptyc] at hp
  cases hp

lemma mapped_map (hm : m.Whole) (h : start + length + pageSize ≤ UInt64.size) :
    Mapped (m.map start length) (UInt64.ofNat start) length := by
  intro k hk
  have hsize := pageSize_eq
  have ha : (UInt64.ofNat start + UInt64.ofNat k).toNat = start + k := by
    rw [toNat_add_ofNat] <;> rw [UInt64.toNat_ofNat_of_lt' (by omega)]
    omega
  rw [byte?_map h]
  split
  · rwa [← hm.isMapped]
  · rw [if_pos (by rw [ha, hsize]; omega)]
    rfl

/-- The stack is mapped from the start. -/
lemma byte?_new : new.byte? a =
    if stackTop - stackSize ≤ a.toNat ∧ a.toNat < stackTop then some 0 else none := by
  have hsize := pageSize_eq
  have htop := World.stackTop_eq
  have hstack := World.stackSize_eq
  have hword : UInt64.size = 18446744073709551616 := rfl
  have hnone : isMapped { next := heapBase } a = false := Std.TreeMap.contains_emptyc
  rw [new, byte?_map (by omega), hnone, if_neg Bool.false_ne_true]
  refine if_congr ?_ rfl rfl
  rw [hsize, htop, hstack]
  omega

lemma mapped_new {n : Nat} (hlow : stackTop - stackSize ≤ a.toNat) (htop : a.toNat + n ≤ stackTop) :
    new.Mapped a n := fun j hj => by
  have hstack : stackTop < UInt64.size := by decide
  rw [byte?_new, toNat_add_ofNat (by omega), if_pos (by omega)]
  rfl

end Memory

namespace World

open Memory

/-- The memory at the start, with a context record that lets code use all of the stack. -/
def grounds : Memory :=
  ((Memory.new.map heapBase Context.size).write 8 (UInt64.ofNat heapBase) Memory.stackLimit.toNat).2

lemma mapped_heapBase :
    Mapped (Memory.new.map heapBase Context.size) (UInt64.ofNat heapBase) 8 := fun k hk =>
  mapped_map whole_new (by decide) k (Nat.lt_of_lt_of_le hk (by decide))

lemma stack_grounds {w : World} (hm : w.memory = grounds)
    (hc : w.context = UInt64.ofNat heapBase) : w.Stack Memory.stackLimit := by
  have hsize := pageSize_eq
  have htop := stackTop_eq
  have hstack := stackSize_eq
  have hbase : heapBase = 268435456 := rfl
  have hcontext : Context.size = 24 := rfl
  have hword : UInt64.size = 18446744073709551616 := rfl
  have haddress : (UInt64.ofNat heapBase).toNat = heapBase := UInt64.toNat_ofNat_of_lt' (by omega)
  have hread := read?_write_self (x := Memory.stackLimit.toNat) mapped_heapBase (by omega)
  rw [grounds] at hm
  rw [Nat.mod_eq_of_lt (UInt64.toNat_lt _)] at hread
  refine ⟨?_, fun {a} ha => ?_, ?_, ?_, ?_⟩
  · rw [hm]
    refine Mapped.write (fun k hk => ?_) mapped_heapBase (by omega)
    have ha : (UInt64.ofNat (stackTop - stackSize) + UInt64.ofNat k).toNat =
        stackTop - stackSize + k := by
      rw [toNat_add_ofNat] <;> rw [UInt64.toNat_ofNat_of_lt' (by omega)]
      omega
    have hnew : (Memory.new.byte? (UInt64.ofNat (stackTop - stackSize) + UInt64.ofNat k)).isSome := by
      rw [byte?_new, if_pos (by omega)]
      rfl
    rwa [byte?_map_of_isSome (by omega) hnew]
  · rw [hm]
    refine ((writeBytes_spec (by rw [Bytes.length_ofNat]; exact mapped_heapBase)
      (by rw [Bytes.length_ofNat]; omega)).2.2.1 a (.inr (by rw [Bytes.length_ofNat]; omega))).trans
      ?_
    have hpage : (heapBase + Context.size + pageSize - 1) / pageSize ≤ a.toNat / pageSize := by
      rw [htop] at ha
      rw [hsize, hbase, hcontext]
      omega
    rw [byte?_map_of_lt (by omega) (.inr hpage), byte?_new, if_neg (by omega)]
  · rw [hc]
    omega
  · rw [Memory.stackLimit, UInt64.toNat_ofNat_of_lt' (by omega)]
  · rw [hm, hc]
    exact hread

end World
end Speculation
