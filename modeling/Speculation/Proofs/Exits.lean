import Speculation.Proofs.Compile.Ledger
import Speculation.Proofs.Compile.Success

/-!
How often code is left, and when it should be compiled anew.

Counting an exit looks at that exit and at the total only. `Artifact.verdict` is the answer to a
taking after earlier ones; it depends on how often each exit was taken before and not on the
order. A recommendation stands for the exit that earned it, and for all once the total has earned
it; it does not carry over from one exit to another.
-/

namespace Speculation

namespace Artifact

variable {a b : Artifact} {i : Nat} {is : List Nat}

def taken (a : Artifact) (i : Nat) : Nat := (a.exits[i]?.map fun x => x.count.toNat).getD 0

def noteExits (a : Artifact) (is : List Nat) : Except Breach Artifact :=
  is.foldlM (fun a i => return (← a.noteExit i).2) a

/-- Whether the code should be compiled anew when the exit `i` is taken after `earlier` ones. -/
def verdict (a : Artifact) (earlier : List Nat) (i : Nat) : Except Breach Bool := do
  return (← (← a.noteExits earlier).noteExit i).1

def Admits (a : Artifact) (is : List Nat) : Prop :=
  ∀ i ∈ is, i < a.exits.size ∧ a.taken i + is.count i < UInt32.size

/-- Some exit is taken as often as the threshold says, or all exits together twice as often. -/
def Overdue (a : Artifact) (is : List Nat) : Prop :=
  (∃ i < a.exits.size, a.exitThreshold.toNat ≤ a.taken i + is.count i) ∨
    2 * a.exitThreshold.toNat ≤ a.exitTotal + is.length

/-- What counting the exits `is` makes of `a`. -/
structure Tallied (a : Artifact) (is : List Nat) (b : Artifact) : Prop where
  threshold : b.exitThreshold = a.exitThreshold
  size : b.exits.size = a.exits.size
  taken (i : Nat) : b.taken i = a.taken i + is.count i
  total : b.exitTotal = a.exitTotal + is.length

lemma Tallied.refl (a : Artifact) : a.Tallied [] a := ⟨rfl, rfl, fun _ => rfl, rfl⟩

lemma exitTotal_eq_sum (a : Artifact) :
    a.exitTotal = (a.exits.toList.map fun x => x.count.toNat).sum := by
  rw [exitTotal, ← Array.foldl_toList, List.sum_eq_foldl, List.foldl_map]

lemma sum_map_set {α : Type} (f : α → Nat) {l : List α} {i : Nat} {x : α} (h : l[i]? = some x)
    (y : α) : ((l.set i y).map f).sum + f x = (l.map f).sum + f y := by
  induction l generalizing i with
  | nil => simp at h
  | cons z l ih =>
    cases i with
    | zero =>
      cases h
      simp only [List.set_cons_zero, List.map_cons, List.sum_cons]
      omega
    | succ i =>
      have hrest := ih (i := i) h
      simp only [List.set_cons_succ, List.map_cons, List.sum_cons]
      omega

/-- Counting an exit that is there, and not taken too often, succeeds. -/
lemma noteExit_tallied (hi : i < a.exits.size) (hfew : a.taken i + 1 < UInt32.size) :
    ∃ often b, a.noteExit i = .ok (often, b) ∧ a.Tallied [i] b ∧
      (often = true ↔ a.exitThreshold.toNat ≤ a.taken i + 1 ∨
        2 * a.exitThreshold.toNat ≤ a.exitTotal + 1) := by
  have hx : a.exits[i]? = some a.exits[i] := Array.getElem?_eq_getElem hi
  generalize a.exits[i] = x at hx
  have htaken : a.taken i = x.count.toNat := by rw [taken, hx]; rfl
  rw [htaken] at hfew ⊢
  have hnext : (x.count + 1).toNat = x.count.toNat + 1 := by
    rw [UInt32.toNat_add, UInt32.toNat_one]
    exact Nat.mod_eq_of_lt hfew
  let y : ExitSite := { x with count := x.count + 1 }
  let b : Artifact := { a with exits := a.exits.setIfInBounds i y }
  have htotal : b.exitTotal = a.exitTotal + 1 := by
    have hsum := sum_map_set (fun x : ExitSite => x.count.toNat)
      (Array.getElem?_toList.trans hx) y
    rw [← Array.toList_setIfInBounds] at hsum
    change (b.exits.toList.map fun x => x.count.toNat).sum + x.count.toNat =
      (a.exits.toList.map fun x => x.count.toNat).sum + (x.count + 1).toNat at hsum
    rw [exitTotal_eq_sum, exitTotal_eq_sum]
    omega
  refine ⟨decide (a.exitThreshold ≤ x.count + 1) ||
    decide (2 * a.exitThreshold.toNat ≤ b.exitTotal), b, ?_,
    ⟨rfl, Array.size_setIfInBounds, fun j => ?_, htotal⟩, ?_⟩
  · simp only [noteExit, Breach.get, hx, bind, Except.bind, pure, Except.pure]
    rw [if_neg (by omega)]
  · by_cases hij : i = j
    · subst hij
      rw [htaken, List.count_singleton_self, ← hnext, taken,
        Array.getElem?_setIfInBounds_self_of_lt hi]
      rfl
    · rw [List.count_singleton, beq_false_of_ne hij, taken, taken,
        Array.getElem?_setIfInBounds_ne hij]
      rfl
  · rw [Bool.or_eq_true, decide_eq_true_eq, decide_eq_true_eq, htotal, UInt32.le_iff_toNat_le, hnext]

lemma Tallied.trans {c : Artifact} {js : List Nat} (h : a.Tallied is b) (h' : b.Tallied js c) :
    a.Tallied (is ++ js) c where
  threshold := h'.threshold.trans h.threshold
  size := h'.size.trans h.size
  taken i := by rw [h'.taken, h.taken, List.count_append, Nat.add_assoc]
  total := by rw [h'.total, h.total, List.length_append, Nat.add_assoc]

lemma Admits.left {js : List Nat} (h : a.Admits (is ++ js)) : a.Admits is := by
  intro i hi
  obtain ⟨hlt, hfew⟩ := h i (List.mem_append_left _ hi)
  rw [List.count_append] at hfew
  exact ⟨hlt, by omega⟩

/-- What comes after can still be counted. -/
lemma Tallied.admits {js : List Nat} (hc : a.Tallied is b) (h : a.Admits (is ++ js)) :
    b.Admits js := by
  intro i hi
  obtain ⟨hlt, hfew⟩ := h i (List.mem_append_right _ hi)
  rw [List.count_append, ← Nat.add_assoc, ← hc.taken] at hfew
  exact ⟨hc.size ▸ hlt, hfew⟩

/-- The next taking can be counted, and its answer is about this exit and the total. -/
lemma Admits.noteExit (h : a.Admits [i]) :
    ∃ often b, a.noteExit i = .ok (often, b) ∧ a.Tallied [i] b ∧
      (often = true ↔ a.exitThreshold.toNat ≤ a.taken i + 1 ∨
        2 * a.exitThreshold.toNat ≤ a.exitTotal + 1) := by
  obtain ⟨hlt, hfew⟩ := h i (List.mem_singleton_self i)
  rw [List.count_singleton_self] at hfew
  exact noteExit_tallied hlt hfew

lemma exists_tallied (h : a.Admits is) : ∃ b, a.noteExits is = .ok b ∧ a.Tallied is b := by
  induction is generalizing a with
  | nil => exact ⟨a, rfl, .refl a⟩
  | cons i is ih =>
    have hboth : a.Admits ([i] ++ is) := h
    obtain ⟨often, b, hnote, hb, -⟩ := hboth.left.noteExit
    obtain ⟨c, hc, hbc⟩ := ih (hb.admits hboth)
    refine ⟨c, ?_, hb.trans hbc⟩
    rw [noteExits, List.foldlM_cons, hnote]
    exact hc

/-- The answer to a taking after others is about that exit and the total. -/
lemma exists_verdict (h : a.Admits (is ++ [i])) :
    ∃ often, a.verdict is i = .ok often ∧
      (often = true ↔ a.exitThreshold.toNat ≤ a.taken i + (is ++ [i]).count i ∨
        2 * a.exitThreshold.toNat ≤ a.exitTotal + (is ++ [i]).length) := by
  obtain ⟨b, hb, htallied⟩ := exists_tallied h.left
  obtain ⟨often, c, hnote, -, hoften⟩ := (htallied.admits h).noteExit
  refine ⟨often, ?_, ?_⟩
  · simp only [verdict, hb, hnote, bind, Except.bind, pure, Except.pure]
  · rw [hoften, htallied.threshold, htallied.taken, htallied.total, List.count_append,
      List.count_singleton_self, List.length_append, List.length_singleton, Nat.add_assoc,
      Nat.add_assoc]

/-- The answer to a taking is about how often that exit and all exits have been taken, this time
included. So it is what the counts of all exits say whenever no other exit was taken more often; the
order of the earlier takings does not matter; and once given, a recommendation stands for this exit,
and for every exit if the total has earned it. -/
theorem verdict_of_admits {earlier : List Nat} (h : a.Admits (earlier ++ [i])) :
    ∃ often, a.verdict earlier i = .ok often ∧
      (often = true ↔ a.exitThreshold.toNat ≤ a.taken i + (earlier ++ [i]).count i ∨
        2 * a.exitThreshold.toNat ≤ a.exitTotal + (earlier ++ [i]).length) ∧
      ((∀ j < a.exits.size, a.taken j + (earlier ++ [i]).count j ≤
          a.taken i + (earlier ++ [i]).count i) →
        (often = true ↔ a.Overdue (earlier ++ [i]))) ∧
      (∀ other : List Nat, other.Perm earlier → a.verdict other i = .ok often) ∧
      ∀ (later : List Nat) (j : Nat), a.Admits (earlier ++ [i] ++ later ++ [j]) → often = true →
        j = i ∨ 2 * a.exitThreshold.toNat ≤ a.exitTotal + (earlier ++ [i]).length →
        a.verdict (earlier ++ [i] ++ later) j = .ok true := by
  obtain ⟨often, hverdict, hoften⟩ := exists_verdict h
  refine ⟨often, hverdict, hoften, fun hmost => ?_, fun other hperm => ?_, fun later j hlater hyes hj => ?_⟩
  · obtain ⟨hi, -⟩ := h i (by simp)
    rw [hoften]
    constructor
    · exact Or.imp_left fun hthis => ⟨i, hi, hthis⟩
    · exact Or.imp_left fun ⟨j, hj, hthat⟩ => hthat.trans (hmost j hj)
  · have hboth := hperm.append_right [i]
    have hadmits : a.Admits (other ++ [i]) := fun j hj => by
      rw [hboth.count_eq]
      exact h j (hboth.mem_iff.mp hj)
    obtain ⟨answer, hother, hanswer⟩ := exists_verdict hadmits
    rw [hboth.count_eq, hboth.length_eq, ← hoften] at hanswer
    rw [hother, Bool.eq_iff_iff.mpr hanswer]
  · obtain ⟨answer, hlast, hanswer⟩ := exists_verdict hlater
    have hcount (k : Nat) : (earlier ++ [i]).count k ≤ (earlier ++ [i] ++ later ++ [j]).count k := by
      rw [List.append_assoc]
      exact (List.sublist_append_left _ _).count_le k
    have hlength : (earlier ++ [i]).length ≤ (earlier ++ [i] ++ later ++ [j]).length := by
      simp only [List.length_append]
      omega
    rw [hlast, hanswer.mpr ?_]
    rcases hj with rfl | htotal
    · rcases hoften.mp hyes with hthis | htotal
      · have := hcount j
        exact .inl (by omega)
      · exact .inr (by omega)
    · exact .inr (by omega)

def sumPlan : Plan := { Plan.ofDraft .sum with options := { exitThreshold := 2 } }

lemma exists_sum : ∃ a, (sumPlan.compile 4096).outcome = .ok a ∧ a.exits.size = 3 ∧
    a.exitThreshold.toNat = 2 ∧ a.exitTotal = 0 ∧ ∀ i < 3, a.taken i = 0 := by
  have hsketch : (sumPlan.sketch 4096).map (fun s => (s.1.exits.size, s.1.exitThreshold.toNat,
      s.1.exitTotal, (List.range 3).map s.1.taken)) = some (3, 2, 0, [0, 0, 0]) := by
    decide +kernel
  obtain ⟨⟨a, block⟩, hs, hfields⟩ := Option.map_eq_some_iff.mp hsketch
  obtain ⟨code, ha, -⟩ := Plan.exists_compiled hs
  simp only [Prod.mk.injEq] at hfields
  obtain ⟨hsize, hthreshold, htotal, htaken⟩ := hfields
  refine ⟨_, ha, hsize, hthreshold, htotal, fun i hi => ?_⟩
  have hget := congrArg (·[i]?) htaken
  simp only [List.getElem?_map, List.getElem?_range hi, Option.map_some] at hget
  interval_cases i <;> exact Option.some.inj hget

lemma admits_of_fresh (hsize : a.exits.size = 3) (hfresh : ∀ i < 3, a.taken i = 0)
    (h : ∀ i ∈ is, i < 3) (hlength : is.length < 1000) : a.Admits is := by
  intro i hi
  have hcount := List.count_le_length (a := i) (l := is)
  rw [hsize, hfresh i (h i hi)]
  exact ⟨h i hi, by simp only [UInt32.size]; omega⟩

/-- The second taking of an exit earns a recommendation. -/
theorem verdict_of_admits_sum : ∃ a, (sumPlan.compile 4096).outcome = .ok a ∧
    a.Admits ([2] ++ [2]) ∧ a.verdict [2] 2 = .ok true := by
  obtain ⟨a, ha, hsize, hthreshold, htotal, hfresh⟩ := exists_sum
  have hadmits : a.Admits ([2] ++ [2]) :=
    admits_of_fresh hsize hfresh (by decide) (by decide)
  obtain ⟨often, hverdict, hoften, -⟩ := verdict_of_admits hadmits
  rw [hthreshold, hfresh 2 (by omega)] at hoften
  rw [hoften.mpr (.inl (by decide))] at hverdict
  exact ⟨a, ha, hadmits, hverdict⟩

/-- After an exit has earned a recommendation, the taking of another one may not give it. -/
theorem not_recommended_sum : ¬∀ (p : Plan) (base : UInt64) (a : Artifact) (earlier : List Nat)
    (i : Nat), (p.compile base).outcome = .ok a → a.Admits (earlier ++ [i]) →
      a.Overdue (earlier ++ [i]) → a.verdict earlier i = .ok true := by
  intro h
  obtain ⟨a, ha, hsize, hthreshold, htotal, hfresh⟩ := exists_sum
  have hadmits : a.Admits ([2, 2] ++ [0]) :=
    admits_of_fresh hsize hfresh (by decide) (by decide)
  have hoverdue : a.Overdue ([2, 2] ++ [0]) := by
    refine .inl ⟨2, by omega, ?_⟩
    rw [hthreshold, hfresh 2 (by omega)]
    decide
  obtain ⟨often, hverdict, hoften⟩ := exists_verdict hadmits
  rw [h sumPlan 4096 a [2, 2] 0 ha hadmits hoverdue] at hverdict
  cases hverdict
  rw [hthreshold, htotal, hfresh 0 (by omega)] at hoften
  exact absurd (hoften.mp rfl) (by decide)

end Artifact
end Speculation
