import Speculation.Lowering.Guard
import Mathlib.Data.List.Nodup
import Mathlib.Data.List.Perm.Subperm
import Mathlib.Logic.Function.Basic
import Mathlib.Tactic.Lemma

/-!
Moves that are as if made all at once.

A move is made as soon as nothing needs its destination any more. When every destination is still
needed, the destinations are just the sources, so the scratch register is none of them and is free to
break a cycle; and the move into the register that was saved can be made next. So two rounds for each
move are enough.
-/

namespace Speculation
namespace Lowering

variable {R V : Type} [DecidableEq R] {ρ ρ' : R → V} {scratch : R} {moves : List (R × R)}

def inOrder (ρ : R → V) (moves : List (R × R)) : R → V :=
  moves.foldl (fun ρ m => Function.update ρ m.1 (ρ m.2)) ρ

/-- From `ρ` to `ρ'` all moves were made at once, and the scratch register may have changed. -/
structure AtOnce (scratch : R) (moves : List (R × R)) (ρ ρ' : R → V) : Prop where
  moved {m : R × R} (h : m ∈ moves) : ρ' m.1 = ρ m.2
  kept {r : R} (h : r ∉ moves.map Prod.fst) (hr : r ≠ scratch) : ρ' r = ρ r

def Free (moves : List (R × R)) (m : R × R) : Prop := ∀ k ∈ moves, k.2 ≠ m.1

lemma isFree_iff {m : R × R} :
    (!moves.any fun k => decide (k.2 = m.1)) = true ↔ Free moves m := by
  simp [Free]

/-- A move that is free is made first. -/
lemma AtOnce.first {m : R × R} {rest : List (R × R)} (hp : (m :: rest).Perm moves)
    (hnd : (moves.map Prod.fst).Nodup) (hs : scratch ∉ moves.map Prod.fst) (hm : Free moves m)
    (h : AtOnce scratch rest (Function.update ρ m.1 (ρ m.2)) ρ') : AtOnce scratch moves ρ ρ' := by
  have hdests := hp.map Prod.fst
  have hmem : m ∈ moves := hp.subset List.mem_cons_self
  obtain ⟨hnot, -⟩ := List.nodup_cons.mp (hdests.nodup_iff.mpr hnd)
  refine ⟨fun {k} hk => ?_, fun {r} hr hrs => ?_⟩
  · rcases List.mem_cons.mp (hp.mem_iff.mpr hk) with rfl | hk'
    · rw [h.kept hnot fun he => hs (he ▸ List.mem_map_of_mem hmem), Function.update_self]
    · rw [h.moved hk', Function.update_of_ne (hm k hk)]
  · rw [← hdests.mem_iff, List.map_cons, List.mem_cons, not_or] at hr
    rw [h.kept hr.2 hrs, Function.update_of_ne hr.1]

omit [DecidableEq R] in
/-- If no move is free, each register that is moved from is moved to. -/
lemma sources_of_none_free (hnd : (moves.map Prod.fst).Nodup) (h : ∀ m ∈ moves, ¬Free moves m) :
    ∀ m ∈ moves, m.2 ∈ moves.map Prod.fst := by
  have hsub : moves.map Prod.fst ⊆ moves.map Prod.snd := by
    intro d hd
    obtain ⟨m, hm, rfl⟩ := List.mem_map.mp hd
    have hfree := h m hm
    simp only [Free, not_forall, not_not] at hfree
    obtain ⟨k, hk, hkm⟩ := hfree
    exact hkm ▸ List.mem_map_of_mem hk
  have hperm := (hnd.subperm hsub).perm_of_length_le (by simp)
  exact fun m hm => hperm.mem_iff.mpr (List.mem_map_of_mem hm)

lemma map_fst_saved (moves : List (R × R)) (s : R) :
    (moves.map fun m => if m.2 = s then (m.1, scratch) else m).map Prod.fst = moves.map Prod.fst := by
  rw [List.map_map]
  refine List.map_congr_left fun m _ => ?_
  simp only [Function.comp_apply]
  split <;> rfl

/-- With the source saved in the scratch register, moves from there are as moves from the source. -/
lemma AtOnce.saved {s : R} (hsrc : ∀ m ∈ moves, m.2 ≠ scratch)
    (h : AtOnce scratch (moves.map fun m => if m.2 = s then (m.1, scratch) else m)
      (Function.update ρ scratch (ρ s)) ρ') : AtOnce scratch moves ρ ρ' := by
  refine ⟨fun {m} hm => ?_, fun {r} hr hrs => ?_⟩
  · have hmoved := h.moved (List.mem_map_of_mem hm)
    split at hmoved
    · rename_i hms
      rw [hmoved, Function.update_self, hms]
    · rw [hmoved, Function.update_of_ne (hsrc m hm)]
  · rw [h.kept (by rwa [map_fst_saved]) hrs, Function.update_of_ne hrs]

/-- Saving the source of a move in the scratch register makes the move into it free. -/
lemma exists_free_saved {s : R} (hs : scratch ∉ moves.map Prod.fst)
    (hmem : s ∈ moves.map Prod.fst) :
    ∃ m ∈ moves.map fun m => if m.2 = s then (m.1, scratch) else m,
      Free (moves.map fun m => if m.2 = s then (m.1, scratch) else m) m := by
  obtain ⟨m, hm, rfl⟩ := List.mem_map.mp hmem
  refine ⟨_, List.mem_map_of_mem hm, ?_⟩
  intro k hk
  obtain ⟨k, -, rfl⟩ := List.mem_map.mp hk
  have hdest : (if m.2 = m.1 then (m.1, scratch) else m).1 = m.1 := by split <;> rfl
  rw [hdest]
  split
  · rintro rfl
    exact hs hmem
  · assumption

/-- The moves that are left are made in rounds, each of which makes a move that is free, the first
one there is, or saves the source of the first move; then nothing is left. -/
inductive Rounds (scratch : R) : List (R × R) → List (R × R) → Prop
  | done : Rounds scratch [] []
  | move {moves made : List (R × R)} {m : R × R} {i : Nat}
    (hi : moves.findIdx? (fun m => !moves.any fun k => k.2 = m.1) = some i) (hm : moves[i]? = some m)
    (h : Rounds scratch (moves.eraseIdx i) made) : Rounds scratch moves (m :: made)
  | save {rest made : List (R × R)} {d s : R}
    (hi : ((d, s) :: rest).findIdx? (fun m => !((d, s) :: rest).any fun k => k.2 = m.1) = none)
    (h : Rounds scratch (((d, s) :: rest).map fun m => if m.2 = s then (m.1, scratch) else m) made) :
    Rounds scratch ((d, s) :: rest) ((scratch, s) :: made)

lemma none_free {moves : List (R × R)}
    (h : moves.findIdx? (fun m => !moves.any fun k => k.2 = m.1) = none) :
    ∀ m ∈ moves, ¬Free moves m := by
  intro m hm hfree
  have hne := List.findIdx?_eq_none_iff.mp h m hm
  rw [isFree_iff.mpr hfree] at hne
  cases hne

omit [DecidableEq R] in
/-- Without the move that is made, the destinations are still different. -/
lemma dests_eraseIdx {i : Nat} {m : R × R} (hm : moves[i]? = some m)
    (hnd : (moves.map Prod.fst).Nodup) (hs : scratch ∉ moves.map Prod.fst) :
    (m :: moves.eraseIdx i).Perm moves ∧ ((moves.eraseIdx i).map Prod.fst).Nodup ∧
      scratch ∉ (moves.eraseIdx i).map Prod.fst := by
  obtain ⟨hlt, rfl⟩ := List.getElem?_eq_some_iff.mp hm
  have hsub := (List.eraseIdx_sublist moves i).map Prod.fst
  exact ⟨List.getElem_cons_eraseIdx_perm hlt, hnd.sublist hsub, fun h => hs (hsub.subset h)⟩

/-- The rounds come to an end: after a source was saved there is a free move. -/
lemma rounds_sequentialize {fuel : Nat} (hnd : (moves.map Prod.fst).Nodup)
    (hs : scratch ∉ moves.map Prod.fst)
    (hf : 2 * moves.length ≤ fuel ∨
      2 * moves.length ≤ fuel + 1 ∧ ∃ m ∈ moves, Free moves m) :
    Rounds scratch moves (sequentialize scratch fuel moves) := by
  fun_induction sequentialize scratch fuel moves with
  | case1 moves =>
    obtain rfl : moves = [] := by
      rw [← List.length_eq_zero_iff]
      omega
    exact .done
  | case2 => exact .done
  | case3 fuel d s rest =>
    rename_i moves i hi m hm ih
    have hmoves : (d, s) :: rest = moves := rfl
    rw [hmoves] at hnd hs hf ⊢
    clear_value moves
    obtain ⟨-, hnd', hs'⟩ := dests_eraseIdx hm hnd hs
    have hlen := List.length_eraseIdx_of_lt (List.getElem?_eq_some_iff.mp hm).1
    exact .move hi hm (ih hnd' hs' (.inl (by omega)))
  | case4 fuel d s rest =>
    rename_i moves i hi hm
    obtain ⟨hlt, -⟩ := List.findIdx?_eq_some_iff_getElem.mp hi
    exact absurd hm (by simp [hlt])
  | case5 fuel d s rest =>
    rename_i moves hi ih
    have hnone := none_free hi
    have hmem : s ∈ moves.map Prod.fst :=
      sources_of_none_free hnd hnone (d, s) List.mem_cons_self
    have hlen : (moves.map fun m => if m.2 = s then (m.1, scratch) else m).length =
        moves.length := List.length_map _
    refine .save hi (ih (by rwa [map_fst_saved]) (by rwa [map_fst_saved])
      (.inr ⟨?_, exists_free_saved hs hmem⟩))
    rw [hlen]
    rcases hf with hf | ⟨-, m, hm, hfree⟩
    · exact hf
    · exact absurd hfree (hnone m hm)

/-- However many rounds there are, together they are as if all moves were made at once. -/
lemma Rounds.atOnce {made : List (R × R)} (h : Rounds scratch moves made)
    (hnd : (moves.map Prod.fst).Nodup) (hs : scratch ∉ moves.map Prod.fst) :
    AtOnce scratch moves ρ (inOrder ρ made) := by
  induction h generalizing ρ with
  | done => exact ⟨nofun, fun _ _ => rfl⟩
  | move hi hm _ ih =>
    obtain ⟨hperm, hnd', hs'⟩ := dests_eraseIdx hm hnd hs
    obtain ⟨hlt, hfree, -⟩ := List.findIdx?_eq_some_iff_getElem.mp hi
    rw [(List.getElem?_eq_some_iff.mp hm).2] at hfree
    exact .first hperm hnd hs (isFree_iff.mp hfree) (ih hnd' hs')
  | save hi _ ih =>
    have hsources := sources_of_none_free hnd (none_free hi)
    refine .saved (fun m hm he => hs (he ▸ hsources m hm)) (ih ?_ ?_)
    · rwa [map_fst_saved]
    · rwa [map_fst_saved]

/-- The moves of a list come to an end. -/
lemma rounds_parallelMoves (hnd : (moves.map Prod.fst).Nodup) (hs : scratch ∉ moves.map Prod.fst) :
    Rounds scratch (moves.filter fun m => m.1 ≠ m.2) (parallelMoves scratch moves) := by
  have hsub := (List.filter_sublist (p := fun m : R × R => decide (m.1 ≠ m.2)) (l := moves)).map
    Prod.fst
  exact rounds_sequentialize (hnd.sublist hsub) (fun h => hs (hsub.subset h)) (.inl (Nat.le_refl _))

/-- Moves to different registers come out as if they were made all at once. -/
lemma atOnce_parallelMoves (hnd : (moves.map Prod.fst).Nodup) (hs : scratch ∉ moves.map Prod.fst) :
    AtOnce scratch moves ρ (inOrder ρ (parallelMoves scratch moves)) := by
  have hsub := (List.filter_sublist (p := fun m : R × R => decide (m.1 ≠ m.2)) (l := moves)).map
    Prod.fst
  have h : AtOnce scratch _ ρ (inOrder ρ (parallelMoves scratch moves)) :=
    (rounds_parallelMoves hnd hs).atOnce (hnd.sublist hsub) fun h => hs (hsub.subset h)
  refine ⟨fun {m} hm => ?_, fun {r} hr hrs => h.kept (fun hr' => hr (hsub.subset hr')) hrs⟩
  by_cases he : m.1 = m.2
  · -- a register that is moved to itself is the destination of no other move
    refine (h.kept (fun hmem => ?_) fun he => hs (he ▸ List.mem_map_of_mem hm)).trans (by rw [he])
    obtain ⟨k, hk, hkm⟩ := List.mem_map.mp hmem
    obtain ⟨hk, hne⟩ := List.mem_filter.mp hk
    obtain rfl := List.inj_on_of_nodup_map hnd hk hm hkm
    exact absurd he (by simpa using hne)
  · exact h.moved (List.mem_filter.mpr ⟨hm, by simpa using he⟩)

end Lowering
end Speculation
