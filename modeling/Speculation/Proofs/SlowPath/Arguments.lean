import Speculation.Proofs.Execution.Flags
import Speculation.Proofs.Execution.Straight
import Speculation.Proofs.SlowPath.Moves

/-!
Passing arguments to a helper.

The registers that arguments come from may be argument registers themselves, in any order. Whatever
they are, the helper finds in its registers what they held before the first move.
-/

namespace Speculation
namespace Lowering

def Argument.isDouble : Argument → Bool
  | .fpr _ => true
  | .gpr _ | .imm _ => false

def integers (args : List Argument) : Nat := args.countP fun a => !a.isDouble

def doubles (args : List Argument) : Nat := args.countP Argument.isDouble

/-- The given argument registers have in `m` what the arguments are in `m₀`. -/
def passes (m₀ m : Registers) : List Argument → List Gpr → List Fpr → Prop
  | [], _, _ => True
  | .gpr r :: args, d :: gs, fs => m.gpr d = m₀.gpr r ∧ passes m₀ m args gs fs
  | .imm x :: args, d :: gs, fs => m.gpr d = x ∧ passes m₀ m args gs fs
  | .fpr f :: args, gs, d :: fs => m.fpr d = m₀.fpr f ∧ passes m₀ m args gs fs
  | _, _, _ => False

/-- A helper that is called with `m` gets the arguments as they are in `m₀`. -/
def Passes (args : List Argument) (m₀ m : Registers) : Prop :=
  passes m₀ m args Gpr.arguments Fpr.arguments

def ArgumentMoves.insts (a : ArgumentMoves) : List Inst :=
  (parallelMoves Gpr.scratch a.gprs).map (fun m => .mov m.1 m.2) ++
    ((parallelMoves Fpr.scratch a.fprs).map (fun m => .dmov m.1 m.2) ++
      a.imms.map fun m => .movImm m.1 m.2)

variable {args : List Argument} {gs : List Gpr} {fs : List Fpr} {a : ArgumentMoves}
  {m : Registers} {mem : Memory}

lemma integers_cons (x : Argument) :
    integers (x :: args) = integers args + if x.isDouble then 0 else 1 := by
  cases x <;> simp [integers, Argument.isDouble]

lemma doubles_cons (x : Argument) :
    doubles (x :: args) = doubles args + if x.isDouble then 1 else 0 := by
  rw [doubles, List.countP_cons]
  rfl

/-- Arguments are accepted if there are registers for them. -/
lemma exists_assignArguments (hg : integers args ≤ gs.length) (hf : doubles args ≤ fs.length) :
    ∃ a, assignArguments args gs fs = .ok a := by
  fun_induction assignArguments args gs fs with
  | case1 => exact ⟨_, rfl⟩
  | case2 | case3 | case4 => simp [integers_cons, doubles_cons, Argument.isDouble] at hg hf
  | case5 r args d gs fs ih | case6 x args d gs fs ih | case7 r args gs d fs ih =>
    simp only [integers_cons, doubles_cons, Argument.isDouble, List.length_cons, if_true,
      Bool.false_eq_true, if_false, Nat.add_zero, Nat.add_le_add_iff_right] at hg hf
    obtain ⟨a, ha⟩ := ih hg hf
    exact ⟨_, by rw [ha]; rfl⟩

/-- Each argument has a register of its own among those that are given, and the first of those are
used. -/
structure Assigned (args : List Argument) (gs : List Gpr) (fs : List Fpr) (a : ArgumentMoves) :
    Prop where
  gprs : (a.gprs.map Prod.fst ++ a.imms.map Prod.fst).Nodup
  fprs : (a.fprs.map Prod.fst).Nodup
  gpr {d : Gpr} (h : d ∈ a.gprs.map Prod.fst ++ a.imms.map Prod.fst) : d ∈ gs.take (integers args)
  fpr {d : Fpr} (h : d ∈ a.fprs.map Prod.fst) : d ∈ fs.take (doubles args)
  passes {m₀ m : Registers} (hg : ∀ k ∈ a.gprs, m.gpr k.1 = m₀.gpr k.2)
    (hi : ∀ k ∈ a.imms, m.gpr k.1 = k.2) (hf : ∀ k ∈ a.fprs, m.fpr k.1 = m₀.fpr k.2) :
    passes m₀ m args gs fs

lemma assigned_of_assignArguments (hg : gs.Nodup) (hf : fs.Nodup)
    (h : assignArguments args gs fs = .ok a) : Assigned args gs fs a := by
  fun_induction assignArguments args gs fs generalizing a with
  | case1 =>
    cases h
    exact ⟨.nil, .nil, nofun, nofun, fun _ _ _ => trivial⟩
  | case2 => cases h
  | case3 => cases h
  | case4 => cases h
  | case5 r args d gs fs ih =>
    obtain ⟨hd, hg⟩ := List.nodup_cons.mp hg
    rcases hb : assignArguments args gs fs with e | b <;> rw [hb] at h <;> cases h
    have hb := ih hg hf hb
    have hints : integers (.gpr r :: args) = integers args + 1 := integers_cons _
    have hdoubles : doubles (.gpr r :: args) = doubles args := doubles_cons _
    refine ⟨List.nodup_cons.mpr ⟨fun he => hd (List.mem_of_mem_take (hb.gpr he)), hb.gprs⟩, hb.fprs,
      fun {q} hq => ?_, fun hq => hdoubles ▸ hb.fpr hq, fun hg hi hf => ?_⟩
    · rw [hints, List.take_succ_cons]
      exact (List.mem_cons.mp hq).elim (fun h => h ▸ List.mem_cons_self)
        fun h => List.mem_cons_of_mem _ (hb.gpr h)
    · obtain ⟨hr, hg⟩ := List.forall_mem_cons.mp hg
      exact ⟨hr, hb.passes hg hi hf⟩
  | case6 x args d gs fs ih =>
    obtain ⟨hd, hg⟩ := List.nodup_cons.mp hg
    rcases hb : assignArguments args gs fs with e | b <;> rw [hb] at h <;> cases h
    have hb := ih hg hf hb
    have hints : integers (.imm x :: args) = integers args + 1 := integers_cons _
    have hdoubles : doubles (.imm x :: args) = doubles args := doubles_cons _
    have hperm : (b.gprs.map Prod.fst ++ d :: b.imms.map Prod.fst).Perm
        (d :: (b.gprs.map Prod.fst ++ b.imms.map Prod.fst)) := List.perm_middle
    refine ⟨hperm.nodup_iff.mpr (List.nodup_cons.mpr
      ⟨fun he => hd (List.mem_of_mem_take (hb.gpr he)), hb.gprs⟩), hb.fprs, fun {q} hq => ?_,
      fun hq => hdoubles ▸ hb.fpr hq, fun hg hi hf => ?_⟩
    · rw [hints, List.take_succ_cons]
      exact (List.mem_cons.mp (hperm.mem_iff.mp hq)).elim (fun h => h ▸ List.mem_cons_self)
        fun h => List.mem_cons_of_mem _ (hb.gpr h)
    · obtain ⟨hx, hi⟩ := List.forall_mem_cons.mp hi
      exact ⟨hx, hb.passes hg hi hf⟩
  | case7 r args gs d fs ih =>
    obtain ⟨hd, hf⟩ := List.nodup_cons.mp hf
    rcases hb : assignArguments args gs fs with e | b <;> rw [hb] at h <;> cases h
    have hb := ih hg hf hb
    have hints : integers (.fpr r :: args) = integers args := integers_cons _
    have hdoubles : doubles (.fpr r :: args) = doubles args + 1 := doubles_cons _
    refine ⟨hb.gprs, List.nodup_cons.mpr ⟨fun he => hd (List.mem_of_mem_take (hb.fpr he)), hb.fprs⟩,
      fun hq => hints ▸ hb.gpr hq, fun {q} hq => ?_, fun hg hi hf => ?_⟩
    · rw [hdoubles, List.take_succ_cons]
      exact (List.mem_cons.mp hq).elim (fun h => h ▸ List.mem_cons_self)
        fun h => List.mem_cons_of_mem _ (hb.fpr h)
    · obtain ⟨hr, hf⟩ := List.forall_mem_cons.mp hf
      exact ⟨hr, hb.passes hg hi hf⟩

/-! ### What the instructions do -/

lemma effects_movs (mem : Memory) (moves : List (Gpr × Gpr)) : ∃ m',
    Inst.effects (moves.map fun k => .mov k.1 k.2) m mem = some (m', mem) ∧
      m'.gpr = inOrder m.gpr moves ∧ m' = { m with gprs := m'.gprs } := by
  induction moves generalizing m with
  | nil => exact ⟨m, rfl, rfl, rfl⟩
  | cons k moves ih =>
    obtain ⟨m', heff, hg, hm⟩ := ih (m := m.setGpr k.1 (m.gpr k.2))
    exact ⟨m', heff, by rw [hg, Registers.gpr_setGpr_eq]; rfl, hm⟩

lemma effects_dmovs (mem : Memory) (moves : List (Fpr × Fpr)) : ∃ m',
    Inst.effects (moves.map fun k => .dmov k.1 k.2) m mem = some (m', mem) ∧
      m'.fpr = inOrder m.fpr moves ∧ m' = { m with fprs := m'.fprs } := by
  induction moves generalizing m with
  | nil => exact ⟨m, rfl, rfl, rfl⟩
  | cons k moves ih =>
    obtain ⟨m', heff, hf, hm⟩ := ih (m := m.setFpr k.1 (m.fpr k.2))
    exact ⟨m', heff, by rw [hf, Registers.fpr_setFpr_eq]; rfl, hm⟩

lemma effects_movImms (mem : Memory) (imms : List (Gpr × UInt64))
    (hnd : (imms.map Prod.fst).Nodup) : ∃ m',
    Inst.effects (imms.map fun k => .movImm k.1 k.2) m mem = some (m', mem) ∧
      (∀ k ∈ imms, m'.gpr k.1 = k.2) ∧ (∀ r, r ∉ imms.map Prod.fst → m'.gpr r = m.gpr r) ∧
      m' = { m with gprs := m'.gprs } := by
  induction imms generalizing m with
  | nil => exact ⟨m, rfl, nofun, fun _ _ => rfl, rfl⟩
  | cons k imms ih =>
    obtain ⟨hk, hnd⟩ := List.nodup_cons.mp hnd
    obtain ⟨m', heff, hi, hr, hm⟩ := ih hnd (m := m.setGpr k.1 k.2)
    refine ⟨m', heff, List.forall_mem_cons.mpr ⟨?_, hi⟩, fun r hr' => ?_, hm⟩
    · rw [hr k.1 hk, Registers.gpr_setGpr, if_pos rfl]
    · rw [List.map_cons, List.mem_cons, not_or] at hr'
      rw [hr r hr'.2, Registers.gpr_setGpr, if_neg hr'.1]

/-- From `m` to `m'` the arguments were passed: apart from the registers that they are passed in
only the scratch registers may have changed, and no flags. -/
structure Passed (args : List Argument) (m m' : Registers) : Prop where
  passes : Passes args m m'
  gpr {r : Gpr} (h : r ∉ Gpr.arguments.take (integers args)) (hs : r ≠ .scratch) :
    m'.gpr r = m.gpr r
  fpr {f : Fpr} (h : f ∉ Fpr.arguments.take (doubles args)) (hs : f ≠ .scratch) :
    m'.fpr f = m.fpr f
  moved : m' = { m with gprs := m'.gprs, fprs := m'.fprs }

/-- The instructions pass the arguments. -/
lemma effects_arguments (mem : Memory)
    (h : assignArguments args Gpr.arguments Fpr.arguments = .ok a) : ∃ m',
    Inst.effects a.insts m mem = some (m', mem) ∧ Passed args m m' := by
  have ha := assigned_of_assignArguments (by decide) (by decide) h
  obtain ⟨hg, hi, hdisjoint⟩ := List.nodup_append.mp ha.gprs
  have hgs : Gpr.scratch ∉ a.gprs.map Prod.fst := fun hs =>
    absurd (List.mem_of_mem_take (ha.gpr (List.mem_append_left _ hs))) (by decide)
  have hfs : Fpr.scratch ∉ a.fprs.map Prod.fst := fun hs =>
    absurd (List.mem_of_mem_take (ha.fpr hs)) (by decide)
  obtain ⟨m₁, heff₁, hg₁, hm₁⟩ := effects_movs (m := m) mem (parallelMoves .scratch a.gprs)
  obtain ⟨m₂, heff₂, hf₂, hm₂⟩ := effects_dmovs (m := m₁) mem (parallelMoves .scratch a.fprs)
  obtain ⟨m₃, heff₃, hi₃, hg₃, hm₃⟩ := effects_movImms (m := m₂) mem a.imms hi
  have hgprs : AtOnce Gpr.scratch a.gprs m.gpr m₁.gpr := hg₁ ▸ atOnce_parallelMoves hg hgs
  have hfprs : AtOnce Fpr.scratch a.fprs m₁.fpr m₂.fpr := hf₂ ▸ atOnce_parallelMoves ha.fprs hfs
  have hfpr₁ : m₁.fpr = m.fpr := by rw [hm₁]; rfl
  have hgpr₂ : m₂.gpr = m₁.gpr := by rw [hm₂]; rfl
  have hfpr₃ : m₃.fpr = m₂.fpr := by rw [hm₃]; rfl
  refine ⟨m₃, ?_, ha.passes (fun k hk => ?_) hi₃ fun k hk => ?_, fun {r} hr hs => ?_,
    fun {f} hf hs => ?_, ?_⟩
  · simp only [ArgumentMoves.insts, Inst.effects_append, heff₁, heff₂, heff₃, Option.bind_some]
  · have hmem := List.mem_map_of_mem (f := Prod.fst) hk
    rw [hg₃ _ fun hi => hdisjoint _ hmem _ hi rfl, hgpr₂, hgprs.moved hk]
  · rw [hfpr₃, hfprs.moved hk, hfpr₁]
  · rw [hg₃ r fun hi => hr (ha.gpr (List.mem_append_right _ hi)), hgpr₂,
      hgprs.kept (fun hd => hr (ha.gpr (List.mem_append_left _ hd))) hs]
  · rw [hfpr₃, hfprs.kept (fun hd => hf (ha.fpr hd)) hs, hfpr₁]
  · rw [hm₃, hm₂, hm₁]

lemma computes_arguments : ∀ i ∈ a.insts, i.computes = true := by
  intro i hi
  simp only [ArgumentMoves.insts, List.mem_append, List.mem_map] at hi
  rcases hi with ⟨_, -, rfl⟩ | ⟨_, -, rfl⟩ | ⟨_, -, rfl⟩ <;> rfl

end Lowering
end Speculation
