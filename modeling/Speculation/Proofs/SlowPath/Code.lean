import Speculation.Proofs.Execution.Linked
import Speculation.Proofs.SlowPath.Arguments
import Speculation.Proofs.SlowPath.Saving

/-!
The code of slow paths.

Every slow path has code of one shape: the registers are saved, the helper is called, its result is
taken and the registers are restored. A conversion of elements has a guard before and another one
after that. The last instruction goes back to the fast path.
-/

namespace Speculation
namespace Lowering

open Piece (plain)

def SlowWork.before : SlowWork → List Inst
  | .call .. => []
  | .convert _ c _ =>
    [.load .w64 false .scratch (structureOf c),
      .load .w8 false .scratch (.ofBase .scratch (Int32.ofNat Layout.structureFlags)),
      .test .s32 .scratch (.imm (Int32.ofNat TypeFlag.interceptsIndexing.toNat))]

def SlowWork.after : SlowWork → List Inst
  | .call .. => []
  | .convert _ _ shape =>
    [.alu .s32 .and .scratch (.imm (Int32.ofNat Indexing.shapeMask.toNat)),
      .cmp .s32 .scratch (.imm (Int32.ofNat shape.toNat))]

def SlowWork.target : SlowWork → Option Gpr
  | .call _ _ r => r
  | .convert .. => some .scratch

def SlowWork.guard (w : SlowWork) (l : Label) : List Piece :=
  match w with
  | .call .. => []
  | .convert .. => [.inst (.jcc .ne 0) (some (.label l))]

def taking (r : Option Gpr) : List Inst :=
  match r with
  | some r => if r = .result then [] else [.mov r .result]
  | none => []

def SlowPath.callPieces (p : SlowPath) (env : Env) (h : Helper) (a : ArgumentMoves)
    (r : Option Gpr) : List Piece :=
  plain (p.kept.map env.frame.save) ++ (plain a.insts ++
    (.inst (.call 0) (some (.external (.helper h))) :: (exceptionPieces env h ++
      (plain (taking r) ++ plain (p.kept.map env.frame.restore)))))

def SlowPath.pieces (p : SlowPath) (env : Env) (a : ArgumentMoves) (l l' : Label) : List Piece :=
  plain p.work.before ++ (p.work.guard l ++ (p.callPieces env p.work.helper a p.work.target ++
    (plain p.work.after ++ (p.work.guard l' ++ [.inst (.jmp 0) (some (.label p.done))]))))

variable {α β : Type} {env : Env} {s s' : State} {ls : List Label} {p : SlowPath}
  {a : ArgumentMoves} {args : List Argument} {f : Helper} {r : Option Gpr}

namespace Lays

/-- A loop that emits an instruction for each element. -/
lemma forIn (i : β → Inst) {xs : List β} {g : β → PUnit → Lower (ForInStep PUnit)}
    (hg : ∀ x u, Lays env (g x u) (.yield PUnit.unit) [.inst (i x) none]) :
    Lays env (forIn xs PUnit.unit g) PUnit.unit (plain (xs.map i)) := by
  induction xs with
  | nil => exact Lays.pure _
  | cons x xs ih =>
    rw [List.forIn_cons]
    exact (hg x PUnit.unit).bind ih

lemma check {x : α} : Lays env (check (.ok x)) x [] := fun _ => ⟨rfl, .of_eq rfl rfl, rfl, rfl⟩

/-- A loop that is the last step. -/
lemma forIn' (i : β → Inst) {xs : List β} {g : β → PUnit → Lower (ForInStep PUnit)}
    (hg : ∀ x u, Lays env (g x u) (.yield PUnit.unit) [.inst (i x) none]) :
    Lays env (ForIn.forIn xs PUnit.unit g >>= fun _ => Pure.pure ()) () (plain (xs.map i)) := by
  rw [← List.append_nil (plain (xs.map i))]
  exact (forIn i hg).bind (Lays.pure ())

/-- A loop over the registers that a slow path saves. -/
lemma kept (i : Location → Inst) {g : Gpr → PUnit → Lower (ForInStep PUnit)}
    {k : Fpr → PUnit → Lower (ForInStep PUnit)}
    (hg : ∀ r u, Lays env (g r u) (.yield PUnit.unit) [.inst (i (.gpr r)) none])
    (hk : ∀ r u, Lays env (k r u) (.yield PUnit.unit) [.inst (i (.fpr r)) none]) :
    Lays env (do
      ForIn.forIn p.gprs PUnit.unit g
      ForIn.forIn p.fprs PUnit.unit k
      Pure.pure ()) () (plain (p.kept.map i)) := by
  have hpieces : plain (p.kept.map i) =
      plain (p.gprs.map fun r => i (.gpr r)) ++ plain (p.fprs.map fun r => i (.fpr r)) := by
    simp [plain, SlowPath.kept, Function.comp_def]
  rw [hpieces]
  exact (forIn _ hg).bind (forIn' _ hk)

lemma saveRegisters : Lays env (saveRegisters p) () (plain (p.kept.map env.frame.save)) :=
  .read (kept env.frame.save (fun _ _ => (Lays.emit' _).bind (Lays.pure _))
    fun _ _ => (Lays.emit' _).bind (Lays.pure _))

lemma restoreRegisters :
    Lays env (restoreRegisters p) () (plain (p.kept.map env.frame.restore)) :=
  .read (kept env.frame.restore (fun _ _ => (Lays.emit' _).bind (Lays.pure _))
    fun _ _ => (Lays.emit' _).bind (Lays.pure _))

lemma setupArguments (h : assignArguments args Gpr.arguments Fpr.arguments = .ok a) :
    Lays env (setupArguments args) () (plain a.insts) := by
  have hpieces : plain a.insts = [] ++
      (plain ((parallelMoves Gpr.scratch a.gprs).map fun m => .mov m.1 m.2) ++
        (plain ((parallelMoves Fpr.scratch a.fprs).map fun m => .dmov m.1 m.2) ++
          plain (a.imms.map fun m => .movImm m.1 m.2))) := by
    simp [plain, ArgumentMoves.insts]
  rw [hpieces, Lowering.setupArguments, h]
  refine check.bind ((forIn _ ?_).bind ((forIn _ ?_).bind (forIn' _ ?_)))
  · rintro ⟨d, q⟩ _
    exact (Lays.emit' _).bind (Lays.pure _)
  · rintro ⟨d, q⟩ _
    exact (Lays.emit' _).bind (Lays.pure _)
  · rintro ⟨d, x⟩ _
    exact (Lays.movImm _ _).bind (Lays.pure _)

lemma takeResult (q : Gpr) : Lays env (Lowering.mov q .result) () (plain (taking (some q))) := by
  by_cases hq : q = .result
  · simp only [taking, if_pos hq, Lowering.mov]
    exact Lays.pure _
  · simp only [taking, if_neg hq]
    exact Lays.mov hq

lemma exceptionIf {z : Lower Unit} {qs : List Piece} (hz : Lays env z () qs) :
    Lays env (if f.mayThrow = true then Lowering.exceptionCheck >>= fun _ => z else z) ()
      (exceptionPieces env f ++ qs) := by
  unfold exceptionPieces
  split
  · exact exceptionCheck.bind hz
  · exact hz

lemma slowCall (h : assignArguments args Gpr.arguments Fpr.arguments = .ok a) :
    Lays env (slowCall p f args r) () (p.callPieces env f a r) := by
  refine saveRegisters.bind ((setupArguments h).bind ((Lays.emitCall f).bind ?_))
  cases r with
  | none => exact exceptionIf restoreRegisters
  | some q => exact exceptionIf ((takeResult q).bind restoreRegisters)

end Lays

lemma gives_guard {kind : ExitKind} {c : Cond} : Gives env ls s (guard' kind c) fun _ s' =>
    ∃ x ∈ s'.exits, s.asm.Adds s'.asm [.inst (.jcc c 0) (some (.label x.stub))] := by
  refine ((Gives.of_extending (.guard' kind c)).and ?_).conseq fun _ _ _ h => h.2
  refine leads_discard.mpr (leads_bind.mpr (leads_bind.mpr ?_))
  rw [newLabel, leads_modifyGet, leads_bind, currentNode, leads_bind, leads_get, node, leads_bind,
    leads_read, leads_assume]
  refine ⟨fun d _ => ?_, fun _ _ => trivial⟩
  rw [leads_modifyGet, leads_bind, jccExit, leads_bind, leads_get, leads_bind, leads_assume]
  refine ⟨fun x hx => ?_, fun _ _ => trivial⟩
  have hmem : ∀ {xs : Array Exit} {k : Nat}, Breach.get xs k = .ok x → x ∈ xs := by
    intro xs k h
    unfold Breach.get at h
    split at h
    · cases h
      exact Array.mem_of_getElem? ‹_›
    · cases h
  refine (Lays.jcc c x.stub _).mono ?_ (fun _ => False.elim) fun _ _ => False.elim
  rintro _ s' ⟨-, hl⟩
  refine ⟨x, ?_, ?_⟩
  · rw [hl.rest]
    exact hmem hx
  · refine @Assembler.Adds.trans _ _ _ [] _ ?_ hl.adds
    exact .of_eq rfl rfl

lemma SlowWork.Formed.assigns {w : SlowWork} {free : List Gpr} (h : w.Formed free) :
    ∃ a, assignArguments w.args Gpr.arguments Fpr.arguments = .ok a := by
  cases h <;>
    simp [SlowWork.args, Gpr.arguments, Fpr.arguments, assignArguments, Except.map]

/-- If there are guards, they leave to the stub of an exit. -/
def SlowWork.Leaves (w : SlowWork) (s : State) (l : Label) : Prop :=
  w.guard l ≠ [] → ∃ x ∈ s.exits, x.stub = l

def State.HasPath (s : State) (env : Env) (p : SlowPath) : Prop :=
  ∃ o a l l', s.asm.labels[p.entry]? = some (some o) ∧
    assignArguments p.work.args Gpr.arguments Fpr.arguments = .ok a ∧
    s.asm.Stands o (p.pieces env a l l') ∧ p.work.Leaves s l ∧ p.work.Leaves s l'

lemma SlowWork.Leaves.extends {w : SlowWork} {l : Label} (h : w.Leaves s l) (he : Extends env s s') :
    w.Leaves s' l := by
  intro hg
  obtain ⟨x, hx, rfl⟩ := h hg
  obtain ⟨i, hi⟩ := Array.mem_iff_getElem?.mp hx
  obtain ⟨y, hy, hs⟩ := he.exits hi
  exact ⟨y, Array.mem_of_getElem? hy, Exit.stub_eq hs⟩

lemma State.HasPath.extends (h : s.HasPath env p) (he : Extends env s s') : s'.HasPath env p := by
  obtain ⟨o, a, l, l', ho, ha, hs, hl, hl'⟩ := h
  exact ⟨o, a, l, l', he.labels ho, ha, he.stands hs, hl.extends he, hl'.extends he⟩

lemma fits_plain (is : List Inst) : ∀ q ∈ plain is, q.Fits := by
  intro q hq
  obtain ⟨i, -, rfl⟩ := List.mem_map.mp hq
  trivial

lemma fits_pieces (env : Env) (p : SlowPath) (a : ArgumentMoves) (l l' : Label) :
    ∀ q ∈ p.pieces env a l l', q.Fits := by
  have hguard : ∀ l, ∀ q ∈ p.work.guard l, q.Fits := by
    intro l q hq
    unfold SlowWork.guard at hq
    split at hq
    · cases hq
    · obtain rfl := List.mem_singleton.mp hq
      rfl
  have hexception : ∀ q ∈ exceptionPieces env p.work.helper, q.Fits := by
    intro q hq
    unfold exceptionPieces at hq
    split at hq
    · rcases List.mem_append.mp hq with hq | hq
      · exact fits_plain _ q hq
      · obtain rfl := List.mem_singleton.mp hq
        rfl
    · cases hq
  simp only [SlowPath.pieces, SlowPath.callPieces, List.forall_mem_append, List.forall_mem_cons]
  exact ⟨fits_plain _, hguard l, ⟨fits_plain _, fits_plain _, rfl, hexception, fits_plain _,
    fits_plain _⟩, fits_plain _, hguard l', rfl, List.forall_mem_nil _⟩

lemma SlowWork.Formed.serves {w : SlowWork} {free : List Gpr} (h : w.Formed free) :
    w.helper.serves = true := by cases h <;> rfl

lemma gives_slowWork (ha : assignArguments p.work.args Gpr.arguments Fpr.arguments = .ok a)
    (hserves : p.work.helper.serves = true) :
    Gives env ls s (slowWork p) fun _ s' => ∃ l l', s.asm.Adds s'.asm (plain p.work.before ++
      (p.work.guard l ++ (p.callPieces env p.work.helper a p.work.target ++
        (plain p.work.after ++ p.work.guard l')))) ∧ p.work.Leaves s' l ∧ p.work.Leaves s' l' := by
  unfold slowWork
  generalize hw : p.work = w at *
  cases w with
  | call h args r =>
    refine (Gives.of_lays (.slowCall p hserves args r) (Lays.slowCall ha)).conseq fun _ s' _ hl => ?_
    refine ⟨0, 0, ?_, fun h => absurd rfl h, fun h => absurd rfl h⟩
    show s.asm.Adds s'.asm (p.callPieces env h a r ++ [])
    rw [List.append_nil]
    exact hl.2.adds
  | convert h c shape =>
    have hflags : Lays env (testFlags c TypeFlag.interceptsIndexing) ()
        (plain (SlowWork.convert h c shape).before) :=
      (Lays.emit' _).bind ((Lays.emit' _).bind (Lays.emit' _))
    refine (Gives.of_lays (.testFlags _ _) hflags).bind fun _ s₁ _ ⟨_, h₁⟩ => ?_
    refine gives_guard.bind fun _ s₂ _ ⟨x, hx, h₂⟩ => ?_
    refine (Gives.of_lays (.slowCall p hserves _ _) (Lays.slowCall ha)).bind fun _ s₃ he₃ ⟨_, h₃⟩ => ?_
    refine (Gives.of_lays (.alu32 _ _ _) (Lays.emit' _)).bind fun _ s₄ he₄ ⟨_, h₄⟩ => ?_
    refine (Gives.of_lays (.cmp32 _ _) (Lays.emit' _)).bind fun _ s₅ he₅ ⟨_, h₅⟩ => ?_
    refine gives_guard.conseq fun _ s₆ he₆ ⟨y, hy, h₆⟩ _ _ _ _ _ => ?_
    have he := ((he₃.trans he₄).trans (he₅.trans he₆)).toExtends
    have hleaves : (SlowWork.convert h c shape).Leaves s₂ x.stub := fun _ => ⟨x, hx, rfl⟩
    refine ⟨x.stub, y.stub, ?_, hleaves.extends he, fun _ => ⟨y, hy, rfl⟩⟩
    exact h₁.adds.trans (h₂.trans (h₃.adds.trans ((h₄.adds.trans h₅.adds).trans h₆)))

lemma gives_modify {g : State → State} (h : ∀ s, Unseen s (g s)) :
    Gives env ls s (modify g : Lower PUnit) fun _ s' => s' = g s :=
  fun _ _ => ⟨(h s).proceeds, rfl⟩

lemma gives_slowPaths {ps : List SlowPath} (hg : ∀ p ∈ ps, p.Guards) (hls : ∀ p ∈ ps, p.done ∈ ls)
    {g : SlowPath → PUnit → Lower (ForInStep PUnit)}
    (hbody : ∀ p u, g p u = do
      attach p.entry
      comment ("slow path for @" ++ toString p.node)
      modify fun s => { s with
        current := p.node
        exitStream := some p.streamIndex
        exitLedger := some p.ledger }
      slowWork p
      jmp p.done
      pure (.yield PUnit.unit)) :
    Gives env ls s (forIn ps PUnit.unit g) fun _ s' => ∀ p ∈ ps, s'.HasPath env p := by
  induction ps generalizing s with
  | nil => exact .pure nofun
  | cons p ps ih =>
    obtain ⟨hp, hg⟩ := List.forall_mem_cons.mp hg
    obtain ⟨hdone, hls⟩ := List.forall_mem_cons.mp hls
    obtain ⟨free, hformed⟩ := hp.formed
    obtain ⟨a, ha⟩ := hformed.assigns
    rw [List.forIn_cons, hbody]
    simp only [bind_assoc, pure_bind]
    refine gives_attach.bind fun _ s₁ _ ⟨hentry, _⟩ hs₁ hls₁ => ?_
    refine Gives.bind (.of_lays (.comment _) (Lays.comment _)) (fun _ s₂ he₂ ⟨_, h₂⟩ => ?_) hs₁ hls₁
    refine Gives.bind (gives_modify ?_) fun _ s₃ he₃ h₃ => ?_
    · exact fun _ => rfl
    refine (gives_slowWork ha hformed.serves).bind fun _ s₄ he₄ ⟨l, l', h₄, hl, hl'⟩ => ?_
    refine (Gives.of_lays (.jmp hdone) (Lays.jmp _)).bind fun _ s₅ he₅ ⟨_, h₅⟩ => ?_
    refine (ih hg hls).conseq fun _ s₆ he₆ hps _ _ _ _ _ => List.forall_mem_cons.mpr ⟨?_, hps⟩
    have he : Proceeds env s₁ s₃ := he₂.trans he₃
    obtain ⟨all, hm, -⟩ := (he.aimed hs₁).coded
    have hoffset : s₁.asm.offset = s₃.asm.offset := by
      rw [h₃]
      exact h₂.adds.offset.symm
    have hadds : s₃.asm.Adds s₅.asm (p.pieces env a l l') := by
      have h := h₄.trans h₅.adds
      simpa only [SlowPath.pieces, List.append_assoc] using h
    have hpath : s₅.HasPath env p :=
      ⟨_, a, l, l', (he.trans (he₄.trans he₅)).labels hentry, ha,
        hoffset ▸ hm.stands hadds (fits_pieces env p a l l'), hl.extends he₅.toExtends,
        hl'.extends he₅.toExtends⟩
    exact hpath.extends he₆.toExtends

/-- All registered slow paths have their code. -/
lemma gives_emitSlowPaths (hg : ∀ p ∈ s.slowPaths, p.Guards) :
    Gives env ls s emitSlowPaths fun _ s' => ∀ p ∈ s.slowPaths, s'.HasPath env p := by
  intro hs hls
  have hdone : ∀ l ∈ s.slowPaths.toList.map SlowPath.done, s.IsCode l := by
    simp only [List.mem_map, Array.mem_toList_iff]
    rintro _ ⟨p, hp, rfl⟩
    exact (hs.rooted.done hp).code
  refine Gives.get (Gives.bind (gives_slowPaths (fun p hp => hg p (Array.mem_toList_iff.mp hp))
    (fun p hp => List.mem_map_of_mem hp) fun p _ => rfl) fun _ s₁ _ h₁ => ?_) hs hdone
  exact Gives.conseq (P := fun _ _ => True) (.of_extending (.modify fun _ => rfl))
    fun _ s₂ he₂ _ _ p hp => (h₁ p (Array.mem_toList_iff.mpr hp)).extends he₂.toExtends

/-! ### Passing arguments

Whatever registers the arguments of a helper come from, the instructions that pass them end with
each argument register holding what its source held before the first of them. The loop that orders
the moves comes to an end, although a round that breaks a cycle leaves as many moves as there were. -/

section Passing

open World Execution

/-- The instructions that pass the arguments are a parallel assignment, in whatever code and from
whatever state of the machine they are run. The moves of a list with different destinations come
to an end. -/
theorem setupArguments_passed (env : Env) (s : State) (args : List Argument)
    (hi : integers args ≤ 6) (hd : doubles args ≤ 4) :
    (∃ is s', outcome (setupArguments args) env s = (.ok (), s') ∧ Lain s s' (Piece.plain is) ∧
      ∀ (t : Thread) (w : World), t.Faces w is → ∃ m, Passed args t.registers m ∧ ∀ fuel,
        runs (run (is.length + fuel) t) w = runs (run fuel (t.past is m)) w) ∧
    ∀ {R : Type} [DecidableEq R] (scratch : R) (moves : List (R × R)),
      (moves.map Prod.fst).Nodup → scratch ∉ moves.map Prod.fst →
        Rounds scratch (moves.filter fun m => m.1 ≠ m.2) (parallelMoves scratch moves) := by
  refine ⟨?_, fun scratch moves hnd hs => rounds_parallelMoves hnd hs⟩
  obtain ⟨a, ha⟩ : ∃ a, assignArguments args Gpr.arguments Fpr.arguments = .ok a :=
    exists_assignArguments hi hd
  have hlays : Leads env s (setupArguments args) _ _ _ := Lays.setupArguments ha s
  unfold Leads at hlays
  split at hlays
  · rename_i u s' hout
    refine ⟨a.insts, s', hout, hlays.2, fun t w hf => ?_⟩
    obtain ⟨m, heff, hpassed⟩ := effects_arguments (m := t.registers) w.memory ha
    exact ⟨m, hpassed, fun fuel => hf.run heff fuel⟩
  · exact hlays.elim
  · exact hlays.elim

/-- Two registers change places while a third argument takes a copy of one of them. -/
def shuffled : List Argument :=
  [.gpr .second, .gpr .first, .imm 5, .gpr .second, .fpr .second, .fpr .first]

theorem setupArguments_passed_shuffled :
    integers shuffled ≤ 6 ∧ doubles shuffled ≤ 4 ∧
      ∃ (env : Env) (s s' : State) (is : List Inst) (t : Thread) (w : World) (m : Registers),
        outcome (setupArguments shuffled) env s = (.ok (), s') ∧ t.Faces w is ∧
          Passed shuffled t.registers m ∧
          runs (run is.length t) w = runs (run 0 (t.past is m)) w := by
  let env : Env := {
    graph := default, frame := ⟨0, 0⟩, blockLabels := #[], exceptionLabel := 0, rollbackLabel := 0
    dense := #[], context := 0, noMasquerades := true, assertState := false
    breakUnreachable := false }
  let s : State := { asm := {}, ledger := #[], facts := default }
  obtain ⟨⟨is, s', hout, hlain, hrun⟩, -⟩ :=
    setupArguments_passed env s shuffled (by decide) (by decide)
  let a : Artifact := {
    graph := default, block := 0, base := 0, code := s'.asm.code, instsLength := 0, entry := 0
    arityEntry := none, exits := #[], events := #[], caches := #[], calls := #[], jumps := #[]
    osrEntries := [], frameSlots := 0, exitThreshold := 0, log := none }
  have hfaces : ({ code := 0, pc := 0 } : Thread).Faces { artifacts := #[a] } is := by
    refine ⟨a, [], [], rfl, ?_, ?_, rfl⟩
    · have hsize : (outcome (setupArguments shuffled) env s).2.asm.code.size < UInt64.size := by
        decide +kernel
      rw [hout] at hsize
      simpa [a] using hsize
    · simpa [a, Piece.plain, Piece.bytes, List.flatMap_map, s] using hlain.adds.code
  obtain ⟨m, hm, hruns⟩ := hrun _ _ hfaces
  exact ⟨by decide, by decide, env, s, s', is, _, _, m, hout, hfaces, hm, hruns 0⟩

end Passing

end Lowering
end Speculation
