import Speculation.Proofs.Compile.Sites
import Speculation.Proofs.World.Still
import Speculation.World.Code
import Mathlib.Logic.Relation

/-!
The watchpoint for objects that pass for undefined.

While no object does, all code waits at its sites. The first object that does fires the watchpoints
of the code that is installed at that moment, and code compiled later has no sites; but code that
was compiled before and is installed later goes on waiting.
-/

namespace Speculation

namespace Artifact

variable {a a' : Artifact} {j : JumpReplacement}

structure Diverted (a : Artifact) (j : JumpReplacement) : Prop where
  jump : ∃ d : Int32, a.Holds j.source (.jmp d) ∧
    (a.code.size < 2147483648 → (j.source + Encoding.jmpLength : Int) + d.toInt = j.dest)
  stub : (a.exits.map ExitSite.stub)[j.exit]? = some j.dest

lemma Fired.diverted (hf : a.Fired j) (h : a.Sited) (hj : j ∈ a.jumps) : a.Diverted j := by
  refine ⟨⟨_, hf, fun hsize => ?_⟩, h.stub hj⟩
  obtain ⟨d, hd, hland⟩ := leap_lands h hj hsize
  obtain rfl := Inst.jmp.inj hd
  exact hland

namespace SameCode

lemma holds {o : Nat} {i : Inst} (h : a.SameCode a') (ha : a.Holds o i) : a'.Holds o i := by
  unfold Holds
  rw [h.code]
  exact ha

lemma waits (h : a.SameCode a') (ha : ∀ j ∈ a.jumps, a.Waits j) : ∀ j ∈ a'.jumps, a'.Waits j := by
  rw [h.jumps]
  intro j hj
  obtain ⟨x, hx⟩ := ha j hj
  exact ⟨x, h.holds hx⟩

lemma fired (h : a.SameCode a') (ha : ∀ j ∈ a.jumps, a.Fired j) : ∀ j ∈ a'.jumps, a'.Fired j := by
  rw [h.jumps]
  exact fun j hj => h.holds (ha j hj)

lemma sited (h : a.SameCode a') (ha : a.Sited) : a'.Sited where
  apart := by
    rw [h.jumps]
    exact ha.apart
  inside hj := by
    rw [h.code]
    exact ha.inside (h.jumps ▸ hj)
  stub hj := by
    rw [h.stubs]
    exact ha.stub (h.jumps ▸ hj)

end SameCode

end Artifact

namespace World

variable {w w' : World}

lemma after_bind {α β : Type} (w : World) (x : Run β) (f : β → Run α) :
    w.after (x >>= f) =
      match x.run.run w with
      | (.ok b, w') => w'.after (f b)
      | (.error _, w') => w' := by
  simp only [after, ExceptT.run_bind, StateT.run_bind]
  rcases x.run.run w with ⟨e | b, w'⟩ <;> rfl

lemma after_get_bind {α : Type} (w : World) (f : World → Run α) :
    w.after (get >>= f) = w.after (f w) := rfl

lemma after_modify_bind {α : Type} (w : World) (g : World → World) (f : PUnit → Run α) :
    w.after (modify g >>= f) = (g w).after (f ⟨⟩) := rfl

lemma after_pure_bind {α β : Type} (w : World) (b : β) (f : β → Run α) :
    w.after ((pure b : Run β) >>= f) = w.after (f b) := rfl

/-- From `w` to `w'` at most one piece of code was added, which waits at its sites; it has none if the
watchpoint has fired. -/
structure Gains (w w' : World) : Prop where
  valid : w'.noMasquerades = w.noMasquerades
  installed : w'.installed = w.installed
  code : w'.artifacts = w.artifacts ∨ ∃ a : Artifact, w'.artifacts = w.artifacts.push a ∧ a.Sited ∧
    (∀ j ∈ a.jumps, a.Waits j) ∧ (w.noMasquerades = false → a.jumps = #[])

lemma gains_compile (w : World) {r : CompileRequest} (hr : r.shareWatchpoint = true) :
    w.Gains (w.after (compile r)) := by
  unfold compile codeBlock
  rw [after_get_bind, bind_assoc, after_get_bind]
  split
  · rw [after_pure_bind]
    dsimp only
    rw [after_modify_bind]
    split
    · exact ⟨rfl, rfl, .inl rfl⟩
    · exact ⟨rfl, rfl, .inl rfl⟩
    · rename_i a ha
      obtain ⟨hsited, hwaits, hnone⟩ := Plan.compile_sites ha
      have hcode : w.noMasquerades = false → a.jumps = #[] := fun h => hnone (by simp [h, hr])
      have hpush : w.artifacts.push a = w.artifacts ∨ ∃ a' : Artifact,
          w.artifacts.push a = w.artifacts.push a' ∧ a'.Sited ∧ (∀ j ∈ a'.jumps, a'.Waits j) ∧
            (w.noMasquerades = false → a'.jumps = #[]) := .inr ⟨a, rfl, hsited, hwaits, hcode⟩
      unfold profile
      split
      · split
        · exact ⟨rfl, rfl, .inl rfl⟩
        · exact ⟨rfl, rfl, hpush⟩
      · exact ⟨rfl, rfl, hpush⟩
  · exact ⟨rfl, rfl, .inl rfl⟩

lemma Gains.size_le (h : w.Gains w') : w.artifacts.size ≤ w'.artifacts.size := by
  rcases h.code with hsame | ⟨a, hpush, -⟩
  · rw [hsame]
  · rw [hpush, Array.size_push]
    exact Nat.le_succ _

def fireAll (as : Array Artifact) (codes : List Nat) : Array Artifact :=
  codes.foldl (fun as code => as.modify code Artifact.fireWatchpoints) as

lemma size_fireAll (as : Array Artifact) (codes : List Nat) :
    (fireAll as codes).size = as.size := by
  induction codes generalizing as with
  | nil => rfl
  | cons c cs ih => exact (ih _).trans Array.size_modify

lemma after_fireAll (w : World) (codes : List Nat) :
    w.after (forIn codes ⟨⟩ fun code _ => do
      modifyArtifact code Artifact.fireWatchpoints
      pure (.yield PUnit.unit)) = { w with artifacts := fireAll w.artifacts codes } := by
  induction codes generalizing w with
  | nil => rfl
  | cons c cs ih =>
    rw [List.forIn_cons]
    exact ih _

/-- Firing goes through the code that is installed. -/
lemma masquerade_after (w : World) (v : Value) :
    w.Stays True (w.after (masquerade v)) ∨
      ∃ w', w.Stays True w' ∧ w.noMasquerades = true ∧
        w.after (masquerade v) = { w' with
          noMasquerades := false
          artifacts := fireAll w'.artifacts w'.installed.toList } := by
  unfold masquerade
  rw [after_bind]
  have hstays := Still.addFlag (q := True) v TypeFlag.masqueradesAsUndefined w
  unfold after at hstays
  split
  · rename_i w' hw
    rw [hw] at hstays
    rw [after_get_bind]
    split
    · rename_i hn
      right
      refine ⟨w', hstays, hstays.valid ▸ hn, ?_⟩
      rw [after_modify_bind, after_get_bind, ← Array.forIn_toList, bind_pure_unit]
      exact after_fireAll { w' with noMasquerades := false } w'.installed.toList
    · exact .inl hstays
  · rename_i e w' hw
    rw [hw] at hstays
    exact .inl hstays


def AllCode (w : World) (P : Nat → Artifact → Prop) : Prop :=
  ∀ code a, w.artifacts[code]? = some a → P code a

section AllCode

variable {q : Prop} {P : Nat → Artifact → Prop}

lemma AllCode.stays (hw : w.AllCode P) (h : w.Stays q w')
    (hP : ∀ {code a a'}, Artifact.SameCode a a' → P code a → P code a') : w'.AllCode P := by
  intro code a' ha'
  have hlt : code < w.artifacts.size := by
    rw [← h.size]
    exact (Array.getElem?_eq_some_iff.mp ha').1
  obtain ⟨a'', ha'', hsame⟩ := h.code (Array.getElem?_eq_getElem hlt)
  obtain rfl := Option.some.inj (ha''.symm.trans ha')
  exact hP hsame (hw _ _ (Array.getElem?_eq_getElem hlt))

lemma AllCode.gains (hw : w.AllCode P) (h : w.Gains w')
    (hP : ∀ {a : Artifact}, a.Sited → (∀ j ∈ a.jumps, a.Waits j) →
      (w.noMasquerades = false → a.jumps = #[]) → P w.artifacts.size a) : w'.AllCode P := by
  intro code a ha
  rcases h.code with hsame | ⟨new, hpush, hsited, hwaits, hnone⟩
  · exact hw code a (hsame ▸ ha)
  · rw [hpush, Array.getElem?_push] at ha
    split at ha
    · rename_i hcode
      subst hcode
      obtain rfl := Option.some.inj ha
      exact hP hsited hwaits hnone
    · exact hw code a ha

end AllCode

/-- Code that is fired becomes jumps at all its sites, and the other code stays. -/
lemma fireAll_getElem? {as : Array Artifact} {codes : List Nat}
    (has : ∀ (i : Nat) (a : Artifact), as[i]? = some a → a.Sited) {i : Nat} {a' : Artifact}
    (h : (fireAll as codes)[i]? = some a') :
    a'.Sited ∧ (i ∈ codes → ∀ j ∈ a'.jumps, a'.Fired j) ∧ (i ∉ codes → as[i]? = some a') := by
  induction codes generalizing as with
  | nil => exact ⟨has i a' h, by simp, fun _ => h⟩
  | cons c cs ih =>
    have has' : ∀ (i : Nat) (a : Artifact),
        (as.modify c Artifact.fireWatchpoints)[i]? = some a → a.Sited := by
      intro i a ha
      rw [Array.getElem?_modify] at ha
      split at ha
      · obtain ⟨b, hb, rfl⟩ := Option.map_eq_some_iff.mp ha
        exact (Artifact.fired_fireWatchpoints (has _ _ hb)).1.sited (has _ _ hb)
      · exact has i a ha
    obtain ⟨hsited, hfired, hsame⟩ := ih has' h
    refine ⟨hsited, fun hi => ?_, fun hi => ?_⟩
    · by_cases hcs : i ∈ cs
      · exact hfired hcs
      · obtain rfl := (List.mem_cons.mp hi).resolve_right hcs
        have ha := hsame hcs
        rw [Array.getElem?_modify, if_pos rfl] at ha
        obtain ⟨b, hb, rfl⟩ := Option.map_eq_some_iff.mp ha
        obtain ⟨hpatched, hjumps⟩ := Artifact.fired_fireWatchpoints (has _ _ hb)
        rw [hpatched.jumps]
        exact hjumps
    · obtain ⟨hic, hcs⟩ := not_or.mp (fun h => hi (List.mem_cons.mpr h))
      have ha := hsame hcs
      rwa [Array.getElem?_modify, if_neg (Ne.symm hic)] at ha

inductive Move (w : World) : World → Prop
  | compile (r : CompileRequest) (hr : r.shareWatchpoint = true) : Move w (w.after (compile r))
  | install (code : Nat) : Move w (w.after (install code))
  | call (code : Nat) (this : Value) (args : List Value) :
    Move w (w.after (Execution.callCode code this args))
  | enter (code : Nat) (block : BlockId) (this : Value) (args : List Value) (locals : Array Value) :
    Move w (w.after (Execution.enterBlock code block this args locals))
  | masquerade (v : Value) : Move w (w.after (masquerade v))
  /-- What touches neither the code nor the watchpoint, such as the making of objects. -/
  | other {w' : World} (h : w.Stays True w') : Move w w'

def Reaches : World → World → Prop := Relation.ReflTransGen Move

/-- A move leaves the code, adds code, or fires the watchpoint. -/
lemma Move.cases (h : w.Move w') : w.Stays False w' ∨ w.Gains w' ∨
    ∃ v w'', w' = w.after (World.masquerade v) ∧ w.noMasquerades = true ∧ w.Stays True w'' ∧
      w' = { w'' with
        noMasquerades := false
        artifacts := fireAll w''.artifacts w''.installed.toList } := by
  cases h with
  | compile r hr => exact .inr (.inl (gains_compile w hr))
  | install code => exact .inl (Still.install code w)
  | call code this args => exact .inl (Still.callCode code this args w)
  | enter code block this args locals => exact .inl (Still.enterBlock code block this args locals w)
  | masquerade v =>
    rcases masquerade_after w v with hstays | ⟨w'', hstays, hvalid, hw⟩
    · exact .inl hstays.weaken
    · exact .inr (.inr ⟨v, w'', rfl, hvalid, hstays, hw⟩)
  | other h => exact .inl h.weaken

/-- The watchpoint has not fired, and all code waits. -/
structure Fresh (w : World) : Prop where
  valid : w.noMasquerades = true
  code : w.AllCode fun _ a => a.Sited ∧ ∀ j ∈ a.jumps, a.Waits j

/-- The watchpoint has fired in `w₁`. Code that was installed then, or was not there yet, has jumps at
its sites; all other code still waits. -/
structure Spent (w₁ w : World) : Prop where
  fired : w.noMasquerades = false
  size : w₁.artifacts.size ≤ w.artifacts.size
  code : w.AllCode fun code a => a.Sited ∧
    (code ∈ w₁.installed ∨ w₁.artifacts.size ≤ code → ∀ j ∈ a.jumps, a.Fired j) ∧
    (code < w₁.artifacts.size → code ∉ w₁.installed → ∀ j ∈ a.jumps, a.Waits j)

lemma Fresh.move (hw : w.Fresh) (h : w.Move w') :
    w'.Fresh ∨ ∃ v, w' = w.after (masquerade v) ∧ w.Spent w' := by
  rcases h.cases with hstays | hgains | ⟨v, w'', hv, -, hstays, hw'⟩
  · exact .inl ⟨hstays.valid.trans hw.valid,
      hw.code.stays hstays fun hs ha => ⟨hs.sited ha.1, hs.waits ha.2⟩⟩
  · exact .inl ⟨hgains.valid.trans hw.valid,
      hw.code.gains hgains fun hsited hwaits _ => ⟨hsited, hwaits⟩⟩
  · refine .inr ⟨v, hv, ?_⟩
    rw [hw']
    have hcode : w''.AllCode fun _ a => a.Sited ∧ ∀ j ∈ a.jumps, a.Waits j :=
      hw.code.stays hstays fun hs ha => ⟨hs.sited ha.1, hs.waits ha.2⟩
    refine ⟨rfl, ?_, fun code a ha => ?_⟩
    · exact Nat.le_of_eq ((size_fireAll _ _).trans hstays.size).symm
    · have hlt := (Array.getElem?_eq_some_iff.mp ha).1
      rw [size_fireAll, hstays.size] at hlt
      obtain ⟨hsited, hfired, hsame⟩ := fireAll_getElem? (fun i a ha => (hcode i a ha).1) ha
      rw [Array.mem_toList_iff, hstays.same trivial] at hfired hsame
      exact ⟨hsited, fun hc => hfired (hc.resolve_right (Nat.not_le_of_lt hlt)),
        fun _ hc => (hcode code a (hsame hc)).2⟩

lemma Spent.move {w₁ : World} (hw : w₁.Spent w) (h : w.Move w') : w₁.Spent w' := by
  rcases h.cases with hstays | hgains | ⟨_, _, _, hvalid, _⟩
  · exact ⟨hstays.valid.trans hw.fired, hstays.size ▸ hw.size, hw.code.stays hstays
      fun hs ha => ⟨hs.sited ha.1, fun hc => hs.fired (ha.2.1 hc), fun hlt hc =>
        hs.waits (ha.2.2 hlt hc)⟩⟩
  · refine ⟨hgains.valid.trans hw.fired, hw.size.trans hgains.size_le, hw.code.gains hgains
      fun {a} hsited _ hnone => ⟨hsited, fun _ j hj => ?_, fun hlt => ?_⟩⟩
    · rw [hnone hw.fired] at hj
      exact absurd hj (Array.not_mem_empty j)
    · exact absurd hlt (Nat.not_lt_of_le hw.size)
  · rw [hw.fired] at hvalid
    cases hvalid

/-- From `w₀` on the watchpoint fires in `w₁`, when `v` begins to pass for undefined, and `w` comes of
that. Code that was installed in `w₁`, or was not there yet, leaves through its exits where it relied
on the watchpoint. Code that was there and not installed still waits. -/
structure FiresIn (w₀ w₁ : World) (v : Value) (w : World) : Prop where
  before : w₀.Reaches w₁
  valid : w₁.noMasquerades = true
  fired : (w₁.after (masquerade v)).noMasquerades = false
  since : (w₁.after (masquerade v)).Reaches w
  diverted {code : Nat} {a : Artifact} (ha : w.artifacts[code]? = some a)
    (h : code ∈ w₁.installed ∨ w₁.artifacts.size ≤ code) : ∀ j ∈ a.jumps, a.Diverted j
  waits {code : Nat} {a : Artifact} (ha : w.artifacts[code]? = some a)
    (hlt : code < w₁.artifacts.size) (h : code ∉ w₁.installed) : ∀ j ∈ a.jumps, a.Waits j

/-- Once some object passes for undefined, there was a moment at which the first one began to, and
code that was installed by then, or was compiled later, no longer relies on there being none. -/
theorem firesIn_of_reaches {w₀ w : World} (hcode : w₀.artifacts = #[])
    (hvalid : w₀.noMasquerades = true) (h : w₀.Reaches w) (hw : w.noMasquerades = false) :
    ∃ w₁ v, FiresIn w₀ w₁ v w := by
  have hfresh : w₀.Fresh := ⟨hvalid, fun code a ha => by simp [hcode] at ha⟩
  -- before the watchpoint has fired everything waits; afterwards the moment stays the same
  have hphase : w.Fresh ∨ ∃ w₁ v, w₀.Reaches w₁ ∧ w₁.Fresh ∧
      w₁.Spent (w₁.after (masquerade v)) ∧ (w₁.after (masquerade v)).Reaches w ∧ w₁.Spent w := by
    clear hw
    induction h with
    | refl => exact .inl hfresh
    | tail hreach hmove ih =>
      rcases ih with hfresh | ⟨w₁, v, hreach₁, hfresh₁, hspent₁, hreach₂, hspent⟩
      · rcases hfresh.move hmove with hfresh | ⟨v, rfl, hspent⟩
        · exact .inl hfresh
        · exact .inr ⟨_, v, hreach, hfresh, hspent, .refl, hspent⟩
      · exact .inr ⟨w₁, v, hreach₁, hfresh₁, hspent₁, hreach₂.tail hmove, hspent.move hmove⟩
  rcases hphase with hfresh | ⟨w₁, v, hreach₁, hfresh₁, hspent₁, hreach₂, hspent⟩
  · rw [hfresh.valid] at hw
    cases hw
  · refine ⟨w₁, v, hreach₁, hfresh₁.valid, hspent₁.fired, hreach₂, fun {code a} ha hc j hj => ?_,
      fun {code a} ha hlt hc => (hspent.code code a ha).2.2 hlt hc⟩
    obtain ⟨hsited, hfired, -⟩ := hspent.code code a ha
    exact (hfired hc j hj).diverted hsited hj

def selfEqual : Draft :=
  let d : Draft := { name := "selfEqual", kind := .function }
  let d := (d.addArgument .object .value).2.addBlock.select 0
  let d := (d.addNode (.getLocal 0) [] .object).2.setProven 0 .object
  let d := (d.addNode (.compare .eq) [0, 0] .boolean).2
  (d.addNode .ret [1] .empty).2

def bare : World := { blocks := #[default] }

def ready : World :=
  (bare.after (compile { graph := (Plan.ofDraft selfEqual).graph, block := 0
                         shareWatchpoint := true })).after (newObject .null)

def late : World := (ready.after (masquerade (.ofCell 0x10000010))).after (install 0)

lemma reaches_late : bare.Reaches late :=
  (((Relation.ReflTransGen.single (.compile _ rfl)).tail (.other (Still.newObject _ _))).tail
    (.masquerade _)).tail (.install 0)

def siteAt (w : World) (code site : Nat) : Option Inst := do
  let a ← w.artifacts[code]?
  let j ← a.jumps[site]?
  return (← (Inst.decodeAt a.code j.source).toOption).1

lemma siteAt_of_diverted {code site : Nat} {a : Artifact} {j : JumpReplacement}
    (ha : w.artifacts[code]? = some a) (hj : a.jumps[site]? = some j) (h : a.Diverted j) :
    ∃ d, w.siteAt code site = some (.jmp d) := by
  obtain ⟨d, hd, -⟩ := h.jump
  exact ⟨d, by simp [siteAt, ha, hj, hd.decodeAt, Except.toOption]⟩

lemma late_eval : late.noMasquerades = false ∧ 0 ∈ late.installed ∧
    late.siteAt 0 0 = some (.watchpoint 0) := by
  decide +kernel

theorem firesIn_of_reaches_late : late.noMasquerades = false ∧ ∃ w₁ v, FiresIn bare w₁ v late :=
  ⟨late_eval.1, firesIn_of_reaches rfl rfl reaches_late late_eval.1⟩

/-- Code that is installed late still relies on there being no object that passes for undefined. -/
theorem not_diverted_late : ¬∀ w₀ w : World, w₀.artifacts = #[] → w₀.noMasquerades = true →
    w₀.Reaches w → w.noMasquerades = false → ∀ code ∈ w.installed, ∀ a, w.artifacts[code]? = some a →
      ∀ j ∈ a.jumps, a.Diverted j := by
  intro h
  obtain ⟨hfired, hinst, hsite⟩ := late_eval
  rcases ha : late.artifacts[0]? with _ | a
  · simp [siteAt, ha] at hsite
  · rcases hj : a.jumps[0]? with _ | j
    · simp [siteAt, ha, hj] at hsite
    · obtain ⟨d, hd⟩ := siteAt_of_diverted ha hj
        (h bare late rfl rfl reaches_late hfired 0 hinst a ha j (Array.mem_of_getElem? hj))
      rw [hsite] at hd
      cases hd

end World

end Speculation
