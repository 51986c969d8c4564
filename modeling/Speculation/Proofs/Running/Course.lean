import Speculation.Proofs.Execution.Linked
import Speculation.Proofs.Execution.Flags
import Speculation.Proofs.Lowering.Operands

/-!
Running code along with its lowering.

While a node is lowered, a machine that runs what has been emitted so far is at one of three spots:
at the end of the code, on its way to a label that may be yet to be attached, or on its way out
through an exit. A `Course` fixes the code that comes out in the end, so that each of these is a
place. `Wp` says of a lowering step what it makes of such a machine: wherever the step has given its
result, the code it has emitted leads the machine to a moment with the postcondition. There is one
rule for each primitive step, so that a proof goes through a lowering as the machine goes through the
code.
-/

namespace Speculation

open Lowering

/-- Where the machine is while the code is being emitted. -/
inductive Spot where
  /-- At the end of the code so far. -/
  | next
  /-- Where the label is or will be. -/
  | label (l : Label)
  /-- At the stub of an exit of the current node. -/
  | exit (kind : ExitKind)
deriving DecidableEq

lemma Spot.exit_ne_label (kind : ExitKind) (l : Label) : exit kind ≠ label l := by simp

lemma Spot.next_ne_label (l : Label) : next ≠ label l := by simp

structure Moment where
  spot : Spot
  registers : Registers
  memory : Memory

/-- Code that a node contributes to: what is fixed while the node is lowered, what comes out in the
end and where it is loaded, and what the values of nodes are. -/
structure Course where
  env : Env
  site : Site
  /-- The state of the lowering when all code is there. -/
  final : State
  val : NodeId → Value
  /-- The node that is being lowered. -/
  cur : NodeId
  /-- The nodes whose values there are. -/
  before : List NodeId

namespace Course

variable {α β : Type} {k : Course} {ls : List Label} {s s' s'' : State} {t t' t'' : Moment}
  {σ : Spot} {r r' : Registers} {mem mem' : Memory} {o : Nat} {i : Inst} {l : Label} {c : Cond}
  {kind : ExitKind} {Q : α → State → Moment → Prop} {T : State → Moment → Prop} {x : Lower α}

/-- The code is what was linked, and it is where the world has it. -/
structure Sound (k : Course) : Prop where
  loaded : k.site.Loaded
  linked : Link.fillFields k.final.asm k.site.artifact.base = .ok k.site.artifact.code

def At (k : Course) (s : State) : Spot → Nat → Prop
  | .next, o => o = s.asm.offset
  | .label l, o => k.final.asm.labels[l]? = some (some o)
  | .exit kind, o => ∃ x ∈ k.final.exits, x.kind = kind ∧ x.node = k.cur ∧
      k.final.asm.labels[x.stub]? = some (some o)

/-- The code that was emitted between `s` and `s'` leads from one moment to another. -/
def Reaches (k : Course) (s : State) (t : Moment) (s' : State) (t' : Moment) : Prop :=
  Extends k.env s' k.final → ∀ o, k.At s t.spot o → ∃ n o',
    k.site.Goes n ⟨t.registers, t.memory, o⟩ ⟨t'.registers, t'.memory, o'⟩ ∧ k.At s' t'.spot o'

def HasExit (k : Course) (s : State) (x : Nat) (kind : ExitKind) : Prop :=
  ∃ e, s.exits[x]? = some e ∧ e.kind = kind ∧ e.node = k.cur

/-- Only code and exits were added. -/
structure Follows (k : Course) (s s' : State) : Prop extends Same s s' where
  proceeds : Proceeds k.env s s'

/-- The step keeps the state coherent and aimed, and if it is given its result, the code it has emitted
leads from the moment `t` to one with `Q`; if it terminates the node, to one with `T`. The labels in
the list are those that the step may refer to. -/
def Wp (k : Course) (ls : List Label) (s : State) (x : Lower α) (t : Moment)
    (Q : α → State → Moment → Prop) (T : State → Moment → Prop) : Prop :=
  Coherent k.env.graph k.cur k.before [] s → Aimed k.env s → (∀ l ∈ ls, s.IsCode l) →
    Leads k.env s x
      (fun a s' => Coherent k.env.graph k.cur k.before [] s' ∧ Proceeds k.env s s' ∧
        ∃ t', k.Reaches s t s' t' ∧ Q a s' t')
      (fun s' => Proceeds k.env s s' ∧ ∃ t', k.Reaches s t s' t' ∧ T s' t')
      fun _ _ => True

lemma Follows.refl (s : State) : k.Follows s s := ⟨.refl s, .refl s⟩

lemma Follows.trans (h : k.Follows s s') (h' : k.Follows s' s'') : k.Follows s s'' :=
  ⟨h.toSame.trans h'.toSame, h.proceeds.trans h'.proceeds⟩

lemma HasExit.extends {x : Nat} (h : k.HasExit s x kind) (he : Extends k.env s s') :
    k.HasExit s' x kind := by
  obtain ⟨e, hx, hkind, hnode⟩ := h
  obtain ⟨y, hy, hid⟩ := he.exits hx
  have hnode' : y.node = e.node := congrArg (·.2.2) hid
  exact ⟨y, hy, (Exit.kind_eq hid).trans hkind, hnode'.trans hnode⟩

/-! ### Runs -/

lemma Reaches.refl (s : State) (t : Moment) : k.Reaches s t s t :=
  fun _ o ho => ⟨0, o, .refl _, ho⟩

lemma Reaches.trans (h : k.Reaches s t s' t') (h' : k.Reaches s' t' s'' t'')
    (hp : Proceeds k.env s' s'') : k.Reaches s t s'' t'' := by
  intro he o ho
  obtain ⟨n, o', hgo, ho'⟩ := h (hp.toExtends.trans he) o ho
  obtain ⟨n', o'', hgo', ho''⟩ := h' he o' ho'
  exact ⟨n + n', o'', hgo.trans hgo', ho''⟩

/-- Code that the machine does not come by does nothing. -/
lemma Reaches.of_away (h : t.spot ≠ .next) : k.Reaches s t s' t := by
  intro _ o ho
  refine ⟨0, o, .refl _, ?_⟩
  rcases t with ⟨_ | _ | _, r, mem⟩
  · exact absurd rfl h
  · exact ho
  · exact ho

/-- No code was added. -/
lemma Reaches.of_offset (h : s'.asm.offset = s.asm.offset) : k.Reaches s t s' t := by
  intro _ o ho
  refine ⟨0, o, .refl _, ?_⟩
  rcases t with ⟨_ | _ | _, r, mem⟩
  · exact ho.trans h.symm
  · exact ho
  · exact ho

section Linked

variable (hk : k.Sound)

include hk in
/-- What the linked code has where a piece was assembled. -/
lemma Sound.next {target : Option RelocTarget} (hs : k.final.asm.Stands o [.inst i target])
    (r : Registers) (mem : Memory) : k.site.Next ⟨r, mem, o⟩ (Piece.resolve k.final.asm.labels
      k.site.artifact.base (o + i.encode.length) i target) := by
  obtain ⟨all, hm, pre, post, rfl, rfl⟩ := hs
  have hfill := Link.fillFields_ok _ hm.code hm.relocs hm.fits hk.linked
  have hdecode := Link.decodeAt_linked _ hfill hm.fits rfl
  obtain ⟨front, back, hfront, hbytes⟩ := Link.bytes_linked _ hfill hm.fits rfl
  have hlen := Piece.length_resolve k.final.asm.labels k.site.artifact.base
    (hm.fits (.inst i target) (by simp))
  have hsize := congrArg List.length hbytes
  rw [Array.length_toList, ByteArray.size_data, List.length_append, hfront] at hsize
  refine ⟨?_, ?_⟩
  · rw [hlen]
    simpa using hdecode
  · simp only [Nat.zero_add]
    omega

include hk in
/-- A jump leads to its label. -/
lemma Sound.goes_jmp (hs : k.final.asm.Stands o [.inst (.jmp 0) (some (.label l))]) (r : Registers)
    (mem : Memory) : ∃ e, k.final.asm.labels[l]? = some (some e) ∧
      k.site.Goes 1 ⟨r, mem, o⟩ ⟨r, mem, e⟩ := by
  obtain ⟨e, rel, hl, hres, hpc⟩ := Execution.jump_target hs ⟨_, hk.linked⟩
  have hnext := hk.next hs r mem
  rw [hres] at hnext
  refine ⟨e, hl, Site.goes_of_execute hk.loaded hnext ?_⟩
  simp only [Execution.execute_jmp, Site.past, Site.thread, Inst.setRel]
  rw [← Site.addressOf_add, Artifact.addressOf, Artifact.addressOf]
  rw [← hpc]
  rfl

variable (hm : ∃ ps, s.asm.Made ps)
include hk hm

/-- An instruction was emitted. -/
lemma reaches_emit (hs : i.Steps r mem r' mem') :
    k.Reaches s ⟨.next, r, mem⟩ { s with asm := s.asm.emit i } ⟨.next, r', mem'⟩ := by
  rintro he o rfl
  obtain ⟨ps, hm⟩ := hm
  have hadds := s.asm.adds_emit i
  have hstands := he.stands (hm.stands hadds (by simp [Piece.Fits]))
  refine ⟨1, _, hs _ _ hk.loaded (hk.next hstands r mem) rfl rfl, ?_⟩
  show s.asm.offset + i.encode.length = (s.asm.emit i).offset
  rw [hadds.offset]
  simp [Piece.bytes]

/-- A branch was emitted; it is taken or not. -/
lemma reaches_jcc {asm : Assembler} (hadds : s.asm.Adds asm [.inst (.jcc c 0) (some (.label l))]) :
    k.Reaches s ⟨.next, r, mem⟩ { s with asm }
      ⟨if c.holds r.flags r.order then .label l else .next, r, mem⟩ := by
  rintro he o rfl
  obtain ⟨ps, hm⟩ := hm
  have hstands := he.stands (hm.stands hadds (by simp [Piece.Fits, Assembler.RelocTarget.fits,
    Inst.rel32Field?]))
  obtain ⟨e, rel, hl, hres, hpc⟩ := Execution.jump_target hstands ⟨_, hk.linked⟩
  have hnext := hk.next hstands r mem
  rw [hres] at hnext
  have hoffset : asm.offset = s.asm.offset + 6 := hadds.offset
  by_cases hc : c.holds r.flags r.order
  · refine ⟨1, e, ?_, by rw [if_pos hc]; exact hl⟩
    refine Site.goes_of_execute hk.loaded hnext ?_
    simp only [Execution.execute_jcc, Site.past, Site.thread, Inst.setRel, hc, if_true]
    rw [← Site.addressOf_add, Artifact.addressOf, Artifact.addressOf]
    rw [← hpc]
    rfl
  · refine ⟨1, s.asm.offset + 6, ?_, by rw [if_neg hc]; exact hoffset.symm⟩
    refine Site.goes_of_execute hk.loaded hnext ?_
    simp only [Execution.execute_jcc, Site.past, Site.thread, Inst.setRel, hc]
    rfl

/-- A jump was emitted. -/
lemma reaches_jmp {asm : Assembler} (hadds : s.asm.Adds asm [.inst (.jmp 0) (some (.label l))]) :
    k.Reaches s ⟨.next, r, mem⟩ { s with asm } ⟨.label l, r, mem⟩ := by
  rintro he o rfl
  obtain ⟨ps, hm⟩ := hm
  obtain ⟨e, hl, hgo⟩ := hk.goes_jmp (he.stands (hm.stands hadds (by simp [Piece.Fits,
    Assembler.RelocTarget.fits, Inst.rel32Field?]))) r mem
  exact ⟨1, e, hgo, hl⟩

end Linked

lemma Reaches.exit {x : Nat} {e : Exit} (h : k.Reaches s t s' ⟨.label e.stub, r, mem⟩)
    (hx : s'.exits[x]? = some e) (hkind : e.kind = kind) (hnode : e.node = k.cur) :
    k.Reaches s t s' ⟨.exit kind, r, mem⟩ := by
  intro he o ho
  obtain ⟨n, o', hgo, ho'⟩ := h he o ho
  obtain ⟨y, hy, hid⟩ := he.exits hx
  have hnode' : y.node = e.node := congrArg (·.2.2) hid
  refine ⟨n, o', hgo, y, Array.mem_of_getElem? hy, (Exit.kind_eq hid).trans hkind,
    hnode'.trans hnode, ?_⟩
  rw [Exit.stub_eq hid]
  exact ho'

lemma leads_newExit (hcur : s.current = k.cur) : Leads k.env s (Lowering.newExit kind)
    (fun x s' => s'.asm.offset = s.asm.offset ∧ s'.current = s.current ∧ k.HasExit s' x kind)
    (fun _ => False) fun _ _ => True := by
  simp only [Lowering.newExit, Lowering.newLabel, currentNode, node, bind_assoc, leads_bind,
    leads_modifyGet, leads_get, leads_read, leads_assume]
  exact ⟨fun d _ => ⟨rfl, trivial, _, Array.getElem?_push_size, rfl, hcur⟩, fun _ _ => trivial⟩

/-- A branch to an exit was emitted; it is taken or not. -/
lemma leads_jccExit {x : Nat} (hk : k.Sound) (hm : ∃ ps, s.asm.Made ps) (hx : k.HasExit s x kind) :
    Leads k.env s (Lowering.jccExit c x)
      (fun _ s' => s'.current = s.current ∧ k.Reaches s ⟨.next, r, mem⟩ s'
        ⟨if c.holds r.flags r.order then .exit kind else .next, r, mem⟩)
      (fun _ => False) fun _ _ => True := by
  obtain ⟨e, he, hkind, hnode⟩ := hx
  have hget : Breach.get s.exits x = .ok e := by simp [Breach.get, he]
  obtain ⟨asm, hasm, hadds, -⟩ := Assembler.adds_emitReloc (a := s.asm)
    (t := .label e.stub) (i := .jcc c 0) rfl
  simp only [Lowering.jccExit, Lowering.jcc, leads_discard, emitReloc, leads_bind, leads_get, hget,
    hasm, leads_assume_ok]
  have hreach : k.Reaches s ⟨.next, r, mem⟩ _ _ := reaches_jcc hk hm hadds
  refine ⟨rfl, ?_⟩
  cases hc : c.holds r.flags r.order
  · rw [hc] at hreach
    exact hreach
  · rw [hc] at hreach
    exact hreach.exit he hkind hnode

/-! ### Rules -/

namespace Wp

variable {f : α → Lower β} {Q' : β → State → Moment → Prop} {Q₁ : α → State → Moment → Prop}
  {T₁ : State → Moment → Prop}

lemma mono (h : k.Wp ls s x t Q T) (hQ : ∀ a s' t', Q a s' t' → Q₁ a s' t')
    (hT : ∀ s' t', T s' t' → T₁ s' t') : k.Wp ls s x t Q₁ T₁ := fun hs ha hl =>
  (h hs ha hl).mono (fun a s' ⟨hs', hp, t', hr, hq⟩ => ⟨hs', hp, t', hr, hQ a s' t' hq⟩)
    (fun s' ⟨hp, t', hr, ht⟩ => ⟨hp, t', hr, hT s' t' ht⟩) fun _ _ => id

lemma weaken (h : k.Wp ls s x t Q T) (hQ : ∀ a s' t', Q a s' t' → Q₁ a s' t') :
    k.Wp ls s x t Q₁ T :=
  h.mono hQ fun _ _ => id

/-- What is known of the state in the middle of a lowering may be used. -/
lemma intro (h : Coherent k.env.graph k.cur k.before [] s → Aimed k.env s → k.Wp ls s x t Q T) :
    k.Wp ls s x t Q T := fun hs ha hl => h hs ha hs ha hl

lemma and {P : α → State → Prop} {T' : State → Prop} {F : Failure → State → Prop}
    (h : k.Wp ls s x t Q T) (h' : Coherent k.env.graph k.cur k.before [] s →
      Leads k.env s x P T' F) : k.Wp ls s x t (fun a s' t' => Q a s' t' ∧ P a s') T :=
  fun hs ha hl => ((h hs ha hl).and (h' hs)).mono
    (fun _ _ ⟨⟨hs', hp, t', hr, hq⟩, hP⟩ => ⟨hs', hp, t', hr, hq, hP⟩) (fun _ h => h.1)
    fun _ _ h => h.1

lemma pure {a : α} (h : Q a s t) : k.Wp ls s (pure a) t Q T :=
  fun hs _ _ => ⟨hs, .refl s, t, .refl s t, h⟩

lemma terminated (h : T s t) : k.Wp ls s (throw .terminated : Lower α) t Q T :=
  fun _ _ _ => ⟨.refl s, t, .refl s t, h⟩

/-- The step may refer to one more label. -/
lemma know (h : Aimed k.env s → s.IsCode l) (hx : k.Wp (l :: ls) s x t Q T) :
    k.Wp ls s x t Q T :=
  fun hs ha hl => hx hs ha (List.forall_mem_cons.mpr ⟨h ha, hl⟩)

lemma bind (h : k.Wp ls s x t (fun a s' t' => k.Wp ls s' (f a) t' Q' T) T) :
    k.Wp ls s (x >>= f) t Q' T := by
  intro hs ha hl
  refine leads_bind.mpr ((h hs ha hl).weaken ?_)
  rintro a s' ⟨hs', hp, t', hr, hf⟩
  refine (hf hs' (hp.aimed ha) fun l hm => hp.isCode (hl l hm)).mono ?_ ?_ fun _ _ => id
  · rintro b s'' ⟨hs'', hp', t'', hr', hq⟩
    exact ⟨hs'', hp.trans hp', t'', hr.trans hr' hp', hq⟩
  · rintro s'' ⟨hp', t'', hr', hq⟩
    exact ⟨hp.trans hp', t'', hr.trans hr' hp', hq⟩

lemma discard {Q : PUnit → State → Moment → Prop} (h : k.Wp ls s x t (fun _ => Q ⟨⟩) T) :
    k.Wp ls s (discard x) t Q T := fun hs ha hl => leads_discard.mpr (h hs ha hl)

lemma ite {p : Prop} [Decidable p] {y : Lower α} (hx : p → k.Wp ls s x t Q T)
    (hy : ¬p → k.Wp ls s y t Q T) : k.Wp ls s (if p then x else y) t Q T := by
  split
  · exact hx ‹_›
  · exact hy ‹_›

/-- The step looks something up. -/
lemma look {P : α → Prop} {F : Failure → State → Prop}
    (hx : Coherent k.env.graph k.cur k.before [] s →
      Leads k.env s x (fun a s' => s' = s ∧ P a) (fun _ => False) F)
    (hf : ∀ a, P a → k.Wp ls s (f a) t Q' T) : k.Wp ls s (x >>= f) t Q' T := by
  intro hs ha hl
  refine leads_bind.mpr ((hx hs).mono ?_ (fun _ => False.elim) fun _ _ _ => trivial)
  rintro a _ ⟨rfl, hP⟩
  exact hf a hP hs ha hl

/-- What a step keeps and where the code that it emits leads are shown apart. -/
lemma of_leads {P : α → State → Prop} {F : Failure → State → Prop}
    (hc : Coherent k.env.graph k.cur k.before [] s →
      Leads k.env s x (fun a s' => Coherent k.env.graph k.cur k.before [] s' ∧ P a s')
        (fun _ => False) F)
    (he : Extending k.env ls x)
    (hr : (∃ ps, s.asm.Made ps) → Coherent k.env.graph k.cur k.before [] s →
      Leads k.env s x (fun a s' => ∃ t', k.Reaches s t s' t' ∧
        (Coherent k.env.graph k.cur k.before [] s' → P a s' → Q a s' t'))
        (fun _ => True) fun _ _ => True) : k.Wp ls s x t Q T := by
  intro hs ha hl
  obtain ⟨ps, hm, -⟩ := ha.coded
  refine (((hc hs).and (he s ha hl)).and (hr ⟨ps, hm⟩ hs)).mono ?_ (fun _ h => h.1.1.elim)
    fun _ _ _ => trivial
  rintro a s' ⟨⟨⟨hs', hP⟩, hp⟩, t', hreach, hq⟩
  exact ⟨hs', hp, t', hreach, hq hs' hP⟩

/-- Whatever is lowered after the machine has left makes no difference to it. -/
lemma away {P : α → State → Prop} {T' : State → Prop} {F : Failure → State → Prop}
    (hc : Coherent k.env.graph k.cur k.before [] s →
      Leads k.env s x (fun a s' => Coherent k.env.graph k.cur k.before [] s' ∧ P a s') T' F)
    (he : Extending k.env ls x) (hσ : t.spot ≠ .next) (hQ : ∀ a s', P a s' → Q a s' t)
    (hT : ∀ s', T s' t) : k.Wp ls s x t Q T := by
  intro hs ha hl
  refine ((hc hs).and (he s ha hl)).mono ?_ ?_ fun _ _ _ => trivial
  · rintro a s' ⟨⟨hs', hP⟩, hp⟩
    exact ⟨hs', hp, t, .of_away hσ, hQ a s' hP⟩
  · rintro s' ⟨-, hp⟩
    exact ⟨hp, t, .of_away hσ, hT s'⟩

lemma of_calm (hc : Calm x) (he : Extending k.env ls x)
    (hr : (∃ ps, s.asm.Made ps) → s.current = k.cur →
      Leads k.env s x (fun a s' => ∃ t', k.Reaches s t s' t' ∧ (k.Follows s s' → Q a s' t'))
        (fun _ => True) fun _ _ => True) : k.Wp ls s x t Q T := by
  intro hs ha hl
  obtain ⟨ps, hm, -⟩ := ha.coded
  refine (((hc k.env s hs.sighted fun _ => hs.sees).and (he s ha hl)).and
    (hr ⟨ps, hm⟩ hs.current)).mono ?_ (fun _ h => h.1.1.elim) fun _ _ _ => trivial
  rintro a s' ⟨⟨⟨hsame, hsight⟩, hp⟩, t', hr, hq⟩
  exact ⟨hs.same hsame hsight, hp, t', hr, hq ⟨hsame, hp⟩⟩

/-- What is known of a calm step. -/
lemma calm (h : k.Wp ls s x t Q T) (hc : Calm x) :
    k.Wp ls s x t (fun a s' t' => Q a s' t' ∧ Same s s') T :=
  h.and fun hs =>
    have hleads : Leads k.env s x (fun _ s' => Same s s') (fun _ => False) fun _ _ => True :=
      (hc k.env s hs.sighted fun _ => hs.sees).mono (fun _ _ h => h.1) (fun _ => id)
        fun _ _ _ => trivial
    hleads

/-- Code is emitted that the machine does not come by. -/
lemma skip (hc : Calm x) (he : Extending k.env ls x) (hσ : σ ≠ .next)
    (hQ : ∀ a s', k.Follows s s' → Q a s' ⟨σ, r, mem⟩) : k.Wp ls s x ⟨σ, r, mem⟩ Q T :=
  .of_calm hc he fun _ _ => by
    unfold Leads
    split
    · exact ⟨_, .of_away hσ, hQ _ _⟩
    · trivial
    · trivial

lemma bindNewLabel {f : Label → Lower β}
    (hf : ∀ l s', k.Follows s s' → l ∉ ls → k.Wp (l :: ls) s' (f l) t Q' T) :
    k.Wp ls s (newLabel >>= f) t Q' T := by
  intro hs ha hl
  have hnew : Leads k.env s newLabel
      (fun l s' => l = s.asm.labels.size ∧ s'.asm.offset = s.asm.offset) (fun _ => False)
      fun _ _ => False := ⟨rfl, rfl⟩
  have hcalm := Calm.newLabel k.env s hs.sighted fun h : True => hs.sees
  refine leads_bind.mpr (((hcalm.and (Extending.leads_newLabel ha)).and hnew).mono ?_
    (fun _ h => h.2.elim) fun _ _ _ => trivial)
  rintro l s' ⟨⟨⟨hsame, hsight⟩, hp, hcode⟩, rfl, hoffset⟩
  have hfresh : s.asm.labels.size ∉ ls := fun hmem => Nat.lt_irrefl _ (hl _ hmem).lt
  have hls : ∀ l ∈ s.asm.labels.size :: ls, s'.IsCode l :=
    List.forall_mem_cons.mpr ⟨hcode, fun l hm => hp.isCode (hl l hm)⟩
  refine (hf _ s' ⟨hsame, hp⟩ hfresh (hs.same hsame hsight) (hp.aimed ha) hls).mono ?_ ?_
    fun _ _ => id
  · rintro b s'' ⟨hs'', hp', t', hr, hq⟩
    exact ⟨hs'', hp.trans hp', t', (Reaches.of_offset hoffset).trans hr hp', hq⟩
  · rintro s'' ⟨hp', t', hr, hq⟩
    exact ⟨hp.trans hp', t', (Reaches.of_offset hoffset).trans hr hp', hq⟩

/-- A label is attached; a machine that is on its way to it arrives. -/
lemma attach {Q : Unit → State → Moment → Prop}
    (hQ : ∀ s', k.Follows s s' → Q () s' ⟨if σ = .label l then .next else σ, r, mem⟩) :
    k.Wp ls s (attach l) ⟨σ, r, mem⟩ Q T :=
  .of_calm (Calm.attach l) (Extending.attach l) fun _ _ => by
    refine leads_attach.mono ?_ (fun _ => False.elim) fun _ _ _ => trivial
    rintro _ s' ⟨rfl, hfree⟩
    refine ⟨⟨if σ = .label l then .next else σ, r, mem⟩, fun he o ho => ⟨0, o, .refl _, ?_⟩, hQ _⟩
    dsimp only at ho ⊢
    by_cases hσ : σ = .label l
    · subst hσ
      rw [if_pos rfl]
      have hlt := (Array.getElem?_eq_some_iff.mp hfree).1
      have hl : (s.attached l).asm.labels[l]? = some (some s.asm.offset) := by
        simp [State.attached, hlt]
      have ho' : k.final.asm.labels[l]? = some (some o) := ho
      rw [he.labels hl] at ho'
      exact (Option.some.inj (Option.some.inj ho')).symm
    · rw [if_neg hσ]
      cases σ <;> exact ho

section Emitting

variable (hk : k.Sound)
include hk

lemma emit {Q : Nat → State → Moment → Prop} (hi : i.isPlain = true)
    (hs : i.Steps r mem r' mem') (hQ : ∀ o s', k.Follows s s' → Q o s' ⟨.next, r', mem'⟩) :
    k.Wp ls s (emit i) ⟨.next, r, mem⟩ Q T :=
  .of_calm (Calm.emit i) (Extending.emit hi) fun hm _ => ⟨_, reaches_emit hk hm hs, hQ _ _⟩

variable {Q : Unit → State → Moment → Prop}

lemma emit' (hi : i.isPlain = true) (hs : i.Steps r mem r' mem')
    (hQ : ∀ s', k.Follows s s' → Q () s' ⟨.next, r', mem'⟩) :
    k.Wp ls s (emit' i) ⟨.next, r, mem⟩ Q T :=
  .discard (.emit hk hi hs fun _ => hQ)

lemma mov {dst src : Gpr}
    (hQ : ∀ s', k.Follows s s' → Q () s' ⟨.next, r.setGpr dst (r.gpr src), mem⟩) :
    k.Wp ls s (mov dst src) ⟨.next, r, mem⟩ Q T := by
  refine .ite (fun h => .pure ?_) fun _ => .emit' hk rfl Inst.steps_mov hQ
  have hself : r.setGpr dst (r.gpr src) = r := by
    rw [h]
    exact Registers.setGpr_gpr r src
  rw [← hself]
  exact hQ s (.refl s)

lemma movImm {Q : Nat → State → Moment → Prop} {dst : Gpr} {w : UInt64}
    (hQ : ∀ o s', k.Follows s s' → Q o s' ⟨.next, r.setGpr dst w, mem⟩) :
    k.Wp ls s (movImm dst w) ⟨.next, r, mem⟩ Q T :=
  .emit hk rfl Inst.steps_movImm hQ

/-- A branch that is taken leads to its label. -/
lemma jcc (hl : l ∈ ls)
    (ht : c.holds r.flags r.order = true → ∀ s', k.Follows s s' → Q () s' ⟨.label l, r, mem⟩)
    (hf : c.holds r.flags r.order = false → ∀ s', k.Follows s s' → Q () s' ⟨.next, r, mem⟩) :
    k.Wp ls s (jcc c l) ⟨.next, r, mem⟩ Q T :=
  .of_calm (Calm.jcc c l) (Extending.jcc c hl) fun hm _ => by
    obtain ⟨asm, hasm, hadds, -⟩ := Assembler.adds_emitReloc (a := s.asm)
      (t := .label l) (i := .jcc c 0) rfl
    simp only [Lowering.jcc, leads_discard, emitReloc, leads_bind, leads_get, hasm, leads_assume_ok]
    refine ⟨_, reaches_jcc hk hm hadds, fun hfollows => ?_⟩
    cases hc : c.holds r.flags r.order
    · exact hf hc _ hfollows
    · exact ht hc _ hfollows

lemma jmp (hl : l ∈ ls) (hQ : ∀ s', k.Follows s s' → Q () s' ⟨.label l, r, mem⟩) :
    k.Wp ls s (jmp l) ⟨.next, r, mem⟩ Q T :=
  .of_calm (Calm.jmp l) (Extending.jmp hl) fun hm _ => by
    obtain ⟨asm, hasm, hadds, -⟩ := Assembler.adds_emitReloc (a := s.asm)
      (t := .label l) (i := .jmp 0) rfl
    simp only [Lowering.jmp, leads_discard, emitReloc, leads_bind, leads_get, hasm, leads_assume_ok]
    exact ⟨_, reaches_jmp hk hm hadds, hQ _⟩

end Emitting

/-! ### Exits -/

/-- An exit is made for the current node. -/
lemma newExit {Q : Nat → State → Moment → Prop} (hkind : kind ≠ .argumentTypeCheck)
    (hQ : ∀ x s', k.Follows s s' → k.HasExit s' x kind → Q x s' t) :
    k.Wp ls s (newExit kind) t Q T :=
  .of_calm (Calm.newExit hkind) (Extending.newExit kind) fun _ hcur =>
    (leads_newExit hcur).mono
      (fun x s' ⟨hoffset, _, hx⟩ => ⟨t, .of_offset hoffset, fun h => hQ x s' h hx⟩)
      (fun _ => False.elim) fun _ _ _ => trivial

section Exits

variable (hk : k.Sound) {x : Nat}
include hk

/-- A branch to an exit that is taken leaves. -/
lemma jccExit {Q : Unit → State → Moment → Prop} (hx : k.HasExit s x kind)
    (ht : c.holds r.flags r.order = true → ∀ s', k.Follows s s' → Q () s' ⟨.exit kind, r, mem⟩)
    (hf : c.holds r.flags r.order = false → ∀ s', k.Follows s s' → Q () s' ⟨.next, r, mem⟩) :
    k.Wp ls s (jccExit c x) ⟨.next, r, mem⟩ Q T :=
  .of_calm (Calm.jccExit c x) (Extending.jccExit c x) fun hm _ =>
    (leads_jccExit hk hm hx).mono (fun _ s' ⟨_, hreach⟩ => ⟨_, hreach, fun hfollows => by
      cases hc : c.holds r.flags r.order
      · exact hf hc s' hfollows
      · exact ht hc s' hfollows⟩) (fun _ => False.elim) fun _ _ _ => trivial

/-- A new exit is taken if the condition holds. -/
lemma guard {Q : Nat → State → Moment → Prop} (hkind : kind ≠ .argumentTypeCheck)
    (ht : c.holds r.flags r.order = true → ∀ x s', k.Follows s s' → k.HasExit s' x kind →
      Q x s' ⟨.exit kind, r, mem⟩)
    (hf : c.holds r.flags r.order = false → ∀ x s', k.Follows s s' → k.HasExit s' x kind →
      Q x s' ⟨.next, r, mem⟩) : k.Wp ls s (guard kind c) ⟨.next, r, mem⟩ Q T := by
  refine .bind (.newExit hkind fun x s₁ h₁ hx => ?_)
  refine .bind (.jccExit hk hx (fun hc s₂ h₂ => ?_) fun hc s₂ h₂ => ?_)
  · exact .pure (ht hc x s₂ (h₁.trans h₂) (hx.extends h₂.proceeds.toExtends))
  · exact .pure (hf hc x s₂ (h₁.trans h₂) (hx.extends h₂.proceeds.toExtends))

lemma guard' {Q : Unit → State → Moment → Prop} (hkind : kind ≠ .argumentTypeCheck)
    (ht : c.holds r.flags r.order = true → ∀ s', k.Follows s s' → Q () s' ⟨.exit kind, r, mem⟩)
    (hf : c.holds r.flags r.order = false → ∀ s', k.Follows s s' → Q () s' ⟨.next, r, mem⟩) :
    k.Wp ls s (guard' kind c) ⟨.next, r, mem⟩ Q T :=
  .discard (.guard hk hkind (fun hc _ s' h _ => ht hc s' h) fun hc _ s' h _ => hf hc s' h)

/-- Nothing more is lowered, and the machine leaves. -/
lemma terminate (hkind : kind ≠ .argumentTypeCheck)
    (hT : ∀ s', k.Follows s s' → T s' ⟨.exit kind, r, mem⟩) :
    k.Wp ls s (terminate kind : Lower α) ⟨.next, r, mem⟩ Q T := by
  refine .bind (.newExit hkind fun x s₁ h₁ hx => ?_)
  obtain ⟨e, he, hkind, hnode⟩ := hx
  have hget : Breach.get s₁.exits x = .ok e := by simp [Breach.get, he]
  refine .look (P := (· = s₁)) (F := fun _ _ => True) (fun _ => ⟨rfl, rfl⟩) ?_
  rintro s₁ rfl
  refine .look (P := (· = e)) (F := fun _ _ => True) (fun _ => ?_) ?_
  · rw [hget]
    exact ⟨rfl, rfl⟩
  rintro e rfl
  refine .know (l := e.stub) (fun ha => ha.rooted.stub (Array.mem_of_getElem? he)) ?_
  refine .bind (.of_calm (Calm.jmp _) (Extending.jmp List.mem_cons_self) fun hm _ => ?_)
  obtain ⟨asm, hasm, hadds, -⟩ := Assembler.adds_emitReloc (a := s₁.asm)
    (t := .label e.stub) (i := .jmp 0) rfl
  simp only [Lowering.jmp, leads_discard, emitReloc, leads_bind, leads_get, hasm, leads_assume_ok]
  exact ⟨_, (reaches_jmp hk hm hadds).exit he hkind hnode, fun h₂ => .terminated (hT _ (h₁.trans h₂))⟩

end Exits

end Wp

end Course
end Speculation
