import Speculation.Proofs.Compile.WellFormed
import Speculation.Proofs.Integer.Code
import Speculation.Proofs.Integer.Leaving

/-!
Integer dataflow compiles.

Lowering does not fail, every label is attached, and there is nothing to link but distances, so that
an artifact comes of every graph whose code is not too big. What is known of the code while it was
lowered is true of the code of the artifact.
-/

namespace Speculation

/-- Steps that all succeed. -/
lemma exists_mapM_ok {α β ε : Type} {f : α → Except ε β} {xs : Array α}
    (h : ∀ x ∈ xs, ∃ y, f x = .ok y) : ∃ ys, xs.mapM f = .ok ys := by
  have hlist : ∀ {xs : List α}, (∀ x ∈ xs, ∃ y, f x = .ok y) → ∃ ys, xs.mapM f = .ok ys := by
    intro xs
    induction xs with
    | nil => exact fun _ => ⟨[], rfl⟩
    | cons x xs ih =>
      intro h
      obtain ⟨⟨y, hy⟩, hxs⟩ := List.forall_mem_cons.mp h
      obtain ⟨ys, hys⟩ := ih hxs
      exact ⟨y :: ys, by rw [List.mapM_cons, hy, hys]; rfl⟩
  obtain ⟨ys, hys⟩ := hlist fun x hx => h x (Array.mem_toList_iff.mp hx)
  exact ⟨ys.toArray, by rw [Array.mapM_eq_mapM_toList, hys]; rfl⟩

namespace Plan

open Lowering

variable {p : Plan} {sc : Scene} {blk : Block} {frame : FrameLayout} {layout : Layout} {s : State}
  {R : Replay.State} {ps : List Piece} {base : UInt64} {code : ByteArray} {d : Draft}

/-- Lowering succeeds, and its code is as it should be. -/
lemma lower_integer (hd : d.Integer blk) (hg : d.finish = .ok p.graph) (hsc : sc.Staged blk)
    (henv : sc.env = p.env frame) (hframe : FrameLayout.ofGraph p.graph = .ok frame) :
    ∃ layout s R ps, p.lower = .ok (frame, layout, s) ∧
      Lowered sc blk p.block.numParameters layout s R ps := by
  have hgraph : sc.graph = p.graph := congrArg Env.graph henv
  have hlocals := hsc.roomy.locals
  have harguments := hsc.roomy.arguments
  have hvars := hsc.roomy.vars
  rw [hgraph] at hlocals harguments hvars
  have h := leads_lowered (n := p.block.numParameters) (blank_start hd.built hg) hsc henv
    ⟨by omega, by omega⟩
  unfold Leads at h
  rcases hout : outcome (lowerGraph p.block.numParameters) (p.env frame) p.start with
    ⟨(_ | e) | layout, s⟩ <;> rw [hout] at h
  · exact h.elim
  · exact h.elim
  · obtain ⟨R, ps, h⟩ := h
    refine ⟨layout, s, R, ps, ?_, h⟩
    unfold lower
    rw [hframe]
    dsimp only
    unfold outcome at hout
    rw [hout]

/-- Every label is attached, not far from the start. -/
lemma Lowered.links (h : Lowered sc blk p.block.numParameters layout s R ps)
    (hs : p.lower = .ok (frame, layout, s)) (hsize : s.asm.code.size < 2147483648) {q : Piece}
    (hq : q ∈ ps) : q.Links s.asm.labels := by
  have hext := (complete_of_lower hs).1
  have haims := h.aims hq
  refine ⟨haims.fits, ?_⟩
  rintro i t l rfl hl
  obtain ⟨o, ho⟩ := h.attached (haims.2 l hl)
  refine ⟨o, ho, ?_⟩
  have hle := (hext.within ho).resolve_left fun hstart => by
    simp [Plan.start, Array.getElem?_replicate] at hstart
  unfold Assembler.offset at hle
  omega

/-- An artifact is put together. -/
lemma artifact_integer (h : Lowered sc blk p.block.numParameters layout s R ps)
    (hs : p.lower = .ok (frame, layout, s)) (base : UInt64) (code : ByteArray) :
    ∃ a, p.artifact base frame layout s code = .ok a := by
  have hc := (complete_of_lower hs).2
  have hoffset : ∀ {l}, s.Attached l → ∃ o, s.asm.labelOffset l = .ok o :=
    fun ⟨o, ho⟩ => ⟨o, Link.labelOffset_eq ho⟩
  obtain ⟨exits, hexits⟩ : ∃ exits, exitSites s.asm s.exits = .ok exits :=
    exists_mapM_ok fun x hx => by
      obtain ⟨o, ho⟩ := hoffset (hc.stubs hx)
      exact ⟨_, by rw [ho]; rfl⟩
  have hjumps : jumps exits s.watchpoints = .ok #[] := by
    rw [h.bare.watchpoints, jumps, Array.mapM_empty]
    rfl
  have hcaches : caches p.graph s.caches = .ok #[] := by
    rw [h.bare.caches, caches, Array.mapM_empty]
    rfl
  obtain ⟨entry, hentry⟩ := hoffset hc.entry
  obtain ⟨arity, harity⟩ : ∃ arity, layout.arityEntry.mapM s.asm.labelOffset = .ok arity := by
    rcases hl : layout.arityEntry with _ | l
    · exact ⟨none, rfl⟩
    · obtain ⟨o, ho⟩ := hoffset (hc.arity hl)
      exact ⟨some o, by rw [Option.mapM_some, ho]; rfl⟩
  obtain ⟨osr, hosr⟩ : ∃ osr, layout.osrEntries.mapM
      (fun (e : BlockId × Label) => do return (e.1, ← s.asm.labelOffset e.2)) = .ok osr := by
    have hosr := fun e he => hoffset (hc.osr (e := e) he)
    generalize layout.osrEntries = es at hosr
    induction es with
    | nil => exact ⟨[], rfl⟩
    | cons e es ih =>
      obtain ⟨⟨o, ho⟩, hes⟩ := List.forall_mem_cons.mp hosr
      obtain ⟨osr, hosr⟩ := ih hes
      exact ⟨(e.1, o) :: osr, by rw [List.mapM_cons, hosr, ho]; rfl⟩
  unfold artifact
  rw [hexits]
  simp only [bind, Except.bind, pure, Except.pure] at hosr ⊢
  rw [hjumps, hcaches, hentry, harity]
  simp only [hosr]
  exact ⟨_, rfl⟩

lemma Lowered.size_fillFields (h : Lowered sc blk p.block.numParameters layout s R ps)
    (hcode : Link.fillFields s.asm base = .ok code) : code.size = s.asm.code.size := by
  have hlen := congrArg List.length
    (Link.fillFields_ok _ h.made.code h.made.relocs h.made.fits hcode)
  rwa [Piece.length_linked _ _ h.made.fits, ← h.made.code, Array.length_toList, Array.length_toList,
    ByteArray.size_data, ByteArray.size_data] at hlen

/-- Code that is not too big is linked. -/
lemma Lowered.compile (h : Lowered sc blk p.block.numParameters layout s R ps)
    (hs : p.lower = .ok (frame, layout, s)) (hlimit : s.asm.code.size ≤ p.options.codeLimit)
    (hsize : s.asm.code.size < 2147483648) (base : UInt64) :
    ∃ a, (p.compile base).outcome = .ok a ∧ a.code.size = s.asm.code.size := by
  obtain ⟨code, hcode⟩ := Link.fillFields_succeeds base h.made.code h.made.relocs
    (fun q hq => h.links hs hsize hq) hsize
  obtain ⟨a, ha⟩ := artifact_integer h hs base code
  refine ⟨a, ?_, ?_⟩
  · have hswitches : s.switches.toList = [] := by rw [h.bare.switches]
    unfold Plan.compile build
    rw [hs]
    dsimp only
    rw [if_neg (Nat.not_lt.mpr hlimit), hcode]
    dsimp only
    rw [hswitches]
    exact ha
  · rw [(artifact_ok ha).1, h.size_fillFields hcode]

end Plan
end Speculation
