import Speculation.Proofs.Compile.Sites

/-!
Compiles that succeed.

Linking changes bytes, and nothing else of what a compile leaves. So all but the bytes of an artifact
can be told from lowered code, and linking it does not fail where every label is attached.
-/

namespace Speculation

open Lowering Link

def Assembler.linkable (a : Assembler) : Bool :=
  a.relocs.all fun r => r.target.label?.all fun l => (a.labels[l]?.join).isSome

namespace Plan

variable {p : Plan} {base : UInt64} {frame : FrameLayout} {layout : Layout} {s : State}

/-- Linking keeps the size of the code, and the instructions come first in it. -/
lemma size_fillFields (h : p.lower = .ok (frame, layout, s)) {code : ByteArray}
    (hcode : fillFields s.asm base = .ok code) :
    code.size = s.asm.code.size ∧ layout.instsLength ≤ s.asm.code.size := by
  obtain ⟨s₁, ha⟩ := assembled_of_lower h
  obtain ⟨ps, hm, -⟩ := (ha.insts.aimed (aimed_start p frame)).coded
  obtain ⟨qs, hm⟩ := ha.pools.toExtends.made hm
  have hlen := congrArg List.length (fillFields_ok _ hm.code hm.relocs hm.fits hcode)
  rw [Piece.length_linked _ _ hm.fits, ← hm.code, Array.length_toList, Array.length_toList,
    ByteArray.size_data, ByteArray.size_data] at hlen
  exact ⟨hlen, ha.length ▸ ha.pools.toExtends.offset_le⟩

/-- What is compiled belongs to the block, lies at the base, and is not too big. -/
lemma compile_bounds {a : Artifact} (h : (p.compile base).outcome = .ok a) :
    a.block = p.blockId ∧ a.base = base ∧ a.instsLength ≤ a.code.size ∧
      a.code.size ≤ p.options.codeLimit := by
  have hlimit : ∀ {frame layout s}, p.lower = .ok (frame, layout, s) →
      s.asm.code.size ≤ p.options.codeLimit := by
    intro frame layout s hs
    by_contra hbig
    change (p.build base).1 = _ at h
    rw [build, hs] at h
    dsimp only at h
    rw [if_pos (by omega)] at h
    cases h
  obtain ⟨frame, layout, s, code, hs, hcode, ha, -⟩ := build_ok h
  obtain ⟨hsize, hinsts⟩ := size_fillFields hs hcode
  obtain ⟨hbytes, -, -, hbase, hlength⟩ := artifact_ok ha
  rw [hbytes, hsize, hlength]
  refine ⟨?_, hbase, hinsts, hlimit hs⟩
  unfold artifact at ha
  simp only [bind, Except.bind] at ha
  repeat' split at ha
  all_goals cases ha
  rfl

/-- What lowering leaves can be linked if its code is not too big. -/
lemma exists_fillFields (h : p.lower = .ok (frame, layout, s)) (hl : s.asm.linkable = true)
    (hsize : s.asm.code.size < 2147483648) (base : UInt64) :
    ∃ code, fillFields s.asm base = .ok code := by
  obtain ⟨s₁, ha⟩ := assembled_of_lower h
  have hext := (complete_of_lower h).1
  obtain ⟨ps, hm, -⟩ := (ha.insts.aimed (aimed_start p frame)).coded
  obtain ⟨qs, hm⟩ := ha.pools.toExtends.made hm
  have hlinks : ∀ q ∈ ps ++ qs, q.Links s.asm.labels := by
    intro q hq
    refine ⟨hm.fits q hq, ?_⟩
    rintro i t l rfl htarget
    obtain ⟨pre, post, hpieces⟩ := List.append_of_mem hq
    have hr : ⟨0 + (pre.flatMap Piece.bytes).length, i.encode.length, t⟩ ∈
        Piece.relocsFrom 0 (ps ++ qs) :=
      Piece.mem_relocsFrom.mpr ⟨i, ⟨pre, post, hpieces, rfl⟩, rfl⟩
    rw [← hm.relocs, Array.mem_toList_iff] at hr
    have hlabel : t.label? = some l := by rcases htarget with rfl | rfl <;> rfl
    have hall := Array.all_eq_true'.mp hl _ hr
    rw [hlabel, Option.all_some, Option.isSome_iff_exists] at hall
    obtain ⟨o, ho⟩ := hall
    have hattached := Option.join_eq_some_iff.mp ho
    refine ⟨o, hattached, ?_⟩
    have hle := (hext.within hattached).resolve_left fun hstart => by
      simp [Plan.start, Array.getElem?_replicate] at hstart
    unfold Assembler.offset at hle
    omega
  exact fillFields_succeeds base hm.code hm.relocs hlinks hsize

/-- What a compile leaves, with the bytes as they are before they are linked. -/
def sketch (p : Plan) (base : UInt64) : Option (Artifact × CodeBlock) :=
  match p.lower with
  | .error _ => none
  | .ok (frame, layout, s) =>
    if s.asm.linkable && decide (s.asm.code.size ≤ p.options.codeLimit) &&
        decide (s.asm.code.size < 2147483648) then
      match (linkTables p.graph (blockAddress s.asm p.graph.blocks.size base)
          s.switches.toList).run.run p.block with
      | (.ok (), block) =>
        (p.artifact base frame layout s s.asm.code).toOption.map fun a => (a, block)
      | (.error _, _) => none
    else none

/-- An artifact takes the bytes as they are. -/
lemma artifact_code {code code' : ByteArray} {a : Artifact}
    (h : p.artifact base frame layout s code = .ok a) :
    p.artifact base frame layout s code' = .ok { a with code := code' } := by
  unfold artifact at h ⊢
  simp only [bind, Except.bind, pure, Except.pure] at h ⊢
  repeat' split at h
  all_goals cases h
  rfl

/-- A compile does not fail if there is a sketch of what it leaves. -/
theorem exists_compiled {a : Artifact} {b : CodeBlock} (h : p.sketch base = some (a, b)) :
    ∃ code, (p.compile base).outcome = .ok { a with code } ∧ (p.compile base).block = b := by
  unfold sketch at h
  split at h
  · cases h
  rename_i frame layout s hs
  split at h
  · rename_i hfits
    simp only [Bool.and_eq_true, decide_eq_true_eq] at hfits
    obtain ⟨⟨hl, hlimit⟩, hsize⟩ := hfits
    split at h
    · rename_i block hlink
      obtain ⟨a', ha, hab⟩ := Option.map_eq_some_iff.mp h
      obtain ⟨rfl, rfl⟩ := Prod.mk.inj hab
      have ha : p.artifact base frame layout s s.asm.code = .ok a' := by
        rcases hx : p.artifact base frame layout s s.asm.code with _ | x <;> rw [hx] at ha
        · cases ha
        · exact congrArg Except.ok (Option.some.inj ha)
      obtain ⟨code, hcode⟩ := exists_fillFields hs hl hsize base
      have hbuild : p.build base = (.ok { a' with code }, block) := by
        unfold build
        rw [hs]
        dsimp only
        rw [if_neg (by omega), hcode]
        dsimp only
        rw [hlink]
        exact congrArg (·, block) (artifact_code ha)
      refine ⟨code, ?_, ?_⟩
      · show (p.build base).1 = _
        rw [hbuild]
      · show (p.build base).2 = _
        rw [hbuild]
    · cases h
  · cases h

end Plan

end Speculation
