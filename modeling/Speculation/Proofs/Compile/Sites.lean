import Speculation.Proofs.Compile.Tables

/-!
The watchpoint sites of compiled code.

Code is compiled with a watchpoint at every site, apart from each other and from the rest of the
code. Firing the watchpoints turns each of them into a jump to the stub of its exit.
-/

namespace Speculation

namespace Piece

lemma watchedFrom_mem {ps : List Piece} {offset o : Nat} (h : o ∈ watchedFrom offset ps) :
    ∃ pre x post, ps = pre ++ .inst (.watchpoint x) none :: post ∧
      o = offset + (pre.flatMap bytes).length := by
  induction ps generalizing offset with
  | nil => cases h
  | cons p ps ih =>
    rcases List.mem_append.mp h with h | h
    · unfold watched at h
      split at h
      · obtain rfl := List.mem_singleton.mp h
        exact ⟨[], _, ps, rfl, rfl⟩
      · cases h
    · obtain ⟨pre, x, post, rfl, rfl⟩ := ih h
      exact ⟨p :: pre, x, post, rfl, by simp [Nat.add_assoc]⟩

lemma watchedFrom_apart (ps : List Piece) (offset : Nat) :
    (watchedFrom offset ps).Pairwise fun o o' => o + 5 ≤ o' := by
  induction ps generalizing offset with
  | nil => exact .nil
  | cons p ps ih =>
    refine List.pairwise_append.mpr ⟨?_, ih _, fun o ho o' ho' => ?_⟩
    · unfold watched
      split <;> simp
    · obtain ⟨pre, _, _, _, rfl⟩ := watchedFrom_mem ho'
      unfold watched at ho
      split at ho
      · obtain rfl := List.mem_singleton.mp ho
        exact Nat.le_add_right _ _
      · cases ho

end Piece

namespace Artifact

variable {a a' : Artifact} {j k : JumpReplacement} {i : Inst} {o : Nat}

def Holds (a : Artifact) (o : Nat) (i : Inst) : Prop :=
  ∃ pre post, pre.length = o ∧ a.code.data.toList = pre ++ (i.encode ++ post)

def Waits (a : Artifact) (j : JumpReplacement) : Prop := ∃ x, a.Holds j.source (.watchpoint x)

def leap (j : JumpReplacement) : Inst :=
  .jmp (Int32.ofInt (j.dest - (j.source + Encoding.jmpLength : Nat)))

def Fired (a : Artifact) (j : JumpReplacement) : Prop := a.Holds j.source (leap j)

/-- The sites are apart, and each leads to the stub of its exit. -/
structure Sited (a : Artifact) : Prop where
  apart : a.jumps.toList.Pairwise fun j k => j.source + 5 ≤ k.source
  inside {j : JumpReplacement} (h : j ∈ a.jumps) : j.source + 5 ≤ a.code.size ∧ j.dest ≤ a.code.size
  stub {j : JumpReplacement} (h : j ∈ a.jumps) : (a.exits.map ExitSite.stub)[j.exit]? = some j.dest

lemma Holds.length_le (h : a.Holds o i) : o + i.encode.length ≤ a.code.size := by
  obtain ⟨pre, post, rfl, hcode⟩ := h
  rw [← ByteArray.size_data, ← Array.length_toList, hcode]
  simp only [List.length_append]
  omega

lemma Holds.decodeAt (h : a.Holds o i) : Inst.decodeAt a.code o = .ok (i, i.encode.length) := by
  obtain ⟨pre, post, rfl, hcode⟩ := h
  exact Inst.decodeAt_of_bytes hcode

lemma exists_stretch {α : Type} (xs : List α) {n m : Nat} (h : n + m ≤ xs.length) :
    ∃ pre old post, xs = pre ++ (old ++ post) ∧ pre.length = n ∧ old.length = m :=
  ⟨xs.take n, (xs.drop n).take m, (xs.drop n).drop m, by simp, by simp; omega, by simp; omega⟩

lemma holds_patch {bs : List UInt8} (hb : bs = i.encode) (h : o + bs.length ≤ a.code.size) :
    (a.patch o bs).Holds o i := by
  rw [← ByteArray.size_data, ← Array.length_toList] at h
  obtain ⟨pre, old, post, hcode, rfl, hlen⟩ := exists_stretch _ h
  exact ⟨pre, post, rfl, hb ▸ Bytes.data_overwrite hcode hlen.symm⟩

/-- A patch elsewhere leaves the instruction as it is. -/
lemma Holds.patch_other {bs : List UInt8} {o' : Nat} (h : a.Holds o i)
    (ho : o + i.encode.length ≤ o' ∨ o' + bs.length ≤ o) (hle : o' + bs.length ≤ a.code.size) :
    (a.patch o' bs).Holds o i := by
  have hsize : a.code.size = a.code.data.toList.length := by
    rw [Array.length_toList, ByteArray.size_data]
  obtain ⟨pre, post, rfl, hcode⟩ := h
  rw [hsize, hcode] at hle
  simp only [List.length_append] at hle
  rcases ho with ho | ho
  · obtain ⟨mid, old, post', rfl, hmid, hold⟩ := exists_stretch post
      (n := o' - (pre.length + i.encode.length)) (m := bs.length) (by omega)
    have hcode' : a.code.data.toList = (pre ++ (i.encode ++ mid)) ++ (old ++ post') := by
      rw [hcode]
      simp
    have hw := Bytes.data_overwrite hcode' hold.symm
    have hlen : (pre ++ (i.encode ++ mid)).length = o' := by
      simp only [List.length_append]
      omega
    rw [hlen] at hw
    exact ⟨pre, mid ++ (bs ++ post'), rfl, hw.trans (by simp)⟩
  · obtain ⟨pre', old, mid, hpre, rfl, hold⟩ := exists_stretch pre ho
    have hcode' : a.code.data.toList = pre' ++ (old ++ (mid ++ (i.encode ++ post))) := by
      rw [hcode, hpre]
      simp
    have hw := Bytes.data_overwrite hcode' hold.symm
    refine ⟨pre' ++ (bs ++ mid), post, ?_, hw.trans (by simp)⟩
    rw [hpre]
    simp [hold]

structure Patched (a a' : Artifact) : Prop where
  size : a'.code.size = a.code.size
  jumps : a'.jumps = a.jumps
  exits : a'.exits = a.exits

lemma Patched.sited (h : Patched a a') (hs : a.Sited) : a'.Sited where
  apart := by
    rw [h.jumps]
    exact hs.apart
  inside hj := by
    rw [h.size]
    exact hs.inside (h.jumps ▸ hj)
  stub hj := by
    rw [h.exits]
    exact hs.stub (h.jumps ▸ hj)

lemma patched_patch (a : Artifact) (o : Nat) (bs : List UInt8) : Patched a (a.patch o bs) :=
  ⟨Bytes.size_overwrite _ _ _, rfl, rfl⟩

lemma fire_eq (a : Artifact) (j : JumpReplacement) : a.fire j = a.patch j.source (leap j).encode :=
  rfl

lemma length_leap (j : JumpReplacement) : (leap j).encode.length = 5 := rfl

/-- Firing sites that are apart makes each of them a jump, and changes nothing else. -/
lemma foldl_fire {js : List JumpReplacement}
    (hapart : js.Pairwise fun j k => j.source + 5 ≤ k.source)
    (hin : ∀ j ∈ js, j.source + 5 ≤ a.code.size) :
    Patched a (js.foldl fire a) ∧ (∀ j ∈ js, (js.foldl fire a).Fired j) ∧
      ∀ o i, a.Holds o i → (∀ j ∈ js, o + i.encode.length ≤ j.source ∨ j.source + 5 ≤ o) →
        (js.foldl fire a).Holds o i := by
  induction js generalizing a with
  | nil => exact ⟨⟨rfl, rfl, rfl⟩, by simp, fun _ _ h _ => h⟩
  | cons j js ih =>
    have hp := patched_patch a j.source (leap j).encode
    rw [← fire_eq] at hp
    obtain ⟨hj, hapart⟩ := List.pairwise_cons.mp hapart
    obtain ⟨hjin, hin⟩ := List.forall_mem_cons.mp hin
    have hin' : ∀ k ∈ js, k.source + 5 ≤ (a.fire j).code.size := by
      rw [hp.size]
      exact hin
    obtain ⟨hpatched, hfired, hother⟩ := ih hapart hin'
    rw [List.foldl_cons]
    refine ⟨⟨hpatched.size.trans hp.size, hpatched.jumps.trans hp.jumps,
      hpatched.exits.trans hp.exits⟩, List.forall_mem_cons.mpr ⟨?_, hfired⟩, fun o i h ho => ?_⟩
    · refine hother j.source (leap j) ?_ fun k hk => .inl (hj k hk)
      rw [fire_eq]
      exact holds_patch rfl hjin
    · obtain ⟨hoj, ho⟩ := List.forall_mem_cons.mp ho
      refine hother o i ?_ ho
      rw [fire_eq]
      exact h.patch_other hoj hjin

/-- After the watchpoints have fired, every site is a jump to its stub. -/
lemma fired_fireWatchpoints (h : a.Sited) :
    Patched a a.fireWatchpoints ∧ ∀ j ∈ a.jumps, a.fireWatchpoints.Fired j := by
  unfold fireWatchpoints
  rw [← Array.foldl_toList]
  obtain ⟨hp, hf, -⟩ := foldl_fire (a := a) h.apart fun j hj => (h.inside (Array.mem_toList_iff.mp hj)).1
  exact ⟨hp, fun j hj => hf j (Array.mem_toList_iff.mpr hj)⟩

/-- In code that is not too long the jump lands on the stub. -/
lemma leap_lands (h : a.Sited) (hj : j ∈ a.jumps) (hsize : a.code.size < 2147483648) :
    ∃ d : Int32, leap j = .jmp d ∧ (j.source + Encoding.jmpLength : Int) + d.toInt = j.dest := by
  obtain ⟨hs, hd⟩ := h.inside hj
  refine ⟨_, rfl, ?_⟩
  rw [Int32.toInt_ofInt_of_le] <;> simp only [Encoding.jmpLength] <;> omega

end Artifact

namespace Plan

open Lowering

variable {p : Plan} {base : UInt64} {a : Artifact}

/-- What comes of every element. -/
lemma forall₂_of_mapM {α β ε : Type} {f : α → Except ε β} {xs : Array α} {ys : Array β}
    (h : xs.mapM f = .ok ys) : List.Forall₂ (fun x y => f x = .ok y) xs.toList ys.toList := by
  have hlist : ∀ {xs : List α} {ys : List β}, xs.mapM f = .ok ys →
      List.Forall₂ (fun x y => f x = .ok y) xs ys := by
    intro xs
    induction xs with
    | nil =>
      rintro _ ⟨⟩
      exact .nil
    | cons x xs ih =>
      intro ys h
      rw [List.mapM_cons] at h
      rcases hx : f x with e | y
      · rw [hx] at h
        cases h
      · rcases hxs : xs.mapM f with e | ys'
        · rw [hx, hxs] at h
          cases h
        · rw [hx, hxs] at h
          cases h
          exact .cons hx (ih hxs)
  rw [Array.mapM_eq_mapM_toList] at h
  rcases hxs : xs.toList.mapM f with e | ys'
  · rw [hxs] at h
    cases h
  · rw [hxs] at h
    cases h
    exact hlist hxs

/-- A compile that succeeds has lowered the graph, linked the code and put the artifact together. -/
lemma build_ok (h : (p.build base).1 = .ok a) : ∃ frame layout s code,
    p.lower = .ok (frame, layout, s) ∧ Link.fillFields s.asm base = .ok code ∧
      p.artifact base frame layout s code = .ok a ∧
      (Link.linkTables p.graph (blockAddress s.asm p.graph.blocks.size base)
        s.switches.toList).run.run p.block = (.ok (), (p.build base).2) := by
  revert h
  unfold build
  split
  · rintro ⟨⟩
  · rename_i frame layout s hs
    dsimp only
    split
    · rintro ⟨⟩
    · split
      · rintro ⟨⟩
      · rename_i code hcode
        split
        · rintro ⟨⟩
        · rename_i hx
          exact fun h => ⟨frame, layout, s, code, hs, hcode, h, hx⟩

lemma artifact_ok {frame : FrameLayout} {layout : Layout} {s : State} {code : ByteArray}
    (h : p.artifact base frame layout s code = .ok a) :
    a.code = code ∧ exitSites s.asm s.exits = .ok a.exits ∧
      jumps a.exits s.watchpoints = .ok a.jumps ∧ a.base = base ∧
      a.instsLength = layout.instsLength := by
  unfold artifact at h
  simp only [bind, Except.bind] at h
  repeat' split at h
  all_goals cases h
  exact ⟨rfl, ‹_›, ‹_›, rfl, rfl⟩

lemma getElem?_of_forall₂ {α β : Type} {R : α → β → Prop} {xs : List α} {ys : List β}
    (h : List.Forall₂ R xs ys) {k : Nat} {y : β} (hy : ys[k]? = some y) :
    ∃ x, xs[k]? = some x ∧ R x y := by
  induction h generalizing k with
  | nil => cases hy
  | cons hxy _ ih =>
    cases k with
    | zero =>
      cases hy
      exact ⟨_, rfl, hxy⟩
    | succ k => exact ih hy

lemma exists_of_forall₂ {α β : Type} {R : α → β → Prop} {xs : List α} {ys : List β}
    (h : List.Forall₂ R xs ys) {y : β} (hy : y ∈ ys) : ∃ x ∈ xs, R x y :=
  let ⟨_, hk⟩ := List.mem_iff_getElem?.mp hy
  let ⟨x, hx, hR⟩ := getElem?_of_forall₂ h hk
  ⟨x, List.mem_of_getElem? hx, hR⟩

/-- A site of the artifact is one of the lowering, with the stub of its exit. -/
lemma jump_ok {exits : Array ExitSite} {w : WatchpointSite} {j : JumpReplacement}
    (h : (do return { source := w.offset
                      dest := (← Breach.lift (Breach.get exits w.exit)).stub
                      exit := w.exit } : Except Failure JumpReplacement) = .ok j) :
    j.source = w.offset ∧ (exits.map ExitSite.stub)[j.exit]? = some j.dest := by
  rcases hx : exits[w.exit]? with _ | x <;>
    simp [Breach.get, hx, Breach.lift, Except.mapError, bind, Except.bind, pure, Except.pure] at h
  subst h
  simp [hx]

/-- The sites of the artifact are those of the lowering, in the same order. -/
lemma sources_of_jumps {exits : Array ExitSite} {ws : Array WatchpointSite}
    {js : Array JumpReplacement} (h : jumps exits ws = .ok js) :
    js.toList.map JumpReplacement.source = ws.toList.map WatchpointSite.offset := by
  have h := forall₂_of_mapM h
  generalize ws.toList = ws at h ⊢
  generalize js.toList = js at h ⊢
  induction h with
  | nil => rfl
  | cons hj _ ih => rw [List.map_cons, List.map_cons, ih, (jump_ok hj).1]

lemma stub_le {env : Env} {s : State} {exits : Array ExitSite} (hext : Extends env p.start s)
    (h : exitSites s.asm s.exits = .ok exits) {o : Nat}
    (ho : o ∈ exits.map ExitSite.stub) : o ≤ s.asm.offset := by
  obtain ⟨x, hx, rfl⟩ := Array.mem_map.mp ho
  obtain ⟨y, -, hy⟩ := exists_of_forall₂ (forall₂_of_mapM h) (Array.mem_toList_iff.mpr hx)
  rcases hl : s.asm.labels[y.stub]? with _ | _ | o <;>
    simp [Assembler.labelOffset, Breach.get, hl, Breach.lift, Except.mapError, bind, Except.bind, pure,
      Except.pure] at hy
  subst hy
  refine (hext.within hl).resolve_left fun hstart => ?_
  simp [start, Array.getElem?_replicate] at hstart

/-- Compiled code waits at every site, and there is none where objects may pass for undefined. -/
theorem compile_sites (h : (p.compile base).outcome = .ok a) :
    a.Sited ∧ (∀ j ∈ a.jumps, a.Waits j) ∧ (p.noMasquerades = false → a.jumps = #[]) := by
  obtain ⟨frame, layout, s, code, hs, hcode, ha, -⟩ := build_ok h
  obtain ⟨hext, hcomplete⟩ := complete_of_lower hs
  obtain ⟨rfl, hexits, hjumps, -⟩ := artifact_ok ha
  obtain ⟨qs, hadds, hfits, ws, hws, hsub, hnone⟩ := hext.pieces
  have hsources := sources_of_jumps hjumps
  obtain rfl : s.watchpoints.toList = ws := hws
  have hlinked := Link.fillFields_ok base hadds.code hadds.relocs hfits hcode
  have hsize : a.code.size = s.asm.offset := by
    rw [← ByteArray.size_data, ← Array.length_toList, hlinked, Piece.length_linked _ _ hfits,
      hadds.offset]
    exact (Nat.zero_add _).symm
  have hstubs : ∀ j ∈ a.jumps, (a.exits.map ExitSite.stub)[j.exit]? = some j.dest := by
    intro j hj
    obtain ⟨w, -, hw⟩ := exists_of_forall₂ (forall₂_of_mapM hjumps) (Array.mem_toList_iff.mpr hj)
    exact (jump_ok hw).2
  have hwaits : ∀ j ∈ a.jumps, a.Waits j := by
    intro j hj
    have hmem : j.source ∈ Piece.watchedFrom 0 qs := by
      refine hsub.subset (hsources ▸ List.mem_map_of_mem (Array.mem_toList_iff.mpr hj))
    obtain ⟨pre, x, post, rfl, ho⟩ := Piece.watchedFrom_mem hmem
    exact ⟨x, Link.bytes_linked base hlinked hfits (by simpa using ho)⟩
  refine ⟨⟨?_, fun {j} hj => ⟨?_, ?_⟩, fun hj => hstubs _ hj⟩, hwaits, fun hn => ?_⟩
  · have hp := (Piece.watchedFrom_apart qs 0).sublist hsub
    rw [← hsources, List.pairwise_map] at hp
    exact hp
  · obtain ⟨x, hx⟩ := hwaits j hj
    exact hx.length_le
  · rw [hsize]
    exact stub_le hext hexits (Array.mem_of_getElem? (hstubs j hj))
  · have hnil := hnone hn
    rw [hnil] at hsources
    exact Array.toList_eq_nil_iff.mp (List.map_eq_nil_iff.mp hsources)

end Plan

end Speculation
