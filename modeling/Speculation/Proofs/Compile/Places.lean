import Speculation.Proofs.Compile.Patches
import Speculation.Proofs.Compile.Success

/-!
The sites of compiled code.

What is listed of compiled code as to be patched is there: an inline cache has its structure and its
access, a call site its call, and a watchpoint site its watchpoint, and no instruction is of two
sites. So whatever patches are made, and in whatever order, compiled code stays a sequence of
instructions at the same places.
-/

namespace Speculation

namespace Piece

variable {labels : Array (Option Nat)} {base : UInt64} {ps qs : List Piece} {o : Nat}

/-- Instructions are put together in one way only. -/
lemma eq_of_bytes (hps : ∀ p ∈ ps, ∃ i t, p = .inst i t) (hqs : ∀ q ∈ qs, ∃ i t, q = .inst i t)
    (hb : ps.flatMap bytes = qs.flatMap bytes) (hr : relocsFrom o ps = relocsFrom o qs) :
    ps = qs := by
  induction ps generalizing o qs with
  | nil =>
    cases qs with
    | nil => rfl
    | cons q qs =>
      obtain ⟨⟨j, u, rfl⟩, -⟩ := List.forall_mem_cons.mp hqs
      have hlen := congrArg List.length hb
      have hpos := j.length_encode_pos
      simp only [List.flatMap_nil, List.flatMap_cons, bytes, List.length_append,
        List.length_nil] at hlen
      omega
  | cons p ps ih =>
    obtain ⟨⟨i, t, rfl⟩, hps'⟩ := List.forall_mem_cons.mp hps
    have hpos := i.length_encode_pos
    cases qs with
    | nil =>
      have hlen := congrArg List.length hb
      simp only [List.flatMap_nil, List.flatMap_cons, bytes, List.length_append,
        List.length_nil] at hlen
      omega
    | cons q qs =>
      obtain ⟨⟨j, u, rfl⟩, hqs'⟩ := List.forall_mem_cons.mp hqs
      simp only [List.flatMap_cons, bytes] at hb
      have hdecode := congrArg Inst.decode hb
      rw [Inst.decode_encode, Inst.decode_encode] at hdecode
      obtain ⟨rfl, hb'⟩ := Prod.mk.inj (Except.ok.inj hdecode)
      -- a field that comes later is not at this offset
      have hlater : ∀ {rs : List Piece} {x : RelocTarget},
          { offset := o, length := i.encode.length, target := x } ∉
            relocsFrom (o + i.encode.length) rs := by
        intro rs x hx
        obtain ⟨_, ⟨pre, post, -, ho⟩, -⟩ := mem_relocsFrom.mp hx
        dsimp only at ho
        omega
      rcases t with _ | x <;> rcases u with _ | y <;>
        simp only [relocsFrom, relocs, bytes, List.nil_append, List.singleton_append] at hr
      · rw [ih hps' hqs' hb' hr]
      · exact absurd (hr ▸ List.mem_cons_self) hlater
      · exact absurd (hr ▸ List.mem_cons_self) hlater
      · obtain ⟨hxy, hr'⟩ := List.cons.inj hr
        cases hxy
        rw [ih hps' hqs' hb' hr']

lemma placed_resolved (labels : Array (Option Nat)) (base : UInt64)
    (hi : ∀ p ∈ ps, ∃ i t, p = .inst i t) (hf : ∀ p ∈ ps, p.Fits) :
    Placed o (resolved labels base o ps) (o + (ps.flatMap bytes).length) ∧
      spelling (resolved labels base o ps) = linked labels base o ps := by
  induction ps generalizing o with
  | nil => exact ⟨.stop _, rfl⟩
  | cons p ps ih =>
    obtain ⟨⟨i, t, rfl⟩, hi'⟩ := List.forall_mem_cons.mp hi
    obtain ⟨hfit, hf'⟩ := List.forall_mem_cons.mp hf
    obtain ⟨hplaced, hspelling⟩ := ih (o := o + i.encode.length) hi' hf'
    constructor
    · rw [resolved, List.flatMap_cons, List.length_append, bytes, ← Nat.add_assoc]
      refine .step ?_
      rwa [length_resolve labels base hfit]
    · rw [resolved, linked, ← hspelling, spelling, List.flatMap_cons, spelling]

end Piece

namespace Assembler

variable {a : Assembler} {ps qs : List Piece} {o : Nat}

lemma Made.unique (h : a.Made ps) (h' : a.Made qs) (hps : ∀ p ∈ ps, ∃ i t, p = .inst i t)
    (hqs : ∀ q ∈ qs, ∃ i t, q = .inst i t) : ps = qs :=
  Piece.eq_of_bytes hps hqs (h.code.symm.trans h'.code) (h.relocs.symm.trans h'.relocs)

/-- Instructions that are known to be somewhere are among those of the code. -/
lemma Codes.within (h : a.Codes o qs) (hm : a.Made ps) (hps : ∀ p ∈ ps, ∃ i t, p = .inst i t) :
    Piece.Within 0 ps o qs := by
  obtain ⟨all, hall, hinst, hw⟩ := h
  rwa [hm.unique hall hps hinst]

end Assembler

namespace Plan

open Lowering

variable {p : Plan} {base : UInt64} {a : Artifact}

lemma artifact_sites {frame : FrameLayout} {layout : Layout} {s : State} {code : ByteArray}
    (h : p.artifact base frame layout s code = .ok a) :
    caches p.graph s.caches = .ok a.caches ∧ a.calls = s.calls := by
  unfold artifact at h
  simp only [bind, Except.bind] at h
  repeat' split at h
  all_goals cases h
  exact ⟨‹_›, rfl⟩

lemma cache_ok {g : Graph} {site : CacheSite} {c : Cache}
    (h : (do return { kind := site.kind
                      name := ← Breach.lift (Breach.get g.identifiers site.ident)
                      origin := site.origin
                      structureImm := site.structureImm
                      access := site.access } : Except Failure Cache) = .ok c) :
    c.kind = site.kind ∧ c.structureImm = site.structureImm ∧ c.access = site.access := by
  rcases hx : g.identifiers[site.ident]? with _ | x <;>
    simp [Breach.get, hx, Breach.lift, Except.mapError, bind, Except.bind, pure, Except.pure] at h
  subst h
  exact ⟨rfl, rfl, rfl⟩

section Sites

variable {s : State} {ps : List Piece} (labels : Array (Option Nat)) (base : UInt64) (hl : Listed s)
  (hm : s.asm.Made ps) (hps : ∀ p ∈ ps, ∃ i t, p = .inst i t)
include hl hm hps

/-- A cache has its structure and, behind the check, its access. -/
lemma places_cache {site : CacheSite} (h : site ∈ s.caches) :
    site.structureImm < site.access ∧
      (site.structureImm, .movImm site.expected 0) ∈ Piece.resolved labels base 0 ps ∧
      (site.access, site.kind.access site.base site.value) ∈ Piece.resolved labels base 0 ps := by
  obtain ⟨o, path, hc⟩ := hl.cache h
  have hw := hc.codes.within hm hps
  rw [hc.structureImm, hc.access]
  exact ⟨by omega, (Piece.mem_resolved _ _).mpr ⟨_, none, hw.tail.head, rfl⟩,
    (Piece.mem_resolved _ _).mpr ⟨_, none, hw.tail.tail.tail.tail, rfl⟩⟩

lemma places_call {c : CallSite} (h : c ∈ s.calls) :
    (c.offset, .call Thunk.virtualCall.address) ∈ Piece.resolved labels base 0 ps :=
  (Piece.mem_resolved _ _).mpr ⟨_, _, (hl.call h).within hm hps, rfl⟩

lemma places_watchpoint {w : WatchpointSite} (h : w ∈ s.watchpoints) :
    (w.offset, .watchpoint (UInt32.ofNat w.exit)) ∈ Piece.resolved labels base 0 ps :=
  (Piece.mem_resolved _ _).mpr ⟨_, _, (hl.watchpoint h).within hm hps, rfl⟩

end Sites

/-- What comes first of a list whose elements are in order. -/
lemma eq_of_pairwise {α : Type} {R : α → α → Prop} {xs : Array α} (h : xs.toList.Pairwise R)
    {j k : Nat} {x y : α} (hx : xs[j]? = some x) (hy : xs[k]? = some y) (hxy : ¬R x y)
    (hyx : ¬R y x) : j = k := by
  obtain ⟨hj, rfl⟩ := Array.getElem?_eq_some_iff.mp hx
  obtain ⟨hk, rfl⟩ := Array.getElem?_eq_some_iff.mp hy
  rw [List.pairwise_iff_getElem] at h
  rcases Nat.lt_trichotomy j k with hlt | rfl | hlt
  · exact absurd (h j k hj hk hlt) hxy
  · rfl
  · exact absurd (h k j hk hj hlt) hyx

/-- All that compiled code lists as to be patched is there. -/
lemma compile_places (h : (p.compile base).outcome = .ok a) : ∃ is rest,
    Spelled a.code is a.instsLength rest ∧ a.Places is := by
  obtain ⟨frame, layout, s, code, hs, hcode, ha, -⟩ := build_ok h
  obtain ⟨hcaches, hcalls⟩ := artifact_sites ha
  obtain ⟨rfl, -, hjumps, rfl, hlength⟩ := artifact_ok ha
  obtain ⟨s₁, hasm⟩ := assembled_of_lower hs
  have hs₁ := hasm.insts.aimed (aimed_start p frame)
  obtain ⟨ps, hm, hinst, -⟩ := hs₁.coded
  obtain ⟨qs, hall⟩ := hasm.pools.toExtends.made hm
  obtain ⟨hc, hk, hw⟩ : s.caches = s₁.caches ∧ s.calls = s₁.calls ∧
      s.watchpoints = s₁.watchpoints := by
    rw [hasm.pools.rest]
    exact ⟨rfl, rfl, rfl⟩
  have hlinked := Link.fillFields_ok a.base hall.code hall.relocs hall.fits hcode
  obtain ⟨hplaced, hspelling⟩ :=
    Piece.placed_resolved s.asm.labels a.base (o := 0) hinst hm.fits
  have hcache : ∀ {k : Nat} {c : Cache}, a.caches[k]? = some c → ∃ site, s₁.caches[k]? = some site ∧
      c.kind = site.kind ∧ c.structureImm = site.structureImm ∧ c.access = site.access := by
    intro k c hk
    rw [← Array.getElem?_toList] at hk
    obtain ⟨site, hmem, hsite⟩ := getElem?_of_forall₂ (forall₂_of_mapM hcaches) hk
    exact ⟨site, by rw [← hc, ← Array.getElem?_toList, hmem], cache_ok hsite⟩
  have hplaces := fun {site : CacheSite} (hsite : site ∈ s₁.caches) =>
    places_cache s.asm.labels a.base hs₁.listed hm hinst hsite
  refine ⟨Piece.resolved s.asm.labels a.base 0 ps,
    Piece.linked s.asm.labels a.base (0 + (ps.flatMap Piece.bytes).length) qs,
    ⟨?_, ?_⟩, fun {c} hmem => ?_, fun {j k c d} hj hk' hcd => ?_, fun hmem => ?_,
    fun {j k c d} hj hk' hcd => ?_, fun {j} hj => ?_, ?_⟩
  · rw [hlength, hasm.length, hm.offset]
    exact hplaced
  · rw [hlinked, Piece.linked_append, hspelling]
  · obtain ⟨k, hget⟩ := Array.getElem?_of_mem hmem
    obtain ⟨site, hsite, hkind, himm, haccess⟩ := hcache hget
    obtain ⟨-, h₁, h₂⟩ := hplaces (Array.mem_of_getElem? hsite)
    rw [hkind, himm, haccess]
    exact ⟨_, _, _, h₁, h₂⟩
  · obtain ⟨x, hx, -, hxi, hxa⟩ := hcache hj
    obtain ⟨y, hy, -, hyi, hya⟩ := hcache hk'
    have hxlt := (hplaces (Array.mem_of_getElem? hx)).1
    have hylt := (hplaces (Array.mem_of_getElem? hy)).1
    have hne : ¬x.access < y.structureImm ∧ ¬y.access < x.structureImm := by omega
    exact eq_of_pairwise hs₁.listed.caches hx hy hne.1 hne.2
  · rw [hcalls, hk] at hmem
    exact places_call _ _ hs₁.listed hm hinst hmem
  · rw [hcalls, hk] at hj hk'
    have hne : ¬c.offset < d.offset ∧ ¬d.offset < c.offset := by omega
    exact eq_of_pairwise hs₁.listed.calls hj hk' hne.1 hne.2
  · obtain ⟨w, hmem, hw'⟩ := exists_of_forall₂ (forall₂_of_mapM hjumps) (Array.mem_toList_iff.mpr hj)
    rw [(jump_ok hw').1]
    exact ⟨_, places_watchpoint _ _ hs₁.listed hm hinst (hw ▸ Array.mem_toList_iff.mp hmem)⟩
  · exact (compile_sites h).1.apart.imp fun {j k} hjk => by omega

end Plan

/-! ### Patched code -/

namespace Artifact

variable {a : Artifact} {is : List (Nat × Inst)} {rest : List UInt8} {p : Patch}

/-- Compiled code whose instructions were linked as `is` stays in one piece, whatever patches are
made. -/
structure Intact (a : Artifact) (is : List (Nat × Inst)) : Prop where
  decodes : Decodes a.code 0 is a.instsLength
  places : a.Places is
  /-- Instructions stay where they are, and are what their sites were last patched to. -/
  patched (ps : List Patch) : Decodes (a.afterAll ps).code 0 (is.map (a.now ps)) a.instsLength
  /-- Nothing but instructions changes. -/
  only (ps : List Patch) : ∃ code, a.afterAll ps = { a with code } ∧ code.size = a.code.size ∧
    code.data.toList.drop a.instsLength = a.code.data.toList.drop a.instsLength
  /-- What was patched before has no say in whether a patch is refused. -/
  fills (ps : List Patch) (kind : Lowering.CacheKind) (site : Nat) (structure' : UInt64)
    (slot : Nat) : ((a.afterAll ps).patchCache kind site structure' slot).isOk =
      (a.fills? (.cache kind site structure' slot)).isSome
  links (ps : List Patch) (site : Nat) (target : UInt64) :
    ((a.afterAll ps).linkCall site target).isOk = a.calls[site]?.isSome
  /-- A patch that is refused changes nothing. -/
  refused (ps : List Patch) {p : Patch} (h : ((a.afterAll ps).apply p).isOk = false) :
    a.afterAll (ps ++ [p]) = a.afterAll ps
  /-- Different sites may be patched in either order. -/
  swap (ps : List Patch) {p q : Patch} (h : p.site ≠ q.site) :
    a.afterAll (ps ++ [p] ++ [q]) = a.afterAll (ps ++ [q] ++ [p])
  /-- The jump at a site goes to the stub of its exit. The distance is a number of 32 bits, so it is
  right for all code that is not bigger than such a distance. -/
  lands {j : JumpReplacement} (h : j ∈ a.jumps) :
    (a.exits.map ExitSite.stub)[j.exit]? = some j.dest ∧ ∃ d : Int32, leap j = .jmp d ∧
      (4294967296 : Int) ∣ (leap j).reach j.source d - j.dest ∧
      (a.code.size < 2147483648 → (leap j).reach j.source d = j.dest)

lemma isOk_patchCache (kind : Lowering.CacheKind) (site : Nat) (structure' : UInt64) (slot : Nat) :
    (a.patchCache kind site structure' slot).isOk =
      (a.fills? (.cache kind site structure' slot)).isSome := by
  rcases hf : a.fills? (.cache kind site structure' slot) with _ | ⟨c, s, n⟩
  · obtain ⟨e, he⟩ := apply_cache_of_none hf
    rw [show a.patchCache kind site structure' slot = _ from he]
    rfl
  · rw [show a.patchCache kind site structure' slot = _ from apply_fills hf]
    rfl

lemma isOk_linkCall (site : Nat) (target : UInt64) :
    (a.linkCall site target).isOk = a.calls[site]?.isSome := by
  unfold linkCall
  split <;> simp [*, Except.isOk, Except.toBool]

lemma afterAll_refused {ps : List Patch} (h : ((a.afterAll ps).apply p).isOk = false) :
    a.afterAll (ps ++ [p]) = a.afterAll ps := by
  rw [afterAll_concat]
  rcases he : (a.afterAll ps).apply p with e | a'
  · exact after_error he
  · rw [he] at h
    cases h

lemma lands_leap (h : a.Sited) {j : JumpReplacement} (hj : j ∈ a.jumps) :
    ∃ d : Int32, leap j = .jmp d ∧ (4294967296 : Int) ∣ (leap j).reach j.source d - j.dest ∧
      (a.code.size < 2147483648 → (leap j).reach j.source d = j.dest) := by
  refine ⟨_, rfl, ?_, fun hsize => ?_⟩
  · have hdvd := Int.dvd_bmod_sub_self (x := j.dest - (j.source + Encoding.jmpLength : Nat))
      (m := 4294967296)
    rw [Inst.reach, length_leap, Int32.toInt_ofInt]
    refine hdvd.trans (dvd_of_eq ?_)
    simp only [Encoding.jmpLength, Int32.size]
    omega
  · obtain ⟨d, hd, hland⟩ := leap_lands h hj hsize
    obtain rfl := Inst.jmp.inj hd
    rw [Inst.reach, length_leap]
    exact hland

lemma Places.intact (hp : a.Places is) (hs : Spelled a.code is a.instsLength rest) (h : a.Sited) :
    a.Intact is where
  decodes := hs.decodes
  places := hp
  patched ps := by
    obtain ⟨code, hcode, hs'⟩ := spelled_afterAll hp hs ps
    rw [hcode]
    exact hs'.decodes
  only ps := by
    obtain ⟨code, hcode, hs'⟩ := spelled_afterAll hp hs ps
    refine ⟨code, hcode, hs'.size_eq hs, ?_⟩
    rw [hs'.drop_eq, hs.drop_eq]
  fills ps kind site structure' slot := by
    obtain ⟨code, hcode, -⟩ := spelled_afterAll hp hs ps
    rw [hcode]
    exact isOk_patchCache (a := { a with code }) kind site structure' slot
  links ps site target := by
    obtain ⟨code, hcode, -⟩ := spelled_afterAll hp hs ps
    rw [hcode]
    exact isOk_linkCall (a := { a with code }) site target
  refused _ _ := afterAll_refused
  swap _ _ _ := afterAll_swap hp hs
  lands hj := ⟨h.stub hj, lands_leap h hj⟩

end Artifact

/-- Compiled code stays in one piece, whatever patches are made. -/
theorem Plan.compile_intact {p : Plan} {base : UInt64} {a : Artifact}
    (h : (p.compile base).outcome = .ok a) : ∃ is, a.Intact is :=
  let ⟨is, _, hs, hp⟩ := compile_places h
  ⟨is, hp.intact hs (compile_sites h).1⟩

/-- Call the property of an object, and say whether what is returned is an object of its own. -/
def Draft.patchable : Draft :=
  let d : Draft := { name := "patchable", kind := .function }
  let d := ((d.identifier "f").2.addArgument .object .value).2.addBlock.select 0
  let d := (d.addNode (.getLocal 0) [] .object).2.setProven 0 .object
  let d := (d.addNode (.getById 0) [0] .top).2
  let d := (d.addNode .call [1, 0] .object).2
  let d := (d.addNode (.compare .eq) [0, 2] .boolean).2
  (d.addNode .ret [3] .empty).2

theorem Plan.compile_intact_patchable : ∃ a is,
    ((ofDraft .patchable).compile 4096).outcome = .ok a ∧ a.Intact is ∧ a.caches.size = 1 ∧
      a.calls.size = 1 ∧ a.jumps.size = 1 := by
  have hsizes : ((ofDraft .patchable).sketch 4096).map
      (fun x => (x.1.caches.size, x.1.calls.size, x.1.jumps.size)) = some (1, 1, 1) := by
    decide +kernel
  obtain ⟨⟨a, b⟩, hs, hsizes⟩ := Option.map_eq_some_iff.mp hsizes
  obtain ⟨code, h, -⟩ := exists_compiled hs
  obtain ⟨is, ha⟩ := compile_intact h
  obtain ⟨hcaches, hcalls, hjumps⟩ := by simpa using hsizes
  exact ⟨_, is, h, ha, hcaches, hcalls, hjumps⟩

end Speculation
