import Speculation.Proofs.Compile.Success

/-!
Linked code is well formed.

Code of a successful compile is instructions, one after the other, and then the constant pool. What
the instructions refer to is there: jumps, and the tables of switches, lead to instructions, loads
of constants to entries of the pool that hold them, calls to helpers and thunks, and the stub of an
exit says which exit it is.
-/

namespace Speculation

/-- From one offset to another the code is these instructions, each with the offset it starts at. -/
inductive Decodes (code : ByteArray) : Nat → List (Nat × Inst) → Nat → Prop where
  | stop (o : Nat) : Decodes code o [] o
  | step {o n stop : Nat} {i : Inst} {is : List (Nat × Inst)}
    (h : Inst.decodeAt code o = .ok (i, n)) (hrest : Decodes code (o + n) is stop) :
    Decodes code o ((o, i) :: is) stop

def Inst.reach (i : Inst) (o : Nat) (rel : Int32) : Int := (o + i.encode.length : Nat) + rel.toInt

def Starts (is : List (Nat × Inst)) (o : Int) : Prop := ∃ x ∈ is, (x.1 : Int) = o

namespace Piece

variable (labels : Array (Option Nat)) (base : UInt64)

def resolved : Nat → List Piece → List (Nat × Inst)
  | _, [] => []
  | o, .inst i t :: ps =>
    (o, resolve labels base (o + i.encode.length) i t) :: resolved (o + i.encode.length) ps
  | o, .data bs :: ps => resolved (o + bs.length) ps

lemma mem_resolved {ps : List Piece} {o k : Nat} {j : Inst} :
    (k, j) ∈ resolved labels base o ps ↔
      ∃ i t, Within o ps k [.inst i t] ∧ j = resolve labels base (k + i.encode.length) i t := by
  induction ps generalizing o with
  | nil => simpa [resolved] using fun i t h => h.not_nil.elim
  | cons p ps ih =>
    simp only [Within.cons_iff]
    cases p with
    | inst i t =>
      simp only [resolved, List.mem_cons, Prod.mk.injEq, ih, bytes, Piece.inst.injEq]
      constructor
      · rintro (⟨rfl, rfl⟩ | ⟨i', t', hw, rfl⟩)
        · exact ⟨i, t, .inl ⟨rfl, rfl, rfl⟩, rfl⟩
        · exact ⟨i', t', .inr hw, rfl⟩
      · rintro ⟨i', t', ⟨rfl, rfl, rfl⟩ | hw, rfl⟩
        · exact .inl ⟨rfl, rfl⟩
        · exact .inr ⟨i', t', hw, rfl⟩
    | data bs => simp [resolved, ih, bytes]

/-- Instructions that have been linked are found again. -/
lemma decodes_linked {ps : List Piece} {code : ByteArray} {pre post : List UInt8} {o : Nat}
    (hi : ∀ p ∈ ps, ∃ i t, p = .inst i t) (hf : ∀ p ∈ ps, p.Fits) (ho : pre.length = o)
    (h : code.data.toList = pre ++ (linked labels base o ps ++ post)) :
    Decodes code o (resolved labels base o ps) (o + (ps.flatMap bytes).length) := by
  induction ps generalizing pre o with
  | nil => exact .stop _
  | cons p ps ih =>
    obtain ⟨i, t, rfl⟩ := hi p List.mem_cons_self
    rw [linked, List.append_assoc] at h
    have hlen := length_resolve labels base (hf _ List.mem_cons_self) (o + i.encode.length)
    have hdecode := Inst.decodeAt_of_bytes h
    rw [ho, hlen] at hdecode
    have hrest := ih (fun q hq => hi q (List.mem_cons_of_mem _ hq))
      (fun q hq => hf q (List.mem_cons_of_mem _ hq)) (by rw [List.length_append, ho, hlen])
      (h.trans (List.append_assoc ..).symm)
    rw [resolved, List.flatMap_cons, List.length_append, bytes, ← Nat.add_assoc]
    exact .step hdecode hrest

end Piece

namespace Link

variable {a : Assembler} {base : UInt64} {code code' : ByteArray} {l : Label} {o n : Nat}

/-- A distance that has been filled in is right. -/
lemma fillField_near
    (h : fillField a base code { offset := o, length := n, target := .label l } = .ok code') :
    ∃ k, a.labels[l]? = some (some k) ∧
      (Int32.ofInt ((k : Int) - (o + n : Nat))).toInt = (k : Int) - (o + n : Nat) := by
  unfold fillField at h
  split at h
  · cases h
  · dsimp only at h
    unfold fillDistance at h
    split at h
    · cases h
    · rcases hl : a.labels[l]? with _ | _ | k <;>
        simp only [Assembler.labelOffset, Breach.get, hl, Breach.lift, Except.mapError, bind,
          Except.bind, pure, Except.pure] at h
      · cases h
      · cases h
      · split at h
        · cases h
        · rename_i hrange
          exact ⟨k, rfl, Int32.toInt_ofInt_of_le (by omega) (by omega)⟩

lemma fillFields_near (h : fillFields a base = .ok code)
    (hr : { offset := o, length := n, target := .label l } ∈ a.relocs) :
    ∃ k, a.labels[l]? = some (some k) ∧
      (Int32.ofInt ((k : Int) - (o + n : Nat))).toInt = (k : Int) - (o + n : Nat) := by
  have hfold : ∀ (rs : List Reloc) (c : ByteArray), rs.foldlM (fillField a base) c = .ok code →
      ∀ r ∈ rs, ∃ c c', fillField a base c r = .ok c' := by
    intro rs
    induction rs with
    | nil => simp
    | cons r rs ih =>
      intro c h
      rw [List.foldlM_cons] at h
      rcases hc : fillField a base c r with e | c'
      · rw [hc] at h
        cases h
      · rw [hc] at h
        exact List.forall_mem_cons.mpr ⟨⟨c, c', hc⟩, ih c' h⟩
  unfold fillFields at h
  rw [← Array.foldlM_toList] at h
  obtain ⟨c, c', hc⟩ := hfold _ _ h _ (Array.mem_toList_iff.mpr hr)
  exact fillField_near hc

/-! ### Jump tables -/

section Tables

variable (L : UInt64 → Prop)

structure LeadsDense (t : DenseTable) : Prop where
  size : t.targets.size = t.length
  target {x : UInt64} (h : x ∈ t.targets) : L x
  default : L t.default

structure LeadsStrings (t : StringTable) : Prop where
  target {e : String × UInt64} (h : e ∈ t.entries) : L e.2
  default : L t.default

def LeadsSwitch (b : CodeBlock) (data : SwitchData) : Prop :=
  match data.kind with
  | .imm => ∃ t, b.dense[data.table]? = some t ∧ LeadsDense L t
  | .string => ∃ t, b.strings[data.table]? = some t ∧ LeadsStrings L t

def Keeps (b b' : CodeBlock) : Prop := ∀ data, LeadsSwitch L b data → LeadsSwitch L b' data

variable {L} {b b' : CodeBlock} {g : Graph} {addr : BlockId → Except Failure UInt64}

lemma keeps_modifyDense {table : Nat} {f : DenseTable → DenseTable}
    (hf : ∀ t, b.dense[table]? = some t → LeadsDense L t → LeadsDense L (f t)) :
    Keeps L b { b with dense := b.dense.modify table f } := by
  intro data h
  unfold LeadsSwitch at h ⊢
  split at h
  · obtain ⟨t, ht, hL⟩ := h
    rw [Array.getElem?_modify, ht]
    split
    · rename_i htable
      exact ⟨f t, rfl, hf t (htable ▸ ht) hL⟩
    · exact ⟨t, rfl, hL⟩
  · exact h

section Switches

variable (ha : ∀ blk x, addr blk = .ok x → L x)
include ha

lemma leads_address {blk : BlockId} :
    Writes b (address addr blk) (fun x b' => b' = b ∧ L x) fun _ _ => True := by
  unfold address
  split
  · rename_i x hx
    exact ⟨rfl, ha _ _ hx⟩
  · trivial

lemma keeps_linkDenseCases {table : Nat} {t : DenseTable} {cases : List (SwitchCase × BlockId)} :
    Writes b (linkDenseCases addr table t cases) (fun _ b' => Keeps L b b') fun _ _ => True := by
  induction cases generalizing b with
  | nil => exact fun _ => id
  | cons c cases ih =>
    obtain ⟨i | s, target⟩ := c
    · unfold linkDenseCases
      split
      · trivial
      · rename_i k _
        refine writes_bind.mpr ((leads_address ha).mono ?_ fun _ _ _ => trivial)
        rintro x b ⟨rfl, hx⟩
        have hset : Keeps L b { b with dense := b.dense.modify table fun t =>
            { t with targets := t.targets.setIfInBounds k x } } := by
          refine keeps_modifyDense fun t _ ht =>
            ⟨by simpa using ht.size, fun {y} hy => ?_, ht.default⟩
          rcases Array.mem_or_eq_of_mem_setIfInBounds hy with hy | rfl
          · exact ht.target hy
          · exact hx
        exact writes_bind.mpr (writes_modify.mpr
          (ih.mono (fun _ _ h data hd => h data (hset data hd)) fun _ _ _ => trivial))
    · trivial

lemma leads_stringTargets {table : Nat} {t : StringTable} {found : List (String × UInt64)}
    {cases : List (SwitchCase × BlockId)} (hfound : ∀ e ∈ found, L e.2) :
    Writes b (stringTargets addr table t found cases) (fun targets b' => b' = b ∧
      ∀ e ∈ targets, L e.2) fun _ _ => True := by
  induction cases generalizing found with
  | nil => exact ⟨rfl, hfound⟩
  | cons c cases ih =>
    obtain ⟨i | s, target⟩ := c
    · trivial
    · unfold stringTargets
      split
      · refine writes_bind.mpr ((leads_address ha).mono ?_ fun _ _ _ => trivial)
        rintro x _ ⟨rfl, hx⟩
        exact ih (List.forall_mem_cons.mpr ⟨hx, hfound⟩)
      · trivial

/-- The table of a switch is linked by the switch, and all others stay linked. -/
lemma leads_linkSwitch {data : SwitchData} : Writes b (linkSwitch addr data)
    (fun _ b' => LeadsSwitch L b' data ∧ Keeps L b b') fun _ _ => True := by
  unfold linkSwitch
  refine writes_bind.mpr ((leads_address ha).mono ?_ fun _ _ _ => trivial)
  rintro x b ⟨rfl, hx⟩
  split
  · rename_i hk
    refine writes_bind.mpr (writes_get.mpr ?_)
    split
    · trivial
    · rename_i t ht
      have hnew : ∀ t : DenseTable, LeadsDense L
          { t with targets := Array.replicate t.length x, default := x } := fun t =>
        ⟨by simp, fun hy => (Array.mem_replicate.mp hy).2 ▸ hx, hx⟩
      have hset : Keeps L b { b with dense := b.dense.modify data.table fun t =>
          { t with targets := Array.replicate t.length x, default := x } } :=
        keeps_modifyDense fun t _ _ => hnew t
      refine writes_bind.mpr (writes_modify.mpr ((keeps_linkDenseCases ha).mono
        (fun _ _ h => ⟨h data ?_, fun d hd => h d (hset d hd)⟩) fun _ _ _ => trivial))
      unfold LeadsSwitch
      rw [hk]
      exact ⟨_, by rw [Array.getElem?_modify, if_pos rfl, ht]; rfl, hnew t⟩
  · rename_i hk
    refine writes_bind.mpr (writes_get.mpr ?_)
    split
    · trivial
    · rename_i t ht
      refine writes_bind.mpr ((leads_stringTargets ha (by simp)).mono ?_ fun _ _ _ => trivial)
      rintro targets _ ⟨rfl, htargets⟩
      have hnew : LeadsStrings L { entries := t.entries.map fun e =>
          (e.1, (targets.lookup e.1).getD x), default := x } := by
        refine ⟨fun {e} he => ?_, hx⟩
        obtain ⟨e', -, rfl⟩ := List.mem_map.mp he
        rcases hl : targets.lookup e'.1 with _ | y
        · exact hx
        · obtain ⟨before, after, rfl, -⟩ := List.lookup_eq_some_iff.mp hl
          exact htargets (e'.1, y) (by simp)
      have hlt := (Array.getElem?_eq_some_iff.mp ht).1
      refine ⟨?_, fun d hd => ?_⟩
      · unfold LeadsSwitch
        rw [hk]
        exact ⟨_, Array.getElem?_setIfInBounds_self_of_lt hlt, hnew⟩
      · unfold LeadsSwitch at hd ⊢
        split at hd
        · exact hd
        · by_cases hd' : data.table = d.table
          · exact ⟨_, hd' ▸ Array.getElem?_setIfInBounds_self_of_lt hlt, hnew⟩
          · rw [Array.getElem?_setIfInBounds_ne hd']
            exact hd

lemma leads_linkSwitches {ns : List NodeId} : Writes b (linkSwitches g addr ns)
    (fun _ b' => (∀ n ∈ ns, ∀ data, g.op? n = some (.switch data) → LeadsSwitch L b' data) ∧
      Keeps L b b') fun _ _ => True := by
  induction ns generalizing b with
  | nil => exact ⟨by simp, fun _ => id⟩
  | cons n ns ih =>
    unfold linkSwitches
    split
    · rename_i data hn
      refine writes_bind.mpr ((leads_linkSwitch ha).mono ?_ fun _ _ _ => trivial)
      rintro _ b₁ ⟨hdata, h₁⟩
      refine ih.mono ?_ fun _ _ _ => trivial
      rintro _ b₂ ⟨hns, h₂⟩
      refine ⟨List.forall_mem_cons.mpr ⟨fun data' hn' => ?_, hns⟩, fun d hd => h₂ d (h₁ d hd)⟩
      rw [hn] at hn'
      cases hn'
      exact h₂ data hdata
    · trivial

/-- After linking, the table of every switch leads where blocks do. -/
lemma leads_linkTables {ns : List NodeId} : Writes b (linkTables g addr ns)
    (fun _ b' => ∀ n ∈ ns, ∀ data, g.op? n = some (.switch data) → LeadsSwitch L b' data)
    fun _ _ => True := by
  refine writes_bind.mpr ((leads_linkSwitches ha).mono ?_ fun _ _ _ => trivial)
  rintro _ b₁ ⟨h₁, -⟩ n hn data hd
  have h := h₁ n hn data hd
  unfold LeadsSwitch at h ⊢
  split at h
  · rename_i hk
    obtain ⟨t, ht, hL⟩ := h
    have hused : usesDense g ns data.table = true :=
      List.any_eq_true.mpr ⟨n, hn, by simp [hd, hk]⟩
    exact ⟨t, by simp [ht, hused], hL⟩
  · exact h

end Switches

end Tables

end Link

/-! ### The whole code -/

section Stretches

variable {a : Assembler} {base : UInt64} {code : ByteArray} {o : Nat} {ps : List Piece}

lemma Assembler.Stands.decodeAt {i : Inst} {t : Option RelocTarget} (h : a.Stands o [.inst i t])
    (hcode : Link.fillFields a base = .ok code) :
    Inst.decodeAt code o =
      .ok (Piece.resolve a.labels base (o + i.encode.length) i t, i.encode.length) := by
  obtain ⟨all, hm, pre, post, rfl, rfl⟩ := h
  exact Link.decodeAt_linked base (Link.fillFields_ok base hm.code hm.relocs hm.fits hcode) hm.fits
    (by simp)

lemma Assembler.Stands.window {bs : List UInt8} (h : a.Stands o [.data bs])
    (hcode : Link.fillFields a base = .ok code) : Bytes.window code o bs.length = bs := by
  obtain ⟨all, hm, pre, post, rfl, rfl⟩ := h
  have hlinked := Link.fillFields_ok base hm.code hm.relocs hm.fits hcode
  have hlen : (Piece.linked a.labels base 0 pre).length = _ :=
    Piece.length_linked a.labels base (fun p hp => hm.fits p (List.mem_append_left _ hp)) 0
  rw [Piece.linked_append, List.singleton_append, Piece.linked] at hlinked
  rw [Bytes.window_eq, hlinked, Nat.zero_add, ← hlen, List.drop_left, List.take_left]

lemma Assembler.Stands.near {i : Inst} {l : Label} (h : a.Stands o [.inst i (some (.label l))])
    (hcode : Link.fillFields a base = .ok code) : ∃ k rel, a.labels[l]? = some (some k) ∧
      Piece.resolve a.labels base (o + i.encode.length) i (some (.label l)) = i.setRel rel ∧
      i.reach o rel = k := by
  obtain ⟨all, hm, hw⟩ := h
  have hr : { offset := o, length := i.encode.length, target := .label l } ∈ a.relocs := by
    rw [← Array.mem_toList_iff, hm.relocs]
    exact Piece.mem_relocsFrom.mpr ⟨i, hw, rfl⟩
  obtain ⟨k, hk, hnear⟩ := Link.fillFields_near hcode hr
  refine ⟨k, _, hk, rfl, ?_⟩
  rw [Inst.reach, offsetOf, hk]
  simp only [Option.join_some, Option.getD_some]
  rw [hnear]
  omega

end Stretches

namespace Plan

open Lowering

/-- What the instruction at an offset refers to is there. `is` are the instructions of the code, and
`s` is what was recorded while it was assembled. -/
def Refers (s : State) (is : List (Nat × Inst)) (o : Nat) : Inst → Prop
  | .jmp rel => Starts is ((Inst.jmp rel).reach o rel)
  | .jcc c rel => Starts is ((Inst.jcc c rel).reach o rel)
  | .loadDConst _ _ => ∃ bits, (o, bits) ∈ s.loads
  | .call target => ∃ n x,
    { offset := o, length := n, target := .external x } ∈ s.asm.relocs ∧ target = x.address
  | .jmpAbs target => ∃ n x,
    { offset := o, length := n, target := .external x } ∈ s.asm.relocs ∧ target = x.address
  | _ => True

/-- All that the code refers to is there. -/
structure WellFormed (s : State) (a : Artifact) (is : List (Nat × Inst)) : Prop where
  decodes : Decodes a.code 0 is a.instsLength
  refers {o : Nat} {i : Inst} (h : (o, i) ∈ is) : Refers s is o i
  /-- Where a constant was asked for, the word of the pool that has it is loaded. -/
  load {o : Nat} {bits : UInt64} (h : (o, bits) ∈ s.loads) : ∃ (d : Fpr) (rel : Int32) (n k : Nat),
    Inst.decodeAt a.code o = .ok (.loadDConst d rel, n) ∧
      (Inst.loadDConst d rel).reach o rel = k ∧ a.instsLength ≤ k ∧
      Bytes.window a.code k 8 = Encoding.uint64 bits
  /-- Where something outside the code was to be called, it is. -/
  external {r : Reloc} {x : ExternalTarget} (h : r ∈ s.asm.relocs) (hx : r.target = .external x) :
    (r.offset, .call x.address) ∈ is ∨ (r.offset, .jmpAbs x.address) ∈ is
  stub {k : Nat} {x : ExitSite} (h : a.exits[k]? = some x) :
    Inst.decodeAt a.code x.stub = .ok (.setExit (UInt32.ofNat k), 5) ∧
      Inst.decodeAt a.code (x.stub + 5) = .ok (.jmpAbs Thunk.osrExit.address, 9)

section Code

variable {p : Plan} {base : UInt64} {code : ByteArray} {env : Env} {layout : Layout}
  {s₀ s₁ s : State} {ps : List Piece} {o k : Nat} {l : Label}

lemma label_of_isCode (h : Assembled env layout s₀ s₁ s) (hl : s₁.IsCode l)
    (hk : s.asm.labels[l]? = some (some k)) : s₁.asm.labels[l]? = some (some k) := by
  refine (h.pools.only hk).resolve_right fun hmem => hl.notPool ?_
  obtain ⟨e, he, rfl⟩ := List.mem_map.mp hmem
  exact Array.mem_toList_iff.mp (List.of_mem_zip he).2

lemma starts_of_isCode (h : Assembled env layout s₀ s₁ s) (hm : s₁.asm.Made ps)
    (hinst : ∀ p ∈ ps, ∃ i t, p = .inst i t)
    (hlabels : ∀ (l : Label) (o : Nat), s₁.asm.labels[l]? = some (some o) →
      Piece.Within 0 ps o [])
    (hl : s₁.IsCode l) (hk : s.asm.labels[l]? = some (some k)) :
    Starts (Piece.resolved s.asm.labels base 0 ps) k := by
  have hk₁ := label_of_isCode h hl hk
  obtain ⟨p, hp⟩ := (hlabels l k hk₁).exists_piece (hm.offset ▸ h.inside l k hk₁)
  obtain ⟨i, t, rfl⟩ := hinst p hp.mem
  exact ⟨(k, _), (Piece.mem_resolved _ _).mpr ⟨i, t, hp, rfl⟩, rfl⟩

/-- An instruction that was assembled to refer to something does so. -/
lemma refers_resolve {is : List (Nat × Inst)} {i : Inst} {t : Option RelocTarget}
    (hcode : Link.fillFields s.asm base = .ok code) (hst : s.asm.Stands o [.inst i t])
    (haims : s₁.Aims o i t) (hloads : s.loads = s₁.loads)
    (hstarts : ∀ l k, s₁.IsCode l → s.asm.labels[l]? = some (some k) → Starts is k) :
    Refers s is o (Piece.resolve s.asm.labels base (o + i.encode.length) i t) := by
  have hreloc : ∀ x, t = some (.external x) →
      { offset := o, length := i.encode.length, target := .external x } ∈ s.asm.relocs := by
    rintro x rfl
    obtain ⟨all, hm, hw⟩ := hst
    rw [← Array.mem_toList_iff, hm.relocs]
    exact Piece.mem_relocsFrom.mpr ⟨i, hw, rfl⟩
  unfold State.Aims at haims
  split at haims
  case h_1 =>
    obtain ⟨k, rel, hk, hres, hreach⟩ := hst.near hcode
    have hk := hstarts _ k haims hk
    rw [← hreach] at hk
    rw [hres]
    exact hk
  case h_2 =>
    obtain ⟨k, rel, hk, hres, hreach⟩ := hst.near hcode
    have hk := hstarts _ k haims hk
    rw [← hreach] at hk
    rw [hres]
    exact hk
  case h_3 =>
    obtain ⟨bits, hb⟩ := haims
    exact ⟨bits, hloads ▸ hb⟩
  case h_4 => exact ⟨_, _, hreloc _ rfl, rfl⟩
  case h_5 => exact ⟨_, _, hreloc _ rfl, rfl⟩
  case h_6 => cases i <;> trivial
  case h_7 => exact haims.elim

/-- What goes to a helper or thunk is a call or a jump. -/
lemma resolve_external {labels : Array (Option Nat)} {i : Inst} {x : ExternalTarget}
    (h : s₁.Aims o i (some (.external x))) :
    Piece.resolve labels base k i (some (.external x)) = .call x.address ∨
      Piece.resolve labels base k i (some (.external x)) = .jmpAbs x.address := by
  cases i with
  | call target => exact .inl rfl
  | jmpAbs target => exact .inr rfl
  | _ => exact h.elim

/-- A constant that was asked for is in the pool. -/
lemma load_of_pooled (hcode : Link.fillFields s.asm base = .ok code) (hp : Pooled s₁)
    (hpools : Pools env (s₁.pool.toList.zip s₁.poolLabels.toList) s₁ s) {bits : UInt64}
    (h : (o, bits) ∈ s₁.loads) : ∃ (d : Fpr) (rel : Int32) (n k : Nat),
      Inst.decodeAt code o = .ok (.loadDConst d rel, n) ∧
        (Inst.loadDConst d rel).reach o rel = k ∧ s₁.asm.offset ≤ k ∧
        Bytes.window code k 8 = Encoding.uint64 bits := by
  obtain ⟨d, l, k, hst, hl, hb⟩ := hp.load h
  have hst := hpools.toExtends.stands hst
  have hmem : (bits, l) ∈ s₁.pool.toList.zip s₁.poolLabels.toList := by
    refine List.mem_iff_getElem?.mpr ⟨k, ?_⟩
    rw [List.getElem?_zip_eq_some]
    exact ⟨by rwa [Array.getElem?_toList], by rwa [Array.getElem?_toList]⟩
  obtain ⟨o', ho', hle, hdata⟩ := hpools.entry hmem
  obtain ⟨k', rel, hk', hres, hreach⟩ := hst.near hcode
  have hdecode := hst.decodeAt hcode
  rw [hres] at hdecode
  obtain rfl : k' = o' := by
    rw [hk'] at ho'
    exact Option.some.inj (Option.some.inj ho')
  exact ⟨d, rel, _, k', hdecode, hreach, hle, hdata.window hcode⟩

/-- The stub of an exit says which one it is. -/
lemma decodeAt_stub (hcode : Link.fillFields s.asm base = .ok code) (h : s.Stub l k)
    (hl : s.asm.labels[l]? = some (some o)) :
    Inst.decodeAt code o = .ok (.setExit (UInt32.ofNat k), 5) ∧
      Inst.decodeAt code (o + 5) = .ok (.jmpAbs Thunk.osrExit.address, 9) := by
  obtain ⟨o', ho', all, hm, hw⟩ := h
  obtain rfl : o = o' := by
    rw [hl] at ho'
    exact Option.some.inj (Option.some.inj ho')
  have hset : s.asm.Stands o [.inst (.setExit (UInt32.ofNat k)) none] := ⟨all, hm, hw.head⟩
  have hjmp : s.asm.Stands (o + 5) [.inst (.jmpAbs 0) (some (.external (.thunk .osrExit)))] :=
    ⟨all, hm, hw.tail⟩
  exact ⟨hset.decodeAt hcode, hjmp.decodeAt hcode⟩

end Code

variable {p : Plan} {base : UInt64} {a : Artifact}

lemma blockAddress_ok {asm : Assembler} {n : Nat} {b : BlockId} {x : UInt64}
    (h : blockAddress asm n base b = .ok x) :
    b < n ∧ ∃ k, asm.labels[b]? = some (some k) ∧ x = base + UInt64.ofNat k := by
  unfold blockAddress at h
  split at h
  · rename_i hb
    rcases hl : asm.labels[b]? with _ | _ | k <;>
      simp only [Assembler.labelOffset, Breach.get, hl, Breach.lift, Except.mapError, bind,
        Except.bind, pure, Except.pure] at h
    · cases h
    · cases h
    · exact ⟨hb, k, rfl, (Except.ok.inj h).symm⟩
  · cases h

lemma exitSites_getElem? {asm : Assembler} {exits : Array Exit} {sites : Array ExitSite}
    (h : exitSites asm exits = .ok sites) {k : Nat} {x : ExitSite} (hx : sites[k]? = some x) :
    exits[k]? = some x.exit ∧ asm.labels[x.exit.stub]? = some (some x.stub) := by
  rw [← Array.getElem?_toList] at hx
  obtain ⟨e, he, hex⟩ := getElem?_of_forall₂ (forall₂_of_mapM h) hx
  rw [Array.getElem?_toList] at he
  rcases hl : asm.labels[e.stub]? with _ | _ | o <;>
    simp only [Assembler.labelOffset, Breach.get, hl, Breach.lift, Except.mapError, bind,
      Except.bind, pure, Except.pure] at hex
  · cases hex
  · cases hex
  · cases hex
    exact ⟨he, hl⟩

/-- Linked code is well formed: it is instructions from the first byte to the last, what they refer
to is there, stubs say which exit they are of, and the tables of all switches lead to
instructions. -/
theorem compile_wellFormed (h : (p.compile base).outcome = .ok a) :
    ∃ frame layout s is, p.lower = .ok (frame, layout, s) ∧ WellFormed s a is ∧
      ∀ n ∈ s.switches, ∀ data, p.graph.op? n = some (.switch data) →
        Link.LeadsSwitch (fun x => ∃ y ∈ is, x = a.addressOf y.1) (p.compile base).block data := by
  obtain ⟨frame, layout, s, code, hs, hcode, ha, htables⟩ := build_ok h
  obtain ⟨rfl, hexits, -, rfl, hlength⟩ := artifact_ok ha
  obtain ⟨s₁, hasm⟩ := assembled_of_lower hs
  have hs₁ := hasm.insts.aimed (aimed_start p frame)
  obtain ⟨ps, hm, hinst, haims, hlabels, -⟩ := hs₁.coded
  obtain ⟨qs, hall⟩ := hasm.pools.toExtends.made hm
  have hrest : s.loads = s₁.loads ∧ s.exits = s₁.exits := by
    rw [hasm.pools.rest]
    exact ⟨rfl, rfl⟩
  rw [hasm.length] at hlength
  have hstarts : ∀ l k, s₁.IsCode l → s.asm.labels[l]? = some (some k) →
      Starts (Piece.resolved s.asm.labels a.base 0 ps) k :=
    fun l k => starts_of_isCode hasm hm hinst hlabels
  refine ⟨frame, layout, s, Piece.resolved s.asm.labels a.base 0 ps, hs, ⟨?_, fun {o j} ho => ?_,
    fun ho => ?_, fun {r x} hr hx => ?_, fun hx => ?_⟩, ?_⟩
  · have hlinked := Link.fillFields_ok a.base hall.code hall.relocs hall.fits hcode
    rw [Piece.linked_append] at hlinked
    rw [hlength, hm.offset]
    exact Piece.decodes_linked s.asm.labels a.base hinst hm.fits List.length_nil hlinked
  · obtain ⟨i, t, hw, rfl⟩ := (Piece.mem_resolved _ _).mp ho
    exact refers_resolve hcode ⟨_, hall, hw.left qs⟩ (haims o i t hw) hrest.1 hstarts
  · rw [hlength]
    exact load_of_pooled hcode hs₁.pooled hasm.pools (hrest.1 ▸ ho)
  · rw [hasm.pools.relocs, ← Array.mem_toList_iff, hm.relocs] at hr
    obtain ⟨i, hw, -⟩ := Piece.mem_relocsFrom.mp hr
    rw [hx] at hw
    exact (resolve_external (haims _ i _ hw)).imp
      (fun h => (Piece.mem_resolved _ _).mpr ⟨i, _, hw, h.symm⟩)
      fun h => (Piece.mem_resolved _ _).mpr ⟨i, _, hw, h.symm⟩
  · obtain ⟨he, hl⟩ := exitSites_getElem? hexits hx
    rw [hrest.2] at he
    exact decodeAt_stub hcode (hasm.pools.toExtends.stub (hasm.complete.stub he)) hl
  · intro n hn data hd
    have haddr : ∀ b x, blockAddress s.asm p.graph.blocks.size a.base b = .ok x →
        ∃ y ∈ Piece.resolved s.asm.labels a.base 0 ps, x = a.addressOf y.1 := by
      intro b x hx
      obtain ⟨hb, k, hk, rfl⟩ := blockAddress_ok hx
      obtain ⟨y, hy, hyk⟩ := hstarts b k (hs₁.rooted.block (b := b) (by simp [env, hb])) hk
      exact ⟨y, hy, by rw [Artifact.addressOf, Int.ofNat_inj.mp hyk]⟩
    have hlink : Link.Writes p.block _ (fun _ b' => ∀ n ∈ s.switches.toList, ∀ data,
        p.graph.op? n = some (.switch data) → Link.LeadsSwitch _ b' data) fun _ _ => True :=
      Link.leads_linkTables haddr
    unfold Link.Writes at hlink
    rw [htables] at hlink
    exact hlink n (Array.mem_toList_iff.mpr hn) data hd

def switchingToRoot : Plan :=
  let d : Draft := { name := "root", kind := .function }
  let d := d.addBlock.addBlock.select 0
  let d := (d.addNode (.constant (.ofInt32 5)) [] .int32).2
  let data := { kind := .imm, table := 0, cases := [(.imm 1, 1)], fallthrough := 1 }
  let d := ((d.addNode (.switch data) [0] .empty).2).select 1
  let d := (d.addNode (.doubleConstant ⟨0x3ff8000000000000⟩) [] .double).2
  let d := (d.addNode .arithSqrt [2] .double).2
  { ofDraft (d.addNode .ret [3] .empty).2 with block := linkedBlock }

theorem compile_wellFormed_root : ∃ a s is, (switchingToRoot.compile 4096).outcome = .ok a ∧
    WellFormed s a is ∧ s.loads = #[(103, 0x3ff8000000000000)] ∧
      ∃ t, (switchingToRoot.compile 4096).block.dense[0]? = some t ∧
        Link.LeadsDense (fun x => ∃ y ∈ is, x = a.addressOf y.1) t := by
  have hok : (switchingToRoot.sketch 4096).isSome = true := by decide +kernel
  have hrecords : switchingToRoot.lower.toOption.map (fun x => (x.2.2.loads, x.2.2.switches)) =
      some (#[(103, 0x3ff8000000000000)], #[1]) := by decide +kernel
  have hswitch : switchingToRoot.graph.op? 1 = some (.switch
      { kind := .imm, table := 0, cases := [(.imm 1, 1)], fallthrough := 1 }) := by decide +kernel
  obtain ⟨⟨b, block⟩, hsketch⟩ := Option.isSome_iff_exists.mp hok
  obtain ⟨code, h, -⟩ := exists_compiled hsketch
  obtain ⟨frame, layout, s, is, hs, hwell, htables⟩ := compile_wellFormed h
  rw [hs] at hrecords
  obtain ⟨hloads, hswitches⟩ := Prod.mk.inj (Option.some.inj hrecords)
  have hmem : 1 ∈ s.switches := by
    rw [show s.switches = #[1] from hswitches]
    simp
  exact ⟨_, s, is, h, hwell, hloads, htables 1 hmem _ hswitch⟩

end Plan

end Speculation
