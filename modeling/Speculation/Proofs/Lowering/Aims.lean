import Speculation.Lowering.Block
import Speculation.Proofs.Link
import Speculation.Proofs.Lowering.Logic
import Speculation.Proofs.SlowPath.Guards

/-!
Where code that is being assembled leads.

A label is for a place in the code or for an entry of the constant pool. All through a lowering,
jumps go to labels of the first kind and loads of constants to labels of the second kind, calls go
to helpers and thunks, and attached labels are between two instructions. Labels may be referred to
long before they are attached, and some never are; so the invariant is about labels and not about
offsets.
-/

namespace Speculation

@[reducible, simp]
def Inst.isPlain : Inst → Bool
  | .jmp _ | .jcc .. | .loadDConst .. | .jmpAbs _ | .call _ => false
  | _ => true

@[reducible, simp]
def Inst.isCall : Inst → Bool
  | .call _ => true
  | _ => false

lemma Inst.isCall_of_isPlain {i : Inst} (h : i.isPlain = true) : i.isCall = false := by
  cases i <;> first | rfl | cases h

@[reducible, simp]
def Helper.serves : Helper → Bool
  | .arityFixup | .stackOverflow | .lookupExceptionHandler | .lookupExceptionHandlerFromCaller => false
  | _ => true

namespace Assembler

variable {a a' : Assembler} {ps qs : List Piece} {o : Nat}

structure Made (a : Assembler) (ps : List Piece) : Prop where
  code : a.code.data.toList = ps.flatMap Piece.bytes
  relocs : a.relocs.toList = Piece.relocsFrom 0 ps
  fits : ∀ p ∈ ps, p.Fits

lemma Made.offset (h : a.Made ps) : a.offset = 0 + (ps.flatMap Piece.bytes).length := by
  rw [← length_data, h.code, Nat.zero_add]

lemma Made.adds (h : a.Made ps) (ha : a.Adds a' qs) (hf : ∀ p ∈ qs, p.Fits) :
    a'.Made (ps ++ qs) where
  code := by rw [ha.code, h.code, List.flatMap_append]
  relocs := by rw [ha.relocs, h.relocs, Piece.relocsFrom_append, h.offset]
  fits p hp := (List.mem_append.mp hp).elim (h.fits p) (hf p)

def Stands (a : Assembler) (o : Nat) (ps : List Piece) : Prop :=
  ∃ all, a.Made all ∧ Piece.Within 0 all o ps

lemma Stands.adds (h : a.Stands o ps) (ha : a.Adds a' qs) (hf : ∀ p ∈ qs, p.Fits) :
    a'.Stands o ps :=
  let ⟨_, hm, hw⟩ := h
  ⟨_, hm.adds ha hf, hw.left qs⟩

/-- What stands somewhere is within the code. -/
lemma Stands.le (h : a.Stands o ps) : o + (ps.flatMap Piece.bytes).length ≤ a.offset := by
  obtain ⟨all, hm, pre, post, rfl, rfl⟩ := h
  rw [hm.offset]
  simp only [List.flatMap_append, List.length_append]
  omega

/-- There are only instructions so far, and the code has these pieces at an offset. -/
def Codes (a : Assembler) (o : Nat) (ps : List Piece) : Prop :=
  ∃ all, a.Made all ∧ (∀ p ∈ all, ∃ i t, p = .inst i t) ∧ Piece.Within 0 all o ps

lemma Codes.stands (h : a.Codes o ps) : a.Stands o ps :=
  let ⟨all, hm, _, hw⟩ := h
  ⟨all, hm, hw⟩

lemma Codes.adds (h : a.Codes o ps) (ha : a.Adds a' qs) (hf : ∀ p ∈ qs, p.Fits)
    (hi : ∀ p ∈ qs, ∃ i t, p = .inst i t) : a'.Codes o ps :=
  let ⟨_, hm, hall, hw⟩ := h
  ⟨_, hm.adds ha hf, List.forall_mem_append.mpr ⟨hall, hi⟩, hw.left qs⟩

lemma Made.codes (h : a.Made ps) (hps : ∀ p ∈ ps, ∃ i t, p = .inst i t) (ha : a.Adds a' qs)
    (hf : ∀ p ∈ qs, p.Fits) (hi : ∀ p ∈ qs, ∃ i t, p = .inst i t) : a'.Codes a.offset qs := by
  refine ⟨_, h.adds ha hf, List.forall_mem_append.mpr ⟨hps, hi⟩, ?_⟩
  rw [h.offset]
  exact (Piece.Within.refl _ _).right

lemma Made.stands (h : a.Made ps) (ha : a.Adds a' qs) (hf : ∀ p ∈ qs, p.Fits) :
    a'.Stands a.offset qs := by
  refine ⟨_, h.adds ha hf, ?_⟩
  rw [h.offset]
  exact (Piece.Within.refl _ _).right

end Assembler

namespace Lowering

variable {env : Env} {s s' : State} {l : Label} {o : Nat} {i : Inst} {t : Option RelocTarget}
  {qs : List Piece}

structure State.IsCode (s : State) (l : Label) : Prop where
  lt : l < s.asm.labels.size
  notPool : l ∉ s.poolLabels

def State.Aims (s : State) (o : Nat) : Inst → Option RelocTarget → Prop
  | .jmp _, some (.label l) => s.IsCode l
  | .jcc _ _, some (.label l) => s.IsCode l
  | .loadDConst _ _, some (.label _) => ∃ bits, (o, bits) ∈ s.loads
  | .call _, some (.external _) => True
  | .jmpAbs _, some (.external _) => True
  | i, none => i.isPlain = true
  | _, _ => False

lemma aims_none : s.Aims o i none ↔ i.isPlain = true := by cases i <;> rfl

lemma State.Aims.fits (h : s.Aims o i t) : (Piece.inst i t).Fits := by
  unfold State.Aims at h
  split at h
  case h_6 => trivial
  case h_7 => exact h.elim
  all_goals rfl

lemma State.Aims.mono (h : s.Aims o i t) (hc : ∀ l, s.IsCode l → s'.IsCode l)
    (hl : ∀ x ∈ s.loads, x ∈ s'.loads) : s'.Aims o i t := by
  unfold State.Aims at h ⊢
  split at h
  case h_1 => exact hc _ h
  case h_2 => exact hc _ h
  case h_3 =>
    obtain ⟨bits, hb⟩ := h
    exact ⟨bits, hl _ hb⟩
  case h_6 => exact h
  case h_7 => exact h.elim
  all_goals trivial

/-! ### Calls -/

def exceptionLoads (env : Env) : List Inst :=
  [.movImm .scratch env.context,
    .load .w64 false .scratch (.ofBase .scratch (Int32.ofNat Context.exception)),
    .test .s64 .scratch (.reg .scratch)]

def checkPieces (env : Env) : List Piece :=
  Piece.plain (exceptionLoads env) ++ [.inst (.jcc .ne 0) (some (.label env.exceptionLabel))]

def exceptionPieces (env : Env) (h : Helper) : List Piece :=
  if h.mayThrow then checkPieces env else []

def afterCall (env : Env) : ExternalTarget → List Piece
  | .helper .arityFixup =>
    [.inst (.test .s64 .result (.reg .result)) none, .inst (.jcc .e 0) (some (.label env.rollbackLabel))]
  | .helper .stackOverflow => [.inst (.jmp 0) (some (.label env.rollbackLabel))]
  | .helper .lookupExceptionHandler | .helper .lookupExceptionHandlerFromCaller =>
    [.inst (.jmpReg .result) none]
  | .helper h => exceptionPieces env h
  | .thunk _ => checkPieces env

lemma afterCall_of_serves {h : Helper} (hs : h.serves = true) :
    afterCall env (.helper h) = exceptionPieces env h := by
  cases h <;> first | rfl | cases hs

lemma not_call_of_mem_checkPieces {p : Piece} (hp : p ∈ checkPieces env) :
    ∀ k t, p ≠ .inst (.call k) t := by
  rintro k t rfl
  simp [checkPieces, exceptionLoads, Piece.plain] at hp

lemma not_call_of_mem_afterCall {x : ExternalTarget} {p : Piece} (hp : p ∈ afterCall env x) :
    ∀ k t, p ≠ .inst (.call k) t := by
  unfold afterCall exceptionPieces at hp
  split at hp
  case h_5 =>
    split at hp
    · exact not_call_of_mem_checkPieces hp
    · cases hp
  case h_6 => exact not_call_of_mem_checkPieces hp
  all_goals
    rintro k t rfl
    simp at hp

/-- Every call among the pieces from an offset on is followed by what has to come after it. -/
def Followed (env : Env) (o : Nat) (ps : List Piece) : Prop :=
  ∀ k target x, Piece.Within o ps k [.inst (.call target) (some (.external x))] →
    Piece.Within o ps k (.inst (.call target) (some (.external x)) :: afterCall env x)

lemma Followed.append {ps : List Piece} (h : Followed env o ps)
    (h' : Followed env (o + (ps.flatMap Piece.bytes).length) qs) : Followed env o (ps ++ qs) := by
  intro k target x hw
  rcases hw.append with hw | hw
  · exact (h k target x hw).left qs
  · exact (h' k target x hw).right

lemma followed_of_not_call (h : ∀ p ∈ qs, ∀ k t, p ≠ .inst (.call k) t) : Followed env o qs :=
  fun _ target _ hw => absurd rfl (h _ hw.mem target _)

lemma followed_inst (hi : i.isCall = false) : Followed env o [.inst i t] := by
  refine followed_of_not_call (List.forall_mem_singleton.mpr ?_)
  rintro k u ⟨⟩
  cases hi

lemma followed_call (target : UInt64) (x : ExternalTarget) :
    Followed env o (.inst (.call target) (some (.external x)) :: afterCall env x) := by
  intro k target' y hw
  rcases Piece.Within.cons_iff.mp hw with ⟨rfl, h⟩ | hw
  · cases h
    exact .refl _ _
  · exact absurd rfl (not_call_of_mem_afterCall hw.mem target' _)

/-! ### What is kept of a lowering -/

/-- There are only instructions so far, each refers to what it should, labels are attached between
them, and calls are followed by what has to come after them. -/
def Coded (env : Env) (s : State) : Prop :=
  ∃ ps, s.asm.Made ps ∧ (∀ p ∈ ps, ∃ i t, p = .inst i t) ∧
    (∀ o i t, Piece.Within 0 ps o [.inst i t] → s.Aims o i t) ∧
    (∀ (l : Label) (o : Nat), s.asm.labels[l]? = some (some o) → Piece.Within 0 ps o []) ∧
    Followed env 0 ps

def State.Attached (s : State) (l : Label) : Prop := ∃ o, s.asm.labels[l]? = some (some o)

/-- The slow path calls a helper of nodes, and goes back to a place that is there already. -/
structure State.Returns (s : State) (p : SlowPath) : Prop where
  code : s.IsCode p.done
  attached : s.Attached p.done
  serves : p.work.helper.serves = true

/-- The labels that are yet to be referred to are all for places in the code, and slow paths go back
to a place that is there already. -/
structure Rooted (env : Env) (s : State) : Prop where
  block {b : BlockId} {l : Label} (h : env.blockLabels[b]? = some l) : s.IsCode l
  exception : s.IsCode env.exceptionLabel
  rollback : s.IsCode env.rollbackLabel
  stub {x : Exit} (h : x ∈ s.exits) : s.IsCode x.stub
  done {p : SlowPath} (h : p ∈ s.slowPaths) : s.Returns p

/-- A load from the pool names the label of the entry that has the pattern. -/
structure Pooled (s : State) : Prop where
  size : s.pool.size = s.poolLabels.size
  lt {l : Label} (h : l ∈ s.poolLabels) : l < s.asm.labels.size
  load {o : Nat} {bits : UInt64} (h : (o, bits) ∈ s.loads) : ∃ (d : Fpr) (l : Label) (k : Nat),
    s.asm.Stands o [.inst (.loadDConst d 0) (some (.label l))] ∧ s.poolLabels[k]? = some l ∧
      s.pool[k]? = some bits

def CacheKind.access (kind : CacheKind) (base value : Gpr) : Inst :=
  match kind with
  | .getById => .load .w64 false value (propertyOf base)
  | .putById => .store .w64 value (propertyOf base)

def CacheKind.work (kind : CacheKind) (ident : Nat) (base value : Gpr) : SlowWork :=
  match kind with
  | .getById => .call .getById [.gpr base, .imm (UInt64.ofNat ident)] (some value)
  | .putById => .call .putById [.gpr base, .imm (UInt64.ofNat ident), .gpr value] none

def cachePieces (base expected : Gpr) (slow : Label) : List Piece :=
  [.inst (.load .w64 false .scratch (structureOf base)) none, .inst (.movImm expected 0) none,
    .inst (.cmp .s64 .scratch (.reg expected)) none, .inst (.jcc .ne 0) (some (.label slow))]

def CacheSite.pieces (c : CacheSite) (slow : Label) : List Piece :=
  cachePieces c.base c.expected slow ++ [.inst (c.kind.access c.base c.value) none]

lemma length_cachePieces (base expected : Gpr) (slow : Label) :
    ((cachePieces base expected slow).flatMap Piece.bytes).length = 31 := rfl

lemma length_access (kind : CacheKind) (base value : Gpr) :
    (kind.access base value).encode.length = 10 := by cases kind <;> rfl

/-- An inline cache has its code, and a slow path that goes back to the end of it. -/
structure State.Cached (s : State) (c : CacheSite) (o : Nat) (p : SlowPath) : Prop where
  codes : s.asm.Codes o (c.pieces p.entry)
  structureImm : c.structureImm = o + 10
  access : c.access = o + 31
  path : p ∈ s.slowPaths
  work : p.work = c.kind.work c.ident c.base c.value
  done : s.asm.labels[p.done]? = some (some (o + 41))

/-- What is listed as to be patched at run time has its code, one site after the other. -/
structure Listed (s : State) : Prop where
  call {c : CallSite} (h : c ∈ s.calls) :
    s.asm.Codes c.offset [.inst (.call 0) (some (.external (.thunk .virtualCall)))]
  calls : s.calls.toList.Pairwise fun c d => c.offset < d.offset
  cache {c : CacheSite} (h : c ∈ s.caches) : ∃ o p, s.Cached c o p
  caches : s.caches.toList.Pairwise fun c d => c.access < d.structureImm
  watchpoint {w : WatchpointSite} (h : w ∈ s.watchpoints) :
    s.asm.Codes w.offset [.inst (.watchpoint (UInt32.ofNat w.exit)) none]

/-- All that has been assembled leads where it should. -/
structure Aimed (env : Env) (s : State) : Prop where
  coded : Coded env s
  rooted : Rooted env s
  pooled : Pooled s
  listed : Listed s

lemma Coded.adds (h : Coded env s) (ha : s.asm.Adds s'.asm qs)
    (hi : ∀ p ∈ qs, ∃ i t, p = .inst i t)
    (haims : ∀ o i t, Piece.Within s.asm.offset qs o [.inst i t] → s'.Aims o i t)
    (hfollowed : Followed env s.asm.offset qs)
    (hat : ∀ (l : Label) (o : Nat), s'.asm.labels[l]? = some (some o) →
      s.asm.labels[l]? = some (some o) ∨ o = s.asm.offset)
    (hc : ∀ l, s.IsCode l → s'.IsCode l) (hl : ∀ x ∈ s.loads, x ∈ s'.loads) : Coded env s' := by
  obtain ⟨ps, hm, hinst, hps, hlabels, hcalls⟩ := h
  have hfits : ∀ p ∈ qs, p.Fits := by
    intro p hp
    obtain ⟨i, t, rfl⟩ := hi p hp
    obtain ⟨pre, post, rfl⟩ := List.append_of_mem hp
    exact (haims _ i t ⟨pre, post, rfl, rfl⟩).fits
  refine ⟨ps ++ qs, hm.adds ha hfits, fun p hp => (List.mem_append.mp hp).elim (hinst p) (hi p),
    fun o i t hw => ?_, fun l o ho => ?_, hcalls.append (hm.offset ▸ hfollowed)⟩
  · rcases hw.append with hw | hw
    · exact (hps o i t hw).mono hc hl
    · rw [← hm.offset] at hw
      exact haims o i t hw
  · rcases hat l o ho with ho | rfl
    · exact (hlabels l o ho).left qs
    · rw [hm.offset]
      exact (Piece.Within.stop 0 ps).left qs

lemma Listed.mono (h : Listed s) (ha : s.asm.Adds s'.asm qs) (hf : ∀ p ∈ qs, p.Fits)
    (hi : ∀ p ∈ qs, ∃ i t, p = .inst i t)
    (hl : ∀ (l : Label) (o : Nat), s.asm.labels[l]? = some (some o) →
      s'.asm.labels[l]? = some (some o))
    (hp : ∀ p ∈ s.slowPaths, p ∈ s'.slowPaths) (hcalls : s'.calls = s.calls)
    (hcaches : s'.caches = s.caches) (hwatchpoints : s'.watchpoints = s.watchpoints) :
    Listed s' where
  call hc := (h.call (hcalls ▸ hc)).adds ha hf hi
  calls := hcalls ▸ h.calls
  cache hc := by
    obtain ⟨o, p, hc⟩ := h.cache (hcaches ▸ hc)
    exact ⟨o, p, hc.codes.adds ha hf hi, hc.structureImm, hc.access, hp p hc.path, hc.work,
      hl _ _ hc.done⟩
  caches := hcaches ▸ h.caches
  watchpoint hw := (h.watchpoint (hwatchpoints ▸ hw)).adds ha hf hi

lemma Rooted.mono (h : Rooted env s) (hc : ∀ l, s.IsCode l → s'.IsCode l)
    (ha : ∀ l, s.Attached l → s'.Attached l) (hx : ∀ x ∈ s'.exits, s.IsCode x.stub)
    (hp : ∀ p ∈ s'.slowPaths, s.Returns p) : Rooted env s' where
  block hl := hc _ (h.block hl)
  exception := hc _ h.exception
  rollback := hc _ h.rollback
  stub hxs := hc _ (hx _ hxs)
  done hps := let h := hp _ hps; ⟨hc _ h.code, ha _ h.attached, h.serves⟩

def State.tables (s : State) : Array UInt64 × Array Label × Array (Nat × UInt64) × Array Exit ×
    Array SlowPath × Array CacheSite × Array CallSite × Array WatchpointSite :=
  (s.pool, s.poolLabels, s.loads, s.exits, s.slowPaths, s.caches, s.calls, s.watchpoints)

def SameTables (s s' : State) : Prop := s'.tables = s.tables

namespace SameTables

lemma pool (h : SameTables s s') : s'.pool = s.pool := congrArg (·.1) h

lemma poolLabels (h : SameTables s s') : s'.poolLabels = s.poolLabels := congrArg (·.2.1) h

lemma loads (h : SameTables s s') : s'.loads = s.loads := congrArg (·.2.2.1) h

lemma exits (h : SameTables s s') : s'.exits = s.exits := congrArg (·.2.2.2.1) h

lemma slowPaths (h : SameTables s s') : s'.slowPaths = s.slowPaths := congrArg (·.2.2.2.2.1) h

lemma caches (h : SameTables s s') : s'.caches = s.caches := congrArg (·.2.2.2.2.2.1) h

lemma calls (h : SameTables s s') : s'.calls = s.calls := congrArg (·.2.2.2.2.2.2.1) h

lemma watchpoints (h : SameTables s s') : s'.watchpoints = s.watchpoints :=
  congrArg (·.2.2.2.2.2.2.2) h

end SameTables

lemma State.IsCode.of_size (h : s.IsCode l) (hs : s.asm.labels.size ≤ s'.asm.labels.size)
    (hp : s'.poolLabels = s.poolLabels) : s'.IsCode l :=
  ⟨Nat.lt_of_lt_of_le h.lt hs, hp ▸ h.notPool⟩

lemma Pooled.adds (h : Pooled s) (ha : s.asm.Adds s'.asm qs) (hf : ∀ p ∈ qs, p.Fits)
    (hs : s.asm.labels.size ≤ s'.asm.labels.size) (hp : s'.pool = s.pool)
    (hpl : s'.poolLabels = s.poolLabels) (hl : s'.loads = s.loads) :
    Pooled s' where
  size := by rw [hp, hpl, h.size]
  lt hl := Nat.lt_of_lt_of_le (h.lt (hpl ▸ hl)) hs
  load ho := by
    obtain ⟨d, l, k, hst, hk, hb⟩ := h.load (hl ▸ ho)
    exact ⟨d, l, k, hst.adds ha hf, hpl ▸ hk, hp ▸ hb⟩

/-- Instructions that refer to what they should may be added, and labels too. -/
lemma Aimed.adds (h : Aimed env s) (ha : s.asm.Adds s'.asm qs)
    (hi : ∀ p ∈ qs, ∃ i t, p = .inst i t)
    (haims : ∀ o i t, Piece.Within s.asm.offset qs o [.inst i t] → s.Aims o i t)
    (hfollowed : Followed env s.asm.offset qs)
    (hs : s.asm.labels.size ≤ s'.asm.labels.size)
    (hat : ∀ (l : Label) (o : Nat), s'.asm.labels[l]? = some (some o) →
      s.asm.labels[l]? = some (some o) ∨ o = s.asm.offset)
    (hkeep : ∀ (l : Label) (o : Nat), s.asm.labels[l]? = some (some o) →
      s'.asm.labels[l]? = some (some o)) (ht : SameTables s s') : Aimed env s' := by
  have hc : ∀ l, s.IsCode l → s'.IsCode l := fun l hl => hl.of_size hs ht.poolLabels
  have hl : ∀ x ∈ s.loads, x ∈ s'.loads := fun x hx => by rwa [ht.loads]
  have hfits : ∀ p ∈ qs, p.Fits := by
    intro p hp
    obtain ⟨i, t, rfl⟩ := hi p hp
    obtain ⟨pre, post, rfl⟩ := List.append_of_mem hp
    exact (haims _ i t ⟨pre, post, rfl, rfl⟩).fits
  exact ⟨h.coded.adds ha hi (fun o i t hw => (haims o i t hw).mono hc hl) hfollowed hat hc hl,
    h.rooted.mono hc (fun l ⟨o, ho⟩ => ⟨o, hkeep l o ho⟩)
      (fun x hx => h.rooted.stub (ht.exits ▸ hx)) fun p hp => h.rooted.done (ht.slowPaths ▸ hp),
    h.pooled.adds ha hfits hs ht.pool ht.poolLabels ht.loads,
    h.listed.mono ha hfits hi hkeep (fun p hp => ht.slowPaths ▸ hp) ht.calls ht.caches
      ht.watchpoints⟩

lemma Aimed.emit (h : Aimed env s) (ha : s.asm.Adds s'.asm [.inst i t])
    (haims : s.Aims s.asm.offset i t) (hi : i.isCall = false)
    (hl : s'.asm.labels = s.asm.labels) (ht : SameTables s s') : Aimed env s' := by
  refine h.adds ha (by simp) (fun o j u hw => ?_) (followed_inst hi) (by rw [hl])
    (fun _ _ ho => .inl (hl ▸ ho)) (fun _ _ ho => hl ▸ ho) ht
  obtain ⟨rfl, rfl, rfl⟩ := hw.singleton
  exact haims

lemma followed_nil : Followed env o [] := followed_of_not_call (List.forall_mem_nil _)

/-- Nothing was assembled, but labels may have been made or attached. -/
lemma Aimed.labels (h : Aimed env s) (hcode : s'.asm.code = s.asm.code)
    (hrelocs : s'.asm.relocs = s.asm.relocs) (hs : s.asm.labels.size ≤ s'.asm.labels.size)
    (hat : ∀ (l : Label) (o : Nat), s'.asm.labels[l]? = some (some o) →
      s.asm.labels[l]? = some (some o) ∨ o = s.asm.offset)
    (hkeep : ∀ (l : Label) (o : Nat), s.asm.labels[l]? = some (some o) →
      s'.asm.labels[l]? = some (some o)) (ht : SameTables s s') : Aimed env s' :=
  h.adds (.of_eq hcode hrelocs) (by simp) (fun _ _ _ hw => hw.not_nil.elim) followed_nil hs hat
    hkeep ht

/-- Exits and slow paths may be added whose labels are for places in the code, and sites that have
their code. -/
lemma Aimed.rest (h : Aimed env s) (ha : s'.asm = s.asm) (hp : s'.pool = s.pool)
    (hpl : s'.poolLabels = s.poolLabels) (hl : s'.loads = s.loads)
    (hx : ∀ x ∈ s'.exits, s.IsCode x.stub)
    (hpaths : ∀ p ∈ s'.slowPaths, s.Returns p) (hlisted : Listed s') :
    Aimed env s' := by
  have hc : ∀ l, s.IsCode l → s'.IsCode l := fun l hl => hl.of_size (by rw [ha]) hpl
  have hadds : s.asm.Adds s'.asm [] := .of_eq (by rw [ha]) (by rw [ha])
  exact ⟨h.coded.adds hadds (by simp) (fun _ _ _ hw => hw.not_nil.elim) followed_nil
    (fun l o ho => .inl (ha ▸ ho)) hc (fun x hx => by rwa [hl]),
    h.rooted.mono hc (fun l ⟨o, ho⟩ => ⟨o, ha ▸ ho⟩) hx hpaths,
    h.pooled.adds hadds (by simp) (by rw [ha]) hp hpl hl, hlisted⟩

/-! ### Stretches of instructions

Some steps only add instructions, which ones being known beforehand. -/

section Stretches

variable {α β : Type} {s'' : State} {ps : List Piece}

/-- Instructions were added, and nothing else has changed. -/
structure Lain (s s' : State) (qs : List Piece) : Prop where
  adds : s.asm.Adds s'.asm qs
  labels : s'.asm.labels = s.asm.labels
  rest : s' = { s with asm := s'.asm }

lemma Lain.trans (h : Lain s s' ps) (h' : Lain s' s'' qs) : Lain s s'' (ps ++ qs) :=
  ⟨h.adds.trans h'.adds, h'.labels.trans h.labels, by rw [h'.rest, h.rest]⟩

lemma leads_emit (i : Inst) : Leads env s (emit i)
    (fun o s' => o = s.asm.offset ∧ Lain s s' [.inst i none]) (fun _ => False) fun _ _ => False :=
  ⟨rfl, s.asm.adds_emit i, s.asm.labels_emit i, rfl⟩

lemma leads_emitReloc {i : Inst} {t : RelocTarget} (h : Assembler.RelocTarget.fits t i = true) :
    Leads env s (emitReloc i t) (fun o s' => o = s.asm.offset ∧ Lain s s' [.inst i (some t)])
      (fun _ => False) fun _ _ => False := by
  obtain ⟨a, ha, hadds, hl⟩ := s.asm.adds_emitReloc h
  rw [emitReloc, leads_bind, leads_get, ha, leads_bind, leads_assume_ok]
  exact ⟨rfl, hadds, hl, rfl⟩

def Lays (env : Env) (x : Lower α) (a : α) (qs : List Piece) : Prop :=
  ∀ s, Leads env s x (fun b s' => b = a ∧ Lain s s' qs) (fun _ => False) fun _ _ => False

namespace Lays

variable {z : Lower α} {f : α → Lower β} {a : α} {b : β}

lemma bind (hx : Lays env z a ps) (hf : Lays env (f a) b qs) : Lays env (z >>= f) b (ps ++ qs) := by
  refine fun s => leads_bind.mpr ((hx s).weaken ?_)
  rintro _ s₁ ⟨rfl, h₁⟩
  exact (hf s₁).weaken fun _ s₂ ⟨hb, h₂⟩ => ⟨hb, h₁.trans h₂⟩

lemma pure (a : α) : Lays env (pure a) a [] := fun _ => ⟨rfl, .of_eq rfl rfl, rfl, rfl⟩

lemma read {f : Env → Lower β} (h : Lays env (f env) b qs) : Lays env (read >>= f) b qs := h

lemma emit' (i : Inst) : Lays env (emit' i) () [.inst i none] := fun s =>
  ⟨rfl, s.asm.adds_emit i, s.asm.labels_emit i, rfl⟩

lemma emitReloc {i : Inst} {t : RelocTarget} (h : Assembler.RelocTarget.fits t i = true) :
    Lays env (discard (emitReloc i t)) () [.inst i (some t)] := fun _ =>
  leads_discard.mpr ((leads_emitReloc h).weaken fun _ _ ⟨_, hlain⟩ => ⟨rfl, hlain⟩)

lemma comment (text : String) : Lays env (comment text) () [] := fun _ =>
  ⟨rfl, .of_eq rfl rfl, rfl, rfl⟩

lemma mov {dst src : Gpr} (h : dst ≠ src) : Lays env (mov dst src) () [.inst (.mov dst src) none] := by
  rw [Lowering.mov, if_neg h]
  exact emit' _

lemma movImm (dst : Gpr) (i : UInt64) :
    Lays env (discard (movImm dst i)) () [.inst (.movImm dst i) none] := emit' (.movImm dst i)

lemma jcc (c : Cond) (l : Label) : Lays env (jcc c l) () [.inst (.jcc c 0) (some (.label l))] :=
  emitReloc rfl

lemma jmp (l : Label) : Lays env (jmp l) () [.inst (.jmp 0) (some (.label l))] := emitReloc rfl

lemma emitCall (f : Helper) :
    Lays env (emitCall f) () [.inst (.call 0) (some (.external (.helper f)))] := emitReloc rfl

lemma exceptionCheck : Lays env exceptionCheck () (checkPieces env) :=
  .read ((Lays.movImm _ _).bind ((Lays.emit' _).bind ((Lays.emit' _).bind (.read (Lays.jcc _ _)))))

lemma called (f : Helper) :
    Lays env (do Lowering.emitCall f; if f.mayThrow then Lowering.exceptionCheck) ()
      (.inst (.call 0) (some (.external (.helper f))) :: exceptionPieces env f) := by
  refine (emitCall f).bind ?_
  split
  · exact exceptionCheck
  · exact pure ()

end Lays

lemma leads_cacheCheck {base expected : Gpr} {slow : Label} :
    Leads env s (cacheCheck base expected slow) (fun imm s' => imm = s.asm.offset + 10 ∧
      Lain s s' (cachePieces base expected slow)) (fun _ => False) fun _ _ => False := by
  refine leads_bind.mpr ((Lays.emit' _ s).weaken fun _ s₁ ⟨_, h₁⟩ => ?_)
  refine leads_bind.mpr ((leads_emit _).weaken fun imm s₂ ⟨himm, h₂⟩ => ?_)
  refine leads_bind.mpr ((Lays.emit' _ s₂).weaken fun _ s₃ ⟨_, h₃⟩ => ?_)
  refine leads_bind.mpr ((Lays.jcc _ _ s₃).weaken fun _ s₄ ⟨_, h₄⟩ => ⟨?_, ?_⟩)
  · rw [himm, h₁.adds.offset]
    rfl
  · exact ((h₁.trans h₂).trans h₃).trans h₄

end Stretches

end Lowering
end Speculation
