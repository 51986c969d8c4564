import Speculation.Lowering.State
import Speculation.Proofs.Link

/-!
What two lowerings of one block put out.

A block that is lowered twice, after different blocks, gets other labels, other indexes for its exits
and other positions in the code and in the event stream. `Puts` says that this is all: the pieces of
code, the events, the exits and whatever else was added since the block began are the same up to a
renaming of labels, and indexes and offsets count from where the block began.
-/

namespace Speculation
namespace Lowering

/-- The two are equally far from where they are counted from. -/
def Shifted (a b x y : Nat) : Prop := ∃ k, x = a + k ∧ y = b + k

/-- To each of two arrays entries were added, and these correspond. -/
def Appended {α : Type} (r : α → α → Prop) (xs₀ xs ys₀ ys : Array α) : Prop :=
  ∃ as bs, xs.toList = xs₀.toList ++ as ∧ ys.toList = ys₀.toList ++ bs ∧ List.Forall₂ r as bs

namespace Appended

variable {α : Type} {r r' : α → α → Prop} {xs₀ xs ys₀ ys : Array α}

lemma refl (xs ys : Array α) : Appended r xs xs ys ys := ⟨[], [], by simp, by simp, .nil⟩

lemma mono (h : Appended r xs₀ xs ys₀ ys) (hr : ∀ a b, r a b → r' a b) :
    Appended r' xs₀ xs ys₀ ys :=
  let ⟨as, bs, hx, hy, hab⟩ := h
  ⟨as, bs, hx, hy, hab.imp hr⟩

lemma push (h : Appended r xs₀ xs ys₀ ys) {a b : α} (hab : r a b) :
    Appended r xs₀ (xs.push a) ys₀ (ys.push b) := by
  obtain ⟨as, bs, hx, hy, hrs⟩ := h
  refine ⟨as ++ [a], bs ++ [b], by simp [hx], by simp [hy], ?_⟩
  exact List.rel_append hrs (.cons hab .nil)

lemma size (h : Appended r xs₀ xs ys₀ ys) : Shifted xs₀.size ys₀.size xs.size ys.size := by
  obtain ⟨as, bs, hx, hy, hab⟩ := h
  refine ⟨as.length, ?_, ?_⟩
  · rw [← Array.length_toList, hx]
    simp
  · rw [← Array.length_toList, hy, hab.length_eq]
    simp

/-- What was added at corresponding places corresponds, or nothing was added at either. -/
lemma getElem? (h : Appended r xs₀ xs ys₀ ys) {i j : Nat} (hij : Shifted xs₀.size ys₀.size i j) :
    (xs[i]? = none ∧ ys[j]? = none) ∨ ∃ a b, xs[i]? = some a ∧ ys[j]? = some b ∧ r a b := by
  obtain ⟨as, bs, hx, hy, hab⟩ := h
  obtain ⟨k, rfl, rfl⟩ := hij
  have hxk : xs[xs₀.size + k]? = as[k]? := by
    rw [← Array.getElem?_toList, hx, List.getElem?_append_right (by simp)]
    simp
  have hyk : ys[ys₀.size + k]? = bs[k]? := by
    rw [← Array.getElem?_toList, hy, List.getElem?_append_right (by simp)]
    simp
  rw [hxk, hyk]
  rcases ha : as[k]? with _ | a
  · refine .inl ⟨rfl, List.getElem?_eq_none ?_⟩
    rw [← hab.length_eq]
    exact List.getElem?_eq_none_iff.mp ha
  · obtain ⟨hk, rfl⟩ := List.getElem?_eq_some_iff.mp ha
    have hk' : k < bs.length := hab.length_eq ▸ hk
    exact .inr ⟨_, _, rfl, List.getElem?_eq_getElem hk', hab.get hk hk'⟩

/-- An added entry is changed. -/
lemma toList_modify {as : List α} (hx : xs.toList = xs₀.toList ++ as) (k : Nat) (f : α → α) :
    (xs.modify (xs₀.size + k) f).toList = xs₀.toList ++ as.modify k f := by
  apply List.ext_getElem?
  intro j
  rw [Array.getElem?_toList, Array.getElem?_modify, ← Array.getElem?_toList, hx]
  rcases Nat.lt_or_ge j xs₀.size with hj | hj
  · rw [if_neg (by omega), List.getElem?_append_left (by simpa), List.getElem?_append_left (by simpa)]
  · obtain ⟨m, rfl⟩ := Nat.exists_eq_add_of_le hj
    rw [List.getElem?_append_right (by simp), List.getElem?_append_right (by simp),
      List.getElem?_modify]
    by_cases hk : k = m <;> simp [hk]

/-- Corresponding entries may be changed alike. -/
lemma modify (h : Appended r xs₀ xs ys₀ ys) {f : α → α} (hf : ∀ a b, r a b → r (f a) (f b))
    {i j : Nat} (hij : Shifted xs₀.size ys₀.size i j) :
    Appended r xs₀ (xs.modify i f) ys₀ (ys.modify j f) := by
  obtain ⟨as, bs, hx, hy, hab⟩ := h
  obtain ⟨k, rfl, rfl⟩ := hij
  refine ⟨as.modify k f, bs.modify k f, toList_modify hx k f, toList_modify hy k f, ?_⟩
  clear hx hy
  induction hab generalizing k with
  | nil => simp
  | cons hab hrest ih =>
    cases k with
    | zero => exact .cons (hf _ _ hab) hrest
    | succ k => exact .cons hab (ih k)

end Appended

/-- The fields refer to the same, once labels are renamed. -/
def TargetAlike (ρ : Label → Label → Prop) : RelocTarget → RelocTarget → Prop
  | .label l, .label m => ρ l m
  | .labelAddress l, .labelAddress m => ρ l m
  | .external s, .external t => s = t
  | _, _ => False

/-- The same piece of code. Exits are counted from `x` and `y`. -/
inductive PieceAlike (ρ : Label → Label → Prop) (x y : Nat) : Piece → Piece → Prop
  | plain (i : Inst) : PieceAlike ρ x y (.inst i none) (.inst i none)
  | reloc (i : Inst) {t u : RelocTarget} (h : TargetAlike ρ t u) :
    PieceAlike ρ x y (.inst i (some t)) (.inst i (some u))
  | watchpoint {m n : Nat} (h : Shifted x y m n) :
    PieceAlike ρ x y (.inst (.watchpoint (UInt32.ofNat m)) none)
      (.inst (.watchpoint (UInt32.ofNat n)) none)

/-- The same exit. Events are counted from `x` and `y`, and the event there belongs to the block. -/
structure ExitAlike (ρ : Label → Label → Prop) (x y : Nat) (e f : Exit) : Prop where
  same : f = { e with stub := f.stub, streamIndex := f.streamIndex }
  stub : ρ e.stub f.stub
  stream : Shifted (x + 1) (y + 1) e.streamIndex f.streamIndex

/-- The same slow path. Events are counted from `x` and `y`. -/
structure PathAlike (ρ : Label → Label → Prop) (x y : Nat) (p q : SlowPath) : Prop where
  same : q = { p with entry := q.entry, done := q.done, streamIndex := q.streamIndex }
  entry : ρ p.entry q.entry
  done : ρ p.done q.done
  stream : Shifted (x + 1) (y + 1) p.streamIndex q.streamIndex

/-- The same inline cache. Offsets are counted from `x` and `y`. -/
structure CacheAlike (x y : Nat) (c d : CacheSite) : Prop where
  same : d = { c with structureImm := d.structureImm, access := d.access }
  structureImm : Shifted x y c.structureImm d.structureImm
  access : Shifted x y c.access d.access

/-- The same call. Offsets are counted from `x` and `y`. -/
structure CallAlike (x y : Nat) (c d : CallSite) : Prop where
  offset : Shifted x y c.offset d.offset
  origin : d.origin = c.origin

/-- The same watchpoint. Offsets are counted from `x` and `y`, exits from `m` and `n`. -/
structure WatchpointAlike (x y m n : Nat) (v w : WatchpointSite) : Prop where
  offset : Shifted x y v.offset w.offset
  exit : Shifted m n v.exit w.exit

/-- From `t₁` to `s₁` and from `t₂` to `s₂` the same was put out, up to the renaming of labels. The
first event is a reset. -/
structure Puts (ρ : Label → Label → Prop) (t₁ s₁ t₂ s₂ : State) : Prop where
  code : ∃ ps qs, t₁.asm.Adds s₁.asm ps ∧ t₂.asm.Adds s₂.asm qs ∧
    List.Forall₂ (PieceAlike ρ t₁.exits.size t₂.exits.size) ps qs
  events : Appended Eq t₁.events s₁.events t₂.events s₂.events
  exits : Appended (ExitAlike ρ t₁.events.size t₂.events.size) t₁.exits s₁.exits t₂.exits s₂.exits
  slowPaths : Appended (PathAlike ρ t₁.events.size t₂.events.size)
    t₁.slowPaths s₁.slowPaths t₂.slowPaths s₂.slowPaths
  caches : Appended (CacheAlike t₁.asm.offset t₂.asm.offset) t₁.caches s₁.caches t₂.caches s₂.caches
  calls : Appended (CallAlike t₁.asm.offset t₂.asm.offset) t₁.calls s₁.calls t₂.calls s₂.calls
  watchpoints : Appended
    (WatchpointAlike t₁.asm.offset t₂.asm.offset t₁.exits.size t₂.exits.size)
    t₁.watchpoints s₁.watchpoints t₂.watchpoints s₂.watchpoints
  switches : Appended Eq t₁.switches s₁.switches t₂.switches s₂.switches

variable {ρ ρ' : Label → Label → Prop} {x y : Nat}

lemma TargetAlike.mono (hρ : ∀ l m, ρ l m → ρ' l m) {t u : RelocTarget} (h : TargetAlike ρ t u) :
    TargetAlike ρ' t u := by
  unfold TargetAlike at h ⊢
  split at h
  · exact hρ _ _ h
  · exact hρ _ _ h
  · exact h
  · exact h.elim

lemma PieceAlike.mono (hρ : ∀ l m, ρ l m → ρ' l m) {p q : Piece} (h : PieceAlike ρ x y p q) :
    PieceAlike ρ' x y p q := by
  cases h with
  | plain i => exact .plain i
  | reloc i h => exact .reloc i (h.mono hρ)
  | watchpoint h => exact .watchpoint h

lemma PieceAlike.length {p q : Piece} (h : PieceAlike ρ x y p q) : q.bytes.length = p.bytes.length := by
  cases h <;> rfl

lemma length_bytes {ps qs : List Piece} (h : List.Forall₂ (PieceAlike ρ x y) ps qs) :
    (qs.flatMap Piece.bytes).length = (ps.flatMap Piece.bytes).length := by
  induction h with
  | nil => rfl
  | cons h _ ih => rw [List.flatMap_cons, List.flatMap_cons, List.length_append, List.length_append,
      h.length, ih]

namespace Puts

variable {t₁ s₁ t₂ s₂ : State}

lemma mono (h : Puts ρ t₁ s₁ t₂ s₂) (hρ : ∀ l m, ρ l m → ρ' l m) : Puts ρ' t₁ s₁ t₂ s₂ where
  code :=
    let ⟨ps, qs, hp, hq, hpq⟩ := h.code
    ⟨ps, qs, hp, hq, hpq.imp fun _ _ => PieceAlike.mono hρ⟩
  events := h.events
  exits := h.exits.mono fun _ _ he => { he with stub := hρ _ _ he.stub }
  slowPaths := h.slowPaths.mono fun _ _ hp =>
    { hp with entry := hρ _ _ hp.entry, done := hρ _ _ hp.done }
  caches := h.caches
  calls := h.calls
  watchpoints := h.watchpoints
  switches := h.switches

/-- The ends of the code correspond. -/
lemma offset (h : Puts ρ t₁ s₁ t₂ s₂) :
    Shifted t₁.asm.offset t₂.asm.offset s₁.asm.offset s₂.asm.offset := by
  obtain ⟨ps, qs, hp, hq, hpq⟩ := h.code
  exact ⟨_, hp.offset, by rw [hq.offset, length_bytes hpq]⟩

lemma addCode (h : Puts ρ t₁ s₁ t₂ s₂) {a b : Assembler} {ps qs : List Piece}
    (ha : s₁.asm.Adds a ps) (hb : s₂.asm.Adds b qs)
    (hpq : List.Forall₂ (PieceAlike ρ t₁.exits.size t₂.exits.size) ps qs) :
    Puts ρ t₁ { s₁ with asm := a } t₂ { s₂ with asm := b } := by
  obtain ⟨ps', qs', hp, hq, hrest⟩ := h.code
  exact { h with code := ⟨_, _, hp.trans ha, hq.trans hb, List.rel_append hrest hpq⟩ }

end Puts

end Lowering
end Speculation
