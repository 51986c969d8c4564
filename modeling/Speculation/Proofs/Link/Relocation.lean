import Speculation.Proofs.Link

/-!
Relocation of whatever was assembled.

Every run of the assembler lays out pieces, one after the other, and what it has attached a label to
never changes. So the linker finds each instruction that was emitted with a field where it was
emitted, and fills in that field and nothing else; the only thing that can keep it from doing so is a
label that was left unattached.
-/

namespace Speculation
namespace Assembler

inductive Action where
  | newLabel
  | attach (l : Label)
  | here
  | emit (i : Inst)
  | emitReloc (i : Inst) (t : RelocTarget)
  | align (n : Nat) (h : 0 < n)
  | data (bs : List UInt8)
  | comment (text : String)

namespace Action

def apply : Action → Assembler → Except Breach Assembler
  | newLabel, a => .ok a.newLabel.2
  | attach l, a => a.attach l
  | here, a => .ok a.here.2
  | emit i, a => .ok (a.emit i)
  | emitReloc i t, a => a.emitReloc i t
  | align n _, a => .ok (a.align n)
  | data bs, a => .ok (a.emitData bs)
  | comment text, a => .ok (a.comment text)

def pieces (a : Assembler) : Action → List Piece
  | emit i => [.inst i none]
  | emitReloc i t => [.inst i (some t)]
  | align n _ => [.data (List.replicate ((n - a.code.size % n) % n) 0)]
  | data bs => [.data bs]
  | newLabel | attach _ | here | comment _ => []

/-- The label that the operation attaches. -/
def label? (a : Assembler) : Action → Option Label
  | attach l => some l
  | here => some a.labels.size
  | newLabel | emit _ | emitReloc _ _ | align _ _ | data _ | comment _ => none

end Action

/-- The assembler after operations none of which breaks an assumption. -/
def perform : List Action → Assembler → Except Breach Assembler
  | [], a => .ok a
  | op :: ops, a => do perform ops (← op.apply a)

inductive Performed (op : Action) (b : Assembler) : List Action → Assembler → Prop
  | head {ops : List Action} : Performed op b (op :: ops) b
  | tail {first : Action} {ops : List Action} {a a' : Assembler} (h : first.apply a = .ok a')
    (h' : Performed op b ops a') : Performed op b (first :: ops) a

def Records (ops : List Action) (a : Assembler) (o : Nat) (i : Inst) (t : RelocTarget) : Prop :=
  ∃ b, Performed (.emitReloc i t) b ops a ∧ b.offset = o

def Attaches (ops : List Action) (a : Assembler) (l : Label) (o : Nat) : Prop :=
  ∃ op b, Performed op b ops a ∧ op.label? b = some l ∧ b.offset = o

variable {op : Action} {ops : List Action} {a a' b : Assembler} {ps : List Piece} {i : Inst}
  {t : RelocTarget} {l : Label} {o : Nat}

lemma perform_cons (h : perform (op :: ops) a = .ok a') :
    ∃ b, op.apply a = .ok b ∧ perform ops b = .ok a' := by
  rw [perform] at h
  rcases hb : op.apply a with e | b <;> rw [hb] at h
  · cases h
  · exact ⟨b, rfl, h⟩

lemma performed_cons {first : Action} {c : Assembler} (h : first.apply a = .ok c) :
    Performed op b (first :: ops) a ↔ (op = first ∧ b = a) ∨ Performed op b ops c := by
  refine ⟨fun hp => ?_, ?_⟩
  · cases hp with
    | head => exact .inl ⟨rfl, rfl⟩
    | tail hc hp =>
      rw [h] at hc
      cases hc
      exact .inr hp
  · rintro (⟨rfl, rfl⟩ | hp)
    · exact .head
    · exact .tail h hp

/-! ### One operation -/

lemma attach_ok (h : a.attach l = .ok a') :
    a.labels[l]? = some none ∧ a'.code = a.code ∧ a'.relocs = a.relocs ∧
      a'.labels = a.labels.set! l (some a.offset) := by
  rcases hl : a.labels[l]? with _ | _ | o <;>
    simp only [attach, Breach.get, hl, bind, Except.bind, pure, Except.pure] at h <;> cases h
  exact ⟨rfl, rfl, rfl, rfl⟩

lemma fits_of_emitReloc (h : a.emitReloc i t = .ok a') : RelocTarget.fits t i = true := by
  by_contra hf
  rw [emitReloc, if_neg hf] at h
  cases h

lemma Action.adds (h : op.apply a = .ok a') :
    a.Adds a' (op.pieces a) ∧ ∀ p ∈ op.pieces a, p.Fits := by
  cases op with
  | newLabel | here | comment => cases h; exact ⟨.of_eq rfl rfl, by simp [pieces]⟩
  | attach l =>
    obtain ⟨-, hcode, hrelocs, -⟩ := attach_ok h
    exact ⟨.of_eq hcode hrelocs, by simp [pieces]⟩
  | emit i => cases h; exact ⟨a.adds_emit i, by simp [pieces, Piece.Fits]⟩
  | emitReloc i t =>
    obtain ⟨b, hb, hadds, -⟩ := a.adds_emitReloc (fits_of_emitReloc h)
    cases hb.symm.trans h
    exact ⟨hadds, by simpa [pieces, Piece.Fits] using fits_of_emitReloc h⟩
  | align n hn => cases h; exact ⟨a.adds_data _, by simp [pieces, Piece.Fits]⟩
  | data bs => cases h; exact ⟨a.adds_data bs, by simp [pieces, Piece.Fits]⟩

/-- An operation attaches its label to the current offset, and other labels stay where they are. -/
lemma Action.labels (h : op.apply a = .ok a') : a'.labels[l]? = some (some o) ↔
    a.labels[l]? = some (some o) ∨ op.label? a = some l ∧ a.offset = o := by
  cases op with
  | newLabel =>
    cases h
    simp only [Assembler.newLabel, label?, Array.getElem?_push]
    split <;> simp_all
  | here =>
    cases h
    have hlabels : a.here.2.labels = a.labels.push (some a.offset) := rfl
    rw [hlabels, label?, Array.getElem?_push]
    split <;> simp_all [eq_comm]
  | attach k =>
    obtain ⟨hnone, -, -, hlabels⟩ := attach_ok h
    obtain ⟨hk, -⟩ := Array.getElem?_eq_some_iff.mp hnone
    rw [hlabels, label?, Array.set!_eq_setIfInBounds, Array.getElem?_setIfInBounds]
    split <;> simp_all
  | emit i => cases h; simp [label?, labels_emit]
  | emitReloc i t =>
    obtain ⟨b, hb, -, hlabels⟩ := a.adds_emitReloc (fits_of_emitReloc h)
    cases hb.symm.trans h
    simp [label?, hlabels]
  | align | data | comment => cases h; simp [label?]; rfl

/-- The instruction with a field that an operation adds is the one it emits. -/
lemma Action.within_pieces : Piece.Within a.offset (op.pieces a) o [.inst i (some t)] ↔
    op = .emitReloc i t ∧ a.offset = o := by
  refine ⟨fun h => ?_, ?_⟩
  · cases op with
    | emitReloc j u =>
      obtain ⟨rfl, rfl, hu⟩ := h.singleton
      cases hu
      exact ⟨rfl, rfl⟩
    | _ => simpa [pieces] using h.mem
  · rintro ⟨rfl, rfl⟩
    exact .refl _ _

/-! ### Runs of operations -/

lemma records_cons {first : Action} {c : Assembler} (h : first.apply a = .ok c) :
    Records (first :: ops) a o i t ↔
      (first = .emitReloc i t ∧ a.offset = o) ∨ Records ops c o i t := by
  simp only [Records, performed_cons h]
  grind

lemma attaches_cons {first : Action} {c : Assembler} (h : first.apply a = .ok c) :
    Attaches (first :: ops) a l o ↔
      (first.label? a = some l ∧ a.offset = o) ∨ Attaches ops c l o := by
  simp only [Attaches, performed_cons h]
  grind

/-- From `a` to `a'` the operations laid out the pieces. -/
structure Laid (ops : List Action) (a a' : Assembler) (ps : List Piece) : Prop where
  adds : a.Adds a' ps
  fits : ∀ p ∈ ps, p.Fits
  records (o : Nat) (i : Inst) (t : RelocTarget) :
    Piece.Within a.offset ps o [.inst i (some t)] ↔ Records ops a o i t
  labels (l : Label) (o : Nat) :
    a'.labels[l]? = some (some o) ↔ a.labels[l]? = some (some o) ∨ Attaches ops a l o
  attached (l : Label) (o : Nat) (h : Attaches ops a l o) : o ≤ a'.offset

lemma exists_laid (h : perform ops a = .ok a') : ∃ ps, Laid ops a a' ps := by
  induction ops generalizing a with
  | nil =>
    cases h
    refine ⟨[], .of_eq rfl rfl, by simp, fun o i t => ⟨fun h => h.not_nil.elim, ?_⟩,
      fun l o => ⟨.inl, fun h => h.elim id ?_⟩, ?_⟩
    · rintro ⟨b, hb, -⟩
      cases hb
    · rintro ⟨op, b, hb, -⟩
      cases hb
    · rintro l o ⟨op, b, hb, -⟩
      cases hb
  | cons op ops ih =>
    obtain ⟨b, hb, h⟩ := perform_cons h
    obtain ⟨ps, hps⟩ := ih h
    obtain ⟨hadds, hfits⟩ := Action.adds hb
    refine ⟨op.pieces a ++ ps, hadds.trans hps.adds, fun p hp => ?_, fun o i t => ?_, fun l o => ?_,
      fun l o hl => ?_⟩
    · exact (List.mem_append.mp hp).elim (hfits p) (hps.fits p)
    · rw [records_cons hb, ← Action.within_pieces, ← hps.records, hadds.offset]
      exact ⟨Piece.Within.append, fun h => h.elim (·.left ps) Piece.Within.right⟩
    · rw [hps.labels, Action.labels hb, attaches_cons hb, or_assoc]
    · have hle := hps.adds.offset
      rcases (attaches_cons hb).mp hl with ⟨-, rfl⟩ | hl
      · rw [hadds.offset] at hle
        omega
      · exact hps.attached l o hl

end Assembler

namespace Piece

variable (labels : Array (Option Nat)) (base : UInt64)

lemma getElem?_linked {ps : List Piece} {offset j : Nat} (hfits : ∀ p ∈ ps, p.Fits)
    (h : ∀ o i t f w, Within offset ps o [.inst i (some t)] → t.field? i = some (f, w) →
      offset + j < o + f ∨ o + f + w ≤ offset + j) :
    (linked labels base offset ps)[j]? = (ps.flatMap bytes)[j]? := by
  induction ps generalizing offset j with
  | nil => rfl
  | cons p ps ih =>
    obtain ⟨hp, hps⟩ := List.forall_mem_cons.mp hfits
    have hrest : ∀ new : List UInt8, new.length = p.bytes.length →
        (j < p.bytes.length → new[j]? = p.bytes[j]?) →
        (new ++ linked labels base (offset + p.bytes.length) ps)[j]? =
          (p.bytes ++ ps.flatMap bytes)[j]? := by
      intro new hnew hbytes
      by_cases hj : j < p.bytes.length
      · rw [List.getElem?_append_left (hnew ▸ hj), List.getElem?_append_left hj, hbytes hj]
      · rw [Nat.not_lt] at hj
        rw [List.getElem?_append_right (hnew ▸ hj), List.getElem?_append_right hj, hnew]
        refine ih hps fun o i t f w hw hf => ?_
        have hout := h o i t f w (Within.cons_iff.mpr (.inr hw)) hf
        omega
    rcases p with ⟨i, _ | t⟩ | bs
    · exact hrest _ rfl fun _ => rfl
    · refine hrest _ (length_resolve labels base hp _) fun hj => ?_
      obtain ⟨head, old, new, hfield, he, hlen, hnew⟩ :=
        encode_resolve labels base hp (offset + i.encode.length)
      have hout := h offset i t _ _ (Within.cons_iff.mpr (.inl ⟨rfl, rfl⟩)) hfield
      have hbytes : (inst i (some t)).bytes = head ++ old := he
      rw [hbytes, List.length_append] at hj
      rw [hnew, hbytes, List.getElem?_append_left (by omega), List.getElem?_append_left (by omega)]
    · exact hrest _ rfl fun _ => rfl

end Piece

namespace Link

variable {a : Assembler} (base : UInt64)

/-- What is wrong with a label that is not attached: it may not even have been made. -/
def missing (a : Assembler) (l : Label) : Failure :=
  if l < a.labels.size then .compile (.internal (.labelUnattached l)) else .breach .outOfRange

lemma labelOffset_missing {l : Label} (h : ∀ o, a.labels[l]? ≠ some (some o)) :
    a.labelOffset l = .error (missing a l) := by
  rcases hl : a.labels[l]? with _ | _ | o
  · have hget : Breach.get a.labels l = .error .outOfRange := by rw [Breach.get, hl]
    rw [missing, if_neg (Nat.not_lt.mpr (Array.getElem?_eq_none_iff.mp hl)), Assembler.labelOffset,
      hget]
    rfl
  · have hget : Breach.get a.labels l = .ok none := by rw [Breach.get, hl]
    rw [missing, if_pos (Array.getElem?_eq_some_iff.mp hl).1, Assembler.labelOffset, hget]
    rfl
  · exact absurd hl (h o)

lemma fillField_fails {code : ByteArray} {pre post : List UInt8} {i : Inst} {t : RelocTarget}
    {l : Label} (h : code.data.toList = pre ++ (i.encode ++ post))
    (hfits : (Piece.inst i (some t)).Fits) (ht : t.label? = some l)
    (hl : ∀ o, a.labels[l]? ≠ some (some o)) :
    fillField a base code { offset := pre.length, length := i.encode.length, target := t } =
      .error (missing a l) := by
  rw [fillField, Inst.decodeAt_of_bytes h]
  dsimp only
  rcases t with k | k | t
  · cases ht
    obtain ⟨field, hi⟩ := Option.isSome_iff_exists.mp hfits
    simp only [fillDistance, hi, labelOffset_missing hl, bind, Except.bind]
  · cases ht
    simp only [labelOffset_missing hl, bind, Except.bind]
  · cases ht

/-- Only a label that is not attached keeps a field from being filled in. -/
lemma exists_unattached {p : Piece} (hfits : p.Fits)
    (hnear : ∀ (l : Label) (o : Nat), a.labels[l]? = some (some o) → o < 2147483648)
    (hp : ¬p.Links a.labels) :
    ∃ i t l, p = .inst i (some t) ∧ t.label? = some l ∧ ∀ o, a.labels[l]? ≠ some (some o) := by
  simp only [Piece.Links, hfits, true_and, not_forall] at hp
  obtain ⟨i, t, l, rfl, ht, hl⟩ := hp
  refine ⟨i, t, l, rfl, ?_, fun o ho => hl ⟨o, ho, hnear l o ho⟩⟩
  rcases ht with rfl | rfl <;> rfl

/-- If there is a label that is not attached, filling in fields ends with the first one. -/
lemma fillFrom_fails {ps : List Piece} {code : ByteArray} (pre : List UInt8)
    (h : code.data.toList = pre ++ ps.flatMap Piece.bytes) (hfits : ∀ p ∈ ps, p.Fits)
    (hnear : ∀ (l : Label) (o : Nat), a.labels[l]? = some (some o) → o < 2147483648)
    (hlt : pre.length + (ps.flatMap Piece.bytes).length < 2147483648)
    (hp : ∃ p ∈ ps, ¬p.Links a.labels) :
    ∃ i t l, .inst i (some t) ∈ ps ∧ t.label? = some l ∧ (∀ o, a.labels[l]? ≠ some (some o)) ∧
      (Piece.relocsFrom pre.length ps).foldlM (fillField a base) code = .error (missing a l) := by
  induction ps generalizing code pre with
  | nil => simp at hp
  | cons p ps ih =>
    obtain ⟨hfit, hfits⟩ := List.forall_mem_cons.mp hfits
    rw [List.flatMap_cons] at h hlt
    rw [List.length_append] at hlt
    by_cases hl : p.Links a.labels
    · obtain ⟨c, new, hnew, hc, hfill⟩ := exists_filled base h hl (by omega)
      have hlen : (pre ++ new).length = pre.length + p.bytes.length := by simp [hnew]
      obtain ⟨q, hq, hnot⟩ := hp
      have hq := (List.mem_cons.mp hq).resolve_left fun he => hnot (he ▸ hl)
      obtain ⟨i, t, l, hmem, ht, hfree, hfail⟩ :=
        ih (pre ++ new) (by rw [hc, List.append_assoc]) hfits (by omega) ⟨q, hq, hnot⟩
      refine ⟨i, t, l, List.mem_cons_of_mem _ hmem, ht, hfree, ?_⟩
      rw [Piece.relocsFrom, List.foldlM_append, hfill, ← hlen]
      exact hfail
    · obtain ⟨i, t, l, rfl, ht, hfree⟩ := exists_unattached hfit hnear hl
      refine ⟨i, t, l, List.mem_cons_self, ht, hfree, ?_⟩
      rw [Piece.relocsFrom, Piece.relocs, List.cons_append, List.foldlM_cons,
        fillField_fails base h hfit ht hfree]
      rfl

lemma fillFields_fails {ps : List Piece} (hcode : a.code.data.toList = ps.flatMap Piece.bytes)
    (hrelocs : a.relocs.toList = Piece.relocsFrom 0 ps) (hfits : ∀ p ∈ ps, p.Fits)
    (hnear : ∀ (l : Label) (o : Nat), a.labels[l]? = some (some o) → o < 2147483648)
    (hlt : a.code.size < 2147483648) (hp : ∃ p ∈ ps, ¬p.Links a.labels) :
    ∃ i t l, .inst i (some t) ∈ ps ∧ t.label? = some l ∧ (∀ o, a.labels[l]? ≠ some (some o)) ∧
      fillFields a base = .error (missing a l) := by
  have hsize : (ps.flatMap Piece.bytes).length = a.code.size := by
    rw [← hcode, Array.length_toList, ByteArray.size_data]
  unfold fillFields
  rw [← Array.foldlM_toList, hrelocs]
  exact fillFrom_fails base [] hcode hfits hnear (by simpa [hsize] using hlt) hp

end Link

namespace Assembler

open Link

/-- In the linked code everything that was emitted with a field has the field filled in. -/
structure Relocated (ops : List Action) (start a : Assembler) (base : UInt64) (code : ByteArray) :
    Prop where
  size : code.size = a.code.size
  label {o k : Nat} {i : Inst} {l : Label} (h : Records ops start o i (.label l))
    (hl : Attaches ops start l k) : ∃ x : Int32, x.toInt = (k : Int) - (o + i.encode.length : Nat) ∧
      Inst.decodeAt code o = .ok (i.setRel x, i.encode.length)
  address {o k : Nat} {i : Inst} {l : Label} (h : Records ops start o i (.labelAddress l))
    (hl : Attaches ops start l k) : ∃ x : UInt64, x.toNat = base.toNat + k ∧
      Inst.decodeAt code o = .ok (i.setAbs x, i.encode.length)
  external {o : Nat} {i : Inst} {t : ExternalTarget} (h : Records ops start o i (.external t)) :
    Inst.decodeAt code o = .ok (i.setAbs t.address, i.encode.length)
  rest {j : Nat} (h : ∀ o i t f w, Records ops start o i t → t.field? i = some (f, w) →
    j < o + f ∨ o + f + w ≤ j) : code.data[j]? = a.code.data[j]?

variable {logging : Bool} {ops : List Action} {a : Assembler} {base : UInt64} {ps : List Piece}

/-- What is known about a whole run, from nothing assembled on. -/
lemma exists_laid_new (h : perform ops (new logging) = .ok a) :
    ∃ ps, Laid ops (new logging) a ps ∧ a.code.data.toList = ps.flatMap Piece.bytes ∧
      a.relocs.toList = Piece.relocsFrom 0 ps := by
  obtain ⟨ps, hps⟩ := exists_laid h
  exact ⟨ps, hps, by simpa [new] using hps.adds.code, by simpa [new, offset] using hps.adds.relocs⟩

namespace Laid

lemma labels_iff (h : Laid ops (new logging) a ps) (l : Label) (o : Nat) :
    a.labels[l]? = some (some o) ↔ Attaches ops (new logging) l o := by
  simpa [new] using h.labels l o

lemma within_iff (h : Laid ops (new logging) a ps) {o : Nat} {i : Inst} {t : RelocTarget} :
    Piece.Within 0 ps o [.inst i (some t)] ↔ Records ops (new logging) o i t :=
  h.records o i t

/-- What is decoded where an instruction was emitted. -/
lemma decodeAt (h : Laid ops (new logging) a ps) {code : ByteArray}
    (hcode : code.data.toList = Piece.linked a.labels base 0 ps) {o : Nat} {i : Inst}
    {t : RelocTarget} (hr : Records ops (new logging) o i t) :
    o + i.encode.length ≤ a.offset ∧ Inst.decodeAt code o =
      .ok (Piece.resolve a.labels base (o + i.encode.length) i (some t), i.encode.length) := by
  obtain ⟨pre, post, rfl, ho⟩ := h.within_iff.mpr hr
  rw [Nat.zero_add] at ho
  refine ⟨?_, decodeAt_linked base hcode h.fits ho.symm⟩
  rw [h.adds.offset, ← ho, List.flatMap_append, List.length_append, List.singleton_append,
    List.flatMap_cons, List.length_append, Piece.bytes]
  omega

/-- Linked code has everything filled in. -/
lemma relocated (h : Laid ops (new logging) a ps) (ha : a.code.data.toList = ps.flatMap Piece.bytes)
    {code : ByteArray} (hcode : code.data.toList = Piece.linked a.labels base 0 ps)
    (hsize : a.code.size < 2147483648) (hbase : base.toNat + a.code.size < UInt64.size) :
    Relocated ops (new logging) a base code := by
  rw [← offset] at hsize hbase
  have hoffset : ∀ {l k}, Attaches ops (new logging) l k →
      offsetOf a.labels l = k ∧ k ≤ a.offset := fun hl =>
    ⟨by simp [offsetOf, (h.labels_iff _ _).mpr hl], h.attached _ _ hl⟩
  refine ⟨?_, fun {o k i l} hr hl => ?_, fun {o k i l} hr hl => ?_, fun hr => (h.decodeAt hcode hr).2,
    fun {j} hout => ?_⟩
  · rw [← ByteArray.size_data, ← ByteArray.size_data, ← Array.length_toList, ← Array.length_toList,
      hcode, ha, Piece.length_linked _ _ h.fits]
  · obtain ⟨hlen, hdecode⟩ := h.decodeAt hcode hr
    obtain ⟨hk, hle⟩ := hoffset hl
    refine ⟨_, ?_, hdecode⟩
    rw [hk]
    exact Int32.toInt_ofInt_of_le (by omega) (by omega)
  · obtain ⟨hk, hle⟩ := hoffset hl
    have hlt : base.toNat + k < 2 ^ 64 := Nat.lt_of_le_of_lt (Nat.add_le_add_left hle _) hbase
    refine ⟨_, ?_, (h.decodeAt hcode hr).2⟩
    rw [hk, UInt64.toNat_add, UInt64.toNat_ofNat', Nat.add_mod_mod, Nat.mod_eq_of_lt hlt]
  · rw [← Array.getElem?_toList, ← Array.getElem?_toList, hcode, ha]
    refine Piece.getElem?_linked a.labels base h.fits fun o i t f w hw hf => ?_
    rw [Nat.zero_add]
    exact hout o i t f w (h.within_iff.mp hw) hf

end Laid

/-- Code that was assembled without breaking an assumption is linked if all labels that fields refer
to are attached, and otherwise the linker names one that is not. -/
theorem fillFields_relocated (logging : Bool) (ops : List Action) (a : Assembler) (base : UInt64)
    (h : perform ops (new logging) = .ok a) (hsize : a.code.size < 2147483648)
    (hbase : base.toNat + a.code.size < UInt64.size) :
    ((∀ o i t l, Records ops (new logging) o i t → t.label? = some l →
        ∃ k, Attaches ops (new logging) l k) →
      ∃ code, fillFields a base = .ok code ∧ Relocated ops (new logging) a base code) ∧
    ∀ o i t l, Records ops (new logging) o i t → t.label? = some l →
      (∀ k, ¬Attaches ops (new logging) l k) →
      ∃ o i t l, Records ops (new logging) o i t ∧ t.label? = some l ∧
        (∀ k, ¬Attaches ops (new logging) l k) ∧
        (l < a.labels.size →
          fillFields a base = .error (.compile (.internal (.labelUnattached l)))) ∧
        (a.labels.size ≤ l → fillFields a base = .error (.breach .outOfRange)) := by
  obtain ⟨ps, hps, hcode, hrelocs⟩ := exists_laid_new h
  have hnear : ∀ (l : Label) (o : Nat), a.labels[l]? = some (some o) → o < 2147483648 :=
    fun l o ho => Nat.lt_of_le_of_lt (hps.attached l o ((hps.labels_iff l o).mp ho)) hsize
  have hrecords : ∀ {i t}, .inst i (some t) ∈ ps → ∃ o, Records ops (new logging) o i t := by
    intro i t hp
    obtain ⟨pre, post, rfl⟩ := List.append_of_mem hp
    exact ⟨_, hps.within_iff.mp ⟨pre, post, rfl, rfl⟩⟩
  refine ⟨fun hall => ?_, fun o i t l hr ht hl => ?_⟩
  · have hlinks : ∀ p ∈ ps, p.Links a.labels := by
      intro p hp
      by_contra hnot
      obtain ⟨i, t, l, rfl, ht, hfree⟩ := exists_unattached (hps.fits p hp) hnear hnot
      obtain ⟨o, hr⟩ := hrecords hp
      obtain ⟨k, hk⟩ := hall o i t l hr ht
      exact hfree k ((hps.labels_iff l k).mpr hk)
    obtain ⟨code, hf⟩ := fillFields_succeeds base hcode hrelocs hlinks hsize
    exact ⟨code, hf, hps.relocated hcode (fillFields_ok base hcode hrelocs hps.fits hf) hsize hbase⟩
  · have hnot : ∃ p ∈ ps, ¬p.Links a.labels := by
      refine ⟨_, (hps.within_iff.mpr hr).mem, fun hlinks => ?_⟩
      obtain ⟨k, hk, -⟩ := hlinks.2 i t l rfl (by cases t <;> cases ht <;> simp)
      exact hl k ((hps.labels_iff l k).mp hk)
    obtain ⟨i, t, l, hp, ht, hfree, hfail⟩ :=
      fillFields_fails base hcode hrelocs hps.fits hnear hsize hnot
    obtain ⟨o, hr⟩ := hrecords hp
    refine ⟨o, i, t, l, hr, ht, fun k hk => hfree k ((hps.labels_iff l k).mpr hk), fun hmade => ?_,
      fun hmade => ?_⟩
    · rw [hfail, missing, if_pos hmade]
    · rw [hfail, missing, if_neg (Nat.not_lt.mpr hmade)]

def skipping : List Action :=
  [.newLabel, .emitReloc (.jmp 0) (.label 0), .data [7], .attach 0]

theorem fillFields_relocated_skipping :
    ∃ a code, perform skipping (new false) = .ok a ∧ a.code.size < 2147483648 ∧
      (4096 : UInt64).toNat + a.code.size < UInt64.size ∧ fillFields a 4096 = .ok code ∧
      Relocated skipping (new false) a 4096 code := by
  have h : perform skipping (new false) =
      .ok ⟨⟨#[0x12, 0, 0, 0, 0, 7]⟩, #[some 6], #[⟨0, 5, .label 0⟩], none⟩ := rfl
  have hmade : Action.newLabel.apply (new false) = .ok ⟨.empty, #[none], #[], none⟩ := rfl
  have hjump : (Action.emitReloc (.jmp 0) (.label 0)).apply ⟨.empty, #[none], #[], none⟩ =
      .ok ⟨⟨#[0x12, 0, 0, 0, 0]⟩, #[none], #[⟨0, 5, .label 0⟩], none⟩ := rfl
  have hbyte : (Action.data [7]).apply
      ⟨⟨#[0x12, 0, 0, 0, 0]⟩, #[none], #[⟨0, 5, .label 0⟩], none⟩ =
      .ok ⟨⟨#[0x12, 0, 0, 0, 0, 7]⟩, #[none], #[⟨0, 5, .label 0⟩], none⟩ := rfl
  have hall : ∀ o i t l, Records skipping (new false) o i t → t.label? = some l →
      ∃ k, Attaches skipping (new false) l k := by
    intro o i t l hr ht
    have hl : l = 0 := by
      rw [skipping, records_cons hmade, records_cons hjump, records_cons hbyte] at hr
      rcases hr with ⟨he, -⟩ | ⟨he, -⟩ | ⟨he, -⟩ | ⟨b, hp, -⟩
      · cases he
      · cases he
        cases ht
        rfl
      · cases he
      · cases hp with
        | tail _ hp => cases hp
    exact ⟨6, .attach 0, _, .tail hmade (.tail hjump (.tail hbyte .head)), hl ▸ rfl, rfl⟩
  obtain ⟨code, hf, hcode⟩ :=
    (fillFields_relocated false skipping _ 4096 h (by decide) (by decide)).1 hall
  exact ⟨_, code, h, by decide, by decide, hf, hcode⟩

end Assembler
end Speculation
