import Speculation.Link
import Speculation.Proofs.Graph.Built
import Speculation.Proofs.Machine.Encoding

/-!
Linked code.

Assembled code is a sequence of pieces, instructions and data. Filling in the recorded fields turns
every instruction with a field into the one that has the field's value, and leaves all others as
they are; so what is decoded at the offset of a piece is known.
-/

namespace Speculation

namespace Bytes

lemma data_overwrite {code : ByteArray} {pre old bs post : List UInt8}
    (h : code.data.toList = pre ++ (old ++ post)) (hlen : bs.length = old.length) :
    (overwrite code pre.length bs).data.toList = pre ++ (bs ++ post) := by
  induction bs generalizing code pre old with
  | nil =>
    obtain rfl := List.length_eq_zero_iff.mp hlen.symm
    exact h
  | cons b bs ih =>
    rcases old with _ | ⟨c, old⟩
    · cases hlen
    have hsize : pre.length < code.size := by
      rw [← ByteArray.size_data, ← Array.length_toList, h]
      simp
    have hset : (code.set pre.length b hsize).data.toList = (pre ++ [b]) ++ (old ++ post) := by
      rw [ByteArray.data_set, Array.toList_set, h]
      simp
    have hrec := ih hset (by simpa using hlen)
    rw [List.length_append, List.length_singleton] at hrec
    rw [overwrite, dif_pos hsize, hrec]
    simp

end Bytes

def Inst.setRel (i : Inst) (x : Int32) : Inst :=
  match i with
  | .jmp _ => .jmp x
  | .jcc c _ => .jcc c x
  | .loadDConst d _ => .loadDConst d x
  | i => i

def Inst.setAbs (i : Inst) (x : UInt64) : Inst :=
  match i with
  | .jmpAbs _ => .jmpAbs x
  | .call _ => .call x
  | .movImm d _ => .movImm d x
  | i => i

lemma Inst.encode_setRel {i : Inst} {field : Nat} (h : i.rel32Field? = some field) :
    ∃ pre, pre.length = field ∧ (∃ old, i.encode = pre ++ old ∧ old.length = 4) ∧
      ∀ x, (i.setRel x).encode = pre ++ Encoding.int32 x := by
  cases i with
  | jmp rel => cases h; exact ⟨[0x12], rfl, ⟨_, rfl, rfl⟩, fun _ => rfl⟩
  | jcc c rel => cases h; exact ⟨[0x11, c.code], rfl, ⟨_, rfl, rfl⟩, fun _ => rfl⟩
  | loadDConst d rel => cases h; exact ⟨[0x0a, d.code], rfl, ⟨_, rfl, rfl⟩, fun _ => rfl⟩
  | _ => cases h

lemma Inst.encode_setAbs {i : Inst} {field : Nat} (h : i.abs64Field? = some field) :
    ∃ pre, pre.length = field ∧ (∃ old, i.encode = pre ++ old ∧ old.length = 8) ∧
      ∀ x, (i.setAbs x).encode = pre ++ Encoding.uint64 x := by
  cases i with
  | jmpAbs target => cases h; exact ⟨[0x13], rfl, ⟨_, rfl, rfl⟩, fun _ => rfl⟩
  | call target => cases h; exact ⟨[0x16], rfl, ⟨_, rfl, rfl⟩, fun _ => rfl⟩
  | movImm d imm => cases h; exact ⟨[0x05, d.code], rfl, ⟨_, rfl, rfl⟩, fun _ => rfl⟩
  | _ => cases h

/-- The bytes of an instruction that refer to a target: where they begin, and how many they are. -/
def RelocTarget.field? (t : RelocTarget) (i : Inst) : Option (Nat × Nat) :=
  match t with
  | .label _ => i.rel32Field?.map (·, 4)
  | .labelAddress _ | .external _ => i.abs64Field?.map (·, 8)

def RelocTarget.label? : RelocTarget → Option Label
  | .label l | .labelAddress l => some l
  | .external _ => none

/-- A piece of assembled code: an instruction, whose field may still be open, or data. -/
inductive Piece where
  | inst (i : Inst) (target : Option RelocTarget)
  | data (bs : List UInt8)

namespace Piece

def plain (is : List Inst) : List Piece := is.map fun i => inst i none

def bytes : Piece → List UInt8
  | inst i _ => i.encode
  | data bs => bs

def relocs (offset : Nat) : Piece → List Reloc
  | inst i (some target) => [{ offset, length := i.encode.length, target }]
  | _ => []

def relocsFrom : Nat → List Piece → List Reloc
  | _, [] => []
  | offset, p :: ps => p.relocs offset ++ relocsFrom (offset + p.bytes.length) ps

lemma relocsFrom_append (offset : Nat) (ps qs : List Piece) :
    relocsFrom offset (ps ++ qs) =
      relocsFrom offset ps ++ relocsFrom (offset + (ps.flatMap bytes).length) qs := by
  induction ps generalizing offset with
  | nil => rfl
  | cons p ps ih => simp [relocsFrom, ih, Nat.add_assoc]

def Within (o : Nat) (qs : List Piece) (k : Nat) (ps : List Piece) : Prop :=
  ∃ pre post, qs = pre ++ (ps ++ post) ∧ o + (pre.flatMap bytes).length = k

namespace Within

variable {o k : Nat} {p : Piece} {ps qs rs : List Piece}

lemma refl (o : Nat) (ps : List Piece) : Within o ps o ps := ⟨[], [], by simp, by simp⟩

lemma left (h : Within o qs k ps) (rs : List Piece) : Within o (qs ++ rs) k ps := by
  obtain ⟨pre, post, rfl, hk⟩ := h
  exact ⟨pre, post ++ rs, by simp, hk⟩

lemma right (h : Within (o + (rs.flatMap bytes).length) qs k ps) : Within o (rs ++ qs) k ps := by
  obtain ⟨pre, post, rfl, hk⟩ := h
  exact ⟨rs ++ pre, post, by simp, by rw [← hk]; simp [Nat.add_assoc]⟩

/-- The end of the pieces is one of the places between them. -/
lemma stop (o : Nat) (ps : List Piece) : Within o ps (o + (ps.flatMap bytes).length) [] :=
  ⟨ps, [], by simp, rfl⟩

lemma head (h : Within o qs k (p :: ps)) : Within o qs k [p] := by
  obtain ⟨pre, post, rfl, hk⟩ := h
  exact ⟨pre, ps ++ post, by simp, hk⟩

lemma tail (h : Within o qs k (p :: ps)) : Within o qs (k + p.bytes.length) ps := by
  obtain ⟨pre, post, rfl, hk⟩ := h
  exact ⟨pre ++ [p], post, by simp, by rw [← hk]; simp [Nat.add_assoc]⟩

/-- What comes after the first of the pieces. -/
lemma after (h : Within o qs k (ps ++ rs)) : Within o qs (k + (ps.flatMap bytes).length) rs := by
  obtain ⟨pre, post, rfl, hk⟩ := h
  exact ⟨pre ++ ps, post, by simp, by rw [← hk]; simp [Nat.add_assoc]⟩

/-- There is but one piece in a stretch of one. -/
lemma singleton {i j : Inst} {t u : Option RelocTarget} (h : Within o [.inst i t] k [.inst j u]) :
    k = o ∧ j = i ∧ u = t := by
  obtain ⟨pre, post, hqs, rfl⟩ := h
  obtain ⟨rfl, hqs⟩ : pre = [] ∧ Piece.inst i t = .inst j u := by
    cases pre <;> simp_all
  cases hqs
  exact ⟨by simp, rfl, rfl⟩

lemma not_nil (h : Within o [] k [p]) : False := by
  obtain ⟨pre, post, hqs, -⟩ := h
  simp at hqs

lemma mem (h : Within o qs k [p]) : p ∈ qs := by
  obtain ⟨pre, post, rfl, -⟩ := h
  simp

lemma cons_iff {q : Piece} :
    Within o (q :: qs) k [p] ↔ (k = o ∧ p = q) ∨ Within (o + q.bytes.length) qs k [p] := by
  refine ⟨fun h => ?_, ?_⟩
  · obtain ⟨_ | ⟨r, pre⟩, post, hqs, rfl⟩ := h
    · obtain ⟨rfl, -⟩ := List.cons.inj hqs
      exact .inl ⟨by simp, rfl⟩
    · obtain ⟨rfl, rfl⟩ := List.cons.inj hqs
      exact .inr ⟨pre, post, rfl, by simp [Nat.add_assoc]⟩
  · rintro (⟨rfl, rfl⟩ | h)
    · exact (refl k [p]).left qs
    · exact (show Within (o + ([q].flatMap bytes).length) qs k [p] by simpa using h).right

/-- A piece of two stretches is in one of them. -/
lemma append (h : Within o (qs ++ rs) k [p]) :
    Within o qs k [p] ∨ Within (o + (qs.flatMap bytes).length) rs k [p] := by
  obtain ⟨pre, post, hqs, hk⟩ := h
  rcases List.append_eq_append_iff.mp hqs with ⟨as, rfl, hrs⟩ | ⟨as, rfl, has⟩
  · exact .inr ⟨as, post, hrs, by rw [← hk]; simp [Nat.add_assoc]⟩
  · rcases as with _ | ⟨q, as⟩
    · exact .inr ⟨[], post, has.symm, by rw [← hk]; simp⟩
    · obtain ⟨rfl, -⟩ := List.cons.inj has
      exact .inl ⟨pre, as, by simp, hk⟩

/-- What is at a place before the end is a piece. -/
lemma exists_piece (h : Within o qs k []) (hk : k < o + (qs.flatMap bytes).length) :
    ∃ p, Within o qs k [p] := by
  obtain ⟨pre, post, rfl, rfl⟩ := h
  rcases post with _ | ⟨p, post⟩
  · simp at hk
  · exact ⟨p, pre, post, by simp, rfl⟩

end Within

/-- A field that is recorded is that of an instruction among the pieces. -/
lemma mem_relocsFrom {ps : List Piece} {o : Nat} {r : Reloc} :
    r ∈ relocsFrom o ps ↔ ∃ i, Within o ps r.offset [.inst i (some r.target)] ∧
      r.length = i.encode.length := by
  induction ps generalizing o with
  | nil => simpa [relocsFrom] using fun i h => h.not_nil.elim
  | cons p ps ih =>
    rw [relocsFrom, List.mem_append, ih]
    simp only [Within.cons_iff, or_and_right, exists_or]
    refine or_congr_left ?_
    obtain ⟨k, n, t⟩ := r
    rcases p with ⟨i, _ | u⟩ | bs
    · simp [relocs]
    · simp only [relocs, List.mem_singleton, Reloc.mk.injEq, Piece.inst.injEq, Option.some.injEq]
      constructor
      · rintro ⟨rfl, rfl, rfl⟩
        exact ⟨i, ⟨rfl, rfl, rfl⟩, rfl⟩
      · rintro ⟨_, ⟨rfl, rfl, rfl⟩, rfl⟩
        exact ⟨rfl, rfl, rfl⟩
    · simp [relocs]

end Piece

namespace Assembler

/-- From `a` to `a'` the pieces `qs` were added at the end. -/
structure Adds (a a' : Assembler) (qs : List Piece) : Prop where
  code : a'.code.data.toList = a.code.data.toList ++ qs.flatMap Piece.bytes
  relocs : a'.relocs.toList = a.relocs.toList ++ Piece.relocsFrom a.offset qs

variable {a a' a'' : Assembler} {ps qs : List Piece}

lemma length_data (a : Assembler) : a.code.data.toList.length = a.offset := by
  rw [Array.length_toList, ByteArray.size_data, offset]

lemma Adds.offset (h : a.Adds a' qs) : a'.offset = a.offset + (qs.flatMap Piece.bytes).length := by
  rw [← length_data, h.code, List.length_append, length_data]

lemma Adds.of_eq (hc : a'.code = a.code) (hr : a'.relocs = a.relocs) : a.Adds a' [] :=
  ⟨by simp [hc], by simp [hr, Piece.relocsFrom]⟩

lemma Adds.trans (h : a.Adds a' ps) (h' : a'.Adds a'' qs) : a.Adds a'' (ps ++ qs) where
  code := by rw [h'.code, h.code, List.append_assoc, List.flatMap_append]
  relocs := by rw [h'.relocs, h.relocs, List.append_assoc, Piece.relocsFrom_append, h.offset]

lemma adds_emit (a : Assembler) (i : Inst) : a.Adds (a.emit i) [.inst i none] where
  code := by
    rw [emit]
    dsimp only
    rw [Bytes.data_append]
    split <;> simp [Piece.bytes]
  relocs := by
    rw [emit]
    dsimp only
    split <;> simp [Piece.relocsFrom, Piece.relocs]

lemma labels_emit (a : Assembler) (i : Inst) : (a.emit i).labels = a.labels := by
  rw [emit]
  dsimp only
  split <;> rfl

lemma adds_emitReloc {i : Inst} {t : RelocTarget} (hf : RelocTarget.fits t i = true) :
    ∃ a', a.emitReloc i t = .ok a' ∧ a.Adds a' [.inst i (some t)] ∧ a'.labels = a.labels := by
  rw [emitReloc, if_pos hf]
  refine ⟨_, rfl, ⟨?_, ?_⟩, ?_⟩
  · dsimp only
    rw [Bytes.data_append]
    split <;> simp [Piece.bytes]
  · dsimp only
    split <;> simp [Piece.relocsFrom, Piece.relocs, offset]
  · dsimp only
    split <;> rfl

/-- Bytes that are no instructions. -/
lemma adds_data (a : Assembler) (bs : List UInt8) : a.Adds (a.emitData bs) [.data bs] :=
  ⟨by simp [emitData, Bytes.data_append, Piece.bytes],
    by simp [emitData, Piece.relocsFrom, Piece.relocs]⟩

end Assembler

section Linking

variable (labels : Array (Option Nat)) (base : UInt64)

def offsetOf (l : Label) : Nat := (labels[l]?.join).getD 0

def Piece.resolve (stop : Nat) (i : Inst) : Option RelocTarget → Inst
  | none => i
  | some (.label l) => i.setRel (Int32.ofInt ((offsetOf labels l : Int) - stop))
  | some (.labelAddress l) => i.setAbs (base + UInt64.ofNat (offsetOf labels l))
  | some (.external t) => i.setAbs t.address

def Piece.linked : Nat → List Piece → List UInt8
  | _, [] => []
  | offset, .inst i target :: ps =>
    (resolve labels base (offset + i.encode.length) i target).encode ++
      linked (offset + i.encode.length) ps
  | offset, .data bs :: ps => bs ++ linked (offset + bs.length) ps

end Linking

def Piece.Fits : Piece → Prop
  | .inst i (some t) => Assembler.RelocTarget.fits t i = true
  | _ => True

/-- The target of a field is there, and the instruction has a field for it. -/
def Piece.Links (labels : Array (Option Nat)) (p : Piece) : Prop :=
  p.Fits ∧ ∀ i t l, p = .inst i (some t) → t = .label l ∨ t = .labelAddress l →
    ∃ o, labels[l]? = some (some o) ∧ o < 2147483648

namespace Piece

variable (labels : Array (Option Nat)) (base : UInt64)

/-- Filling in a field changes the end of its instruction, and nothing of its length. -/
lemma encode_resolve {i : Inst} {t : RelocTarget} (h : (inst i (some t)).Fits) (stop : Nat) :
    ∃ head old new, t.field? i = some (head.length, old.length) ∧ i.encode = head ++ old ∧
      old.length = new.length ∧ (resolve labels base stop i (some t)).encode = head ++ new := by
  rcases t with l | l | t
  · obtain ⟨field, hf⟩ := Option.isSome_iff_exists.mp h
    obtain ⟨head, rfl, ⟨old, he, hold⟩, hset⟩ := Inst.encode_setRel hf
    exact ⟨head, old, _, by simp [RelocTarget.field?, hf, hold], he, hold.trans rfl, hset _⟩
  · obtain ⟨field, hf⟩ := Option.isSome_iff_exists.mp h
    obtain ⟨head, rfl, ⟨old, he, hold⟩, hset⟩ := Inst.encode_setAbs hf
    exact ⟨head, old, _, by simp [RelocTarget.field?, hf, hold], he, hold.trans rfl, hset _⟩
  · obtain ⟨field, hf⟩ := Option.isSome_iff_exists.mp h
    obtain ⟨head, rfl, ⟨old, he, hold⟩, hset⟩ := Inst.encode_setAbs hf
    exact ⟨head, old, _, by simp [RelocTarget.field?, hf, hold], he, hold.trans rfl, hset _⟩

lemma length_resolve {i : Inst} {t : Option RelocTarget} (h : (inst i t).Fits) (stop : Nat) :
    (resolve labels base stop i t).encode.length = i.encode.length := by
  rcases t with _ | t
  · rfl
  obtain ⟨head, old, new, -, he, hlen, hnew⟩ := encode_resolve labels base h stop
  rw [hnew, he, List.length_append, List.length_append, hlen]

lemma linked_append (offset : Nat) (ps qs : List Piece) :
    linked labels base offset (ps ++ qs) = linked labels base offset ps ++
      linked labels base (offset + (ps.flatMap bytes).length) qs := by
  induction ps generalizing offset with
  | nil => rfl
  | cons p ps ih => cases p <;> simp [linked, ih, bytes, Nat.add_assoc]

lemma length_linked {ps : List Piece} (h : ∀ p ∈ ps, p.Fits) (offset : Nat) :
    (linked labels base offset ps).length = (ps.flatMap bytes).length := by
  induction ps generalizing offset with
  | nil => rfl
  | cons p ps ih =>
    have ih := fun o => ih (fun q hq => h q (List.mem_cons_of_mem _ hq)) o
    cases p with
    | inst i t =>
      have hl := length_resolve labels base (h _ List.mem_cons_self) (offset + i.encode.length)
      rw [linked, List.length_append, hl, ih]
      simp [bytes]
    | data bs => simp [linked, ih, bytes]

end Piece

namespace Link

variable {a : Assembler} (base : UInt64)

lemma labelOffset_eq {l : Label} {o : Nat} (h : a.labels[l]? = some (some o)) :
    a.labelOffset l = .ok o := by
  simp [Assembler.labelOffset, Breach.get, h, Breach.lift, bind, Except.bind, Except.mapError, pure,
    Except.pure]

lemma offsetOf_of_labelOffset {l : Label} {o : Nat} (h : a.labelOffset l = .ok o) :
    offsetOf a.labels l = o := by
  rcases hl : a.labels[l]? with _ | _ | o' <;>
    simp [Assembler.labelOffset, Breach.get, hl, Breach.lift, bind, Except.bind, Except.mapError, pure,
      Except.pure] at h
  simp [offsetOf, hl, h]

section Field

variable {code code' : ByteArray} {pre post : List UInt8} {i : Inst} {t : RelocTarget}

lemma fillField_ok (h : code.data.toList = pre ++ (i.encode ++ post))
    (hfits : (Piece.inst i (some t)).Fits)
    (hf : fillField a base code { offset := pre.length, length := i.encode.length, target := t } =
      .ok code') :
    code'.data.toList = pre ++ ((Piece.resolve a.labels base (pre.length + i.encode.length) i
      (some t)).encode ++ post) := by
  -- the field is overwritten, and what comes before it in the instruction stays
  have hfill : ∀ (head old new : List UInt8), i.encode = head ++ old → old.length = new.length →
      (Bytes.overwrite code (pre.length + head.length) new).data.toList =
        pre ++ ((head ++ new) ++ post) := by
    intro head old new he hlen
    have hcode : code.data.toList = (pre ++ head) ++ (old ++ post) := by
      rw [h, he]
      simp
    have hw := Bytes.data_overwrite hcode hlen.symm
    rw [List.length_append] at hw
    rw [hw]
    simp
  rw [fillField, Inst.decodeAt_of_bytes h] at hf
  dsimp only at hf
  rcases t with l | l | t
  · obtain ⟨field, hi⟩ := Option.isSome_iff_exists.mp hfits
    obtain ⟨head, rfl, ⟨old, he, hold⟩, hset⟩ := Inst.encode_setRel hi
    simp only [fillDistance, hi] at hf
    rcases ho : a.labelOffset l with e | o
    · rw [ho] at hf
      cases hf
    · rw [ho] at hf
      simp only [bind, Except.bind, pure, Except.pure] at hf
      split at hf
      · cases hf
      · rw [← Except.ok.inj hf, hfill head old _ he (by rw [hold]; rfl), Piece.resolve, hset,
          offsetOf_of_labelOffset ho]
  · obtain ⟨field, hi⟩ := Option.isSome_iff_exists.mp hfits
    obtain ⟨head, rfl, ⟨old, he, hold⟩, hset⟩ := Inst.encode_setAbs hi
    dsimp only at hf
    rcases ho : a.labelOffset l with e | o
    · rw [ho] at hf
      cases hf
    · simp only [ho, bind, Except.bind, fillAddress, hi] at hf
      rw [← Except.ok.inj hf, hfill head old _ he (by rw [hold]; rfl), Piece.resolve, hset, offsetOf_of_labelOffset ho]
  · obtain ⟨field, hi⟩ := Option.isSome_iff_exists.mp hfits
    obtain ⟨head, rfl, ⟨old, he, hold⟩, hset⟩ := Inst.encode_setAbs hi
    simp only [fillAddress, hi] at hf
    rw [← Except.ok.inj hf, hfill head old _ he (by rw [hold]; rfl), Piece.resolve, hset]

lemma fillField_succeeds (h : code.data.toList = pre ++ (i.encode ++ post))
    (hl : (Piece.inst i (some t)).Links a.labels) (hlt : pre.length + i.encode.length < 2147483648) :
    ∃ code', fillField a base code { offset := pre.length, length := i.encode.length, target := t } =
      .ok code' := by
  obtain ⟨hfits, hlabel⟩ := hl
  have hlabel := fun l => hlabel i t l rfl
  rw [fillField, Inst.decodeAt_of_bytes h]
  dsimp only
  rcases t with l | l | t
  · obtain ⟨field, hi⟩ := Option.isSome_iff_exists.mp hfits
    obtain ⟨o, ho, holt⟩ := hlabel l (.inl rfl)
    have hrange : ¬((o : Int) - (pre.length + i.encode.length : Nat) < -2147483648 ∨
        2147483647 < (o : Int) - (pre.length + i.encode.length : Nat)) := by
      omega
    simp only [fillDistance, hi, labelOffset_eq ho, bind, Except.bind, pure, Except.pure]
    rw [if_neg hrange]
    exact ⟨_, rfl⟩
  · obtain ⟨field, hi⟩ := Option.isSome_iff_exists.mp hfits
    obtain ⟨o, ho, -⟩ := hlabel l (.inr rfl)
    simp only [labelOffset_eq ho, bind, Except.bind, fillAddress, hi]
    exact ⟨_, rfl⟩
  · obtain ⟨field, hi⟩ := Option.isSome_iff_exists.mp hfits
    simp only [fillAddress, hi]
    exact ⟨_, rfl⟩

end Field

lemma fillFrom_ok {ps : List Piece} {code code' : ByteArray} (pre : List UInt8)
    (h : code.data.toList = pre ++ ps.flatMap Piece.bytes) (hfits : ∀ p ∈ ps, p.Fits)
    (hf : (Piece.relocsFrom pre.length ps).foldlM (fillField a base) code = .ok code') :
    code'.data.toList = pre ++ Piece.linked a.labels base pre.length ps := by
  induction ps generalizing code pre with
  | nil =>
    cases hf
    exact h
  | cons p ps ih =>
    have hps := fun q hq => hfits q (List.mem_cons_of_mem p hq)
    rw [List.flatMap_cons] at h
    -- what is left when the piece is done
    have hrest : ∀ {c : ByteArray} {new : List UInt8}, new.length = p.bytes.length →
        c.data.toList = pre ++ (new ++ ps.flatMap Piece.bytes) →
        (Piece.relocsFrom (pre.length + p.bytes.length) ps).foldlM (fillField a base) c =
          .ok code' →
        code'.data.toList =
          pre ++ (new ++ Piece.linked a.labels base (pre.length + p.bytes.length) ps) := by
      intro c new hnew hc hf
      have hlen : (pre ++ new).length = pre.length + p.bytes.length := by simp [hnew]
      rw [← hlen] at hf ⊢
      rw [← List.append_assoc]
      exact ih _ (by rw [hc, List.append_assoc]) hps hf
    rcases p with ⟨i, _ | t⟩ | bs
    · exact hrest rfl h hf
    · rw [Piece.relocsFrom, Piece.relocs, List.foldlM_append, List.foldlM_cons] at hf
      rcases hc : fillField a base code ⟨pre.length, i.encode.length, t⟩ with e | c
      · rw [hc] at hf
        cases hf
      · rw [hc] at hf
        have hfit := hfits _ List.mem_cons_self
        exact hrest (Piece.length_resolve a.labels base hfit _) (fillField_ok base h hfit hc) hf
    · exact hrest rfl h hf

/-- The fields of a piece whose targets are near can be filled in, and then it is as long as before. -/
lemma exists_filled {p : Piece} {code : ByteArray} {pre post : List UInt8}
    (h : code.data.toList = pre ++ (p.bytes ++ post)) (hp : p.Links a.labels)
    (hlt : pre.length + p.bytes.length < 2147483648) :
    ∃ c new, new.length = p.bytes.length ∧ c.data.toList = pre ++ (new ++ post) ∧
      (p.relocs pre.length).foldlM (fillField a base) code = .ok c := by
  rcases p with ⟨i, _ | t⟩ | bs
  · exact ⟨code, _, rfl, h, rfl⟩
  · obtain ⟨c, hc⟩ := fillField_succeeds base h hp hlt
    refine ⟨c, _, Piece.length_resolve a.labels base hp.1 _, fillField_ok base h hp.1 hc, ?_⟩
    rw [Piece.relocs, List.foldlM_cons, hc]
    rfl
  · exact ⟨code, _, rfl, h, rfl⟩

/-- The fields of pieces whose targets are near can be filled in. -/
lemma fillFrom_succeeds {ps : List Piece} {code : ByteArray} (pre : List UInt8)
    (h : code.data.toList = pre ++ ps.flatMap Piece.bytes) (hl : ∀ p ∈ ps, p.Links a.labels)
    (hlt : pre.length + (ps.flatMap Piece.bytes).length < 2147483648) :
    ∃ code', (Piece.relocsFrom pre.length ps).foldlM (fillField a base) code = .ok code' := by
  induction ps generalizing code pre with
  | nil => exact ⟨code, rfl⟩
  | cons p ps ih =>
    obtain ⟨hp, hps⟩ := List.forall_mem_cons.mp hl
    rw [List.flatMap_cons] at h hlt
    rw [List.length_append] at hlt
    obtain ⟨c, new, hnew, hc, hfill⟩ := exists_filled base h hp (by omega)
    have hlen : (pre ++ new).length = pre.length + p.bytes.length := by simp [hnew]
    rw [Piece.relocsFrom, List.foldlM_append, hfill, ← hlen]
    exact ih _ (by rw [hc, List.append_assoc]) hps (by omega)

section Fields

variable {ps : List Piece} (hcode : a.code.data.toList = ps.flatMap Piece.bytes)
  (hrelocs : a.relocs.toList = Piece.relocsFrom 0 ps)
include hcode hrelocs

/-- Linked code is its pieces with their fields filled in. -/
theorem fillFields_ok (hfits : ∀ p ∈ ps, p.Fits) {code : ByteArray}
    (hf : fillFields a base = .ok code) :
    code.data.toList = Piece.linked a.labels base 0 ps := by
  unfold fillFields at hf
  rw [← Array.foldlM_toList, hrelocs] at hf
  exact fillFrom_ok base [] hcode hfits hf

/-- Code that is not too long can be linked if all labels it refers to are attached. -/
theorem fillFields_succeeds (hl : ∀ p ∈ ps, p.Links a.labels) (hlt : a.code.size < 2147483648) :
    ∃ code, fillFields a base = .ok code := by
  have hsize : (ps.flatMap Piece.bytes).length = a.code.size := by
    rw [← hcode, Array.length_toList, ByteArray.size_data]
  unfold fillFields
  rw [← Array.foldlM_toList, hrelocs]
  exact fillFrom_succeeds base [] hcode hl (by simpa [hsize] using hlt)

end Fields

/-- What linked code has where a piece was assembled. -/
lemma bytes_linked {ps qs : List Piece} {i : Inst} {t : Option RelocTarget} {code : ByteArray}
    {labels : Array (Option Nat)}
    (h : code.data.toList = Piece.linked labels base 0 (ps ++ .inst i t :: qs))
    (hfits : ∀ p ∈ ps ++ .inst i t :: qs, p.Fits) {offset : Nat}
    (ho : offset = (ps.flatMap Piece.bytes).length) :
    ∃ pre post, pre.length = offset ∧ code.data.toList =
      pre ++ ((Piece.resolve labels base (offset + i.encode.length) i t).encode ++ post) := by
  rw [Piece.linked_append, Piece.linked, Nat.zero_add, ← ho] at h
  refine ⟨_, _, ?_, h⟩
  rw [ho]
  exact Piece.length_linked labels base (fun p hp => hfits p (List.mem_append_left _ hp)) 0

/-- What is decoded there. -/
lemma decodeAt_linked {ps qs : List Piece} {i : Inst} {t : Option RelocTarget} {code : ByteArray}
    {labels : Array (Option Nat)}
    (h : code.data.toList = Piece.linked labels base 0 (ps ++ .inst i t :: qs))
    (hfits : ∀ p ∈ ps ++ .inst i t :: qs, p.Fits) {offset : Nat}
    (ho : offset = (ps.flatMap Piece.bytes).length) :
    Inst.decodeAt code offset =
      .ok (Piece.resolve labels base (offset + i.encode.length) i t, i.encode.length) := by
  obtain ⟨pre, post, rfl, hcode⟩ := bytes_linked base h hfits ho
  rw [Inst.decodeAt_of_bytes hcode, Piece.length_resolve labels base (hfits _ (by simp))]

end Link
end Speculation
