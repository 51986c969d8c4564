import Speculation.Proofs.Machine.Decoding
import Speculation.Proofs.Memory

/-!
Decoding brings bytes to a standard form.

Several byte strings can stand for one instruction: the decoder looks at five bits of the width
byte of a load, tells the remainder flag of a division from zero only, and passes over the scale of
an address that has no index. `Inst.Free` names these places. Everything else is as encoding lays
it out, so an instruction can be written over the bytes it was read from.
-/

namespace Speculation

namespace Bytes

lemma ofNat_toNat (bs : List UInt8) : ofNat bs.length (toNat bs) = bs := by
  induction bs with
  | nil => rfl
  | cons b bs ih =>
    have hb := b.toNat_lt
    have hlow : (b.toNat + 256 * toNat bs) % 256 = b.toNat := by omega
    have hhigh : (b.toNat + 256 * toNat bs) / 256 = toNat bs := by omega
    rw [List.length_cons, toNat, ofNat, hlow, hhigh, UInt8.ofNat_toNat, ih]

end Bytes

/-- Whether the byte `b` may stand at a place of the instruction where encoding has another one:
three bits of the width byte of a load, the flag of a remainder, and the scale without an index are
not looked at. -/
def Inst.Free (i : Inst) (place : Nat) (b : UInt8) : Prop :=
  match i with
  | .load width signed _ addr =>
    place = 1 ∧ b &&& 0x1f = width.code ||| (if signed then 0x10 else 0) ∨
      place = 5 ∧ addr.index = none
  | .store _ _ addr => place = 5 ∧ addr.index = none
  | .loadD _ addr | .storeD _ addr => place = 4 ∧ addr.index = none
  | .div32 true _ _ => place = 1 ∧ 1 < b
  | _ => False

/-- The bytes are those of the instruction but for what is free. -/
structure Inst.Spells (i : Inst) (bs : List UInt8) : Prop where
  length : bs.length = i.encode.length
  place (k : Nat) : bs[k]? = i.encode[k]? ∨ ∃ b, bs[k]? = some b ∧ i.Free k b

namespace Inst.Spells

variable {i : Inst} {bs : List UInt8}

lemma encode (i : Inst) : i.Spells i.encode := ⟨rfl, fun _ => .inl rfl⟩

/-- A free place may hold another byte. -/
lemma set (h : i.Spells bs) {n : Nat} {b : UInt8} (hb : i.Free n b) : i.Spells (bs.set n b) where
  length := by rw [List.length_set, h.length]
  place k := by
    rcases eq_or_ne n k with rfl | hk
    · rcases Nat.lt_or_ge n bs.length with hn | hn
      · exact .inr ⟨b, List.getElem?_set_self hn, hb⟩
      · rw [List.set_eq_of_length_le hn]
        exact h.place n
    · rw [List.getElem?_set_ne hk]
      exact h.place k

lemma setScale {a : Address} {scale : UInt8} (head : List UInt8)
    (h : i.Spells (head ++ Encoding.address a))
    (hindexed : a.index ≠ none → (Encoding.address a).set 2 scale = Encoding.address a)
    (hfree : a.index = none → i.Free (head.length + 2) scale) :
    i.Spells (head ++ (Encoding.address a).set 2 scale) := by
  by_cases ha : a.index = none
  · have hset := h.set (hfree ha)
    rwa [List.set_append_right _ _ (by omega), Nat.add_sub_cancel_left] at hset
  · rwa [hindexed ha]

end Inst.Spells

namespace Encoding

/-- If the codes of an enumeration count its members, the member at a place has the place's code. -/
lemma code_eq {α : Type} {all : List α} {code : α → UInt8} {b : UInt8} {x : α}
    (h : all.map code = (List.range all.length).map UInt8.ofNat) (hx : all[b.toNat]? = some x) :
    code x = b := by
  have hlt : b.toNat < all.length := (List.getElem?_eq_some_iff.mp hx).1
  have hcode : (all.map code)[b.toNat]? = some (code x) := by rw [List.getElem?_map, hx]; rfl
  rw [h, List.getElem?_map, List.getElem?_range hlt, Option.map_some, UInt8.ofNat_toNat] at hcode
  exact (Option.some.inj hcode).symm

/-- The low half of a width byte and its sign bit are all that is looked at. -/
lemma width_sign {b : UInt8} {width : Width} (h : Width.all[(b &&& 0xf).toNat]? = some width) :
    b &&& 0x1f = width.code ||| if b &&& 0x10 != 0 then 0x10 else 0 := by
  have hall : ∀ n : Fin 256, (UInt8.ofNat n &&& 0x1f) =
      UInt8.ofNat n &&& 0xf ||| if UInt8.ofNat n &&& 0x10 != 0 then 0x10 else 0 := by
    decide +kernel
  have hb := hall ⟨b.toNat, b.toNat_lt⟩
  rw [UInt8.ofNat_toNat] at hb
  have hcode : width.code = b &&& 0xf := code_eq rfl h
  rw [hb, hcode]

lemma flag_cases (b : UInt8) : b = 0 ∨ b = 1 ∨ 1 < b := by
  rcases Nat.lt_or_ge 1 b.toNat with h | h
  · exact .inr (.inr (UInt8.lt_iff_toNat_lt.mpr h))
  · rcases Nat.le_one_iff_eq_zero_or_eq_one.mp h with h | h
    · exact .inl (UInt8.toNat_inj.mp h)
    · exact .inr (.inl (UInt8.toNat_inj.mp h))

/-- Whatever the reader makes of bytes, it makes of the first of them alone, and is in `R` with
these. -/
def Takes {α : Type} (p : Reader α) (R : α → List UInt8 → Prop) : Prop :=
  ∀ ⦃bs rest : List UInt8⦄ ⦃x : α⦄, p.run bs = .ok (x, rest) →
    ∃ taken, bs = taken ++ rest ∧ Reads p taken x ∧ R x taken

namespace Takes

variable {α β : Type} {p : Reader α} {f : α → Reader β} {R : α → List UInt8 → Prop}
  {S : β → List UInt8 → Prop}

protected lemma pure {x : α} (h : R x []) : Takes (pure x) R := by
  intro bs rest y hy
  cases hy
  exact ⟨[], rfl, Reads.pure x, h⟩

protected lemma bind (hp : Takes p R)
    (hf : ∀ x taken, R x taken → Takes (f x) fun y more => S y (taken ++ more)) :
    Takes (p >>= f) S := by
  intro bs rest y h
  rw [StateT.run_bind] at h
  rcases hx : p.run bs with e | ⟨x, rest'⟩
  · rw [hx] at h
    cases h
  · rw [hx] at h
    obtain ⟨taken, rfl, hreads, hR⟩ := hp hx
    obtain ⟨more, rfl, hmore, hS⟩ := hf x taken hR h
    exact ⟨taken ++ more, (List.append_assoc ..).symm, hreads.bind hmore, hS⟩

lemma step {enc : α → List UInt8} (hp : Takes p fun x bs => bs = enc x)
    (hf : ∀ x, Takes (f x) fun y more => S y (enc x ++ more)) : Takes (p >>= f) S := by
  refine hp.bind ?_
  rintro x _ rfl
  exact hf x

/-- The last operand is taken. -/
lemma last {enc : α → List UInt8} {g : α → β} (hp : Takes p fun x bs => bs = enc x)
    (h : ∀ x, S (g x) (enc x)) : Takes (p >>= fun x => Pure.pure (g x)) S :=
  hp.step fun x => .pure ((List.append_nil (enc x)).symm ▸ h x)

lemma throw (e : DecodeFault) : Takes (throw e : Reader α) R := by
  intro bs rest x h
  cases h

lemma invalid : Takes (invalid : Reader α) R := throw _

lemma byte : Takes byte fun b bs => bs = [b] := by
  intro bs rest b h
  cases bs with
  | nil => cases h
  | cons _ bs =>
    cases h
    exact ⟨[b], rfl, Reads.byte b, rfl⟩

lemma takeBytes (n : Nat) : Takes (takeBytes n) fun taken bs => bs = taken ∧ taken.length = n := by
  intro bs rest taken h
  change (if bs.length < n then _ else _) = _ at h
  split at h
  · cases h
  · rename_i hn
    cases h
    have hlength : (bs.take n).length = n := List.length_take_of_le (by omega)
    have hreads := Reads.takeBytes (bs.take n)
    rw [hlength] at hreads
    exact ⟨bs.take n, (List.take_append_drop n bs).symm, hreads, rfl, hlength⟩

lemma word (n : Nat) : Takes (word n) fun x bs => bs = Bytes.ofNat n x ∧ x < Nat.pow 256 n := by
  refine (takeBytes n).bind ?_
  rintro taken bs ⟨rfl, rfl⟩
  refine .pure ⟨?_, Memory.toNat_bytes_lt bs⟩
  rw [List.append_nil, Bytes.ofNat_toNat]

lemma uint32 : Takes readUInt32 fun x bs => bs = Encoding.uint32 x := by
  refine (word 4).bind ?_
  rintro x bs ⟨rfl, hx⟩
  refine .pure ?_
  rw [List.append_nil, Encoding.uint32, UInt32.toNat_ofNat_of_lt' hx]

lemma int32 : Takes readInt32 fun i bs => bs = Encoding.int32 i := by
  refine (word 4).bind ?_
  rintro x bs ⟨rfl, hx⟩
  refine .pure ?_
  rw [List.append_nil, Encoding.int32, UInt32.toUInt32_toInt32, UInt32.toNat_ofNat_of_lt' hx]

lemma uint64 : Takes readUInt64 fun x bs => bs = Encoding.uint64 x := by
  refine (word 8).bind ?_
  rintro x bs ⟨rfl, hx⟩
  refine .pure ?_
  rw [List.append_nil, Encoding.uint64, UInt64.toNat_ofNat_of_lt' hx]

/-- Members of an enumeration are read from their codes only, if these count them. -/
lemma choice {all : List α} {code : α → UInt8}
    (h : all.map code = (List.range all.length).map UInt8.ofNat) :
    Takes (choice all) fun x bs => bs = [code x] := by
  refine byte.step fun b => ?_
  split
  · rename_i x hx
    refine .pure ?_
    rw [List.append_nil, code_eq h hx]
  · exact .invalid

lemma mono {R' : α → List UInt8 → Prop} (hp : Takes p R) (h : ∀ x bs, R x bs → R' x bs) :
    Takes p R' := by
  intro bs rest x hx
  obtain ⟨taken, rfl, hreads, hR⟩ := hp hx
  exact ⟨taken, rfl, hreads, h _ _ hR⟩

lemma gprOf (b : UInt8) : Takes (gprOf b) fun r bs => bs = [] ∧ b = r.code := by
  unfold Encoding.gprOf
  split
  · refine .pure ⟨rfl, ?_⟩
    simp [Gpr.code]
  · exact .invalid

lemma gpr : Takes gpr fun r bs => bs = [r.code] :=
  byte.step fun b => (gprOf b).mono fun r bs ⟨hbs, hb⟩ => by rw [hbs, hb]; rfl

lemma fpr : Takes fpr fun r bs => bs = [r.code] := by
  refine byte.step fun b => ?_
  split
  · refine .pure ?_
    simp [Fpr.code]
  · exact .invalid

/-- Only the scale of an address without an index can be another one than encoding writes. -/
lemma readAddress {g : Address → β}
    (h : ∀ a scale, (a.index ≠ none → (address a).set 2 scale = address a) →
      S (g a) ((address a).set 2 scale)) :
    Takes (readAddress >>= fun a => Pure.pure (g a)) S := by
  have haddress : Takes Encoding.readAddress fun a bs => ∃ scale, bs = (address a).set 2 scale ∧
      (a.index ≠ none → (address a).set 2 scale = address a) := by
    refine gpr.step fun base => byte.step fun i => byte.step fun scale => int32.step fun disp => ?_
    split
    · rename_i hi
      refine .pure ⟨scale, ?_, fun h => absurd rfl h⟩
      rw [hi, List.append_nil]
      rfl
    · refine (gprOf i).bind ?_
      rintro index _ ⟨rfl, rfl⟩
      split
      · refine .pure ⟨scale, ?_, fun _ => ?_⟩
        · rw [List.append_nil, List.append_nil]
          rfl
        · simp [address]
      · exact .invalid
  refine haddress.bind ?_
  rintro a _ ⟨scale, rfl, ha⟩
  refine .pure ?_
  rw [List.append_nil]
  exact h a scale ha

lemma readOperand : Takes readOperand fun o bs => bs = operand o := by
  refine byte.step fun tag => ?_
  split
  · rename_i h
    exact gpr.last fun r => by rw [h]; rfl
  · split
    · rename_i h
      exact int32.last fun i => by rw [h]; rfl
    · exact .invalid

lemma width : Takes (Encoding.choice Width.all) fun w bs => bs = [w.code] := choice rfl

lemma size : Takes (Encoding.choice Size.all) fun z bs => bs = [z.code] := choice rfl

lemma aluOp : Takes (Encoding.choice AluOp.all) fun o bs => bs = [o.code] := choice rfl

lemma doubleOp : Takes (Encoding.choice DoubleOp.all) fun o bs => bs = [o.code] := choice rfl

lemma doubleUnary : Takes (Encoding.choice DoubleUnary.all) fun o bs => bs = [o.code] := choice rfl

lemma cond : Takes (Encoding.choice Cond.all) fun c bs => bs = [c.code] := choice rfl

/-- Whatever the opcode, what is read is spelled by the opcode and the bytes taken. -/
lemma operands (opcode : UInt8) :
    Takes (operands opcode) fun i bs => i.Spells (opcode :: bs) := by
  suffices h : ∀ n, opcode = UInt8.ofNat n → n = opcode.toNat →
      Takes (Encoding.operands opcode) fun i bs => i.Spells (UInt8.ofNat n :: bs) by
    have hop := h opcode.toNat (UInt8.ofNat_toNat).symm rfl
    rwa [UInt8.ofNat_toNat] at hop
  intro n hop hn
  unfold Encoding.operands
  rw [← hn]
  split
  case h_1 => exact .pure (.encode .nop)
  case h_2 => exact .pure (.encode .breakpoint)
  case h_3 => exact .pure (.encode .ret)
  case h_4 => exact gpr.step fun dst => gpr.last fun src => .encode (.mov dst src)
  case h_5 => exact gpr.step fun dst => gpr.last fun src => .encode (.zext32 dst src)
  case h_6 => exact gpr.step fun dst => uint64.last fun imm => .encode (.movImm dst imm)
  case h_7 =>
    refine byte.step fun b => ?_
    split
    · rename_i width hwidth
      refine gpr.step fun dst => readAddress fun addr scale haddr => ?_
      have hspells := (Inst.Spells.encode (.load width (b &&& 0x10 != 0) dst addr)).set
        (n := 1) (b := b) (.inl ⟨rfl, width_sign hwidth⟩)
      exact hspells.setScale [_, _, _] haddr fun h => .inr ⟨rfl, h⟩
    · exact .invalid
  case h_8 =>
    exact width.step fun width => gpr.step fun src => readAddress fun addr scale haddr =>
      (Inst.Spells.encode (.store width src addr)).setScale [_, _, _] haddr
        fun h => ⟨rfl, h⟩
  case h_9 =>
    exact fpr.step fun dst => readAddress fun addr scale haddr =>
      (Inst.Spells.encode (.loadD dst addr)).setScale [_, _] haddr fun h => ⟨rfl, h⟩
  case h_10 =>
    exact fpr.step fun src => readAddress fun addr scale haddr =>
      (Inst.Spells.encode (.storeD src addr)).setScale [_, _] haddr fun h => ⟨rfl, h⟩
  case h_11 => exact fpr.step fun dst => int32.last fun rel => .encode (.loadDConst dst rel)
  case h_12 =>
    exact size.step fun size => aluOp.step fun op => gpr.step fun dst => readOperand.last fun src =>
      .encode (.alu size op dst src)
  case h_13 => exact gpr.last fun dst => .encode (.neg32 dst)
  case h_14 =>
    refine byte.step fun flag => gpr.step fun dst => gpr.last fun src => ?_
    rcases flag_cases flag with rfl | rfl | hflag
    · exact .encode (.div32 false dst src)
    · exact .encode (.div32 true dst src)
    · have hne : (flag != 0) = true := bne_iff_ne.mpr fun h => by rw [h] at hflag; cases hflag
      rw [hne]
      exact (Inst.Spells.encode (.div32 true dst src)).set (n := 1) ⟨rfl, hflag⟩
  case h_15 =>
    exact size.step fun size => gpr.step fun lhs => readOperand.last fun rhs =>
      .encode (.cmp size lhs rhs)
  case h_16 =>
    exact size.step fun size => gpr.step fun lhs => readOperand.last fun rhs =>
      .encode (.test size lhs rhs)
  case h_17 => exact cond.step fun cond => gpr.last fun dst => .encode (.setCond cond dst)
  case h_18 => exact cond.step fun cond => int32.last fun rel => .encode (.jcc cond rel)
  case h_19 => exact int32.last fun rel => .encode (.jmp rel)
  case h_20 => exact uint64.last fun target => .encode (.jmpAbs target)
  case h_21 => exact gpr.last fun src => .encode (.jmpReg src)
  case h_22 => 
    refine (word 2).bind ?_
    rintro table _ ⟨rfl, htable⟩
    refine gpr.last fun index => ?_
    have h := Inst.Spells.encode (.jmpTable (UInt16.ofNat table) index)
    rwa [Inst.encode, UInt16.toNat_ofNat_of_lt' htable] at h
  case h_23 => exact uint64.last fun target => .encode (.call target)
  case h_24 => exact uint32.last fun index => .encode (.setExit index)
  case h_25 => exact uint32.last fun id => .encode (.watchpoint id)
  case h_26 =>
    exact doubleOp.step fun op => fpr.step fun dst => fpr.last fun src => .encode (.dalu op dst src)
  case h_27 =>
    exact doubleUnary.step fun op => fpr.step fun dst => fpr.last fun src =>
      .encode (.dunary op dst src)
  case h_28 => exact fpr.step fun dst => fpr.last fun src => .encode (.dmov dst src)
  case h_29 => exact fpr.step fun lhs => fpr.last fun rhs => .encode (.dcmp lhs rhs)
  case h_30 => exact fpr.step fun dst => gpr.last fun src => .encode (.cvtIntToD dst src)
  case h_31 => exact gpr.step fun dst => fpr.last fun src => .encode (.cvtDToInt dst src)
  case h_32 => exact fpr.step fun dst => gpr.last fun src => .encode (.movGToD dst src)
  case h_33 => exact gpr.step fun dst => fpr.last fun src => .encode (.movDToG dst src)
  case h_34 => exact .throw _

end Takes
end Encoding

namespace Inst

/-- What decodes is spelled by the bytes taken, and read from them alone. -/
lemma exists_spelled {bs rest : List UInt8} {i : Inst} (h : decode bs = .ok (i, rest)) :
    ∃ taken, bs = taken ++ rest ∧ (∀ more, decode (taken ++ more) = .ok (i, more)) ∧
      i.Spells taken := by
  have htakes : Encoding.Takes (do Encoding.operands (← Encoding.byte)) Spells :=
    Encoding.Takes.byte.step fun opcode => Encoding.Takes.operands opcode
  exact htakes h

/-- Bytes that read as an instruction whatever follows are decoded where they stand. -/
lemma decodeAt_of_reads {code : ByteArray} {offset : Nat} {i : Inst} {taken post : List UInt8}
    (hcode : code.data.toList.drop offset = taken ++ post) (hlength : taken.length ≤ maxLength)
    (h : ∀ more, decode (taken ++ more) = .ok (i, more)) :
    decodeAt code offset = .ok (i, taken.length) := by
  have hwindow : Bytes.window code offset maxLength =
      taken ++ post.take (maxLength - taken.length) := by
    rw [Bytes.window_eq, hcode, List.take_append, List.take_of_length_le hlength]
  unfold decodeAt
  simp only [hwindow, h, List.length_append, Nat.add_sub_cancel]

/-- Decoding at an offset finds the instruction in the bytes it takes there. -/
lemma exists_spelled_at {code : ByteArray} {offset len : Nat} {i : Inst}
    (h : decodeAt code offset = .ok (i, len)) :
    ∃ taken post, code.data.toList.drop offset = taken ++ post ∧ taken.length = len ∧
      (∀ more, decode (taken ++ more) = .ok (i, more)) ∧ i.Spells taken := by
  simp only [decodeAt] at h
  split at h
  · rename_i j rest hdecode
    obtain ⟨rfl, rfl⟩ := Prod.mk.inj (Except.ok.inj h)
    obtain ⟨taken, hwindow, hreads, hspells⟩ := exists_spelled hdecode
    refine ⟨taken, rest ++ (code.data.toList.drop offset).drop maxLength, ?_, ?_, hreads, hspells⟩
    · rw [← List.append_assoc, ← hwindow, Bytes.window_eq, List.take_append_drop]
    · rw [hwindow, List.length_append, Nat.add_sub_cancel]
  · cases h

/-- Decoding brings bytes to a standard form. Of what decodes at an offset, the encoding is as
long as the bytes taken and differs from them in free places only; it decodes to the same
instruction wherever it stands; and so do the bytes taken. -/
theorem decodeAt_canonical {code : ByteArray} {offset len : Nat} {i : Inst}
    (h : decodeAt code offset = .ok (i, len)) :
    (1 ≤ len ∧ len ≤ 10) ∧ offset + len ≤ code.size ∧ i.encode.length = len ∧
      (∀ pre post : List UInt8,
        decodeAt ⟨(pre ++ (i.encode ++ post)).toArray⟩ pre.length = .ok (i, len)) ∧
      (∀ k < len, code[offset + k]? = i.encode[k]? ∨
        ∃ b, code[offset + k]? = some b ∧ i.Free k b) ∧
      ∀ code' : ByteArray, Bytes.window code' offset len = Bytes.window code offset len →
        decodeAt code' offset = .ok (i, len) := by
  obtain ⟨taken, post, hcode, rfl, hreads, hspells⟩ := exists_spelled_at h
  have hpos : 1 ≤ taken.length := hspells.length ▸ i.length_encode_pos
  have hle : taken.length ≤ maxLength := hspells.length ▸ i.length_encode_le
  refine ⟨⟨hpos, hle⟩, ?_, hspells.length.symm, ?_, ?_, ?_⟩
  · have hlen := congrArg List.length hcode
    rw [List.length_drop, List.length_append, Array.length_toList] at hlen
    have hsize : code.data.size = code.size := rfl
    omega
  · intro pre post
    rw [hspells.length]
    exact decodeAt_of_bytes rfl
  · intro k hk
    have hplace : code[offset + k]? = taken[k]? := by
      rw [Bytes.getElem?_eq_data, ← Array.getElem?_toList, ← List.getElem?_drop, hcode,
        List.getElem?_append_left hk]
    rw [hplace]
    exact hspells.place k
  · intro code' hwindow
    rw [Bytes.window_eq, Bytes.window_eq, hcode, List.take_left] at hwindow
    have hcode' : code'.data.toList.drop offset =
        taken ++ (code'.data.toList.drop offset).drop taken.length := by
      conv_lhs => rw [← List.take_append_drop taken.length (code'.data.toList.drop offset), hwindow]
    exact decodeAt_of_reads hcode' hle hreads

/-- A load whose width byte has its unused bits set and whose scale is out of range, although there
is no index. -/
theorem decodeAt_canonical_load :
    let code : ByteArray := ⟨#[0x00, 0x06, 0xf3, 0x01, 0x02, 0xff, 0x07, 0x10, 0x00, 0x00, 0x00]⟩
    let i : Inst := .load .w64 true ⟨1, by decide⟩ (Address.ofBase ⟨2, by decide⟩ 16)
    decodeAt code 1 = .ok (i, 10) ∧ i.encode.length = 10 ∧
      decodeAt ⟨i.encode.toArray⟩ 0 = .ok (i, 10) := by
  intro code i
  have hdecode : decodeAt code 1 = .ok (i, 10) := by decide +kernel
  obtain ⟨-, -, hlength, hback, -⟩ := decodeAt_canonical hdecode
  have h := hback [] []
  rw [List.nil_append, List.append_nil] at h
  exact ⟨hdecode, hlength, h⟩

end Inst
end Speculation
