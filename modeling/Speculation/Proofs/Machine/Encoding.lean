import Speculation.Machine.Encoding
import Mathlib.Tactic.Lemma
import Mathlib.Tactic.FinCases

/-!
Decoding takes back what encoding laid out.

`Reads p bs x` says that a reader takes exactly the bytes `bs` and makes `x` of them, whatever
follows. Readers are put together as the bytes they read are, and so every instruction is read
from its own bytes.
-/

namespace Speculation

namespace Bytes

@[simp] lemma length_ofNat (n x : Nat) : (ofNat n x).length = n := by
  induction n generalizing x with
  | zero => rfl
  | succ n ih => simp [ofNat, ih]

lemma toNat_ofNat (n x : Nat) : toNat (ofNat n x) = x % Nat.pow 256 n := by
  induction n generalizing x with
  | zero => simp [ofNat, toNat, Nat.mod_one]
  | succ n ih =>
    have h : (UInt8.ofNat (x % 256)).toNat = x % 256 := by
      simp
    rw [ofNat, toNat, ih, h, Nat.pow_eq, Nat.pow_eq, Nat.pow_succ, Nat.mul_comm _ 256, Nat.mod_mul]

lemma toNat_ofNat_of_lt {n x : Nat} (h : x < Nat.pow 256 n) : toNat (ofNat n x) = x := by
  rw [toNat_ofNat, Nat.mod_eq_of_lt h]

lemma data_append (code : ByteArray) (bs : List UInt8) :
    (append code bs).data.toList = code.data.toList ++ bs := by
  unfold append
  induction bs generalizing code with
  | nil => simp
  | cons b bs ih => rw [List.foldl_cons, ih]; simp

lemma window_eq (code : ByteArray) (offset n : Nat) :
    window code offset n = (code.data.toList.drop offset).take n := by
  unfold window
  rw [ByteArray.data_extract, Array.toList_extract, List.extract_eq_take_drop]
  simp

lemma size_overwrite (code : ByteArray) (o : Nat) (bs : List UInt8) :
    (overwrite code o bs).size = code.size := by
  induction bs generalizing code o with
  | nil => rfl
  | cons b bs ih =>
    rw [overwrite, ih]
    split
    · rw [← ByteArray.size_data, ByteArray.data_set, Array.size_set, ByteArray.size_data]
    · rfl

end Bytes

namespace Encoding

/-- The reader takes the bytes `bs` and makes `x` of them. -/
def Reads {α : Type} (p : Reader α) (bs : List UInt8) (x : α) : Prop :=
  ∀ rest, p.run (bs ++ rest) = .ok (x, rest)

namespace Reads

variable {α β : Type} {p : Reader α} {f : α → Reader β} {bs cs : List UInt8} {x : α} {y : β}

protected lemma pure (x : α) : Reads (pure x) [] x := fun _ => rfl

protected lemma bind (hp : Reads p bs x) (hf : Reads (f x) cs y) : Reads (p >>= f) (bs ++ cs) y := by
  intro rest
  rw [StateT.run_bind, List.append_assoc, hp]
  exact hf rest

/-- What comes after takes no bytes. -/
lemma done (hp : Reads p bs x) (hf : Reads (f x) [] y) : Reads (p >>= f) bs y := by
  have h := hp.bind hf
  rwa [List.append_nil] at h

lemma last {f : α → β} (hp : Reads p bs x) : Reads (p >>= fun a => Pure.pure (f a)) bs (f x) :=
  hp.done (Reads.pure _)

/-- A reader whose result is only wrapped up. -/
protected lemma map {f : α → β} (hp : Reads p bs x) : Reads (f <$> p) bs (f x) := by
  intro rest
  rw [StateT.run_map, hp]
  rfl

protected lemma byte (b : UInt8) : Reads byte [b] b := fun _ => rfl

lemma takeBytes (bs : List UInt8) : Reads (takeBytes bs.length) bs bs := by
  intro rest
  have h : ¬(bs ++ rest).length < bs.length := by simp
  show (if (bs ++ rest).length < bs.length then _ else _) = _
  rw [if_neg h]
  simp

lemma word {n x : Nat} (h : x < Nat.pow 256 n) : Reads (word n) (Bytes.ofNat n x) x := by
  intro rest
  have ht := takeBytes (Bytes.ofNat n x) rest
  rw [Bytes.length_ofNat] at ht
  unfold Encoding.word
  rw [StateT.run_bind, ht]
  show Except.ok (Bytes.toNat (Bytes.ofNat n x), rest) = _
  rw [Bytes.toNat_ofNat_of_lt h]

lemma uint32 (x : UInt32) : Reads readUInt32 (Encoding.uint32 x) x := by
  have h := (word (n := 4) x.toNat_lt).map (f := UInt32.ofNat)
  rwa [UInt32.ofNat_toNat] at h

lemma int32 (i : Int32) : Reads readInt32 (Encoding.int32 i) i := by
  have h := (word (n := 4) i.toUInt32.toNat_lt).map (f := fun n => (UInt32.ofNat n).toInt32)
  rw [UInt32.ofNat_toNat] at h
  exact h

lemma uint64 (x : UInt64) : Reads readUInt64 (Encoding.uint64 x) x := by
  have h := (word (n := 8) x.toNat_lt).map (f := UInt64.ofNat)
  rwa [UInt64.ofNat_toNat] at h

/-- A member of an enumeration is read from the byte of its place. -/
lemma choice {all : List α} {b : UInt8} (h : all[b.toNat]? = some x) :
    Reads (choice all) [b] x := by
  refine (Reads.byte b).bind ?_
  rw [h]
  exact Reads.pure x

lemma gprOf (r : Gpr) : Reads (gprOf r.code) [] r := by
  intro rest
  have hr : r.code.toNat = r.val := by
    have := r.isLt
    simp only [Gpr.code, UInt8.toNat_ofNat']
    omega
  unfold Encoding.gprOf
  rw [dif_pos (by rw [hr]; exact r.isLt)]
  simp only [hr]
  rfl

lemma gpr (r : Gpr) : Reads gpr [r.code] r := (Reads.byte r.code).bind (gprOf r)

lemma fpr (r : Fpr) : Reads fpr [r.code] r := by
  refine (Reads.byte r.code).bind fun rest => ?_
  have hr : r.code.toNat = r.val := by
    have := r.isLt
    simp only [Fpr.code, UInt8.toNat_ofNat']
    omega
  rw [dif_pos (by rw [hr]; exact r.isLt)]
  simp only [hr]
  rfl

lemma address (a : Address) : Reads readAddress (Encoding.address a) a := by
  obtain ⟨base, _ | ⟨i, scale⟩, disp⟩ := a
  · exact (gpr base).bind ((Reads.byte noIndex).bind ((Reads.byte 0).bind (int32 disp).last))
  · have hi : i.code ≠ noIndex := by
      revert i
      decide
    have hs : (UInt8.ofNat scale.val).toNat = scale.val := by
      have := scale.isLt
      simp only [UInt8.toNat_ofNat']
      omega
    refine (gpr base).bind ((Reads.byte i.code).bind ((Reads.byte (UInt8.ofNat scale.val)).bind
      ((int32 disp).done ?_)))
    rw [if_neg hi]
    refine (gprOf i).bind ?_
    rw [dif_pos (by rw [hs]; exact scale.isLt)]
    simp only [hs]
    exact Reads.pure _

lemma operand (o : Operand) : Reads readOperand (Encoding.operand o) o := by
  cases o with
  | reg r => exact (Reads.byte 0).bind (gpr r).last
  | imm i => exact (Reads.byte 1).bind (int32 i).last

lemma width (w : Width) : Reads (Encoding.choice Width.all) [w.code] w :=
  choice (by cases w <;> rfl)

lemma size (z : Size) : Reads (Encoding.choice Size.all) [z.code] z :=
  choice (by cases z <;> rfl)

lemma aluOp (o : AluOp) : Reads (Encoding.choice AluOp.all) [o.code] o :=
  choice (by cases o <;> rfl)

lemma doubleOp (o : DoubleOp) : Reads (Encoding.choice DoubleOp.all) [o.code] o :=
  choice (by cases o <;> rfl)

lemma doubleUnary (o : DoubleUnary) : Reads (Encoding.choice DoubleUnary.all) [o.code] o :=
  choice (by cases o <;> rfl)

lemma cond (c : Cond) : Reads (Encoding.choice Cond.all) [c.code] c :=
  choice (by cases c <;> rfl)

end Reads

lemma reads_operands (i : Inst) :
    ∃ opcode bs, i.encode = opcode :: bs ∧ Reads (operands opcode) bs i := by
  cases i with
  | nop => exact ⟨_, _, rfl, Reads.pure _⟩
  | breakpoint => exact ⟨_, _, rfl, Reads.pure _⟩
  | ret => exact ⟨_, _, rfl, Reads.pure _⟩
  | mov dst src => exact ⟨_, _, rfl, (Reads.gpr dst).bind (Reads.gpr src).last⟩
  | zext32 dst src => exact ⟨_, _, rfl, (Reads.gpr dst).bind (Reads.gpr src).last⟩
  | movImm dst imm => exact ⟨_, _, rfl, (Reads.gpr dst).bind (Reads.uint64 imm).last⟩
  | load width signed dst addr =>
    refine ⟨_, _, rfl, (Reads.byte _).bind ?_⟩
    have hw : Width.all[((width.code ||| if signed then 0x10 else 0) &&& 0xf).toNat]? =
        some width := by
      cases width <;> cases signed <;> rfl
    have hs : ((width.code ||| if signed then 0x10 else 0) &&& 0x10 != 0) = signed := by
      cases width <;> cases signed <;> rfl
    simp only [hw, hs]
    exact (Reads.gpr dst).bind (Reads.address addr).last
  | store width src addr =>
    exact ⟨_, _, rfl, (Reads.width width).bind ((Reads.gpr src).bind (Reads.address addr).last)⟩
  | loadD dst addr => exact ⟨_, _, rfl, (Reads.fpr dst).bind (Reads.address addr).last⟩
  | storeD src addr => exact ⟨_, _, rfl, (Reads.fpr src).bind (Reads.address addr).last⟩
  | loadDConst dst rel => exact ⟨_, _, rfl, (Reads.fpr dst).bind (Reads.int32 rel).last⟩
  | alu size op dst src =>
    exact ⟨_, _, rfl, (Reads.size size).bind ((Reads.aluOp op).bind
      ((Reads.gpr dst).bind (Reads.operand src).last))⟩
  | neg32 dst => exact ⟨_, _, rfl, (Reads.gpr dst).last⟩
  | div32 rem dst src =>
    refine ⟨_, _, rfl, (Reads.byte _).bind ?_⟩
    have hr : ((if rem then (1 : UInt8) else 0) != 0) = rem := by cases rem <;> rfl
    simp only [hr]
    exact (Reads.gpr dst).bind (Reads.gpr src).last
  | cmp size lhs rhs =>
    exact ⟨_, _, rfl, (Reads.size size).bind ((Reads.gpr lhs).bind (Reads.operand rhs).last)⟩
  | test size lhs rhs =>
    exact ⟨_, _, rfl, (Reads.size size).bind ((Reads.gpr lhs).bind (Reads.operand rhs).last)⟩
  | setCond cond dst => exact ⟨_, _, rfl, (Reads.cond cond).bind (Reads.gpr dst).last⟩
  | jcc cond rel => exact ⟨_, _, rfl, (Reads.cond cond).bind (Reads.int32 rel).last⟩
  | jmp rel => exact ⟨_, _, rfl, (Reads.int32 rel).last⟩
  | jmpAbs target => exact ⟨_, _, rfl, (Reads.uint64 target).last⟩
  | jmpReg src => exact ⟨_, _, rfl, (Reads.gpr src).last⟩
  | jmpTable table index =>
    have ht := Reads.word (n := 2) table.toNat_lt
    have h := ht.bind (f := fun n => Inst.jmpTable (UInt16.ofNat n) <$> gpr)
      (Reads.gpr index).map
    rw [UInt16.ofNat_toNat] at h
    exact ⟨_, _, rfl, h⟩
  | call target => exact ⟨_, _, rfl, (Reads.uint64 target).last⟩
  | setExit index => exact ⟨_, _, rfl, (Reads.uint32 index).last⟩
  | watchpoint id => exact ⟨_, _, rfl, (Reads.uint32 id).last⟩
  | dalu op dst src =>
    exact ⟨_, _, rfl, (Reads.doubleOp op).bind ((Reads.fpr dst).bind (Reads.fpr src).last)⟩
  | dunary op dst src =>
    exact ⟨_, _, rfl, (Reads.doubleUnary op).bind ((Reads.fpr dst).bind (Reads.fpr src).last)⟩
  | dmov dst src => exact ⟨_, _, rfl, (Reads.fpr dst).bind (Reads.fpr src).last⟩
  | dcmp lhs rhs => exact ⟨_, _, rfl, (Reads.fpr lhs).bind (Reads.fpr rhs).last⟩
  | cvtIntToD dst src => exact ⟨_, _, rfl, (Reads.fpr dst).bind (Reads.gpr src).last⟩
  | cvtDToInt dst src => exact ⟨_, _, rfl, (Reads.gpr dst).bind (Reads.fpr src).last⟩
  | movGToD dst src => exact ⟨_, _, rfl, (Reads.fpr dst).bind (Reads.gpr src).last⟩
  | movDToG dst src => exact ⟨_, _, rfl, (Reads.gpr dst).bind (Reads.fpr src).last⟩

end Encoding

namespace Inst

/-- An instruction is read back from its bytes, and nothing beyond them is. -/
theorem decode_encode (i : Inst) (rest : List UInt8) :
    decode (i.encode ++ rest) = .ok (i, rest) := by
  obtain ⟨opcode, bs, he, hr⟩ := Encoding.reads_operands i
  have h := (Encoding.Reads.byte opcode).bind hr
  rw [he]
  exact h rest

lemma length_encode_pos (i : Inst) : 0 < i.encode.length := by
  cases i <;> simp [encode]

lemma length_encode_le (i : Inst) : i.encode.length ≤ maxLength := by
  have ha : ∀ a, (Encoding.address a).length = 7 := by
    rintro ⟨base, _ | ⟨i, scale⟩, disp⟩ <;> rfl
  have ho : ∀ o, (Encoding.operand o).length ≤ 6 := by
    intro o
    cases o <;> simp [Encoding.operand, Encoding.int32]
  cases i <;> simp [encode, maxLength, ha, Encoding.int32, Encoding.uint32, Encoding.uint64]
  all_goals grind

/-- The instruction that stands at an offset of the code is the one that is decoded there. -/
theorem decodeAt_of_bytes {code : ByteArray} {pre post : List UInt8} {i : Inst}
    (h : code.data.toList = pre ++ (i.encode ++ post)) :
    decodeAt code pre.length = .ok (i, i.encode.length) := by
  have hw : Bytes.window code pre.length maxLength =
      i.encode ++ post.take (maxLength - i.encode.length) := by
    rw [Bytes.window_eq, h, List.drop_left, List.take_append, List.take_of_length_le
      (length_encode_le i)]
  unfold decodeAt
  simp only [hw, decode_encode, List.length_append, Nat.add_sub_cancel]

end Inst
end Speculation
