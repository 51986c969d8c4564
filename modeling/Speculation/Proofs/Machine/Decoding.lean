import Speculation.Proofs.Machine.Encoding

/-!
Decoding reads no further than the instruction it finds.

A reader is local if the bytes behind those it takes change nothing of what it says: with more
bytes to follow it says the same, unless it ran out of them. All readers of operands are local, so
a piece of an instruction can only be truncated, and instructions in a row are found one after
the other.
-/

namespace Speculation

namespace Encoding

/-- More bytes change nothing of what the reader says, unless it ran out of them. -/
structure Local {α : Type} (p : Reader α) : Prop where
  ok {bs rest : List UInt8} {x : α} (h : p.run bs = .ok (x, rest)) (more : List UInt8) :
    p.run (bs ++ more) = .ok (x, rest ++ more)
  error {bs : List UInt8} {e : DecodeFault} (h : p.run bs = .error e) (he : e ≠ .truncated)
    (more : List UInt8) : p.run (bs ++ more) = .error e

namespace Local

variable {α β : Type} {p : Reader α} {f : α → Reader β}

protected lemma pure (x : α) : Local (pure x) where
  ok h more := by
    cases h
    rfl
  error h := by cases h

protected lemma bind (hp : Local p) (hf : ∀ x, Local (f x)) : Local (p >>= f) where
  ok {bs rest y} h more := by
    rw [StateT.run_bind] at h ⊢
    rcases hx : p.run bs with e | ⟨x, rest'⟩
    · rw [hx] at h
      cases h
    · rw [hx] at h
      rw [hp.ok hx more]
      exact (hf x).ok h more
  error {bs e} h he more := by
    rw [StateT.run_bind] at h ⊢
    rcases hx : p.run bs with e' | ⟨x, rest'⟩
    · rw [hx] at h
      cases h
      rw [hp.error hx he more]
      rfl
    · rw [hx] at h
      rw [hp.ok hx more]
      exact (hf x).error h he more

protected lemma map {f : α → β} (hp : Local p) : Local (f <$> p) := by
  rw [← bind_pure_comp]
  exact hp.bind fun x => .pure (f x)

lemma throw (e : DecodeFault) : Local (throw e : Reader α) where
  ok h := by cases h
  error h he more := by
    cases h
    rfl

lemma invalid : Local (invalid : Reader α) := .throw _

lemma byte : Local byte where
  ok {bs rest x} h more := by
    cases bs with
    | nil => cases h
    | cons b bs =>
      cases h
      rfl
  error {bs e} h he := by
    cases bs with
    | nil =>
      cases h
      exact absurd rfl he
    | cons b bs => cases h

lemma takeBytes (n : Nat) : Local (takeBytes n) where
  ok {bs rest x} h more := by
    change (if bs.length < n then _ else _) = _ at h
    change (if (bs ++ more).length < n then _ else _) = _
    split at h
    · cases h
    · rename_i hn
      cases h
      have hle : n ≤ bs.length := Nat.le_of_not_lt hn
      rw [if_neg (by rw [List.length_append]; omega), List.take_append_of_le_length hle,
        List.drop_append_of_le_length hle]
  error {bs e} h he := by
    change (if bs.length < n then _ else _) = _ at h
    split at h
    · cases h
      exact absurd rfl he
    · cases h

lemma word (n : Nat) : Local (word n) := (takeBytes n).map

lemma readInt32 : Local readInt32 :=
  (word 4).map (f := fun n => (UInt32.ofNat n).toInt32)

lemma readUInt32 : Local readUInt32 := (word 4).map

lemma readUInt64 : Local readUInt64 := (word 8).map

lemma choice (all : List α) : Local (choice all) := by
  refine byte.bind fun b => ?_
  split
  · exact .pure _
  · exact .invalid

lemma gprOf (b : UInt8) : Local (gprOf b) := by
  unfold Encoding.gprOf
  split
  · exact .pure _
  · exact .invalid

lemma gpr : Local gpr := byte.bind gprOf

lemma fpr : Local fpr := by
  refine byte.bind fun b => ?_
  split
  · exact .pure _
  · exact .invalid

lemma readAddress : Local readAddress := by
  refine gpr.bind fun base => byte.bind fun i => byte.bind fun scale => readInt32.bind fun disp => ?_
  split
  · exact .pure _
  · refine (gprOf i).bind fun index => ?_
    split
    · exact .pure _
    · exact .invalid

lemma readOperand : Local readOperand := by
  refine byte.bind fun tag => ?_
  split
  · exact gpr.bind fun _ => .pure _
  · split
    · exact readInt32.bind fun _ => .pure _
    · exact .invalid

/-- Whatever the opcode, the operands are made up of these parts. -/
lemma operands (opcode : UInt8) : Local (operands opcode) := by
  unfold Encoding.operands
  split
  case h_7 =>
    refine byte.bind fun b => ?_
    split
    · exact gpr.bind fun _ => readAddress.bind fun _ => .pure _
    · exact .invalid
  case h_34 => exact .throw _
  all_goals with_reducible repeat' first
    | exact .pure _
    | refine Local.bind ?_ fun _ => ?_
    | exact byte
    | exact gpr
    | exact fpr
    | exact choice _
    | exact word _
    | exact readInt32
    | exact readUInt32
    | exact readUInt64
    | exact readAddress
    | exact readOperand

end Local

end Encoding

namespace Inst

open Encoding

/-- The reader of a whole instruction. -/
lemma local_decode : Local (do operands (← byte)) := Local.byte.bind Local.operands

/-- A piece of an instruction that is not all of it runs out of bytes. -/
lemma decode_of_beginning {i : Inst} {bs more : List UInt8} (h : i.encode = bs ++ more)
    (hmore : more ≠ []) : decode bs = .error .truncated := by
  have hall : decode (bs ++ more) = .ok (i, []) := by
    rw [← h, ← List.append_nil i.encode]
    exact decode_encode i []
  rcases hd : decode bs with e | ⟨j, rest⟩
  · by_cases he : e = .truncated
    · rw [he]
    · have hfault := (local_decode.error hd he more).symm.trans hall
      cases hfault
  · have hok := (local_decode.ok hd more).symm.trans hall
    have hrest : rest ++ more = [] := (Prod.mk.inj (Except.ok.inj hok)).2
    exact absurd (List.append_eq_nil_iff.mp hrest).2 hmore

def decodeMany (code : ByteArray) (offset : Nat) : Nat → Except DecodeError (List (Inst × Nat))
  | 0 => .ok []
  | n + 1 => do
    let (i, length) ← decodeAt code offset
    return (i, length) :: (← decodeMany code (offset + length) n)

/-- Instructions in a row are found again, each with its length. -/
lemma decodeMany_of_bytes {code : ByteArray} {is : List Inst} {pre post : List UInt8}
    (h : code.data.toList = pre ++ (is.flatMap encode ++ post)) :
    decodeMany code pre.length is.length = .ok (is.map fun i => (i, i.encode.length)) := by
  induction is generalizing pre with
  | nil => rfl
  | cons i is ih =>
    rw [List.flatMap_cons, List.append_assoc] at h
    have hrest := ih (h.trans (List.append_assoc ..).symm)
    rw [List.length_append] at hrest
    simp only [List.length_cons, decodeMany, decodeAt_of_bytes h, hrest, bind, Except.bind, pure,
      Except.pure, List.map_cons]

/-- Of a piece of an instruction at the end of code nothing can be decoded. -/
lemma decodeAt_of_beginning {code : ByteArray} {i : Inst} {pre bs more : List UInt8}
    (hcode : code.data.toList = pre ++ bs) (h : i.encode = bs ++ more) (hmore : more ≠ []) :
    decodeAt code pre.length = .error ⟨.truncated, pre.length⟩ := by
  have hlen : bs.length ≤ maxLength := by
    have hle := i.length_encode_le
    rw [h, List.length_append] at hle
    omega
  unfold decodeAt
  rw [Bytes.window_eq, hcode, List.drop_left, List.take_of_length_le hlen]
  simp only [decode_of_beginning h hmore]

/-- No instruction begins like another one. -/
lemma eq_of_isPrefixOf {i j : Inst} (h : i.encode <+: j.encode) : i = j := by
  obtain ⟨more, hj⟩ := h
  have hi := decode_encode i more
  have hall := decode_encode j []
  rw [hj, ← List.append_nil j.encode, hall] at hi
  cases hi
  rfl

/-- Encoding can be undone, and an encoded instruction shows where it ends: instructions in a row
are found again between any other bytes, each with its length; a proper beginning of an instruction
is truncated, wherever it stands; and so none is the beginning of another. -/
theorem encoding_self_delimiting :
    (∀ (is : List Inst) (pre post : List UInt8),
      decodeMany ⟨(pre ++ (is.flatMap encode ++ post)).toArray⟩ pre.length is.length =
        .ok (is.map fun i => (i, i.encode.length))) ∧
    (∀ (i : Inst) (n : Fin i.encode.length) (pre : List UInt8),
      decodeAt ⟨(pre ++ i.encode.take n).toArray⟩ pre.length =
        .error ⟨.truncated, pre.length⟩) ∧
    ∀ i j : Inst, i.encode <+: j.encode ↔ i = j := by
  refine ⟨fun is pre post => decodeMany_of_bytes rfl, fun i n pre => ?_, fun i j => ⟨eq_of_isPrefixOf, ?_⟩⟩
  · refine decodeAt_of_beginning rfl (List.take_append_drop n i.encode).symm fun hnil => ?_
    have hlen := congrArg List.length hnil
    rw [List.length_drop, List.length_nil] at hlen
    omega
  · rintro rfl
    exact List.prefix_refl _

end Inst
end Speculation
