import Speculation.Machine.Listing
import Speculation.Proofs.Machine.Canonical
import Speculation.Proofs.Execution.Steps

/-!
What a listing shows of any bytes.

`Listing.Covers` says that entries stand for all bytes from an offset on: one decoded instruction
after the other, and after them at most one stretch of data, from the first offset that does not
decode to the end. The entries of a listing do so whatever the bytes are (`covers_entries`). Their
text is another matter. The target of a branch is written as an offset in the code, and a
displacement can aim below the start, where there is none.
-/

namespace Speculation

deriving instance DecidableEq for ListingEntry

namespace ListingEntry

def offset : ListingEntry → Nat
  | .inst offset _ _ => offset
  | .data offset _ => offset

def length : ListingEntry → Nat
  | .inst _ length _ => length
  | .data _ length => length

def bytes (code : ByteArray) (e : ListingEntry) : List UInt8 :=
  Bytes.window code e.offset e.length

/-- The address that a displacement aims at from the end of its instruction, in code that starts at
`base`. Addresses wrap around. -/
def aim? (base : UInt64) : ListingEntry → Option UInt64
  | .inst offset length i =>
    i.displacement?.map fun rel => base + UInt64.ofNat (offset + length) + rel.toInt64.toUInt64
  | .data _ _ => none

def label (base : UInt64) (addresses : Bool) (e : ListingEntry) : String :=
  if addresses then
    Hex.padded 16 (base.toNat + e.offset) ++ " " ++ Hex.padded 5 e.offset ++ ": "
  else ""

/-- The text of an entry whose target, if it has one, is not below `base`. -/
def text (base : UInt64) (addresses : Bool) (e : ListingEntry) : String :=
  e.label base addresses ++
    match e with
    | .inst _ _ i => i.render ((e.aim? base).map fun t => Hex.number (t - base).toNat)
    | .data _ length => ".data " ++ toString length ++ " bytes"

end ListingEntry

namespace Listing

/-- The entries stand for the bytes of `code` from an offset on, without a gap. -/
inductive Covers (code : ByteArray) : Nat → List ListingEntry → Prop
  | finished : Covers code code.size []
  | data {offset : Nat} {e : DecodeError} :
    offset < code.size → Inst.decodeAt code offset = .error e →
    Covers code offset [.data offset (code.size - offset)]
  | inst {offset length : Nat} {i : Inst} {rest : List ListingEntry} :
    Inst.decodeAt code offset = .ok (i, length) → 0 < length → offset + length ≤ code.size →
    Covers code (offset + length) rest → Covers code offset (.inst offset length i :: rest)

/-! ### The entries -/

/-- An instruction takes at least one byte, and only bytes that are there. -/
lemma decodeAt_within {code : ByteArray} {offset length : Nat} {i : Inst}
    (h : Inst.decodeAt code offset = .ok (i, length)) :
    0 < length ∧ offset + length ≤ code.size := by
  obtain ⟨taken, post, hcode, rfl, -, hspells⟩ := Inst.exists_spelled_at h
  have hpos : 0 < taken.length := hspells.length ▸ i.length_encode_pos
  have hlength := congrArg List.length hcode
  rw [List.length_drop, List.length_append, Array.length_toList] at hlength
  have hsize : code.data.size = code.size := rfl
  exact ⟨hpos, by omega⟩

/-- With fuel for each byte that is left, splitting covers what is left. -/
lemma covers_split {code : ByteArray} (fuel : Nat) {offset : Nat} (hle : offset ≤ code.size)
    (hfuel : code.size ≤ offset + fuel) : Covers code offset (split code offset fuel) := by
  induction fuel generalizing offset with
  | zero =>
    obtain rfl : offset = code.size := by omega
    exact .finished
  | succ fuel ih =>
    rw [split]
    split
    case isTrue hend =>
      obtain rfl : offset = code.size := by omega
      exact .finished
    case isFalse hmore =>
      split
      case h_1 i length hdecode =>
        obtain ⟨hpos, hin⟩ := decodeAt_within hdecode
        exact .inst hdecode hpos hin (ih hin (by omega))
      case h_2 e hdecode => exact .data (by omega) hdecode

lemma covers_entries (code : ByteArray) : Covers code 0 (entries code) :=
  covers_split code.size (Nat.zero_le _) (by omega)

namespace Covers

variable {code : ByteArray} {offset : Nat} {es : List ListingEntry}

lemma bytes (h : Covers code offset es) :
    es.flatMap (·.bytes code) = code.data.toList.drop offset := by
  have hsize : code.data.toList.length = code.size := Array.length_toList
  induction h with
  | finished => rw [List.flatMap_nil, List.drop_of_length_le hsize.le]
  | @data offset =>
    rw [List.flatMap_singleton, ListingEntry.bytes, Bytes.window_eq]
    refine List.take_of_length_le ?_
    rw [List.length_drop, hsize]
    exact le_rfl
  | inst _ _ _ _ ih =>
    rw [List.flatMap_cons, ih, ListingEntry.bytes, Bytes.window_eq, ← List.drop_drop,
      ListingEntry.offset, ListingEntry.length, List.take_append_drop]

/-- No entry reaches beyond the code. -/
lemma within (h : Covers code offset es) :
    ∀ e ∈ es, e.offset + e.length ≤ code.size := by
  induction h with
  | finished => exact List.forall_mem_nil _
  | data hlt _ =>
    refine List.forall_mem_singleton.mpr ?_
    simp only [ListingEntry.offset, ListingEntry.length]
    omega
  | inst _ _ hin _ ih => exact List.forall_mem_cons.mpr ⟨hin, ih⟩

end Covers

/-! ### The text -/

section Text

variable {base : UInt64} {addresses : Bool}

/-- The offset of a target is its distance from the start of the code, if it does not lie
before. -/
lemma targetOffset_eq {offset length : Nat} {rel : Int32} {target : UInt64}
    (h : base.toNat + (offset + length) < UInt64.size)
    (ht : base + UInt64.ofNat (offset + length) + rel.toInt64.toUInt64 = target) :
    targetOffset base offset length rel =
      if target < base then .error .overflow else .ok (target - base).toNat := by
  have hsize : UInt64.size = 18446744073709551616 := rfl
  have hrel := toNat_extend rel
  have hofNat : (UInt64.ofNat (offset + length)).toNat = offset + length :=
    UInt64.toNat_ofNat_of_lt' (by omega)
  have htarget : (((base.toNat + offset + length : Nat) : Int) + rel.toInt) % UInt64.size =
      target.toNat := by
    rw [← ht, UInt64.toNat_add, UInt64.toNat_add, hofNat, hsize]
    omega
  have hlt : (target.toNat : Int) < base.toNat ↔ target < base := by
    rw [UInt64.lt_iff_toNat_lt]
    omega
  simp only [targetOffset, htarget, hlt]
  rw [if_neg (by omega)]
  split
  case isTrue => rfl
  case isFalse hge =>
    have hle := UInt64.not_lt.mp hge
    rw [UInt64.toNat_sub_of_le _ _ hle]
    congr 1
    omega

variable {e : ListingEntry} (h : base.toNat + (e.offset + e.length) < UInt64.size)
include h

/-- An entry whose target is not below the start of the code has a text. -/
lemma line_of_le_aim (haim : ∀ t, e.aim? base = some t → base ≤ t) :
    line base addresses e = .ok (e.text base addresses) := by
  cases e with
  | data offset length =>
    simp only [ListingEntry.offset, ListingEntry.length] at h
    simp only [line, if_neg (show ¬UInt64.size ≤ base.toNat + offset by omega),
      ListingEntry.text, ListingEntry.label, ListingEntry.offset, String.append_assoc]
    rfl
  | inst offset length i =>
    simp only [ListingEntry.offset, ListingEntry.length] at h
    simp only [line, if_neg (show ¬UInt64.size ≤ base.toNat + offset by omega),
      ListingEntry.text, ListingEntry.label, ListingEntry.offset, ListingEntry.aim?] at haim ⊢
    cases hrel : i.displacement? with
    | none => rfl
    | some rel =>
      rw [hrel] at haim
      have hle := haim _ rfl
      simp only [targetOffset_eq h rfl, if_neg (UInt64.not_lt.mpr hle)]
      rfl

/-- An entry whose target is below the start of the code has none. -/
lemma line_of_aim_lt {t : UInt64} (haim : e.aim? base = some t) (hlt : t < base) :
    line base addresses e = .error .overflow := by
  cases e with
  | data offset length => cases haim
  | inst offset length i =>
    simp only [ListingEntry.offset, ListingEntry.length] at h
    simp only [ListingEntry.aim?] at haim
    obtain ⟨rel, hrel, rfl⟩ := Option.map_eq_some_iff.mp haim
    simp only [line, if_neg (show ¬UInt64.size ≤ base.toNat + offset by omega), hrel,
      targetOffset_eq h rfl, if_pos hlt]
    rfl

end Text

/-- Where each entry has a line, the lines are those of the entries in order. -/
lemma mapM_line_eq_ok {base : UInt64} {addresses : Bool} {es : List ListingEntry}
    (h : ∀ e ∈ es, line base addresses e = .ok (e.text base addresses)) :
    es.mapM (line base addresses) = .ok (es.map (·.text base addresses)) := by
  induction es with
  | nil => rfl
  | cons e es ih =>
    obtain ⟨he, hes⟩ := List.forall_mem_cons.mp h
    rw [List.mapM_cons, he, ih hes]
    rfl

/-- Where an entry has no line, there is no listing, whatever the other entries are. -/
lemma mapM_line_eq_error {base : UInt64} {addresses : Bool} {es : List ListingEntry}
    (h : ∀ e ∈ es, line base addresses e = .ok (e.text base addresses) ∨
      line base addresses e = .error .overflow)
    (hno : ∃ e ∈ es, line base addresses e = .error .overflow) :
    es.mapM (line base addresses) = .error .overflow := by
  induction es with
  | nil =>
    obtain ⟨e, he, -⟩ := hno
    cases he
  | cons e es ih =>
    obtain ⟨he, hes⟩ := List.forall_mem_cons.mp h
    rw [List.mapM_cons]
    rcases he with he | he
    · -- The first entry has a line, so the one without is among the others.
      rw [he, ih hes]
      · rfl
      · obtain ⟨e', hmem, he'⟩ := hno
        rcases List.mem_cons.mp hmem with rfl | hmem
        · rw [he] at he'
          cases he'
        · exact ⟨e', hmem, he'⟩
    · rw [he]
      rfl

/-- A listing accounts for any bytes, at any address that leaves room for them. Its entries are the
instructions one after the other, and then a single stretch of data from the first offset that does
not decode; together they are the bytes of the code. There is one line for each entry as long as no
displacement aims below the start of the code, and no listing if one does. -/
theorem disassemble_covers {code : ByteArray} {base : UInt64}
    (h : base.toNat + code.size < UInt64.size) (addresses : Bool) :
    Covers code 0 (entries code) ∧
      (entries code).flatMap (·.bytes code) = code.data.toList ∧
      ((∀ e ∈ entries code, ∀ t, e.aim? base = some t → base ≤ t) →
        disassemble code base addresses = .ok ((entries code).map (·.text base addresses))) ∧
      ((∃ e ∈ entries code, ∃ t, e.aim? base = some t ∧ t < base) →
        disassemble code base addresses = .error .overflow) := by
  have hcovers := covers_entries code
  have hfits : ∀ e ∈ entries code, base.toNat + (e.offset + e.length) < UInt64.size :=
    fun e he => lt_of_le_of_lt (Nat.add_le_add_left (hcovers.within e he) _) h
  refine ⟨hcovers, ?_, fun haim => ?_, ?_⟩
  · rw [hcovers.bytes, List.drop_zero]
  · exact mapM_line_eq_ok fun e he => line_of_le_aim (hfits e he) (haim e he)
  · rintro ⟨e, he, t, haim, hlt⟩
    refine mapM_line_eq_error (fun e he => ?_) ⟨e, he, line_of_aim_lt (hfits e he) haim hlt⟩
    by_cases hlow : ∃ t, e.aim? base = some t ∧ t < base
    · obtain ⟨t, haim, hlt⟩ := hlow
      exact .inr (line_of_aim_lt (hfits e he) haim hlt)
    · refine .inl (line_of_le_aim (hfits e he) fun t haim => UInt64.not_lt.mp fun hlt => ?_)
      exact hlow ⟨t, haim, hlt⟩

/-- A forward jump, two returns, and a byte that does not decode. -/
theorem disassemble_covers_branches :
    (0x1000 : UInt64).toNat + (⟨#[0x12, 1, 0, 0, 0, 2, 2, 0xee]⟩ : ByteArray).size < UInt64.size ∧
      disassemble ⟨#[0x12, 1, 0, 0, 0, 2, 2, 0xee]⟩ 0x1000 false =
        .ok ["jmp 0x6", "ret", "ret", ".data 1 bytes"] := by
  have h : (0x1000 : UInt64).toNat + (⟨#[0x12, 1, 0, 0, 0, 2, 2, 0xee]⟩ : ByteArray).size <
      UInt64.size := by decide
  have hentries : entries ⟨#[0x12, 1, 0, 0, 0, 2, 2, 0xee]⟩ =
      [.inst 0 5 (.jmp 1), .inst 5 1 .ret, .inst 6 1 .ret, .data 7 1] := by decide +kernel
  obtain ⟨-, -, hok, -⟩ := disassemble_covers h false
  rw [hentries] at hok
  refine ⟨h, (hok fun e he t ht => ?_).trans (by rfl)⟩
  have haims : ([.inst 0 5 (.jmp 1), .inst 5 1 .ret, .inst 6 1 .ret, .data 7 1] :
      List ListingEntry).map (·.aim? 0x1000) = [some 0x1006, none, none, none] := by decide +kernel
  have hmem := List.mem_map_of_mem (f := (·.aim? 0x1000)) he
  rw [haims, ht] at hmem
  obtain rfl : t = 0x1006 := by simpa using hmem
  decide

/-- Code is not listed if it jumps to before its start, although it decodes and leaves no data. -/
theorem disassemble_fails_backward :
    (0x1000 : UInt64).toNat + (⟨#[0x12, 0x9c, 0xff, 0xff, 0xff]⟩ : ByteArray).size < UInt64.size ∧
      entries ⟨#[0x12, 0x9c, 0xff, 0xff, 0xff]⟩ = [.inst 0 5 (.jmp (-100))] ∧
      disassemble ⟨#[0x12, 0x9c, 0xff, 0xff, 0xff]⟩ 0x1000 false = .error .overflow :=
  ⟨by decide, by decide +kernel, by decide +kernel⟩

end Listing

end Speculation
