import Speculation.Proofs.Heap.Strings
import Speculation.Proofs.World.Still

/-!
Missing arguments.

Before code runs with fewer arguments than it has parameters, its frame is moved down the stack. The
frame that comes of it is the old one with undefined in the place of each missing argument. Where
there is no room for it an exception is pending, and the stack is as it was: the message is made on
the heap, and `Frugal` says of what allocates that it stays below a bound. Room is found out by
subtraction, so more parameters than fit below the frame at all are a breach.
-/

namespace Speculation

namespace Memory

/-- Whether or not all of it succeeds, a write leaves the bytes alone that lie above. -/
lemma byte?_writeBytes_of_le {m : Memory} {a b : UInt64} {bs : List UInt8}
    (h : a.toNat + bs.length ≤ b.toNat) : (m.writeBytes a bs).2.byte? b = m.byte? b := by
  induction bs generalizing m a with
  | nil => rfl
  | cons x bs ih =>
    rw [List.length_cons] at h
    have hword : UInt64.size = 18446744073709551616 := rfl
    have hlt := b.toNat_lt
    rw [writeBytes]
    split
    · have hnext : (a + 1).toNat = a.toNat + 1 := toNat_add_ofNat (k := 1) (by omega)
      have hne : b ≠ a := fun hba => by
        rw [hba] at h
        omega
      rw [ih (by omega), byte?_setByte, if_neg hne]
    · rfl

/-- Where the heap goes on does not matter to what there is. -/
lemma byte?_next (m : Memory) (n : Nat) (a : UInt64) : byte? { m with next := n } a = m.byte? a := rfl

/-- Nor does it matter to what is written. -/
lemma writeBytes_next (m : Memory) (n : Nat) (a : UInt64) (bs : List UInt8) :
    (writeBytes { m with next := n } a bs).2 = { (m.writeBytes a bs).2 with next := n } := by
  induction bs generalizing m a with
  | nil => rfl
  | cons b bs ih =>
    have hmapped : isMapped { m with next := n } a = m.isMapped a := rfl
    rw [writeBytes, writeBytes, hmapped]
    split
    · exact ih (m.setByte a b) (a + 1)
    · rfl

end Memory

open World Semantics Execution Memory

variable {α β : Type} {bound n k : Nat} {p : α → Prop} {q : β → Prop}

/-- The step takes at most `n` bytes for the heap, changes no byte that was there from `bound` on, and
gives a result with `p`, as long as the heap stays below the bound. -/
def Frugal (bound n : Nat) (x : Run α) (p : α → Prop) : Prop :=
  ∀ w : World, w.memory.next + n ≤ bound →
    (w.after x).memory.next ≤ w.memory.next + n ∧
      (∀ a, bound ≤ a.toNat → (w.memory.byte? a).isSome →
        (w.after x).memory.byte? a = w.memory.byte? a) ∧
      ∀ r w', runs x w = (.ok r, w') → p r

namespace Frugal

lemma of_same {x : Run α} (hm : ∀ w : World, (w.after x).memory = w.memory)
    (hp : ∀ w r w', runs x w = (.ok r, w') → p r) : Frugal bound 0 x p := by
  intro w _
  rw [hm]
  exact ⟨Nat.le_refl _, fun _ _ _ => rfl, hp w⟩

lemma pure {a : α} (h : p a) : Frugal bound 0 (pure a) p :=
  of_same (fun _ => rfl) fun w r w' hrun => by
    cases hrun
    exact h

lemma same {x : Run α} (hm : ∀ w : World, (w.after x).memory = w.memory) :
    Frugal bound 0 x fun _ => True :=
  of_same hm fun _ _ _ _ => trivial

lemma mono {x : Run α} (hx : Frugal bound n x p) (hnk : n ≤ k) : Frugal bound k x p := by
  intro w hroom
  obtain ⟨hnext, hbytes, hp⟩ := hx w (by omega)
  exact ⟨by omega, hbytes, hp⟩

/-- What follows a step has the room that the step leaves. -/
lemma bind {x : Run α} {f : α → Run β} (hx : Frugal bound n x p)
    (hf : ∀ a, p a → Frugal bound k (f a) q) : Frugal bound (n + k) (x >>= f) q := by
  intro w hroom
  obtain ⟨hnext, hbytes, hp⟩ := hx w (by omega)
  have hafter : w.after (x >>= f) = (runs (x >>= f) w).2 := rfl
  have hafter' : w.after x = (runs x w).2 := rfl
  rw [hafter, runs_bind]
  rw [hafter'] at hnext hbytes
  rcases hrun : runs x w with ⟨e | a, w₁⟩ <;> rw [hrun] at hnext hbytes
  · exact ⟨Nat.le_trans hnext (by omega), hbytes, fun r w' h => by cases h⟩
  · obtain ⟨hnext', hbytes', hq⟩ := hf a (hp a w₁ hrun) w₁ (by dsimp only at hnext; omega)
    refine ⟨?_, fun b hb hsome => ?_, hq⟩
    · dsimp only at hnext
      exact Nat.le_trans hnext' (by omega)
    · have hb₁ := hbytes b hb hsome
      exact (hbytes' b hb (by rw [hb₁]; exact hsome)).trans hb₁

lemma after_writeWord (w : World) (size x : Nat) (a : UInt64) :
    w.after (writeWord size a x) = w.withMemory (w.memory.write size a x).2 := by
  show (runs (World.writeWord size a x) w).2 = _
  rw [World.writeWord, runs_bind]
  show (runs (unless (w.memory.write size a x).1 do _) _).2 = _
  cases (w.memory.write size a x).1 <;> rfl

lemma after_alloc (w : World) (n : Nat) :
    w.after (alloc n) = w.withMemory (w.memory.alloc n).2 := rfl

lemma writeWord {size x : Nat} {a : UInt64} (h : a.toNat + size ≤ bound) :
    Frugal bound 0 (writeWord size a x) fun _ => True := by
  intro w _
  rw [after_writeWord]
  refine ⟨(next_writeBytes _ _ _).le, fun b hb _ => ?_, fun _ _ _ => trivial⟩
  refine byte?_writeBytes_of_le ?_
  rw [Bytes.length_ofNat]
  omega

lemma writeValue {v : Value} {a : UInt64} (h : a.toNat + 8 ≤ bound) :
    Frugal bound 0 (writeValue a v) fun _ => True := by
  rw [World.writeValue, World.write64]
  exact writeWord h

lemma writeWords {size : Nat} {xs : List Nat} {a : UInt64} (h : a.toNat + size * xs.length ≤ bound)
    (hb : bound ≤ 281474976710656) : Frugal bound 0 (writeWords size a xs) fun _ => True := by
  induction xs generalizing a with
  | nil => exact pure trivial
  | cons x xs ih =>
    rw [List.length_cons, Nat.mul_add, Nat.mul_one] at h
    have hnext : (a + UInt64.ofNat size).toNat = a.toNat + size :=
      toNat_add_ofNat (by have : UInt64.size = 18446744073709551616 := rfl; omega)
    exact bind (n := 0) (k := 0) (writeWord (by omega)) fun _ _ => ih (by omega)

lemma alloc (hb : bound ≤ 281474976710656) :
    Frugal bound (roundUp n) (alloc n) fun a => a.toNat + roundUp n ≤ bound := by
  intro w hroom
  have hword : UInt64.size = 18446744073709551616 := rfl
  have hafter : (w.after (World.alloc n)).memory =
      { w.memory.map w.memory.next (roundUp n) with next := w.memory.next + roundUp n } := rfl
  rw [hafter]
  refine ⟨Nat.le_refl _, fun a _ hsome => ?_, fun r w' hrun => ?_⟩
  · exact byte?_map_of_isSome (by rw [pageSize_eq]; omega) hsome
  · obtain ⟨rfl, -⟩ : UInt64.ofNat w.memory.next = r ∧ _ := by
      have hr := congrArg Prod.fst hrun
      exact ⟨Except.ok.inj hr, trivial⟩
    rwa [UInt64.toNat_ofNat_of_lt' (by omega)]

lemma field {a : UInt64} {o : Nat} (h : a.toNat + n ≤ bound) (hb : bound ≤ 281474976710656)
    (ho : o + k ≤ n) : (a + UInt64.ofNat o).toNat + k ≤ bound := by
  rw [toNat_add_ofNat (by have : UInt64.size = 18446744073709551616 := rfl; omega)]
  omega

lemma cellAddress (v : Value) : Frugal bound 0 (cellAddress v) fun a => a = v.bits := by
  unfold World.cellAddress Value.cell?
  by_cases hv : v.isCell = true
  · rw [if_pos hv]
    exact pure rfl
  · rw [if_neg hv]
    exact of_same (fun _ => rfl) fun _ _ _ hrun => by cases hrun

lemma count32 (n : Nat) (c : Counted) : Frugal bound 0 (count32 n c) fun _ => True := by
  unfold World.count32
  split
  · exact pure trivial
  · exact same fun _ => rfl

section Strings

variable (hb : bound ≤ 281474976710656)
include hb

lemma setStorage {v : Value} (hv : v.bits.toNat + Layout.cellSize ≤ bound) (a : UInt64) :
    Frugal bound 0 (setStorage v a) fun _ => True := by
  unfold World.setStorage
  refine bind (n := 0) (k := 0) (cellAddress v) fun c hc => ?_
  subst hc
  exact writeWord (field hv hb (by decide))

lemma setCellLength {v : Value} (hv : v.bits.toNat + Layout.cellSize ≤ bound) (m : UInt32) :
    Frugal bound 0 (setCellLength v m) fun _ => True := by
  unfold World.setCellLength
  refine bind (n := 0) (k := 0) (cellAddress v) fun c hc => ?_
  subst hc
  exact writeWord (field hv hb (by decide))

lemma newStructure (t : CellType) (i f : UInt8) (v : Value) (names : List String) :
    Frugal bound Layout.structureSize (newStructure t i f v names) fun _ => True := by
  have hsize : roundUp Layout.structureSize = Layout.structureSize := rfl
  unfold World.newStructure
  refine bind (k := 0) (hsize ▸ alloc hb) fun s hs => ?_
  refine bind (n := 0) (k := 0) (same fun _ => rfl) fun _ _ => ?_
  refine bind (n := 0) (k := 0) (writeWord (field hs hb (by decide))) fun _ _ => ?_
  refine bind (n := 0) (k := 0) (writeWord (field hs hb (by decide))) fun _ _ => ?_
  refine bind (n := 0) (k := 0) (writeWord (field hs hb (by decide))) fun _ _ => ?_
  refine bind (n := 0) (k := 0) (writeWord (field hs hb (by decide))) fun _ _ => ?_
  refine bind (n := 0) (k := 0) (writeValue (field hs hb (by decide))) fun _ _ => ?_
  exact bind (n := 0) (k := 0) (same fun _ => rfl) fun _ _ => pure trivial

lemma stringStructure :
    Frugal bound Layout.structureSize stringStructure fun _ => True := by
  unfold World.stringStructure
  refine bind (n := 0) (k := Layout.structureSize) (x := get) (same fun _ => rfl) fun w _ => ?_
  split
  · exact (pure trivial).mono (Nat.zero_le _)
  · exact bind (k := 0) (newStructure hb _ _ _ _ _) fun s _ =>
      bind (n := 0) (k := 0) (same fun _ => rfl) fun _ _ => pure trivial

lemma newCell (s : UInt64) :
    Frugal bound Layout.cellSize (newCell s) fun c => c.toNat + Layout.cellSize ≤ bound := by
  have hsize : roundUp Layout.cellSize = Layout.cellSize := rfl
  unfold World.newCell
  refine bind (k := 0) (hsize ▸ alloc hb) fun c hc => ?_
  exact bind (n := 0) (k := 0) (writeWord (field hc hb (by decide))) fun _ _ => pure hc

lemma newString (us : List UInt16) :
    Frugal bound (stringSize us.length) (newStringOfUnits us) fun _ => True := by
  have hsize : stringSize us.length =
      Layout.structureSize + (Layout.cellSize + roundUp (2 * us.length)) := by
    rw [stringSize, Nat.add_assoc]
  have hle : 2 * us.length ≤ roundUp (2 * us.length) := by
    unfold roundUp
    omega
  rw [hsize, newStringOfUnits]
  refine bind (stringStructure hb) fun s _ => bind (newCell hb s) fun c hc => ?_
  refine bind (k := 0) (alloc hb) fun a ha => ?_
  have hwrite : a.toNat + 2 * (us.map UInt16.toNat).length ≤ bound := by
    rw [List.length_map]
    omega
  refine bind (n := 0) (k := 0) (writeWords hwrite hb) fun _ _ => ?_
  refine bind (n := 0) (k := 0) (setStorage hb (v := .ofCell c) hc a) fun _ _ => ?_
  refine bind (n := 0) (k := 0) (count32 _ _) fun m _ => ?_
  exact bind (n := 0) (k := 0) (setCellLength hb (v := .ofCell c) hc m) fun _ _ => pure trivial

end Strings

end Frugal

/-- A string is what it was if words elsewhere change. -/
lemma Heap.Text.setWords {h : Heap} {v : Value} {us : List UInt16} {a : UInt64} {ns : List Nat}
    (hv : h.Text v us) (ha : h a = some (.words 8 ns)) (ms : List Nat) :
    (h.set a (.words 8 ms)).Text v us := by
  obtain ⟨hv, hs, hd, hchars, hlen⟩ := hv
  have hstructures : (h.set a (.words 8 ms)).structure? = h.structure? :=
    structure?_set nofun (by rw [structure?, ha])
  refine .intro (by rwa [cell?_setWords (cell?_of_words ha)]) (hstructures ▸ hs) hd ?_ hlen
  rw [set_of_ne ?_]
  · exact hchars
  · intro hne
    rw [hne, ha] at hchars
    cases hchars

namespace World

variable {w : World} {h : Heap} {ws xs : List Nat} {limit frame : UInt64} {count : Nat}

lemma Stack.congr {w' : World} (hs : w.Stack limit) (hb : ∀ a, w'.memory.byte? a = w.memory.byte? a)
    (hc : w'.context = w.context) : w'.Stack limit where
  mapped k hk := (hb _).symm ▸ hs.mapped k hk
  above ha := (hb _).trans (hs.above ha)
  context := hc ▸ hs.context
  low := hs.low
  limit := by
    rw [hc, read?_of_same fun _ _ => hb _]
    exact hs.limit

def overflowText : List UInt16 := Utf16.encode "RangeError: Maximum call stack size exceeded"

/-- The pending exception is a string of these units. -/
def Threw (w : World) (us : List UInt16) : Prop :=
  ∃ r, runs pendingException w = (.ok (some r), w) ∧ runs (stringUnits r) w = (.ok us, w)

/-- The exception for a stack that is used up is made on the heap. -/
lemma Sound.runs_throwStackOverflow (hw : w.Sound bound h) (hc : h w.context = some (.words 8 ws))
    (hws : 1 < ws.length) (hroom : w.memory.next + stringSize overflowText.length ≤ bound) :
    ∃ w', runs throwStackOverflow w = (.ok (), w') ∧ w'.Threw overflowText ∧
      ∀ a, bound ≤ a.toNat → (w.memory.byte? a).isSome → w'.memory.byte? a = w.memory.byte? a := by
  have hbound := hw.houses.memory.bounded
  obtain ⟨c, w₁, h₁, y, hrun₁, -, hchanges, hcontents, hkeeps⟩ :=
    hw.runs_newStringOfUnits overflowText (by decide +kernel) hroom
  have htext := Heap.text_of_contents (v := .ofCell c) hchanges.sound.formed hchanges.cell
    hchanges.kind rfl hcontents
  have hc₁ : h₁ w₁.context = some (.words 8 ws) := by
    rw [hkeeps.context]
    exact hchanges.touches.words hc
  obtain ⟨m, hrun₂, hw₂, -⟩ := hchanges.sound.runs_setWord hc₁ hws (Value.ofCell c).bits
  have hm := hw₂.houses.memory.shows
  have htext := htext.setWords hc₁ (ws.set 1 (Value.ofCell c).bits.toNat)
  have hcell := isCell_of_text hm htext
  have hempty : (Value.ofCell c).isEmpty = false := by
    simp only [Value.isCell, Bool.and_eq_true, bne_iff_ne] at hcell
    exact beq_eq_false_iff_ne.mpr hcell.1
  have hfield : ∀ w : World, runs (contextField Context.exception) w =
      (.ok (w.context + UInt64.ofNat (8 * 1)), w) := fun _ => rfl
  have hthrow : runs throwStackOverflow w = (.ok (), w₁.withMemory m) := by
    rw [throwStackOverflow, World.newString]
    change runs (newStringOfUnits overflowText >>= _) w = _
    rw [runs_bind_of_ok hrun₁, setException, runs_bind_of_ok (hfield _), hempty,
      if_neg Bool.false_ne_true]
    exact hrun₂
  refine ⟨_, hthrow, ⟨.ofCell c, ?_, runs_stringUnits_of_text hm htext⟩, fun a ha hsome => ?_⟩
  · have hread := hw₂.houses.memory.item Heap.set_self 1 _ (List.getElem?_set_self hws)
    have hvalue : runs (readValue (w₁.context + UInt64.ofNat (8 * 1))) (w₁.withMemory m) =
        (.ok (.ofCell c), w₁.withMemory m) := by
      rw [readValue, runs_bind_of_ok (runs_read64 hread), UInt64.ofNat_toNat]
      rfl
    rw [pendingException, runs_bind_of_ok (hfield _)]
    refine (runs_bind_of_ok hvalue).trans ?_
    rw [hempty]
    rfl
  · -- neither the string nor the field of the context record reaches up to the bound
    have hfirst := (Frugal.newString hbound overflowText w hroom).2.1 a ha hsome
    have hafter₁ : w.after (newStringOfUnits overflowText) = w₁ := congrArg Prod.snd hrun₁
    rw [hafter₁] at hfirst
    have hhigh := (hchanges.sound.houses.memory.high hc₁).trans hchanges.sound.houses.memory.room
    have hextent : 8 + 8 ≤ (Item.words 8 ws).extent := by
      simp only [Item.extent, roundUp]
      omega
    have hsecond := (Frugal.writeWord (x := (Value.ofCell c).bits.toNat)
      (Frugal.field (o := 8) hhigh hbound hextent) w₁ hchanges.sound.houses.memory.room).2.1 a ha
      (by rwa [hfirst])
    have hafter₂ : w₁.after (write64 (w₁.context + UInt64.ofNat (8 * 1)) (Value.ofCell c).bits) =
        w₁.withMemory m := congrArg Prod.snd hrun₂
    exact (congrArg (fun w => w.memory.byte? a) hafter₂).symm.trans (hsecond.trans hfirst)

/-- **What becomes of missing arguments.** A frame with as many arguments as parameters is left alone.
Any other is moved down if it then fits above the limit with its slots; it has its old words, except
that undefined is there for each missing argument and that they are counted, and nothing else is
written. Where the frame does not fit there is none, an exception is pending, and the stack is as it
was, as long as the addresses in question are not below zero. -/
theorem fixArity_outcomes (hw : w.Sound bound h) (hbound : bound ≤ stackTop - stackSize)
    (hc : h w.context = some (.words 8 ws)) (hws : 1 < ws.length)
    (hroom : w.memory.next + stringSize overflowText.length ≤ bound) (hs : w.Stack limit)
    (hf : FrameIn w.memory frame count xs) (parameters frameSlots : Nat) :
    (parameters ≤ count → runs (fixArity frame parameters frameSlots) w = (.ok frame, w)) ∧
    (count < parameters →
      (limit.toNat + (8 * (parameters - count) + 8 * frameSlots) ≤ frame.toNat →
        ∃ moved mem, moved.toNat + 8 * (parameters - count) = frame.toNat ∧
          runs (fixArity frame parameters frameSlots) w = (.ok moved, w.withMemory mem) ∧
          w.memory.Written moved (fixedWords xs count parameters) mem) ∧
      (8 * (parameters - count) + 8 * frameSlots ≤ frame.toNat →
        frame.toNat < limit.toNat + (8 * (parameters - count) + 8 * frameSlots) →
        ∃ w', runs (fixArity frame parameters frameSlots) w = (.ok 0, w') ∧
          w'.Threw overflowText ∧
          ∀ a, stackTop - stackSize ≤ a.toNat → a.toNat < stackTop →
            w'.memory.byte? a = w.memory.byte? a) ∧
      (frame.toNat < 8 * (parameters - count) + 8 * frameSlots →
        runs (fixArity frame parameters frameSlots) w = (.error (.breach .overflow), w))) := by
  rw [runs_fixArity frameSlots hs hf]
  refine ⟨fun hp => if_pos hp, fun hp => ?_⟩
  rw [if_neg (Nat.not_le.mpr hp)]
  refine ⟨fun hfits => ?_, fun hwraps hover => ?_, fun hwraps => if_pos hwraps⟩
  · have hsub := hf.toNat_sub (n := 8 * (parameters - count)) (by omega)
    have hlow := hs.low
    obtain ⟨mem, hrun, hmem⟩ := runs_moveFrame hs hf hp hsub (by omega)
    refine ⟨_, mem, hsub, ?_, hmem⟩
    rw [if_neg (by omega), if_neg (by omega), hrun]
  · obtain ⟨w', hrun, hthrew, hsame⟩ := hw.runs_throwStackOverflow hc hws hroom
    rw [if_neg (by omega), if_pos hover, runs_bind_of_ok hrun]
    refine ⟨w', rfl, hthrew, fun a hlow htop => hsame a (hbound.trans hlow) ?_⟩
    have hmapped := hs.mapped_of_le hlow (n := 1) htop 0 Nat.one_pos
    rwa [show UInt64.ofNat 0 = 0 from rfl, UInt64.add_zero] at hmapped

/-! ### A frame without arguments -/

def groundwork : World where
  memory := { grounds with next := heapBase + 24 }
  context := UInt64.ofNat heapBase

lemma stack_groundwork : groundwork.Stack Memory.stackLimit := by
  have hmem : (groundwork.withMemory grounds).memory = grounds := by rw [withMemory]
  refine (stack_grounds hmem rfl).congr (fun a => ?_) rfl
  rw [hmem]
  exact byte?_next grounds _ a

lemma sound_groundwork : ∃ h, groundwork.Sound (stackTop - stackSize) h ∧
    h groundwork.context = some (.words 8 [Memory.stackLimit.toNat, 0, 0]) := by
  have hw₀ : World.Sound {} (stackTop - stackSize) fun _ => none :=
    sound_empty (by decide) (by decide)
  obtain ⟨c, m₁, hrun₁, -, -, hw₁⟩ := hw₀.runs_alloc (n := Context.size) (by decide)
  obtain rfl : UInt64.ofNat heapBase = c := Except.ok.inj (congrArg Prod.fst hrun₁)
  have hw₁' : World.Sound { ({} : World).withMemory m₁ with context := UInt64.ofNat heapBase } _ _ :=
    ⟨hw₁.houses.congr hw₁.houses.memory rfl rfl rfl rfl rfl, hw₁.formed⟩
  obtain ⟨m₂, hrun₂, hw₂, -⟩ := hw₁'.runs_setWord (k := 0) Heap.set_self (by decide)
    Memory.stackLimit
  have hm₁ : m₁ = { Memory.new.map heapBase Context.size with next := heapBase + 24 } :=
    congrArg (fun r => r.2.memory) (hrun₁.symm.trans (Prod.ext rfl (Frugal.after_alloc {} _)))
  have hm₂ : m₂ = (m₁.write 8 (UInt64.ofNat heapBase) Memory.stackLimit.toNat).2 :=
    (congrArg (fun r => r.2.memory) hrun₂).symm.trans
      (congrArg World.memory (Frugal.after_writeWord _ 8 _ _))
  have hmem : m₂ = groundwork.memory := by
    rw [hm₂, hm₁, groundwork, grounds, Memory.write, Memory.write, writeBytes_next]
  refine ⟨_, ⟨hw₂.houses.congr (hmem ▸ hw₂.houses.memory) rfl rfl rfl rfl rfl, hw₂.formed⟩, ?_⟩
  exact Heap.set_self

/-- The stack is zero at first. -/
lemma byte?_groundwork {a : UInt64} (hlow : stackTop - stackSize ≤ a.toNat) (htop : a.toNat < stackTop) :
    groundwork.memory.byte? a = some 0 := by
  have hsize := stackSize_eq
  have heq := stackTop_eq
  have hbase : (UInt64.ofNat heapBase).toNat = 268435456 := rfl
  have hnew : Memory.new.byte? a = some 0 := by rw [byte?_new, if_pos ⟨hlow, htop⟩]
  have hgrounds : groundwork.memory.byte? a = grounds.byte? a := byte?_next grounds _ a
  rw [hgrounds, grounds, Memory.write, byte?_writeBytes_of_le (by rw [Bytes.length_ofNat]; omega),
    byte?_map_of_isSome (by decide) (by rw [hnew]; rfl), hnew]

/-- So there is a frame of zeros on top of it, with no arguments. -/
lemma frameIn_groundwork : FrameIn groundwork.memory 0x6fffffd8 0 [0, 0, 0, 0, 0] := by
  refine ⟨by decide, by decide, rfl, rfl, fun k x hk => ?_⟩
  have hsize := stackSize_eq
  have heq := stackTop_eq
  have hword : UInt64.size = 18446744073709551616 := rfl
  have hlt : k < 5 := (List.getElem?_eq_some_iff.mp hk).1
  obtain rfl : 0 = x := by
    have hx : [0, 0, 0, 0, 0][k]? = some 0 := List.getElem?_replicate (n := 5).trans (if_pos hlt)
    exact Option.some.inj (hx.symm.trans hk)
  refine read?_zeros fun j hj => byte?_groundwork ?_ ?_
  all_goals
    have hframe : (0x6fffffd8 : UInt64).toNat = 1879048152 := rfl
    rw [UInt64.add_assoc, ← UInt64.ofNat_add, toNat_add_ofNat (by omega)]
    omega

/-- A frame without arguments gets two of them. -/
theorem fixArity_outcomes_two : ∃ mem,
    runs (fixArity 0x6fffffd8 2 26) groundwork = (.ok 0x6fffffc8, groundwork.withMemory mem) ∧
      mem.Holds 0x6fffffc8 [0, 0, 0, 0, 2, 10, 10] := by
  obtain ⟨h, hw, hc⟩ := sound_groundwork
  have hroom : groundwork.memory.next + stringSize overflowText.length ≤ stackTop - stackSize := by
    decide +kernel
  obtain ⟨moved, mem, hmoved, hrun, hmem⟩ := ((fixArity_outcomes hw le_rfl hc (by decide) hroom
    stack_groundwork frameIn_groundwork 2 26).2 (by decide)).1 (by decide)
  obtain rfl : moved = 0x6fffffc8 := by
    refine UInt64.toNat_inj.mp ?_
    have hframe : (0x6fffffd8 : UInt64).toNat = 1879048152 := rfl
    have hto : (0x6fffffc8 : UInt64).toNat = 1879048136 := rfl
    omega
  exact ⟨mem, hrun, hmem.holds⟩

/-- For more parameters than there are words below the frame there is neither a frame nor an
exception. -/
theorem fixArity_wraps : groundwork.Stack Memory.stackLimit ∧
    FrameIn groundwork.memory 0x6fffffd8 0 [0, 0, 0, 0, 0] ∧
    runs (fixArity 0x6fffffd8 536870912 26) groundwork = (.error (.breach .overflow), groundwork) := by
  refine ⟨stack_groundwork, frameIn_groundwork, ?_⟩
  rw [runs_fixArity 26 stack_groundwork frameIn_groundwork, if_neg (by decide), if_pos (by decide)]

end World

end Speculation
