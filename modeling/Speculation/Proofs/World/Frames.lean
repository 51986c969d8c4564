import Speculation.Proofs.Execution.Steps

/-!
Frames in memory.

The outermost frame is written word by word, and moving it down to make room for missing arguments
copies it the lowest word first. `Written` says what writing consecutive words does to memory, so
that a frame is known by its words wherever it is.
-/

namespace Speculation

namespace Memory

variable {m m' m'' : Memory} {a b : UInt64} {xs ys : List Nat} {n k x : Nat}

def Holds (m : Memory) (a : UInt64) (xs : List Nat) : Prop :=
  ∀ k x, xs[k]? = some x → m.read? 8 (a + UInt64.ofNat (8 * k)) = some x

/-- Consecutive words were written, and nothing else has changed. -/
structure Written (m : Memory) (a : UInt64) (xs : List Nat) (m' : Memory) : Prop where
  mapped {b : UInt64} {n : Nat} (h : m.Mapped b n) : m'.Mapped b n
  same {b : UInt64} (h : b.toNat < a.toNat ∨ a.toNat + 8 * xs.length ≤ b.toNat) :
    m'.byte? b = m.byte? b
  holds : m'.Holds a xs

lemma read?_of_same (h : ∀ k, k < n → m'.byte? (b + UInt64.ofNat k) = m.byte? (b + UInt64.ofNat k)) :
    m'.read? n b = m.read? n b := by
  rw [read?, read?, readBytes?_congr h]

/-- A word elsewhere is read as before. -/
lemma Written.read? (h : m.Written a xs m') (hlt : b.toNat + n ≤ UInt64.size)
    (hb : Apart b n a (8 * xs.length)) : m'.read? n b = m.read? n b := by
  refine read?_of_same fun k hk => h.same ?_
  rw [toNat_add_ofNat (by omega)]
  rcases hb with hb | hb
  · exact .inl (by omega)
  · exact .inr (by omega)

lemma Mapped.of_add (h : m.Mapped a (n + k)) : m.Mapped a n := fun j hj => h j (by omega)

lemma Mapped.shift (h : m.Mapped a (n + k)) : m.Mapped (a + UInt64.ofNat n) k := by
  intro j hj
  rw [UInt64.add_assoc, ← UInt64.ofNat_add]
  exact h (n + j) (by omega)

lemma Holds.cons (hx : m.read? 8 a = some x) (h : m.Holds (a + 8) xs) : m.Holds a (x :: xs) := by
  rintro (_ | k) y hy
  · obtain rfl : x = y := by simpa using hy
    rwa [Nat.mul_zero, show UInt64.ofNat 0 = 0 from rfl, UInt64.add_zero]
  · have hk := h k y (by simpa using hy)
    rwa [UInt64.add_assoc, show (8 : UInt64) = UInt64.ofNat 8 from rfl, ← UInt64.ofNat_add,
      show 8 + 8 * k = 8 * (k + 1) by omega] at hk

lemma Holds.head (h : m.Holds a (x :: xs)) : m.read? 8 a = some x := by
  have h := h 0 x rfl
  rwa [Nat.mul_zero, show UInt64.ofNat 0 = 0 from rfl, UInt64.add_zero] at h

lemma Holds.tail (h : m.Holds a (x :: xs)) : m.Holds (a + 8) xs := by
  intro k y hy
  have hk := h (k + 1) y (by simpa using hy)
  rwa [show 8 * (k + 1) = 8 + 8 * k by omega, UInt64.ofNat_add, ← UInt64.add_assoc] at hk

/-- Words that are not overwritten stay. -/
lemma Written.keeps (h : m.Written a xs m') (hy : m.Holds b ys)
    (hlt : b.toNat + 8 * ys.length < UInt64.size) (hb : Apart b (8 * ys.length) a (8 * xs.length)) :
    m'.Holds b ys := by
  intro k y hk
  have hlen := (List.getElem?_eq_some_iff.mp hk).1
  have hb' : (b + UInt64.ofNat (8 * k)).toNat = b.toNat + 8 * k := toNat_add_ofNat (by omega)
  rw [h.read? (by omega) ?_]
  · exact hy k y hk
  · unfold Apart at hb ⊢
    omega

lemma Written.refl (m : Memory) (a : UInt64) : m.Written a [] m :=
  ⟨fun h => h, fun _ => rfl, fun _ _ h => by cases h⟩

/-- One more word is written in front. -/
lemma Written.cons (h : m.Mapped a 8) (hlt : a.toNat + 8 + 8 * xs.length < UInt64.size)
    (hx : x < UInt64.size) (hrest : (m.write 8 a x).2.Written (a + 8) xs m') :
    m.Written a (x :: xs) m' := by
  have ha8 : (a + 8).toNat = a.toNat + 8 := toNat_add_ofNat (k := 8) (by omega)
  have hread : (m.write 8 a x).2.read? 8 a = some x := by
    rw [read?_write_self h (by omega)]
    exact congrArg some (Nat.mod_eq_of_lt hx)
  refine ⟨fun hb => hrest.mapped (hb.write h (by omega)), fun {b} hb => ?_, ?_⟩
  · rw [List.length_cons] at hb
    rw [hrest.same (by omega)]
    have hmapped : m.Mapped a (Bytes.ofNat 8 x).length := by simpa using h
    exact (writeBytes_spec hmapped (by simp; omega)).2.2.1 b (by simp; omega)
  · refine .cons ?_ hrest.holds
    rw [hrest.read? (by omega) (.inl (by omega)), hread]

/-- Words are written one stretch after the other. -/
lemma Written.append (h : m.Written a xs m')
    (h' : m'.Written (a + UInt64.ofNat (8 * xs.length)) ys m'')
    (hlt : a.toNat + 8 * (xs.length + ys.length) < UInt64.size) : m.Written a (xs ++ ys) m'' := by
  have ha : (a + UInt64.ofNat (8 * xs.length)).toNat = a.toNat + 8 * xs.length :=
    toNat_add_ofNat (by omega)
  refine ⟨fun hb => h'.mapped (h.mapped hb), fun {b} hb => ?_, fun k y hk => ?_⟩
  · rw [List.length_append] at hb
    rw [h'.same (by omega), h.same (by omega)]
  · rcases Nat.lt_or_ge k xs.length with hlt' | hge
    · rw [List.getElem?_append_left hlt'] at hk
      have hkeep := h'.keeps h.holds (by omega) (.inl (by omega))
      exact hkeep k y hk
    · rw [List.getElem?_append_right hge] at hk
      have := h'.holds _ _ hk
      rwa [UInt64.add_assoc, ← UInt64.ofNat_add, ← Nat.mul_add, Nat.add_sub_cancel' hge] at this

/-- One of the words is written once more. -/
lemma Written.set (h : m.Written a xs m') (h' : m'.Written (a + UInt64.ofNat (8 * k)) [x] m'')
    (hk : k < xs.length) (hlt : a.toNat + 8 * xs.length < UInt64.size) :
    m.Written a (xs.set k x) m'' := by
  have ha : (a + UInt64.ofNat (8 * k)).toNat = a.toNat + 8 * k := toNat_add_ofNat (by omega)
  refine ⟨fun hb => h'.mapped (h.mapped hb), fun {b} hb => ?_, fun j y hj => ?_⟩
  · rw [List.length_set] at hb
    rw [h'.same (by rw [List.length_singleton]; omega), h.same hb]
  · have hlen := (List.getElem?_eq_some_iff.mp hj).1
    rw [List.length_set] at hlen
    rw [List.getElem?_set] at hj
    split at hj
    · obtain rfl : k = j := ‹_›
      obtain rfl : x = y := by simpa [hk] using hj
      have hread := h'.holds 0 x rfl
      rwa [Nat.mul_zero, show UInt64.ofNat 0 = 0 from rfl, UInt64.add_zero] at hread
    · have haj : (a + UInt64.ofNat (8 * j)).toNat = a.toNat + 8 * j := toNat_add_ofNat (by omega)
      rw [h'.read? (by omega) (by unfold Apart; rw [List.length_singleton]; omega)]
      exact h.holds j y hj

/-- Words in memory are words. -/
lemma Holds.lt (h : m.Holds a xs) : ∀ x ∈ xs, x < UInt64.size := by
  intro x hx
  obtain ⟨k, hk⟩ := List.mem_iff_getElem?.mp hx
  obtain ⟨y, hy, hlt⟩ := read?_of_mapped (mapped_of_read? (h k x hk))
  rw [h k x hk] at hy
  cases hy
  exact hlt

end Memory

namespace World

open Execution Memory

variable {w : World} {a b : UInt64} {xs : List Nat} {n x : Nat}

def withMemory (w : World) (mem : Memory) : World := { w with memory := mem }

@[simp] lemma withMemory_withMemory (w : World) (mem mem' : Memory) :
    (w.withMemory mem).withMemory mem' = w.withMemory mem' := rfl

lemma runs_offset (h : a.toNat + n < UInt64.size) : runs (offset a n) w = (.ok (a + UInt64.ofNat n), w) := by
  rw [offset, if_pos h]
  rfl

/-- A word is written where there is memory. -/
lemma runs_write64 {v : UInt64} (h : w.memory.Mapped a 8) (hlt : a.toNat + 8 ≤ UInt64.size) :
    runs (write64 a v) w = (.ok (), w.withMemory (w.memory.write 8 a v.toNat).2) :=
  runs_writeWord (write_fst h hlt)

lemma runs_writeWords (h : w.memory.Mapped a (8 * xs.length))
    (hlt : a.toNat + 8 * xs.length < UInt64.size) (hx : ∀ x ∈ xs, x < UInt64.size) :
    ∃ mem, runs (writeWords 8 a xs) w = (.ok (), w.withMemory mem) ∧ w.memory.Written a xs mem := by
  induction xs generalizing a w with
  | nil => exact ⟨w.memory, rfl, .refl _ _⟩
  | cons x xs ih =>
    rw [List.length_cons] at h hlt
    obtain ⟨hx, hxs⟩ := List.forall_mem_cons.mp hx
    rw [show 8 * (xs.length + 1) = 8 + 8 * xs.length by omega] at h
    have ha8 : (a + 8).toNat = a.toNat + 8 := toNat_add_ofNat (k := 8) (by omega)
    have hhead := h.of_add
    have htail : (w.memory.write 8 a x).2.Mapped (a + 8) (8 * xs.length) :=
      h.shift.write hhead (by omega)
    obtain ⟨mem, hrun, hmem⟩ := ih (w := w.withMemory (w.memory.write 8 a x).2) htail (by omega) hxs
    refine ⟨mem, ?_, .cons hhead (by omega) hx hmem⟩
    rw [writeWords, runs_bind_of_ok (runs_writeWord (write_fst hhead (by omega)))]
    exact hrun

/-- Words are copied downward. -/
lemma runs_copyWords {source dest : UInt64} (hs : w.memory.Holds source xs)
    (hd : w.memory.Mapped dest (8 * xs.length)) (hle : dest.toNat ≤ source.toNat)
    (hlt : source.toNat + 8 * xs.length < UInt64.size) (hx : ∀ x ∈ xs, x < UInt64.size) :
    ∃ mem, runs (copyWords source dest xs.length) w = (.ok (), w.withMemory mem) ∧
      w.memory.Written dest xs mem := by
  induction xs generalizing source dest w with
  | nil => exact ⟨w.memory, rfl, .refl _ _⟩
  | cons x xs ih =>
    rw [List.length_cons] at hd hlt ⊢
    obtain ⟨hx₀, hxs⟩ := List.forall_mem_cons.mp hx
    rw [show 8 * (xs.length + 1) = 8 + 8 * xs.length by omega] at hd
    have hs8 : (source + 8).toNat = source.toNat + 8 := toNat_add_ofNat (k := 8) (by omega)
    have hd8 : (dest + 8).toNat = dest.toNat + 8 := toNat_add_ofNat (k := 8) (by omega)
    have hhead := hd.of_add
    have hval : (UInt64.ofNat x).toNat = x := UInt64.toNat_ofNat_of_lt' hx₀
    have hone : w.memory.Written dest [x] (w.memory.write 8 dest x).2 :=
      .cons hhead (by simp; omega) hx₀ (.refl _ _)
    have hstep : runs (write64 dest (UInt64.ofNat x)) w =
        (.ok (), w.withMemory (w.memory.write 8 dest x).2) := by
      rw [runs_write64 hhead (by omega), hval]
    rcases xs with _ | ⟨y, ys⟩
    · refine ⟨_, ?_, hone⟩
      show runs (copyWords source dest 1) w = _
      rw [copyWords, runs_bind_of_ok (runs_read64 hs.head), runs_bind_of_ok hstep]
      rfl
    · have hkeep : (w.memory.write 8 dest x).2.Holds (source + 8) (y :: ys) :=
        hone.keeps hs.tail (by omega) (.inr (by show dest.toNat + 8 * 1 ≤ _; omega))
      have hmapped : (w.memory.write 8 dest x).2.Mapped (dest + 8) (8 * (y :: ys).length) :=
        hd.shift.write hhead (by omega)
      obtain ⟨mem, hrun, hmem⟩ := ih (w := w.withMemory (w.memory.write 8 dest x).2) hkeep
        hmapped (by omega) (by omega) hxs
      refine ⟨mem, ?_, .cons hhead (by omega) hx₀ hmem⟩
      show runs (copyWords source dest (ys.length + 2)) w = _
      rw [copyWords, runs_bind_of_ok (runs_read64 hs.head), runs_bind_of_ok hstep,
        runs_bind_of_ok (runs_offset (by omega)), runs_bind_of_ok (runs_offset (by omega))]
      · exact hrun
      · exact nofun

lemma runs_fillUndefined (h : w.memory.Mapped a (8 * n)) (hlt : a.toNat + 8 * n < UInt64.size) :
    ∃ mem, runs (fillUndefined a n) w = (.ok (), w.withMemory mem) ∧
      w.memory.Written a (List.replicate n Value.undefined.bits.toNat) mem := by
  induction n generalizing a w with
  | zero => exact ⟨w.memory, rfl, .refl _ _⟩
  | succ n ih =>
    rw [show 8 * (n + 1) = 8 + 8 * n by omega] at h
    have ha8 : (a + 8).toNat = a.toNat + 8 := toNat_add_ofNat (k := 8) (by omega)
    have hhead := h.of_add
    have hstep : runs (writeValue a .undefined) w =
        (.ok (), w.withMemory (w.memory.write 8 a Value.undefined.bits.toNat).2) :=
      runs_write64 hhead (by omega)
    rw [List.replicate_succ]
    have hlen : 8 * (List.replicate n Value.undefined.bits.toNat).length = 8 * n := by simp
    rcases n with _ | k
    · exact ⟨_, (runs_bind_of_ok hstep).trans rfl,
        .cons hhead (by simp; omega) (UInt64.toNat_lt _) (.refl _ _)⟩
    · have hmapped : (w.memory.write 8 a Value.undefined.bits.toNat).2.Mapped (a + 8) (8 * (k + 1)) :=
        h.shift.write hhead (by omega)
      obtain ⟨mem, hrun, hmem⟩ := ih
        (w := w.withMemory (w.memory.write 8 a Value.undefined.bits.toNat).2) hmapped (by omega)
      refine ⟨mem, ?_, .cons hhead (by rw [hlen]; omega) (UInt64.toNat_lt _) hmem⟩
      show runs (fillUndefined a (k + 2)) w = _
      rw [fillUndefined, runs_bind_of_ok hstep, runs_bind_of_ok (runs_offset (by omega))]
      · exact hrun
      · exact nofun

/-! ### The outermost frame -/

def frameWords (block : Nat) (passed : List Value) : List Nat :=
  0 :: 0 :: (block + 1) :: Value.undefined.bits.toNat :: passed.length ::
    passed.map fun v => v.bits.toNat

lemma length_frameWords (block : Nat) (passed : List Value) :
    (frameWords block passed).length = Frame.headerSize + passed.length := by
  simp only [frameWords, List.length_cons, List.length_map, Frame.headerSize]
  omega

/-- The stack is there, with nothing above it, and the context record, which is below it, says how
far down it may be used. -/
structure Stack (w : World) (limit : UInt64) : Prop where
  mapped : w.memory.Mapped (UInt64.ofNat (stackTop - stackSize)) stackSize
  above {a : UInt64} (h : stackTop ≤ a.toNat) : w.memory.byte? a = none
  context : w.context.toNat + 8 ≤ stackTop - stackSize
  low : stackTop - stackSize ≤ limit.toNat
  limit : w.memory.read? 8 w.context = some limit.toNat

/-- The outermost frame is at the top of the stack, with the values that were passed. -/
structure FrameAt (mem : Memory) (block : Nat) (frame : UInt64) (passed : List Value) : Prop where
  top : frame.toNat + 8 * (Frame.headerSize + passed.length) = stackTop
  room : 8 * (Frame.headerSize + passed.length) ≤ stackSize
  words : mem.Holds frame (frameWords block passed)

lemma stackTop_eq : stackTop = 1879048192 := rfl

lemma stackSize_eq : stackSize = 1048576 := rfl

variable {limit : UInt64} {mem : Memory}

lemma Stack.mapped_of_le (h : w.Stack limit) (hlow : stackTop - stackSize ≤ a.toNat)
    (htop : a.toNat + n ≤ stackTop) : w.memory.Mapped a n := by
  have hsize := stackSize_eq
  have heq := stackTop_eq
  have hmap := h.mapped
  obtain ⟨k, hk⟩ := Nat.exists_eq_add_of_le hlow
  have hbase : (UInt64.ofNat (stackTop - stackSize)).toNat = stackTop - stackSize :=
    UInt64.toNat_ofNat_of_lt' (by rw [heq, hsize]; decide)
  have ha : a = UInt64.ofNat (stackTop - stackSize) + UInt64.ofNat k := by
    apply UInt64.toNat_inj.mp
    rw [toNat_add_ofNat (by rw [hbase]; have : UInt64.size = 18446744073709551616 := rfl; omega), hbase, hk]
  rw [ha]
  exact Mapped.of_add (k := stackSize - k - n) (Mapped.shift (by
    rwa [show k + (n + (stackSize - k - n)) = stackSize by omega]))

/-- Writing to the stack leaves the rest as it is. -/
lemma Stack.written (h : w.Stack limit) (hw : w.memory.Written a xs mem)
    (hlow : stackTop - stackSize ≤ a.toNat) (htop : a.toNat + 8 * xs.length ≤ stackTop) :
    (w.withMemory mem).Stack limit where
  mapped := hw.mapped h.mapped
  above ha := (hw.same (by omega)).trans (h.above ha)
  context := h.context
  low := h.low
  limit := by
    have hsize := stackSize_eq
    have heq := stackTop_eq
    have hcontext := h.context
    have : UInt64.size = 18446744073709551616 := rfl
    exact (hw.read? (by show w.context.toNat + 8 ≤ _; omega)
      (.inl (by show w.context.toNat + 8 ≤ _; omega))).trans h.limit

variable {code block : Nat} {this : Value} {args passed : List Value} {frame : UInt64}

/-- The frame of a call is laid out, if there is room for it on the stack. -/
lemma runs_pushFrame {A : Artifact} (this : Value) (args : List Value) (hs : w.Stack limit)
    (ha : w.artifacts[code]? = some A)
    (hblock : A.block + 1 < UInt64.size)
    (hroom : 8 * (Frame.headerSize + (1 + args.length)) ≤ stackSize) :
    ∃ frame mem, runs (pushFrame code this args) w = (.ok frame, w.withMemory mem) ∧
      (w.withMemory mem).Stack limit ∧ FrameAt mem A.block frame (this :: args) := by
  have hsize := stackSize_eq
  have heq := stackTop_eq
  have hword : UInt64.size = 18446744073709551616 := rfl
  have hheader : Frame.headerSize = 5 := rfl
  have hlen := length_frameWords A.block (this :: args)
  rw [List.length_cons] at hlen
  have hframe : (UInt64.ofNat (stackTop - 8 * (Frame.headerSize + (1 + args.length)))).toNat =
      stackTop - 8 * (Frame.headerSize + (1 + args.length)) :=
    UInt64.toNat_ofNat_of_lt' (by omega)
  have hmapped := hs.mapped_of_le
    (a := UInt64.ofNat (stackTop - 8 * (Frame.headerSize + (1 + args.length))))
    (n := 8 * (frameWords A.block (this :: args)).length) (by omega) (by omega)
  have hwords : ∀ x ∈ frameWords A.block (this :: args), x < UInt64.size := by
    intro x hx
    simp only [frameWords, List.mem_cons, List.mem_map] at hx
    rcases hx with rfl | rfl | rfl | rfl | rfl | ⟨v, -, rfl⟩
    · decide
    · decide
    · exact hblock
    · exact UInt64.toNat_lt _
    · simp only [List.length_cons]
      omega
    · exact UInt64.toNat_lt _
  obtain ⟨mem, hrun, hmem⟩ := runs_writeWords hmapped (by omega) hwords
  refine ⟨_, mem, ?_, hs.written hmem (by omega) (by omega), ⟨?_, ?_, hmem.holds⟩⟩
  · rw [pushFrame]
    dsimp only
    rw [runs_bind_of_ok (runs_artifact ha)]
    have hcount : (this :: args).length = 1 + args.length := by
      rw [List.length_cons, Nat.add_comm]
    rw [frameWords, hcount, List.map_cons] at hrun
    rw [runs_bind_of_ok hrun]
    rfl
  · rw [hframe, List.length_cons]
    omega
  · rw [List.length_cons]
    omega

lemma FrameAt.word (h : FrameAt mem block frame passed) {k x : Nat}
    (hk : (frameWords block passed)[k]? = some x) :
    mem.read? 8 (frame + UInt64.ofNat (8 * k)) = some x := h.words k x hk

lemma FrameAt.count (h : FrameAt mem block frame passed) :
    mem.read? 8 (frame + UInt64.ofNat (8 * Frame.argumentCount)) = some passed.length :=
  h.word (k := Frame.argumentCount) rfl

lemma FrameAt.argument (h : FrameAt mem block frame passed) {k : Nat} {v : Value}
    (hk : passed[k]? = some v) :
    mem.read? 8 (frame + UInt64.ofNat (8 * (Frame.headerSize + k))) = some v.bits.toNat := by
  refine h.word ?_
  rw [Nat.add_comm]
  simp [frameWords, Frame.headerSize, hk]

/-! ### Missing arguments -/

/-- A frame lies in the stack: a header, which says how many values there are, and the values. -/
structure FrameIn (mem : Memory) (frame : UInt64) (count : Nat) (xs : List Nat) : Prop where
  low : stackTop - stackSize ≤ frame.toNat
  top : frame.toNat + 8 * xs.length ≤ stackTop
  length : xs.length = Frame.headerSize + count
  counted : xs[Frame.argumentCount]? = some count
  words : mem.Holds frame xs

/-- There is an address so far below the frame. -/
lemma FrameIn.toNat_sub {count : Nat} (h : FrameIn mem frame count xs) (hn : n ≤ frame.toNat) :
    (frame - UInt64.ofNat n).toNat + n = frame.toNat := by
  have heq := stackTop_eq
  have hword : UInt64.size = 18446744073709551616 := rfl
  have htop := h.top
  have hofNat : (UInt64.ofNat n).toNat = n := UInt64.toNat_ofNat_of_lt' (by omega)
  rw [UInt64.toNat_sub_of_le _ _ (UInt64.le_iff_toNat_le.mpr (by omega)), hofNat]
  omega

lemma FrameAt.frameIn (h : FrameAt mem block frame passed) :
    FrameIn mem frame passed.length (frameWords block passed) := by
  have hlen := length_frameWords block passed
  have htop := h.top
  have hroom := h.room
  exact ⟨by omega, by omega, hlen, rfl, h.words⟩

/-- The words of a frame once no argument is missing: undefined stands for each that was, and there
are as many arguments as parameters. -/
def fixedWords (xs : List Nat) (count parameters : Nat) : List Nat :=
  xs.set Frame.argumentCount parameters ++
    List.replicate (parameters - count) Value.undefined.bits.toNat

/-- The values passed, and undefined for every parameter beyond them. -/
def padded (passed : List Value) (parameters : Nat) : List Value :=
  passed ++ List.replicate (parameters - passed.length) .undefined

lemma length_padded {parameters : Nat} (h : passed.length ≤ parameters) :
    (padded passed parameters).length = parameters := by
  rw [padded, List.length_append, List.length_replicate]
  omega

lemma fixedWords_frameWords {parameters : Nat} (h : passed.length ≤ parameters) :
    fixedWords (frameWords block passed) passed.length parameters =
      frameWords block (padded passed parameters) := by
  have hlen := length_padded h
  rw [fixedWords, frameWords, frameWords, hlen]
  simp only [Frame.argumentCount, List.set_cons_succ, List.set_cons_zero, List.cons_append, padded,
    List.map_append, List.map_replicate]

def moveFrame (frame moved : UInt64) (count parameters : Nat) : Run UInt64 := do
  copyWords frame moved (Frame.headerSize + count)
  fillUndefined (← offset moved (8 * (Frame.headerSize + count))) (parameters - count)
  write64 (← offset moved (8 * Frame.argumentCount)) (UInt64.ofNat parameters)
  return moved

lemma runs_stackLimit (hs : w.Stack limit) : runs World.stackLimit w = (.ok limit, w) := by
  have hread := runs_read64 hs.limit
  rw [UInt64.ofNat_toNat] at hread
  have hfield : runs (contextField Context.stackLimit) w = (.ok w.context, w) := by
    rw [contextField, runs_bind_of_ok runs_get]
    show (_, _) = _
    rw [show Context.stackLimit = 0 from rfl, show UInt64.ofNat 0 = 0 from rfl, UInt64.add_zero]
  rw [World.stackLimit, runs_bind_of_ok hfield, hread]

section Fixing

variable {count parameters : Nat} (frameSlots : Nat) (hs : w.Stack limit)
  (hf : FrameIn w.memory frame count xs)

include hs hf in
/-- What is done about missing arguments is decided before anything is changed. -/
lemma runs_fixArity : runs (fixArity frame parameters frameSlots) w =
    if parameters ≤ count then (.ok frame, w)
    else if frame.toNat < 8 * (parameters - count) + 8 * frameSlots then
      (.error (.breach .overflow), w)
    else if frame.toNat < limit.toNat + (8 * (parameters - count) + 8 * frameSlots) then
      runs (do
        throwStackOverflow
        return 0) w
    else
      runs (moveFrame frame (frame - UInt64.ofNat (8 * (parameters - count))) count parameters) w := by
  have heq := stackTop_eq
  have hword : UInt64.size = 18446744073709551616 := rfl
  have hcountAt : Frame.argumentCount = 4 := rfl
  have hheader : Frame.headerSize = 5 := rfl
  have htop := hf.top
  have hlen := hf.length
  have hcount : (UInt64.ofNat count).toNat = count := UInt64.toNat_ofNat_of_lt' (by omega)
  rw [fixArity, runs_bind_of_ok (runs_offset (by omega)),
    runs_bind_of_ok (runs_read64 (hf.words _ _ hf.counted)), hcount]
  dsimp only
  by_cases hp : parameters ≤ count
  · rw [if_pos hp, if_pos hp]
    rfl
  rw [if_neg hp, if_neg hp]
  by_cases hmissing : frame.toNat < 8 * (parameters - count)
  · rw [if_pos hmissing, if_pos (by omega)]
    rfl
  have hmoved := hf.toNat_sub (Nat.le_of_not_lt hmissing)
  rw [if_neg hmissing, runs_bind_of_ok (runs_stackLimit hs),
    show (frame - UInt64.ofNat (8 * (parameters - count))).toNat =
      frame.toNat - 8 * (parameters - count) by omega]
  by_cases hslots : frame.toNat - 8 * (parameters - count) < 8 * frameSlots
  · rw [if_pos hslots, if_pos (show frame.toNat < 8 * (parameters - count) + 8 * frameSlots by omega)]
    rfl
  rw [if_neg hslots, if_neg (show ¬frame.toNat < 8 * (parameters - count) + 8 * frameSlots by omega)]
  by_cases hover : frame.toNat - 8 * (parameters - count) - 8 * frameSlots < limit.toNat
  · rw [if_pos hover, if_pos (by omega)]
  · rw [if_neg hover, if_neg (by omega)]
    rfl

include hs hf in
/-- Where there is room for it, a frame is moved down with all that it holds. -/
lemma runs_moveFrame {moved : UInt64} (hp : count < parameters)
    (hmoved : moved.toNat + 8 * (parameters - count) = frame.toNat)
    (hlow : stackTop - stackSize ≤ moved.toNat) :
    ∃ mem, runs (moveFrame frame moved count parameters) w = (.ok moved, w.withMemory mem) ∧
      w.memory.Written moved (fixedWords xs count parameters) mem := by
  have heq := stackTop_eq
  have hword : UInt64.size = 18446744073709551616 := rfl
  have hcountAt : Frame.argumentCount = 4 := rfl
  have hheader : Frame.headerSize = 5 := rfl
  have htop := hf.top
  have hlen := hf.length
  -- first what there is, the lowest word first, which no word overwrites that is still to be copied
  obtain ⟨mem₁, hrun₁, h₁⟩ := runs_copyWords hf.words (hs.mapped_of_le hlow (by omega))
    (by omega) (by omega) hf.words.lt
  have hs₁ := hs.written h₁ hlow (by omega)
  -- then what is missing
  have hrest : (moved + UInt64.ofNat (8 * xs.length)).toNat = moved.toNat + 8 * xs.length :=
    toNat_add_ofNat (by omega)
  obtain ⟨mem₂, hrun₂, h₂⟩ := runs_fillUndefined (w := w.withMemory mem₁)
    (a := moved + UInt64.ofNat (8 * xs.length)) (n := parameters - count)
    (hs₁.mapped_of_le (by omega) (by omega)) (by omega)
  have h₁₂ := h₁.append h₂ (by rw [List.length_replicate]; omega)
  have hlen₁₂ : (xs ++ List.replicate (parameters - count) Value.undefined.bits.toNat).length =
      Frame.headerSize + parameters := by
    rw [List.length_append, List.length_replicate]
    omega
  have hs₂ := hs.written h₁₂ hlow (by omega)
  -- and last the number of arguments
  have hat : (moved + UInt64.ofNat (8 * Frame.argumentCount)).toNat =
      moved.toNat + 8 * Frame.argumentCount := toNat_add_ofNat (by omega)
  have hmapped : mem₂.Mapped (moved + UInt64.ofNat (8 * Frame.argumentCount)) 8 :=
    hs₂.mapped_of_le (by omega) (by omega)
  have hparameters : (UInt64.ofNat parameters).toNat = parameters :=
    UInt64.toNat_ofNat_of_lt' (by omega)
  have hrun₃ := runs_write64 (w := w.withMemory mem₂) (v := UInt64.ofNat parameters) hmapped (by omega)
  rw [hparameters] at hrun₃
  have h₃ := h₁₂.set (k := Frame.argumentCount) (.cons (x := parameters) hmapped
    (by rw [List.length_nil]; omega) (by omega) (.refl _ _)) (by omega) (by omega)
  rw [List.set_append_left _ _ (by omega)] at h₃
  refine ⟨_, ?_, h₃⟩
  rw [hlen] at hrun₁ hrun₂
  rw [withMemory_withMemory] at hrun₂
  rw [moveFrame, runs_bind_of_ok hrun₁, runs_bind_of_ok (runs_offset (by omega)), runs_bind_of_ok hrun₂,
    runs_bind_of_ok (runs_offset (by omega)), runs_bind_of_ok hrun₃]
  rfl

end Fixing

/-- A frame with so many values passed, and so many slots below it, fits above the stack limit. -/
def Fits (limit : UInt64) (frameSlots passed : Nat) : Prop :=
  limit.toNat + 8 * (frameSlots + (Frame.headerSize + passed)) ≤ stackTop

inductive FixesArity (w : World) (limit : UInt64) (block : Nat) (passed : List Value)
    (parameters frameSlots : Nat) : Except Fault UInt64 × World → Prop where
  | fails (e : Fault) (w' : World) (h : ¬Fits limit frameSlots parameters) :
    FixesArity w limit block passed parameters frameSlots (.error e, w')
  | overflows (w' : World) (h : ¬Fits limit frameSlots parameters) :
    FixesArity w limit block passed parameters frameSlots (.ok 0, w')
  | moves (moved : UInt64) (mem : Memory) (hs : (w.withMemory mem).Stack limit)
    (hf : FrameAt mem block moved (padded passed parameters)) :
    FixesArity w limit block passed parameters frameSlots (.ok moved, w.withMemory mem)

/-- Missing arguments are made up, if there is room for them. -/
lemma fixesArity {parameters : Nat} (frameSlots : Nat) (hs : w.Stack limit)
    (hf : FrameAt w.memory block frame passed) (hp : passed.length < parameters) :
    FixesArity w limit block passed parameters frameSlots
      (runs (fixArity frame parameters frameSlots) w) := by
  have heq := stackTop_eq
  have hsize := stackSize_eq
  have hword : UInt64.size = 18446744073709551616 := rfl
  have hheader : Frame.headerSize = 5 := rfl
  have htop := hf.top
  have hlow := hs.low
  rw [runs_fixArity frameSlots hs hf.frameIn, if_neg (Nat.not_le.mpr hp)]
  split
  case isTrue hwraps => exact .fails _ _ (by unfold Fits; omega)
  case isFalse hwraps =>
    split
    case isTrue hover =>
      have hno : ¬Fits limit frameSlots parameters := by
        unfold Fits
        omega
      rw [runs_bind]
      rcases runs throwStackOverflow w with ⟨e | ⟨⟩, w'⟩
      · exact .fails _ _ hno
      · exact .overflows _ hno
    case isFalse hfits =>
      have hsub := hf.frameIn.toNat_sub (n := 8 * (parameters - passed.length)) (by omega)
      obtain ⟨mem, hrun, hmem⟩ := runs_moveFrame hs hf.frameIn hp hsub (by omega)
      rw [fixedWords_frameWords hp.le] at hmem
      have hlen := length_padded hp.le
      have hwords := length_frameWords block (padded passed parameters)
      rw [hrun]
      exact .moves _ mem (hs.written hmem (by omega) (by omega))
        ⟨by omega, by omega, hmem.holds⟩

end World
end Speculation
