import Speculation.Proofs.SlowPath.Saving
import Speculation.Proofs.World.Pages

/-!
Memory as a flat store of bytes.

The pages do not show: reads, writes and allocations are those of a partial map from addresses to
bytes. `Flat` is that map, with what was handed out, and `Flat.Step` says what it does for each
request; a memory follows it from the start on, whatever is asked of it.

Bytes are written one after the other. So a write that fails has written those before the first that
is not mapped.
-/

namespace Speculation

namespace Memory

variable {m : Memory} {a b : UInt64} {n : Nat} {bs : List UInt8}

instance : Decidable (Mapped m a n) :=
  inferInstanceAs (Decidable (∀ k, k < n → (m.byte? (a + UInt64.ofNat k)).isSome))

lemma mapped_succ : Mapped m a (n + 1) ↔ (m.byte? a).isSome ∧ Mapped m (a + 1) n := by
  refine ⟨fun h => ⟨h.head, h.tail⟩, fun ⟨h, ht⟩ k hk => ?_⟩
  cases k with
  | zero => rwa [show UInt64.ofNat 0 = 0 from rfl, UInt64.add_zero]
  | succ k =>
    rw [add_ofNat_succ]
    exact ht k (by omega)

lemma Mapped.mono {k : Nat} (h : Mapped m a n) (hk : k ≤ n) : Mapped m a k :=
  fun j hj => h j (by omega)

lemma mapped_setByte {x : UInt8} : Mapped (m.setByte b x) a n ↔ Mapped m a n := by
  refine forall₂_congr fun k _ => ?_
  rw [byte?_setByte]
  split
  · rw [Option.isSome_map]
  · rfl

lemma Whole.setByte (hm : m.Whole) (a : UInt64) (x : UInt8) : (m.setByte a x).Whole := by
  intro p page hp
  rw [Memory.setByte, Std.TreeMap.getElem?_modify] at hp
  split at hp
  · obtain ⟨old, hold, rfl⟩ := Option.map_eq_some_iff.mp hp
    rw [Bytes.size_overwrite]
    exact hm _ _ hold
  · exact hm _ _ hp

lemma Whole.writeBytes (hm : m.Whole) (a : UInt64) (bs : List UInt8) :
    (m.writeBytes a bs).2.Whole := by
  induction bs generalizing m a with
  | nil => exact hm
  | cons x bs ih =>
    rw [Memory.writeBytes]
    split
    · exact ih (hm.setByte a x) _
    · exact hm

/-- What writing bytes does to a byte: those before the first that is not mapped are written. -/
lemma byte?_writeBytes (hm : m.Whole) (hlen : bs.length ≤ UInt64.size) (b : UInt64) :
    (m.writeBytes a bs).2.byte? b =
      if Mapped m a ((b - a).toNat + 1) then bs[(b - a).toNat]?.or (m.byte? b) else m.byte? b := by
  induction bs generalizing m a with
  | nil => rw [writeBytes, List.getElem?_nil, Option.none_or, ite_self]
  | cons x bs ih =>
    rw [List.length_cons] at hlen
    rw [writeBytes]
    by_cases ha : (m.byte? a).isSome
    case neg =>
      rw [hm.isMapped, if_neg ha, if_neg fun h => ha (mapped_succ.mp h).1]
    rw [hm.isMapped, if_pos ha, ih (hm.setByte a x) (by omega)]
    by_cases hb : b = a
    · subst hb
      have hfar : bs.length ≤ (b - (b + 1)).toNat := by
        have h1 : (1 : UInt64).toNat = 1 := rfl
        have hword : UInt64.size = 18446744073709551616 := rfl
        have := b.toNat_lt
        rw [UInt64.toNat_sub, UInt64.toNat_add, h1]
        omega
      obtain ⟨y, hy⟩ := Option.isSome_iff_exists.mp ha
      have h0 : Mapped m b 1 := mapped_succ.mpr ⟨ha, fun k hk => absurd hk (Nat.not_lt_zero k)⟩
      rw [List.getElem?_eq_none hfar, Option.none_or, ite_self, byte?_setByte, if_pos rfl,
        UInt64.sub_self, show (0 : UInt64).toNat = 0 from rfl, if_pos h0, hy]
      rfl
    · have hk := sub_add_one a b hb
      rw [← hk, List.getElem?_cons_succ, byte?_setByte, if_neg hb]
      refine if_congr ?_ rfl rfl
      rw [mapped_setByte, mapped_succ (n := _ + 1)]
      exact (and_iff_right ha).symm

lemma writeBytes_fst (hm : m.Whole) : (m.writeBytes a bs).1 = decide (Mapped m a bs.length) := by
  induction bs generalizing m a with
  | nil => exact (decide_eq_true fun k hk => absurd hk (Nat.not_lt_zero k)).symm
  | cons x bs ih =>
    rw [writeBytes, hm.isMapped]
    by_cases ha : (m.byte? a).isSome
    · rw [if_pos ha, ih (hm.setByte a x)]
      refine decide_eq_decide.mpr ?_
      rw [mapped_setByte, List.length_cons, mapped_succ]
      exact (and_iff_right ha).symm
    · rw [if_neg ha]
      exact (decide_eq_false fun h => ha h.head).symm

lemma readBytes?_eq (h : Mapped m a n) :
    m.readBytes? a n = some ((List.range n).map fun k => (m.byte? (a + UInt64.ofNat k)).getD 0) := by
  induction n generalizing a with
  | zero => rfl
  | succ n ih =>
    obtain ⟨x, hx⟩ := Option.isSome_iff_exists.mp h.head
    rw [readBytes?, hx, ih h.tail, List.range_succ_eq_map, List.map_cons, List.map_map,
      show UInt64.ofNat 0 = 0 from rfl, UInt64.add_zero, hx]
    refine congrArg (fun bs => some (x :: bs)) (List.map_congr_left fun k _ => ?_)
    rw [Function.comp, add_ofNat_succ]

lemma read?_eq_none (h : ¬Mapped m a n) : m.read? n a = none := by
  rcases hx : m.read? n a with _ | x
  · rfl
  · exact absurd (mapped_of_read? hx) h

lemma getElem?_bytes (n x k : Nat) :
    (Bytes.ofNat n x)[k]? = if k < n then some (UInt8.ofNat (x / 256 ^ k)) else none := by
  induction n generalizing x k with
  | zero => rfl
  | succ n ih =>
    cases k with
    | zero =>
      rw [if_pos n.succ_pos, pow_zero, Nat.div_one, Bytes.ofNat, List.getElem?_cons_zero]
      exact congrArg some (UInt8.toNat_inj.mp (by simp))
    | succ k =>
      rw [Bytes.ofNat, List.getElem?_cons_succ, ih, Nat.div_div_eq_div_mul, ← Nat.pow_succ']
      exact if_congr Nat.succ_lt_succ_iff.symm rfl rfl

/-- A word of `n` bytes over the bytes at an address. -/
def overlay (n : Nat) (a : UInt64) (x : Nat) (old : UInt64 → Option UInt8) (b : UInt64) :
    Option UInt8 :=
  if (b - a).toNat < n then some (UInt8.ofNat (x / 256 ^ (b - a).toNat)) else old b

/-- The first bytes of a stretch of memory, up to one that is not mapped. -/
structure Torn (m : Memory) (n : Nat) (a : UInt64) (j : Nat) : Prop where
  lt : j < n
  mapped : m.Mapped a j
  unmapped : m.byte? (a + UInt64.ofNat j) = none

lemma exists_torn (h : ¬Mapped m a n) : ∃ j, m.Torn n a j := by
  induction n with
  | zero => exact absurd (fun k hk => absurd hk (Nat.not_lt_zero k)) h
  | succ n ih =>
    by_cases hn : Mapped m a n
    · refine ⟨n, n.lt_succ_self, hn, Option.not_isSome_iff_eq_none.mp fun hb => h fun k hk => ?_⟩
      rcases Nat.lt_succ_iff_lt_or_eq.mp hk with hk | rfl
      · exact hn k hk
      · exact hb
    · obtain ⟨j, hj⟩ := ih hn
      exact ⟨j, hj.lt.trans n.lt_succ_self, hj.mapped, hj.unmapped⟩

variable {x : Nat}

/-- A write succeeds where all bytes are mapped, and changes just them. -/
lemma write_all (hm : m.Whole) (hn : n ≤ UInt64.size) (h : Mapped m a n) :
    (m.write n a x).1 = true ∧ (m.write n a x).2.byte? = overlay n a x m.byte? := by
  refine ⟨?_, funext fun b => ?_⟩
  · rw [write, writeBytes_fst hm, Bytes.length_ofNat]
    exact decide_eq_true h
  · rw [write, byte?_writeBytes hm (by rwa [Bytes.length_ofNat]), getElem?_bytes, overlay]
    by_cases hk : (b - a).toNat < n
    · rw [if_pos hk, if_pos hk, if_pos (h.mono hk), Option.some_or]
    · rw [if_neg hk, if_neg hk, Option.none_or, ite_self]

/-- A write that fails has written the bytes before the first that is not mapped. -/
lemma write_torn (hm : m.Whole) (hn : n ≤ UInt64.size) {j : Nat} (h : m.Torn n a j) :
    (m.write n a x).1 = false ∧ (m.write n a x).2.byte? = overlay j a x m.byte? := by
  have hno {k : Nat} (hk : j < k) : ¬Mapped m a k := fun hall => by
    have := hall j hk
    rw [h.unmapped] at this
    cases this
  refine ⟨?_, funext fun b => ?_⟩
  · rw [write, writeBytes_fst hm, Bytes.length_ofNat]
    exact decide_eq_false (hno h.lt)
  · rw [write, byte?_writeBytes hm (by rwa [Bytes.length_ofNat]), getElem?_bytes, overlay]
    by_cases hk : (b - a).toNat < j
    · rw [if_pos hk, if_pos (hk.trans h.lt), if_pos (h.mapped.mono hk),
        Option.some_or]
    · rw [if_neg hk, if_neg (hno (by omega))]

lemma Whole.alloc (hm : m.Whole) (length : Nat) : (m.alloc length).2.Whole := hm.map _ _

inductive Request where
  | alloc (length : Nat)
  | read (width : Width) (a : UInt64)
  | write (width : Width) (a : UInt64) (x : Nat)

def Request.size : Request → Nat
  | alloc length => roundUp length
  | read .. | write .. => 0

inductive Answer where
  | address (a : UInt64)
  | word (x : Nat)
  | done
  /-- Not all the bytes are mapped. -/
  | unmapped
deriving DecidableEq

def serve (m : Memory) : Request → Answer × Memory
  | .alloc length => (.address (m.alloc length).1, (m.alloc length).2)
  | .read width a => (((m.read? width.bytes a).map Answer.word).getD .unmapped, m)
  | .write width a x =>
    (if (m.write width.bytes a x).1 then .done else .unmapped, (m.write width.bytes a x).2)

def after (m : Memory) : List Request → Memory
  | [] => m
  | r :: rs => (m.serve r).2.after rs

lemma Whole.serve (hm : m.Whole) (r : Request) : (m.serve r).2.Whole :=
  match r with
  | .alloc length => hm.alloc length
  | .read .. => hm
  | .write .. => hm.writeBytes _ _

lemma Whole.after (hm : m.Whole) (rs : List Request) : (m.after rs).Whole := by
  induction rs generalizing m with
  | nil => exact hm
  | cons r rs ih => exact ih (hm.serve r)

end Memory

/-- A flat store: which addresses hold a byte, what was last written to them, and the regions handed
out, each with its length. -/
structure Flat where
  mapped : UInt64 → Prop
  written : UInt64 → Option UInt8
  regions : List (UInt64 × Nat)

namespace Flat

open Memory

/-- The stack, to which nothing was written yet. -/
def new : Flat where
  mapped a := stackTop - stackSize ≤ a.toNat ∧ a.toNat < stackTop
  written _ := none
  regions := []

def Has (s : Flat) (a : UInt64) (n : Nat) : Prop := ∀ k, k < n → s.mapped (a + UInt64.ofNat k)

def byte (s : Flat) (a : UInt64) : UInt8 := (s.written a).getD 0

def word (s : Flat) (a : UInt64) (n : Nat) : Nat :=
  Bytes.toNat ((List.range n).map fun k => s.byte (a + UInt64.ofNat k))

def put (s : Flat) (n : Nat) (a : UInt64) (x : Nat) : Flat :=
  { s with written := overlay n a x s.written }

/-- What a flat store does for a request. -/
inductive Step (s : Flat) : Request → Answer → Flat → Prop
  | alloc {length size : Nat} {a : UInt64} {s' : Flat} (enough : length ≤ size)
      (aligned : 8 ∣ a.toNat) (fits : a.toNat + size ≤ UInt64.size)
      (apart : ∀ r ∈ s.regions, Apart a size r.1 r.2) (mapped : s'.Has a size)
      (stays : ∀ b, s.mapped b → s'.mapped b) (written : s'.written = s.written)
      (regions : s'.regions = (a, size) :: s.regions) : s.Step (.alloc length) (.address a) s'
  | read {width : Width} {a : UInt64} (all : s.Has a width.bytes) :
      s.Step (.read width a) (.word (s.word a width.bytes)) s
  | readUnmapped {width : Width} {a : UInt64} (partly : ¬s.Has a width.bytes) :
      s.Step (.read width a) .unmapped s
  | write {width : Width} {a : UInt64} {x : Nat} (all : s.Has a width.bytes) :
      s.Step (.write width a x) .done (s.put width.bytes a x)
  | writeUnmapped {width : Width} {a : UInt64} {x n : Nat} (fewer : n < width.bytes)
      (first : s.Has a n) (next : ¬s.mapped (a + UInt64.ofNat n)) :
      s.Step (.write width a x) .unmapped (s.put n a x)

def Shows (s : Flat) (m : Memory) : Prop :=
  ∀ a, (s.mapped a → m.byte? a = some (s.byte a)) ∧ (¬s.mapped a → m.byte? a = none)

/-- Request by request, a memory answers as a flat store does, and goes on with the same bytes. -/
inductive Follows : Flat → Memory → List Request → Prop
  | nil {s : Flat} {m : Memory} : Follows s m []
  | cons {s s' : Flat} {m : Memory} {r : Request} {rs : List Request}
      (step : s.Step r (m.serve r).1 s') (shows : s'.Shows (m.serve r).2)
      (rest : Follows s' (m.serve r).2 rs) : Follows s m (r :: rs)

structure Models (s : Flat) (m : Memory) : Prop where
  whole : m.Whole
  shows : s.Shows m
  /-- Nothing was written where nothing is mapped. -/
  blank : ∀ a, ¬s.mapped a → s.written a = none
  aligned : 8 ∣ m.next
  below : ∀ r ∈ s.regions, r.1.toNat + r.2 ≤ m.next

variable {s : Flat} {m : Memory} {a : UInt64} {n x : Nat}

lemma Shows.isSome_iff (h : s.Shows m) (a : UInt64) : (m.byte? a).isSome ↔ s.mapped a := by
  by_cases ha : s.mapped a
  · rw [(h a).1 ha]
    exact iff_of_true rfl ha
  · rw [(h a).2 ha]
    exact iff_of_false Bool.false_ne_true ha

lemma Shows.mapped_iff (h : s.Shows m) (a : UInt64) (n : Nat) : m.Mapped a n ↔ s.Has a n :=
  forall₂_congr fun _ _ => h.isSome_iff _

lemma Shows.read (h : s.Shows m) (ha : s.Has a n) : m.read? n a = some (s.word a n) := by
  rw [read?, readBytes?_eq ((h.mapped_iff a n).mpr ha), Option.map_some, word]
  refine congrArg (fun bs => some (Bytes.toNat bs)) (List.map_congr_left fun k hk => ?_)
  rw [(h _).1 (ha k (List.mem_range.mp hk)), Option.getD_some]

/-- An address is that far into a stretch that it lies in. -/
lemma add_sub_toNat (a b : UInt64) : a + UInt64.ofNat (b - a).toNat = b := by
  rw [UInt64.ofNat_toNat, UInt64.add_comm, UInt64.sub_add_cancel]

lemma Has.mapped (h : s.Has a n) {b : UInt64} (hb : (b - a).toNat < n) : s.mapped b := by
  have := h _ hb
  rwa [add_sub_toNat] at this

lemma Models.stored (h : s.Models m) (ha : s.Has a n) {m' : Memory} (hw : m'.Whole)
    (hbytes : m'.byte? = overlay n a x m.byte?) (hnext : m'.next = m.next) :
    (s.put n a x).Models m' where
  whole := hw
  shows b := by
    rw [hbytes]
    by_cases hb : (b - a).toNat < n
    · exact ⟨fun _ => by simp only [overlay, byte, put, if_pos hb, Option.getD_some],
        fun hno => absurd (ha.mapped hb) hno⟩
    · simp only [overlay, byte, put, if_neg hb]
      exact h.shows b
  blank b hb := by
    have hlt : ¬(b - a).toNat < n := fun hlt => hb (ha.mapped hlt)
    exact (if_neg hlt).trans (h.blank b hb)
  aligned := hnext ▸ h.aligned
  below := hnext ▸ h.below

/-- Memory in which a region was handed out. -/
lemma Models.alloc (h : s.Models m) {length : Nat}
    (hroom : m.next + roundUp length + pageSize ≤ UInt64.size) :
    ∃ s', s.Step (.alloc length) (.address (m.alloc length).1) s' ∧ s'.Models (m.alloc length).2 := by
  have hsize := pageSize_eq
  have hround : length ≤ roundUp length ∧ 8 ∣ roundUp length := by
    unfold roundUp
    omega
  have hnext : (UInt64.ofNat m.next).toNat = m.next := UInt64.toNat_ofNat_of_lt' (by omega)
  have hbyte (b : UInt64) : (m.alloc length).2.byte? b = _ := byte?_map (a := b) hroom
  have hkept {b : UInt64} (hb : s.mapped b) : (m.alloc length).2.byte? b = some (s.byte b) := by
    have := (h.shows b).1 hb
    rw [hbyte, if_pos (by rw [h.whole.isMapped, this]; rfl), this]
  let s' : Flat :=
    { mapped := fun b => ((m.alloc length).2.byte? b).isSome, written := s.written
      regions := (UInt64.ofNat m.next, roundUp length) :: s.regions }
  have hfits : (UInt64.ofNat m.next).toNat + roundUp length ≤ UInt64.size := by omega
  refine ⟨s', .alloc hround.1 (hnext.symm ▸ h.aligned) hfits (fun r hr => ?_) (fun k hk => ?_)
    (fun b hb => ?_) rfl rfl, ⟨h.whole.alloc length, fun b => ⟨fun hb => ?_, fun hb => ?_⟩,
      fun b hb => h.blank b fun hold => hb ?_, ?_, fun r hr => ?_⟩⟩
  · exact .inr (hnext.symm ▸ h.below r hr)
  · exact mapped_map h.whole hroom k hk
  · exact Option.isSome_of_eq_some (hkept hb)
  · by_cases hold : s.mapped b
    · exact hkept hold
    · replace hb : ((m.alloc length).2.byte? b).isSome := hb
      have hnone : m.isMapped b = false := by
        rw [h.whole.isMapped, (h.shows b).2 hold]
        rfl
      rw [hbyte, hnone, if_neg Bool.false_ne_true] at hb ⊢
      split at hb
      · rw [if_pos ‹_›, byte, show s'.written b = s.written b from rfl, h.blank b hold]
        rfl
      · cases hb
  · exact Option.not_isSome_iff_eq_none.mp hb
  · exact Option.isSome_of_eq_some (hkept hold)
  · show 8 ∣ m.next + roundUp length
    exact Nat.dvd_add h.aligned hround.2
  · show r.1.toNat + r.2 ≤ m.next + roundUp length
    rcases List.mem_cons.mp hr with rfl | hr
    · rw [hnext]
    · exact (h.below r hr).trans (Nat.le_add_right _ _)

lemma bytes_le (width : Width) : width.bytes ≤ UInt64.size := by cases width <;> decide

lemma Models.step (h : s.Models m) (r : Request) (hroom : m.next + r.size + pageSize ≤ UInt64.size) :
    ∃ s', s.Step r (m.serve r).1 s' ∧ s'.Models (m.serve r).2 := by
  cases r with
  | alloc length => exact h.alloc hroom
  | read width a =>
    refine ⟨s, ?_, h⟩
    by_cases ha : s.Has a width.bytes
    · rw [serve, h.shows.read ha]
      exact .read ha
    · rw [serve, read?_eq_none fun hm => ha ((h.shows.mapped_iff _ _).mp hm)]
      exact .readUnmapped ha
  | write width a x =>
    have hnext : (m.write width.bytes a x).2.next = m.next := next_writeBytes _ _ _
    have hwhole := h.whole.serve (.write width a x)
    by_cases ha : s.Has a width.bytes
    · obtain ⟨hall, hbytes⟩ := write_all (x := x) h.whole (bytes_le width)
        ((h.shows.mapped_iff _ _).mpr ha)
      refine ⟨_, ?_, h.stored ha hwhole hbytes hnext⟩
      rw [serve, hall]
      exact .write ha
    · obtain ⟨n, hn⟩ := exists_torn fun hm => ha ((h.shows.mapped_iff _ _).mp hm)
      have hfirst := (h.shows.mapped_iff _ _).mp hn.mapped
      have hnone : ¬s.mapped (a + UInt64.ofNat n) := fun hm => by
        have := (h.shows _).1 hm
        rw [hn.unmapped] at this
        cases this
      obtain ⟨hall, hbytes⟩ := write_torn (x := x) h.whole (bytes_le width) hn
      refine ⟨_, ?_, h.stored hfirst hwhole hbytes hnext⟩
      rw [serve, hall]
      exact .writeUnmapped hn.lt hfirst hnone

lemma next_serve (m : Memory) (r : Request) : (m.serve r).2.next = m.next + r.size := by
  cases r with
  | alloc length => rfl
  | read => rfl
  | write => exact next_writeBytes _ _ _

lemma Models.follows (h : s.Models m) (rs : List Request)
    (hroom : m.next + (rs.map Request.size).sum + pageSize ≤ UInt64.size) : Follows s m rs := by
  induction rs generalizing s m with
  | nil => exact .nil
  | cons r rs ih =>
    rw [List.map_cons, List.sum_cons] at hroom
    obtain ⟨s', hstep, hs'⟩ := h.step r (by omega)
    exact .cons hstep hs'.shows (ih hs' (by rw [next_serve]; omega))

lemma models_new : new.Models Memory.new where
  whole := whole_new
  shows a := by
    rw [byte?_new]
    exact ⟨fun h => if_pos h, fun h => if_neg h⟩
  blank _ _ := rfl
  aligned := by decide
  below _ hr := absurd hr List.not_mem_nil

/-- From the start on, memory is a flat store: a read or a write succeeds where all of its bytes are
mapped, a read gives what was last written and zeros elsewhere, a write changes its own bytes, and an
allocation hands out a new region and changes no byte that was there. -/
theorem follows_new (rs : List Request) (hroom : (rs.map Request.size).sum < 2 ^ 62) :
    Flat.new.Shows Memory.new ∧ Follows Flat.new Memory.new rs := by
  have hsize := pageSize_eq
  have hbase : Memory.new.next = 268435456 := rfl
  have hword : UInt64.size = 18446744073709551616 := rfl
  exact ⟨models_new.shows, models_new.follows rs (by omega)⟩

/-- Words over each other, across the end of a page, and at the end of the stack. -/
theorem follows_new_mixed :
    ([Request.alloc 4090, .write .w64 0x10000ff4 5, .write .w16 0x10000ffb 7, .read .w64 0x10000ffa,
        .write .w32 0x6ffffffe 1, .alloc 0].map Request.size).sum < 2 ^ 62 ∧
      Follows Flat.new Memory.new [.alloc 4090, .write .w64 0x10000ff4 5, .write .w16 0x10000ffb 7,
        .read .w64 0x10000ffa, .write .w32 0x6ffffffe 1, .alloc 0] :=
  ⟨by decide, (follows_new _ (by decide)).2⟩

end Flat

/-! ### Stores that fail -/

def Inst.store? (r : Registers) : Inst → Option (Nat × UInt64 × UInt64)
  | .store width src a => some (width.bytes, r.address a, r.gpr src)
  | .storeD src a => some (8, r.address a, (r.fpr src).bits)
  | _ => none

namespace World

open Memory

variable {w : World} {t : Thread} {c : Artifact} {i : Inst} {n length : Nat} {a x : UInt64}

lemma runs_step_store (hc : w.artifacts[t.code]? = some c)
    (hi : c.decodeAt t.pc = .ok (.ok (i, length))) (hs : i.store? t.registers = some (n, a, x)) :
    runs (Execution.step t) w =
      (if (w.memory.write n a x.toNat).1 then
          .ok (.running { t with pc := t.pc + UInt64.ofNat length })
        else .error (.badAccess a),
        w.withMemory (w.memory.write n a x.toNat).2) := by
  have hwrite : runs (Execution.execute { t with pc := t.pc + UInt64.ofNat length } t.pc i) w =
      runs (writeWord n a x.toNat >>= fun _ =>
        pure (.running { t with pc := t.pc + UInt64.ofNat length })) w := by
    cases i with
    | store | storeD => cases hs; rfl
    | _ => cases hs
  rw [runs_step hc hi, hwrite]
  by_cases h : (w.memory.write n a x.toNat).1 = true
  · rw [if_pos h, runs_bind_of_ok (runs_writeWord h)]
    rfl
  · rw [if_neg h, runs_bind, runs_writeWord_not h]
    rfl

end World

namespace Memory

open World

/-- A failing write can leave bytes behind. -/
theorem write_torn_stackTop : ¬∀ (rs : List Request) (width : Width) (a : UInt64) (x : Nat),
    ((new.after rs).write width.bytes a x).1 = false →
      ((new.after rs).write width.bytes a x).2.byte? = (new.after rs).byte? := by
  intro h
  have htorn : new.Torn 8 0x6ffffffc 4 :=
    { lt := by decide
      mapped := fun k hk => by
        rw [byte?_new]
        revert k
        decide
      unmapped := by
        rw [byte?_new]
        rfl }
  obtain ⟨hfails, hbytes⟩ := write_torn (x := 0x1122334455667788) whole_new (by decide) htorn
  have hsame := congrFun (hbytes.symm.trans (h [] .w64 _ _ hfails)) 0x6ffffffc
  rw [show new.after [] = new from rfl, byte?_new] at hsame
  revert hsame
  decide

/-- A store that fails has written the bytes before the first that is not mapped, and nothing else. -/
theorem failed_store (rs : List Request) :
    (∀ (width : Width) (a : UInt64) (x : Nat), ((new.after rs).write width.bytes a x).1 = false →
      ∃ n, (new.after rs).Torn width.bytes a n ∧
        ((new.after rs).write width.bytes a x).2.byte? = overlay n a x (new.after rs).byte?) ∧
    ∀ (w w' : World) (t : Thread) (c : Artifact) (i : Inst) (length k : Nat) (a x : UInt64)
      (e : Fault), w.memory = new.after rs → w.artifacts[t.code]? = some c →
      c.decodeAt t.pc = .ok (.ok (i, length)) → i.store? t.registers = some (k, a, x) →
      runs (Execution.step t) w = (.error e, w') →
        e = .badAccess a ∧ w' = w.withMemory w'.memory ∧
          ∃ n, w.memory.Torn k a n ∧ w'.memory.byte? = overlay n a x.toNat w.memory.byte? := by
  have hm := whole_new.after rs
  have hwrite {k : Nat} (hk : k ≤ UInt64.size) {a : UInt64} {x : Nat}
      (h : ((new.after rs).write k a x).1 = false) : ∃ n, (new.after rs).Torn k a n ∧
        ((new.after rs).write k a x).2.byte? = overlay n a x (new.after rs).byte? := by
    have hno : ¬Mapped (new.after rs) a k := fun hall => by
      rw [(write_all hm hk hall).1] at h
      cases h
    obtain ⟨n, hn⟩ := exists_torn hno
    exact ⟨n, hn, (write_torn hm hk hn).2⟩
  refine ⟨fun width a x => hwrite (Flat.bytes_le width), ?_⟩
  intro w w' t c i length k a x e hw hc hi hs h
  rw [runs_step_store hc hi hs, hw] at h
  have hk : k ≤ UInt64.size := by
    cases i with
    | store width => cases hs; exact Flat.bytes_le width
    | storeD => cases hs; decide
    | _ => cases hs
  rcases hfst : ((new.after rs).write k a x.toNat).1 with _ | _
  · rw [hfst, if_neg Bool.false_ne_true] at h
    cases h
    rw [hw]
    exact ⟨rfl, rfl, hwrite hk hfst⟩
  · rw [hfst, if_pos rfl] at h
    cases h

/-- The store of a word over the end of the stack. -/
theorem failed_store_stackTop :
    let i : Inst := .store .w64 .result (Address.ofBase .frame 0)
    let t : Thread := { registers := Registers.setGpr {} .frame 0x6ffffffc, code := 0, pc := 0 }
    ∃ c w', c.decodeAt t.pc = .ok (.ok (i, i.encode.length)) ∧
      runs (Execution.step t) { artifacts := #[c] } = (.error (.badAccess 0x6ffffffc), w') ∧
      ∃ n, new.Torn 8 0x6ffffffc n := by
  intro i t
  let c : Artifact := {
    graph := default, block := 0, base := 0, code := ⟨i.encode.toArray⟩, instsLength := 0, entry := 0
    arityEntry := none, exits := #[], events := #[], caches := #[], calls := #[], jumps := #[]
    osrEntries := [], frameSlots := 0, exitThreshold := 0, log := none }
  let w : World := { artifacts := #[c] }
  have hdecode : c.decodeAt t.pc = .ok (.ok (i, i.encode.length)) := by decide +kernel
  have hstore : i.store? t.registers = some (8, 0x6ffffffc, 0) := by decide +kernel
  have hno : ¬Mapped new 0x6ffffffc 8 := fun h => by
    have := h 4 (by decide)
    rw [byte?_new] at this
    revert this
    decide
  have hfails : (new.write 8 0x6ffffffc (0 : UInt64).toNat).1 = false := by
    rw [write, writeBytes_fst whole_new, Bytes.length_ofNat]
    exact decide_eq_false hno
  have hrun := runs_step_store (w := w) (t := t) rfl hdecode hstore
  rw [show w.memory = new from rfl, hfails, if_neg Bool.false_ne_true] at hrun
  obtain ⟨-, -, n, hn, -⟩ := (failed_store []).2 w _ t c i _ 8 _ 0 _ rfl rfl hdecode hstore hrun
  exact ⟨c, _, hdecode, hrun, n, hn⟩

end Memory
end Speculation
