import Speculation.Proofs.Heap.Start
import Speculation.Proofs.Text.Units
import Speculation.Proofs.Values

/-!
Strings on the heap, and what comes of adding them.

The sum of two strings goes through their texts. So its units are those of the two strings one
after the other, with each surrogate that has no partner in its own string replaced.
-/

namespace Speculation

inductive Heap.Text (h : Heap) (v : Value) : List UInt16 → Prop where
  | intro {x : Cell} {d : Structure} {ns : List Nat} (hv : h.cell? v.bits = some x)
    (hs : h.structure? x.kind = some d) (hd : d.type = .string)
    (ha : h x.storage = some (.words 2 ns)) (hx : x.length.toNat = ns.length) :
    h.Text v (ns.map UInt16.ofNat)

/-- The value is a string of these units, or it is none. -/
inductive Heap.Texts (h : Heap) (v : Value) : Option (List UInt16) → Prop where
  | text {us : List UInt16} (hv : h.Text v us) : h.Texts v (some us)
  | value (hv : v.isCell = false) : h.Texts v none
  | cell {x : Cell} {d : Structure} (hv : h.cell? v.bits = some x) (hs : h.structure? x.kind = some d)
    (hd : d.type ≠ .string) : h.Texts v none

namespace Heap

variable {h h' : Heap} {c : UInt64} {v : Value} {us : List UInt16} {x : Cell} {d : Structure}

lemma Text.cell (ht : h.Text v us) : ∃ x, h.cell? v.bits = some x :=
  match ht with | .intro hv .. => ⟨_, hv⟩

/-- A string is not changed by what is done to another cell. -/
lemma Touches.text (ht : h.Touches c h') (hv : h.Text v us) (hvc : v.bits ≠ c) : h'.Text v us := by
  obtain ⟨hv, hs, hd, ha, hx⟩ := hv
  exact .intro (ht.cell?_of_ne hv hvc) (ht.structure? hs) hd (ht.words ha) hx

lemma text_of_contents (hf : h.Formed) (hv : h.cell? v.bits = some x) (hs : h.structure? x.kind = some d)
    (hd : d.type = .string)
    (hcontents : h.contents d x = us.map fun u => .ofInt32 u.toUInt32.toInt32) : h.Text v us := by
  have hst := hf.stored hv hs
  rw [Stored, hd] at hst
  obtain ⟨ns, ha, hx⟩ := hst
  have hinj : Function.Injective fun u : UInt16 => Value.ofInt32 u.toUInt32.toInt32 := by
    intro u v huv
    have hword := congrArg Int32.toUInt32 (Value.ofInt32_injective huv)
    simp only [UInt32.toUInt32_toInt32] at hword
    refine UInt16.toNat_inj.mp ?_
    simpa only [UInt16.toNat_toUInt32] using congrArg UInt32.toNat hword
  have hunits : ns.map UInt16.ofNat = us := by
    refine List.map_injective_iff.mpr hinj ?_
    rw [contents, hd] at hcontents
    simp only [wordsAt, ha] at hcontents
    rw [← hcontents, List.map_map]
    rfl
  exact hunits ▸ .intro hv hs hd ha hx

end Heap

namespace World

open Semantics

variable {w w' : World} {h h' : Heap} {limit : Nat} {a b c r v : Value} {us vs ts : List UInt16}

lemma runs_tryCatch_of_ok {α : Type} {x : Run α} {f : Fault → Run α} {y : α}
    (hx : runs x w = (.ok y, w')) : runs (tryCatch x f) w = (.ok y, w') := by
  change x w = (.ok y, w') at hx
  show (ExceptT.tryCatch x f).run.run w = _
  simp only [ExceptT.tryCatch, ExceptT.run, ExceptT.mk, Bind.bind, StateT.bind, StateT.run, hx]
  rfl

lemma runs_isString_of_cellType {t : CellType} (hv : v.isCell = true)
    (ht : runs (cellType v) w = (.ok t, w)) : runs (isString v) w = (.ok (decide (t = .string)), w) := by
  rw [isString, if_pos hv]
  refine runs_bind_of_ok (β := Except Bool Bool) (b := .error _) (runs_tryCatch_of_ok ?_)
  exact runs_bind_of_ok (α := Except Bool Bool) ht

section Reading

variable (hm : w.memory.Shows h) (hv : h.Text v us)
include hm hv

lemma isCell_of_text : v.isCell = true := by
  obtain ⟨x, hx⟩ := hv.cell
  exact hm.cell hx

lemma runs_cellType_of_text : runs (cellType v) w = (.ok .string, w) := by
  obtain ⟨hv, hs, hd, -, -⟩ := hv
  rw [hm.runs_cellType hv hs, hd]

lemma runs_cellLength_of_text : runs (cellLength v) w = (.ok (UInt32.ofNat us.length), w) := by
  obtain ⟨hv, hs, -, -, hx⟩ := hv
  rw [hm.runs_cellLength hv, List.length_map, ← hx, UInt32.ofNat_toNat]

lemma runs_stringUnits_of_text : runs (stringUnits v) w = (.ok us, w) := by
  obtain ⟨hv, hs, hd, ha, hx⟩ := hv
  exact hm.runs_stringUnits hv hs hd ha hx

lemma runs_isString_of_text : runs (isString v) w = (.ok true, w) :=
  runs_isString_of_cellType (isCell_of_text hm hv) (runs_cellType_of_text hm hv)

lemma runs_toText_of_text : runs (toText v) w = (.ok (Utf16.decode us), w) := by
  have hcell := isCell_of_text hm hv
  have hne : ∀ u : Value, u.isCell = false → (v == u) = false := fun u hu => by
    refine beq_eq_false_iff_ne.mpr ?_
    rintro rfl
    rw [hcell] at hu
    cases hu
  have hempty : v.isEmpty = false := by
    simp only [Value.isCell, Bool.and_eq_true, bne_iff_ne] at hcell
    exact beq_eq_false_iff_ne.mpr hcell.1
  rw [toText, Value.int32?_of_isCell hcell, Value.double?_of_isCell hcell, Value.boolean?_of_isCell hcell,
    if_neg (by rw [Value.isNull, hne _ (by decide)]; decide),
    if_neg (by rw [Value.isUndefined, hne _ (by decide), hempty]; decide)]
  dsimp only
  rw [runs_bind_of_ok (runs_cellType_of_text hm hv)]
  dsimp only
  rw [stringValue, runs_bind_of_ok (runs_stringUnits_of_text hm hv)]
  rfl

end Reading

def stringUnits? (v : Value) : Run (Option (List UInt16)) := do
  if ← isString v then return some (← stringUnits v) else return none

section Reading

variable {u : Option (List UInt16)} (hm : w.memory.Shows h) (hv : h.Texts v u)
include hm hv

lemma runs_isString : runs (isString v) w = (.ok u.isSome, w) := by
  cases hv with
  | text hv => exact runs_isString_of_text hm hv
  | value hv => rw [isString, if_neg (by rw [hv]; decide)]; rfl
  | cell hv hs hd =>
    rw [runs_isString_of_cellType (hm.cell hv) (hm.runs_cellType hv hs), decide_eq_false hd]
    rfl

lemma runs_stringUnits? : runs (stringUnits? v) w = (.ok u, w) := by
  rw [stringUnits?, runs_bind_of_ok (runs_isString hm hv)]
  cases hv with
  | text hv => exact runs_bind_of_ok (runs_stringUnits_of_text hm hv)
  | value hv => rfl
  | cell hv hs hd => rfl

/-- A string equals a value if that is a string of the same units. -/
lemma runs_strictEq_of_text (ha : h.Text a us) : runs (strictEq a v) w = (.ok (some us == u), w) := by
  have hboth : runs (bothStrings a v) w = (.ok u.isSome, w) := by
    rw [bothStrings, runs_bind_of_ok (runs_isString_of_text hm ha)]
    exact runs_isString hm hv
  rw [strictEq, Value.number?_of_isCell (isCell_of_text hm ha)]
  dsimp only
  rw [runs_bind_of_ok hboth]
  -- a string and a value that is none are compared as words
  have hother : v ≠ a → runs (pure (a == v) : Run Bool) w = (.ok false, w) := fun hne => by
    rw [beq_eq_false_iff_ne.mpr hne.symm]
    rfl
  cases hv with
  | text hv =>
    rw [Option.isSome_some, if_pos rfl, runs_bind_of_ok (runs_stringUnits_of_text hm ha),
      runs_bind_of_ok (runs_stringUnits_of_text hm hv)]
    rfl
  | value hv =>
    refine hother ?_
    rintro rfl
    rw [isCell_of_text hm ha] at hv
    cases hv
  | cell hv hs hd =>
    refine hother ?_
    rintro rfl
    obtain ⟨hv', hs', hd', -, -⟩ := ha
    obtain rfl := Option.some.inj (hv.symm.trans hv')
    obtain rfl := Option.some.inj (hs.symm.trans hs')
    exact hd hd'

end Reading

/-- A value is a string or it is none. -/
lemma Sound.exists_texts (hw : w.Sound limit h) (hv : v.isCell = true → (h.cell? v.bits).isSome) :
    ∃ u, h.Texts v u := by
  rcases hcell : v.isCell with _ | _
  · exact ⟨none, .value hcell⟩
  · obtain ⟨x, hx⟩ := Option.isSome_iff_exists.mp (hv hcell)
    obtain ⟨d, hd, -, hst⟩ := hw.formed.kind hx
    by_cases htype : d.type = .string
    · rw [Heap.Stored, htype] at hst
      obtain ⟨ns, ha, hlen⟩ := hst
      exact ⟨_, .text (.intro hx hd htype ha hlen)⟩
    · exact ⟨none, .cell hx hd htype⟩

lemma Sound.text_of_runs (hw : w.Sound limit h) (hv : (h.cell? v.bits).isSome)
    (hrun : runs (stringUnits v) w = (.ok us, w)) : h.Text v us := by
  have hm := hw.houses.memory.shows
  obtain ⟨u, hu⟩ := hw.exists_texts fun _ => hv
  cases hu with
  | text hv =>
    have hunits := runs_stringUnits_of_text hm hv
    rw [hrun] at hunits
    cases hunits
    exact hv
  | value hcell =>
    rw [stringUnits, if_neg (by rw [hcell]; decide)] at hrun
    cases hrun
  | cell hx hd htype =>
    rw [stringUnits, if_pos (hm.cell hx)] at hrun
    simp only at hrun
    rw [runs_bind_of_ok (hm.runs_cellType hx hd), if_neg htype] at hrun
    cases hrun

def stringSize (n : Nat) : Nat := Layout.structureSize + Layout.cellSize + Memory.roundUp (2 * n)

lemma stringSize_mono {m n : Nat} (h : m ≤ n) : stringSize m ≤ stringSize n := by
  unfold stringSize Memory.roundUp
  omega

structure Writes (w : World) (limit : Nat) (h : Heap) (r : Value) (us : List UInt16) (w' : World)
    (h' : Heap) : Prop where
  sound : w'.Sound limit h'
  text : h'.Text r us
  fresh : h r.bits = none
  keeps {v : Value} {ts : List UInt16} (hv : h.Text v ts) : h'.Text v ts
  room : w'.memory.next ≤ w.memory.next + stringSize us.length

section Writing

variable (hw : w.Sound limit h)
include hw

lemma Sound.runs_newText (us : List UInt16) (hlen : us.length < 4294967296)
    (hroom : w.memory.next + stringSize us.length ≤ limit) :
    ∃ r w' h', runs (newStringOfUnits us) w = (.ok r, w') ∧ w.Writes limit h r us w' h' := by
  obtain ⟨c, w', h', y, hrun, hnone, hchanges, hcontents, -⟩ := hw.runs_newStringOfUnits us hlen hroom
  refine ⟨.ofCell c, w', h', hrun, hchanges.sound, ?_, hnone, fun {v ts} hv => ?_, hchanges.grows.next⟩
  · exact Heap.text_of_contents hchanges.sound.formed hchanges.cell hchanges.kind rfl hcontents
  · refine hchanges.touches.text hv ?_
    rintro rfl
    obtain ⟨x, hx⟩ := hv.cell
    rw [Heap.cell?_eq_some, hnone] at hx
    cases hx

/-- The texts of two strings are joined in a new string. -/
lemma Sound.runs_addValues (ha : h.Text a us) (hb : h.Text b vs)
    (hlen : us.length + vs.length < 4294967296)
    (hroom : w.memory.next + stringSize (us.length + vs.length) ≤ limit) :
    ∃ r w' h', runs (addValues a b) w = (.ok r, w') ∧
      w.Writes limit h r (Utf16.mend us ++ Utf16.mend vs) w' h' := by
  have hm := hw.houses.memory.shows
  have hsum : (Utf16.mend us ++ Utf16.mend vs).length = us.length + vs.length := by
    rw [List.length_append, Utf16.length_mend, Utf16.length_mend]
  obtain ⟨r, w', h', hrun, hwrites⟩ := hw.runs_newText (Utf16.mend us ++ Utf16.mend vs)
    (by rwa [hsum]) (by rwa [hsum])
  refine ⟨r, w', h', ?_, hwrites⟩
  rw [addValues, runs_bind_of_ok (runs_isString_of_text hm ha)]
  simp only [↓reduceIte, pure_bind]
  rw [runs_bind_of_ok (runs_toText_of_text hm ha), runs_bind_of_ok (runs_toText_of_text hm hb), newString, Utf16.encode_decode_append]
  exact hrun

/-- Three strings are added in either order. The sums have the same units, since what is mended is not
mended again. -/
lemma Sound.runs_addValues_assoc (ha : h.Text a us) (hb : h.Text b vs) (hc : h.Text c ts)
    (hlen : us.length + vs.length + ts.length < 4294967296)
    (hroom : w.memory.next + 4 * stringSize (us.length + vs.length + ts.length) ≤ limit) :
    ∃ x y w' h', runs (do
        let x ← addValues (← addValues a b) c
        let y ← addValues a (← addValues b c)
        return (x, y)) w = (.ok (x, y), w') ∧ w'.Sound limit h' ∧
      h'.Text x (Utf16.mend us ++ Utf16.mend vs ++ Utf16.mend ts) ∧
      h'.Text y (Utf16.mend us ++ Utf16.mend vs ++ Utf16.mend ts) := by
  have hlength : ∀ us vs : List UInt16,
      (Utf16.mend us ++ Utf16.mend vs).length = us.length + vs.length := fun us vs => by
    rw [List.length_append, Utf16.length_mend, Utf16.length_mend]
  have hsize₁ := stringSize_mono (show us.length + vs.length ≤ us.length + vs.length + ts.length by omega)
  have hsize₂ := stringSize_mono (show vs.length + ts.length ≤ us.length + vs.length + ts.length by omega)
  have hsize₃ : stringSize (us.length + (vs.length + ts.length)) =
      stringSize (us.length + vs.length + ts.length) := by rw [Nat.add_assoc]
  obtain ⟨p, w₁, h₁, hrun₁, hwrites₁⟩ := hw.runs_addValues ha hb (by omega) (by omega)
  have hroom₁ := hwrites₁.room
  rw [hlength] at hroom₁
  obtain ⟨x, w₂, h₂, hrun₂, hwrites₂⟩ := hwrites₁.sound.runs_addValues hwrites₁.text
    (hwrites₁.keeps hc) (by rw [hlength]; omega) (by rw [hlength]; omega)
  have hroom₂ := hwrites₂.room
  rw [hlength, hlength] at hroom₂
  obtain ⟨q, w₃, h₃, hrun₃, hwrites₃⟩ := hwrites₂.sound.runs_addValues
    (hwrites₂.keeps (hwrites₁.keeps hb)) (hwrites₂.keeps (hwrites₁.keeps hc)) (by omega) (by omega)
  have hroom₃ := hwrites₃.room
  rw [hlength] at hroom₃
  obtain ⟨y, w₄, h₄, hrun₄, hwrites₄⟩ := hwrites₃.sound.runs_addValues
    (hwrites₃.keeps (hwrites₂.keeps (hwrites₁.keeps ha))) hwrites₃.text
    (by rw [hlength]; omega) (by rw [hlength]; omega)
  have hx := hwrites₄.keeps (hwrites₃.keeps hwrites₂.text)
  have hy := hwrites₄.text
  rw [Utf16.mend_mend_append] at hx hy
  refine ⟨x, y, w₄, h₄, ?_, hwrites₄.sound, hx, List.append_assoc _ _ _ ▸ hy⟩
  rw [runs_bind_of_ok hrun₁, runs_bind_of_ok hrun₂, runs_bind_of_ok hrun₃, runs_bind_of_ok hrun₄]
  rfl

end Writing

/-- **What comes of adding two strings.** The sum is a string as long as both together, and in its
units those of the two follow each other, with `Utf16.mend` done to either. So it joins the two
exactly if neither has a surrogate without its partner. Addition is associative in any case, and
leaves all strings that there were as they are. -/
theorem addValues_strings (hw : w.Sound limit h) (ha : (h.cell? a.bits).isSome)
    (hb : (h.cell? b.bits).isSome) (hus : runs (stringUnits a) w = (.ok us, w))
    (hvs : runs (stringUnits b) w = (.ok vs, w)) (hlen : us.length + vs.length < 4294967296)
    (hroom : w.memory.next + stringSize (us.length + vs.length) ≤ limit) :
    (∃ r w', runs (addValues a b) w = (.ok r, w') ∧ runs (isString r) w' = (.ok true, w') ∧
      runs (stringUnits r) w' = (.ok (Utf16.mend us ++ Utf16.mend vs), w') ∧
      runs (cellLength r) w' = (.ok (UInt32.ofNat (us.length + vs.length)), w') ∧
      (Utf16.mend us ++ Utf16.mend vs = us ++ vs ↔ Utf16.Paired us ∧ Utf16.Paired vs) ∧
      ∀ v ts, (h.cell? v.bits).isSome → runs (stringUnits v) w = (.ok ts, w) →
        v.bits ≠ r.bits ∧ runs (stringUnits v) w' = (.ok ts, w')) ∧
    ∀ c ts, (h.cell? c.bits).isSome → runs (stringUnits c) w = (.ok ts, w) →
      us.length + vs.length + ts.length < 4294967296 →
      w.memory.next + 4 * stringSize (us.length + vs.length + ts.length) ≤ limit →
      ∃ x y w', runs (do
          let x ← addValues (← addValues a b) c
          let y ← addValues a (← addValues b c)
          return (x, y)) w = (.ok (x, y), w') ∧
        runs (strictEq x y) w' = (.ok true, w') := by
  have ha := hw.text_of_runs ha hus
  have hb := hw.text_of_runs hb hvs
  refine ⟨?_, fun c ts hc hts hlen hroom => ?_⟩
  · obtain ⟨r, w', h', hrun, hwrites⟩ := hw.runs_addValues ha hb hlen hroom
    have hm := hwrites.sound.houses.memory.shows
    have hcount := runs_cellLength_of_text hm hwrites.text
    rw [List.length_append, Utf16.length_mend, Utf16.length_mend] at hcount
    refine ⟨r, w', hrun, runs_isString_of_text hm hwrites.text, runs_stringUnits_of_text hm hwrites.text,
      hcount, Utf16.mend_append_mend_iff, fun v ts hv hts => ⟨?_, ?_⟩⟩
    · obtain ⟨x, hx⟩ := Option.isSome_iff_exists.mp hv
      intro hvr
      rw [hvr, Heap.cell?_eq_some, hwrites.fresh] at hx
      cases hx
    · exact runs_stringUnits_of_text hm (hwrites.keeps (hw.text_of_runs hv hts))
  · obtain ⟨x, y, w', h', hrun, hw', hx, hy⟩ :=
      hw.runs_addValues_assoc ha hb (hw.text_of_runs hc hts) hlen hroom
    refine ⟨x, y, w', hrun, ?_⟩
    rw [runs_strictEq_of_text hw'.houses.memory.shows (.text hy) hx, beq_self_eq_true]

/-- Two strings that are made first. -/
lemma exists_strings (us vs : List UInt16) (hus : us.length ≤ 1000) (hvs : vs.length ≤ 1000) :
    ∃ a b w h, runs (do return (← newStringOfUnits us, ← newStringOfUnits vs)) start =
        (.ok (a, b), w) ∧ w.Sound 281474976710656 h ∧ h.Text a us ∧ h.Text b vs ∧
      w.memory.next + stringSize (us.length + vs.length) ≤ 0x20000000 := by
  have hbase : Memory.heapBase = 268435456 := rfl
  have hstart : startSize = 32768 := rfl
  have hsize : stringSize 2000 = 4104 := rfl
  have husize := stringSize_mono (show us.length ≤ 2000 by omega)
  have hvsize := stringSize_mono (show vs.length ≤ 2000 by omega)
  have hsum := stringSize_mono (show us.length + vs.length ≤ 2000 by omega)
  obtain ⟨h₀, hw₀, hnext₀⟩ := sound_start 281474976710656 (by omega) (by omega)
  obtain ⟨a, w₁, h₁, hrun₁, hwrites₁⟩ := hw₀.runs_newText us (by omega) (by omega)
  have hroom₁ := hwrites₁.room
  obtain ⟨b, w₂, h₂, hrun₂, hwrites₂⟩ := hwrites₁.sound.runs_newText vs (by omega) (by omega)
  have hroom₂ := hwrites₂.room
  refine ⟨a, b, w₂, h₂, ?_, hwrites₂.sound, hwrites₂.keeps hwrites₁.text, hwrites₂.text, by omega⟩
  rw [runs_bind_of_ok hrun₁, runs_bind_of_ok hrun₂]
  rfl

/-- A surrogate pair and a letter. -/
theorem addValues_strings_paired : ∃ a b w r w',
    runs (do return (← newStringOfUnits [0xd83d, 0xde00], ← newStringOfUnits [0x61])) start =
      (.ok (a, b), w) ∧
    runs (addValues a b) w = (.ok r, w') ∧
    runs (stringUnits r) w' = (.ok [0xd83d, 0xde00, 0x61], w') := by
  obtain ⟨a, b, w, h, hrun, hw, ha, hb, hroom⟩ :=
    exists_strings [0xd83d, 0xde00] [0x61] (by decide) (by decide)
  have hm := hw.houses.memory.shows
  obtain ⟨⟨r, w', hadd, -, hunits, -⟩, -⟩ := addValues_strings hw
    (Option.isSome_iff_exists.mpr ha.cell) (Option.isSome_iff_exists.mpr hb.cell)
    (runs_stringUnits_of_text hm ha) (runs_stringUnits_of_text hm hb) (by decide) (by omega)
  exact ⟨a, b, w, r, w', hrun, hadd, hunits⟩

/-- The two halves of a pair are not joined to that pair. -/
theorem addValues_splits_pair : ∃ a b w r w',
    runs (do return (← newStringOfUnits [0xd83d], ← newStringOfUnits [0xde00])) start =
      (.ok (a, b), w) ∧
    runs (stringUnits a) w = (.ok [0xd83d], w) ∧ runs (stringUnits b) w = (.ok [0xde00], w) ∧
    runs (addValues a b) w = (.ok r, w') ∧
    runs (stringUnits r) w' = (.ok [0xfffd, 0xfffd], w') ∧
    ¬[0xfffd, 0xfffd] = ([0xd83d] ++ [0xde00] : List UInt16) := by
  obtain ⟨a, b, w, h, hrun, hw, ha, hb, hroom⟩ :=
    exists_strings [0xd83d] [0xde00] (by decide) (by decide)
  have hm := hw.houses.memory.shows
  obtain ⟨r, w', h', hadd, hwrites⟩ := hw.runs_addValues ha hb (by decide) (by omega)
  exact ⟨a, b, w, r, w', hrun, runs_stringUnits_of_text hm ha, runs_stringUnits_of_text hm hb, hadd,
    runs_stringUnits_of_text hwrites.sound.houses.memory.shows hwrites.text, by decide⟩

end World

end Speculation
