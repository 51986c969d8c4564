import Speculation.Proofs.Heap.Strings
import Speculation.Proofs.Numbers

/-!
What comparing values obeys.

A comparison looks at little of a value: the number it counts as, its units if it is a string, and
whether it passes for undefined. `Heap.Looks` brings this together, by the kinds of values, and with it
each comparison is a function of two values (`Look.decides`). The laws are those of such functions. A
string that passes for undefined stands out: it equals no other string, not even one of the same
units.
-/

namespace Speculation

namespace Value

lemma isCell_of_number? {v : Value} {x : Double} (h : v.number? = some x) : v.isCell = false := by
  by_contra hcell
  rw [number?_of_isCell (by simpa using hcell)] at h
  cases h

end Value

namespace Double

variable {x y : Double}

/-- Compared the other way round, the order is turned around. -/
lemma compare?_swap (x y : Double) : y.compare? x = (x.compare? y).map Ordering.swap := by
  rw [compare?, compare?, Bool.or_comm]
  split
  · rfl
  · rw [Option.map_some, ← Std.OrientedCmp.eq_swap]

lemma eq_comm (x y : Double) : x.eq y = y.eq x := by
  rw [Double.eq, Double.eq, compare?_swap x y]
  rcases x.compare? y with _ | _ | _ | _ <;> rfl

lemma eq_self (x : Double) : x.eq x = !x.isNaN := by
  rw [Double.eq, compare?, Bool.or_self]
  cases x.isNaN with
  | false => simp
  | true => rfl

end Double

/-- Units are compared the other way round. -/
lemma compareLex_swap (us vs : List UInt16) : Semantics.order?.compareLex vs us =
    (Semantics.order?.compareLex us vs).swap := by
  induction us generalizing vs with
  | nil => cases vs <;> rfl
  | cons u us ih =>
    cases vs with
    | nil => rfl
    | cons v vs =>
      have hunit : compare v u = (compare u v).swap := Std.OrientedCmp.eq_swap
      rw [Semantics.order?.compareLex, Semantics.order?.compareLex, Ordering.swap_then, ih, hunit]

/-! ### What comparisons see -/

structure Look where
  value : Value
  /-- The number that the value counts as. -/
  number : Double
  /-- The units of a string. -/
  units : Option (List UInt16)
  /-- Null, undefined, or a cell that passes for undefined. -/
  vacant : Bool

namespace Look

variable {l k : Look}

def order? (l k : Look) : Option Ordering :=
  match l.units, k.units with
  | some us, some vs => some (Semantics.order?.compareLex us vs)
  | _, _ => l.number.compare? k.number

def same (l k : Look) : Bool :=
  match l.value.number?, k.value.number? with
  | some x, some y => x.eq y
  | _, _ =>
    match l.units, k.units with
    | some us, some vs => us == vs
    | _, _ => l.value == k.value

def object (l : Look) : Bool := l.value.isCell && l.units.isNone

def alike (l k : Look) : Bool :=
  if l.vacant || k.vacant then l.vacant && k.vacant
  else
    match l.units, k.units with
    | some us, some vs => us == vs
    | _, _ =>
      if l.value.isCell && k.value.isCell then l.value == k.value
      else !l.object && !k.object && l.number.eq k.number

def decides (op : Comparison) (l k : Look) : Bool :=
  match op with
  | .less => l.order? k == some .lt
  | .lessEq => l.order? k == some .lt || l.order? k == some .eq
  | .greater => l.order? k == some .gt
  | .greaterEq => l.order? k == some .gt || l.order? k == some .eq
  | .eq => l.alike k
  | .strictEq => l.same k

lemma order?_swap (l k : Look) : k.order? l = (l.order? k).map Ordering.swap := by
  unfold order?
  rcases l.units with _ | us <;> rcases k.units with _ | vs <;> dsimp only
  · exact Double.compare?_swap _ _
  · exact Double.compare?_swap _ _
  · exact Double.compare?_swap _ _
  · rw [Option.map_some, compareLex_swap]

lemma same_comm (l k : Look) : l.same k = k.same l := by
  unfold same
  rcases l.value.number? with _ | x <;> rcases k.value.number? with _ | y <;> dsimp only
  rotate_right
  · exact Double.eq_comm x y
  all_goals
    rcases l.units with _ | us <;> rcases k.units with _ | vs <;> exact Bool.beq_comm

lemma alike_comm (l k : Look) : l.alike k = k.alike l := by
  unfold alike
  rw [Bool.or_comm, Bool.and_comm l.vacant]
  congr 1
  rw [Bool.and_comm l.value.isCell, Double.eq_comm l.number, Bool.and_comm (!l.object),
    Bool.beq_comm (a := l.value)]
  rcases l.units with _ | us <;> rcases k.units with _ | vs
  · rfl
  · rfl
  · rfl
  · exact Bool.beq_comm

lemma same_self (l : Look) :
    l.same l = true ↔ ¬∃ x, l.value.number? = some x ∧ x.isNaN = true := by
  unfold same
  rcases l.value.number? with _ | x
  · rcases l.units with _ | us <;> simp
  · dsimp only
    rw [Double.eq_self]
    simp

/-- Values are the same as numbers, as strings, or because there is only one. -/
lemma same_cases (h : l.same k = true) :
    (∃ x y, l.value.number? = some x ∧ k.value.number? = some y ∧ x.eq y = true) ∨
      (∃ us, l.units = some us ∧ k.units = some us) ∨
      (l.value.number? = none ∧ l.value = k.value) := by
  have hwords : (match l.units, k.units with
      | some us, some vs => us == vs
      | _, _ => l.value == k.value) = true →
      (∃ us, l.units = some us ∧ k.units = some us) ∨ l.value = k.value := by
    rcases l.units with _ | us <;> rcases k.units with _ | vs <;> intro h
    · exact .inr (beq_iff_eq.mp h)
    · exact .inr (beq_iff_eq.mp h)
    · exact .inr (beq_iff_eq.mp h)
    · exact .inl ⟨us, rfl, by rw [beq_iff_eq.mp h]⟩
  unfold same at h
  rcases hl : l.value.number? with _ | x <;> rcases hk : k.value.number? with _ | y <;>
    rw [hl, hk] at h
  · exact .inr ((hwords h).imp_right fun hv => ⟨rfl, hv⟩)
  · exact .inr ((hwords h).imp_right fun hv => ⟨rfl, hv⟩)
  · refine .inr ((hwords h).imp_right fun hv => ?_)
    rw [hv, hk] at hl
    cases hl
  · exact .inl ⟨x, y, rfl, rfl, h⟩

end Look

/-! ### Values of the language -/

/-- The value belongs to the language: it is a number, a boolean, null, undefined, or a cell that
there is. -/
def Heap.Language (h : Heap) (v : Value) : Prop :=
  v.isNumber = true ∨ v.isBoolean = true ∨ v = .null ∨ v = .undefined ∨
    (v.isCell = true ∧ (h.cell? v.bits).isSome)

def Structure.masquerades (d : Structure) : Bool :=
  d.flags &&& TypeFlag.masqueradesAsUndefined ≠ 0

/-- A string that passes for undefined. -/
def Heap.Poses (h : Heap) (v : Value) : Prop :=
  ∃ x d, h.cell? v.bits = some x ∧ h.structure? x.kind = some d ∧ d.type = .string ∧
    d.masquerades = true

inductive Heap.Looks (h : Heap) : Look → Prop
  | number {v : Value} {x : Double} (hv : v.number? = some x) : h.Looks ⟨v, x, none, false⟩
  | boolean {v : Value} (hv : v.isBoolean = true) :
    h.Looks ⟨v, .ofInt (if v.bits == Value.trueBits then 1 else 0), none, false⟩
  | null : h.Looks ⟨.null, .zero false, none, true⟩
  | undefined : h.Looks ⟨.undefined, .nan, none, true⟩
  | string {v : Value} {us : List UInt16} {x : Cell} {d : Structure} (hv : h.Text v us)
    (hx : h.cell? v.bits = some x) (hs : h.structure? x.kind = some d) (hd : d.type = .string) :
    h.Looks ⟨v, Semantics.readNumber (Utf16.decode us), some us, d.masquerades⟩
  | object {v : Value} {x : Cell} {d : Structure} (hx : h.cell? v.bits = some x)
    (hs : h.structure? x.kind = some d) (hd : d.type ≠ .string) :
    h.Looks ⟨v, .nan, none, d.masquerades⟩

namespace World

open Semantics

variable {w : World} {h : Heap} {limit : Nat} {l k : Look}

/-- There is a look at each value of the language. -/
lemma Sound.exists_looks (hw : w.Sound limit h) {v : Value} (hv : h.Language v) :
    ∃ l, h.Looks l ∧ l.value = v := by
  rcases hv with hv | hv | rfl | rfl | ⟨-, hv⟩
  · obtain ⟨x, hx⟩ := Value.exists_number? hv
    exact ⟨_, .number hx, rfl⟩
  · exact ⟨_, .boolean hv, rfl⟩
  · exact ⟨_, .null, rfl⟩
  · exact ⟨_, .undefined, rfl⟩
  · obtain ⟨x, hx⟩ := Option.isSome_iff_exists.mp hv
    obtain ⟨d, hs, -, hst⟩ := hw.formed.kind hx
    by_cases hd : d.type = .string
    · rw [Heap.Stored, hd] at hst
      obtain ⟨ns, ha, hlen⟩ := hst
      exact ⟨_, .string (.intro hx hs hd ha hlen) hx hs hd, rfl⟩
    · exact ⟨_, .object hx hs hd, rfl⟩

section Numbers

variable (hm : w.memory.Shows h)
include hm

lemma isNull_of_cell {v : Value} {x : Cell} (hx : h.cell? v.bits = some x) : v.isNull = false := by
  refine beq_eq_false_iff_ne.mpr ?_
  rintro rfl
  cases hm.cell hx

omit hm in
lemma runs_toNumber_of_number {v : Value} {x : Double} (hx : v.number? = some x) :
    runs (toNumber v) w = (.ok x, w) := by
  rw [toNumber, hx]
  rfl

lemma runs_toNumber_of_text {v : Value} {us : List UInt16} (hv : h.Text v us) :
    runs (toNumber v) w = (.ok (readNumber (Utf16.decode us)), w) := by
  obtain ⟨x, hx⟩ := hv.cell
  have hcell := hm.cell hx
  rw [toNumber, Value.number?_of_isCell hcell, Value.boolean?_of_isCell hcell, isNull_of_cell hm hx]
  have htext := runs_bind_of_ok (f := fun us => pure (Utf16.decode us)) (runs_stringUnits_of_text hm hv)
  refine (runs_bind_of_ok (runs_isString_of_text hm hv)).trans ?_
  exact runs_bind_of_ok htext

/-- Where the heap can be read, a value is converted to the number that it counts as. -/
lemma runs_toNumber (hl : h.Looks l) : runs (toNumber l.value) w = (.ok l.number, w) := by
  cases hl with
  | number hv => exact runs_toNumber_of_number hv
  | boolean hv =>
    rw [toNumber, Value.number?_eq_none (Value.isNumber_of_isBoolean hv), Value.boolean?, if_pos hv]
    rfl
  | null => rfl
  | undefined => rfl
  | string hv => exact runs_toNumber_of_text hm hv
  | object hx hs hd =>
    have hcell := hm.cell hx
    rw [toNumber, Value.number?_of_isCell hcell, Value.boolean?_of_isCell hcell, isNull_of_cell hm hx]
    refine (runs_bind_of_ok (runs_isString hm (.cell hx hs hd))).trans rfl

end Numbers

section Looking

variable (hm : w.memory.Shows h)

lemma texts_of_looks (hl : h.Looks l) : h.Texts l.value l.units := by
  cases hl with
  | number hv => exact .value (Value.isCell_of_number? hv)
  | boolean hv => exact .value (Value.isCell_of_isBoolean hv)
  | null => exact .value (by decide)
  | undefined => exact .value (by decide)
  | string hv => exact .text hv
  | object hx hs hd => exact .cell hx hs hd

include hm

lemma not_isUndefinedOrNull_of_cell {v : Value} {x : Cell} (hx : h.cell? v.bits = some x) :
    v.isUndefinedOrNull = false := by
  by_contra hno
  have hcell := hm.cell hx
  rw [Value.isCell_of_isUndefinedOrNull (by simpa using hno)] at hcell
  cases hcell

lemma runs_isMasquerader {v : Value} {x : Cell} {d : Structure} (hx : h.cell? v.bits = some x)
    (hs : h.structure? x.kind = some d) : runs (isMasquerader v) w = (.ok d.masquerades, w) := by
  rw [isMasquerader, runs_bind_of_ok (hm.runs_flags hx hs)]
  rfl

variable (hl : h.Looks l) (hk : h.Looks k)

include hl

lemma number?_of_units {us : List UInt16} (hus : l.units = some us) : l.value.number? = none := by
  cases hl with
  | string hv hx => exact Value.number?_of_isCell (hm.cell hx)
  | number | boolean | null | undefined | object => cases hus

lemma runs_units {us : List UInt16} (hus : l.units = some us) :
    runs (stringUnits l.value) w = (.ok us, w) := by
  cases hl with
  | string hv =>
    cases hus
    exact runs_stringUnits_of_text hm hv
  | number | boolean | null | undefined | object => cases hus

lemma runs_isUndefinedLike : runs (isUndefinedLike l.value) w = (.ok l.vacant, w) := by
  have hother : ∀ v : Value, v.isUndefinedOrNull = false → v.isCell = false →
      runs (isUndefinedLike v) w = (.ok false, w) := fun v hv hcell => by
    rw [isUndefinedLike, hv, hcell]
    rfl
  cases hl with
  | number hv =>
    refine hother _ ?_ (Value.isCell_of_number? hv)
    by_contra hno
    rw [Value.number?_eq_none (Value.isNumber_of_isUndefinedOrNull (by simpa using hno))] at hv
    cases hv
  | boolean hv =>
    refine hother _ ?_ (Value.isCell_of_isBoolean hv)
    by_contra hno
    rw [Value.isBoolean_of_isUndefinedOrNull (by simpa using hno)] at hv
    cases hv
  | null => rfl
  | undefined => rfl
  | string hv hx hs =>
    rw [isUndefinedLike, not_isUndefinedOrNull_of_cell hm hx, if_neg Bool.false_ne_true,
      if_pos (hm.cell hx)]
    exact runs_isMasquerader hm hx hs
  | object hx hs =>
    rw [isUndefinedLike, not_isUndefinedOrNull_of_cell hm hx, if_neg Bool.false_ne_true,
      if_pos (hm.cell hx)]
    exact runs_isMasquerader hm hx hs

lemma runs_isObject : runs (isObject l.value) w = (.ok l.object, w) := by
  rw [isObject, Look.object]
  cases hcell : l.value.isCell with
  | true =>
    rw [if_pos rfl, runs_bind_of_ok (runs_isString hm (texts_of_looks hl))]
    cases l.units <;> rfl
  | false => rfl

include hk

lemma runs_bothStrings : runs (bothStrings l.value k.value) w =
    (.ok (l.units.isSome && k.units.isSome), w) := by
  rw [bothStrings, runs_bind_of_ok (runs_isString hm (texts_of_looks hl))]
  rcases l.units with _ | us
  · rfl
  · exact runs_isString hm (texts_of_looks hk)

lemma runs_order? : runs (order? l.value k.value) w = (.ok (l.order? k), w) := by
  rw [order?, runs_bind_of_ok (runs_bothStrings hm hl hk), Look.order?]
  rcases hus : l.units with _ | us <;> rcases hvs : k.units with _ | vs
  rotate_right
  · rw [Option.isSome_some, Option.isSome_some, Bool.and_self, if_pos rfl,
      runs_bind_of_ok (runs_units hm hl hus), runs_bind_of_ok (runs_units hm hk hvs)]
    rfl
  all_goals
    refine (runs_bind_of_ok (runs_toNumber hm hl)).trans ?_
    rw [runs_bind_of_ok (runs_toNumber hm hk)]
    rfl

lemma runs_strictEq : runs (strictEq l.value k.value) w = (.ok (l.same k), w) := by
  -- unless both are numbers, they are compared as strings if both are strings, or else as words
  have hwords : runs (do
      if ← bothStrings l.value k.value then
        return (← stringUnits l.value) == (← stringUnits k.value)
      else return l.value == k.value) w = (.ok (match l.units, k.units with
        | some us, some vs => us == vs
        | _, _ => l.value == k.value), w) := by
    rw [runs_bind_of_ok (runs_bothStrings hm hl hk)]
    rcases hus : l.units with _ | us <;> rcases hvs : k.units with _ | vs
    rotate_right
    · rw [Option.isSome_some, Option.isSome_some, Bool.and_self, if_pos rfl,
        runs_bind_of_ok (runs_units hm hl hus), runs_bind_of_ok (runs_units hm hk hvs)]
      rfl
    all_goals rfl
  unfold strictEq Look.same
  rcases l.value.number? with _ | x <;> rcases k.value.number? with _ | y
  · exact hwords
  · exact hwords
  · exact hwords
  · rfl

lemma runs_looseEq : runs (looseEq l.value k.value) w = (.ok (l.alike k), w) := by
  rw [looseEq, runs_bind_of_ok (runs_isUndefinedLike hm hl),
    runs_bind_of_ok (runs_isUndefinedLike hm hk), Look.alike]
  by_cases hvacant : (l.vacant || k.vacant) = true
  · rw [if_pos hvacant, if_pos hvacant]
    rfl
  rw [if_neg hvacant, if_neg hvacant]
  refine (runs_bind_of_ok (runs_bothStrings hm hl hk)).trans ?_
  -- unless both are strings
  have hother : runs (do
      if l.value.isCell && k.value.isCell && !false then return l.value == k.value
      if ← isObject l.value then return false
      if ← isObject k.value then return false
      return (← toNumber l.value).eq (← toNumber k.value)) w =
      (.ok (if l.value.isCell && k.value.isCell then l.value == k.value
        else !l.object && !k.object && l.number.eq k.number), w) := by
    rw [Bool.not_false, Bool.and_true]
    split
    · rfl
    · refine (runs_bind_of_ok (runs_isObject hm hl)).trans ?_
      cases l.object with
      | true => rfl
      | false =>
        refine (runs_bind_of_ok (runs_isObject hm hk)).trans ?_
        cases k.object with
        | true => rfl
        | false =>
          refine (runs_bind_of_ok (runs_toNumber hm hl)).trans ?_
          refine (runs_bind_of_ok (runs_toNumber hm hk)).trans rfl
  rcases hus : l.units with _ | us <;> rcases hvs : k.units with _ | vs
  rotate_right
  · have hsame : l.same k = (us == vs) := by
      rw [Look.same, number?_of_units hm hl hus, hus, hvs]
    rw [Option.isSome_some, Option.isSome_some, Bool.and_self, Bool.not_true, Bool.and_false,
      if_neg Bool.false_ne_true]
    refine (congrArg (runs · w) (if_pos rfl)).trans ?_
    rw [runs_strictEq hm hl hk, hsame]
  all_goals exact hother

/-- Each comparison is a function of what it sees. -/
lemma runs_compareValues (op : Comparison) :
    runs (compareValues op l.value k.value) w = (.ok (Look.decides op l k), w) := by
  rw [compareValues, runs_bind_of_ok (runs_order? hm hl hk)]
  cases op with
  | less | lessEq | greater | greaterEq => rfl
  | eq => exact runs_looseEq hm hl hk
  | strictEq => exact runs_strictEq hm hl hk

lemma looks_unique (hv : l.value = k.value) : l = k := by
  have hnumber := runs_toNumber hm hl
  have hunits := runs_stringUnits? hm (texts_of_looks hl)
  have hvacant := runs_isUndefinedLike hm hl
  rw [hv] at hnumber hunits hvacant
  rw [runs_toNumber hm hk] at hnumber
  rw [runs_stringUnits? hm (texts_of_looks hk)] at hunits
  rw [runs_isUndefinedLike hm hk] at hvacant
  cases l
  cases k
  cases hv
  cases hnumber
  cases hunits
  cases hvacant
  rfl

omit hk in
/-- Whatever is no number equals itself. -/
lemma alike_self (hnone : l.value.number? = none) : l.alike l = true := by
  unfold Look.alike
  rw [Bool.or_self, Bool.and_self]
  cases hl with
  | number hv =>
    rw [hv] at hnone
    cases hnone
  | boolean hv =>
    simp only [Bool.false_eq_true, if_false, Look.object, Value.isCell_of_isBoolean hv, Bool.and_self,
      Bool.false_and, Bool.not_false, Bool.true_and, Double.eq_self]
    split <;> decide
  | null => rfl
  | undefined => rfl
  | string =>
    split
    · assumption
    · exact beq_self_eq_true _
  | object hx =>
    split
    · assumption
    · dsimp only
      rw [hm.cell hx, Bool.and_self, if_pos rfl, beq_self_eq_true]

omit hk in
lemma poses_iff : h.Poses l.value ↔ l.units.isSome = true ∧ l.vacant = true := by
  -- nothing but a cell poses
  have hnone : l.value.isCell = false → ¬h.Poses l.value := by
    rintro hcell ⟨x, d, hx, -⟩
    rw [hm.cell hx] at hcell
    cases hcell
  cases hl with
  | number hv => simpa using hnone (Value.isCell_of_number? hv)
  | boolean hv => simpa using hnone (Value.isCell_of_isBoolean hv)
  | null => simpa using hnone (by decide)
  | undefined => simpa using hnone (by decide)
  | string hv hx hs hd =>
    constructor
    · rintro ⟨y, e, hy, he, -, hposes⟩
      obtain rfl := Option.some.inj (hx.symm.trans hy)
      obtain rfl := Option.some.inj (hs.symm.trans he)
      exact ⟨rfl, hposes⟩
    · rintro ⟨-, hposes⟩
      exact ⟨_, _, hx, hs, hd, hposes⟩
  | object hx hs hd =>
    constructor
    · rintro ⟨y, e, hy, he, htype, -⟩
      obtain rfl := Option.some.inj (hx.symm.trans hy)
      obtain rfl := Option.some.inj (hs.symm.trans he)
      exact absurd htype hd
    · rintro ⟨hunits, -⟩
      cases hunits

/-- Of two values that are the same, one that poses equals none but such. -/
lemma alike_of_same (h₁ : l.same k = true) :
    l.alike k = true ↔ (h.Poses l.value ↔ h.Poses k.value) := by
  rw [poses_iff hm hl, poses_iff hm hk]
  rcases Look.same_cases h₁ with ⟨x, y, hx, hy, heq⟩ | ⟨us, hus, hvs⟩ | ⟨hnone, hv⟩
  · have hl' := looks_unique hm hl (.number hx) rfl
    have hk' := looks_unique hm hk (.number hy) rfl
    rw [hl', hk', Look.alike]
    simp [Look.object, Value.isCell_of_number? hx, Value.isCell_of_number? hy, heq]
  · rw [Look.alike, hus, hvs]
    cases l.vacant <;> cases k.vacant <;> simp
  · obtain rfl := looks_unique hm hl hk hv
    simp [alike_self hm hl hnone]

end Looking

/-- **The laws of comparisons.** Comparing two values of the language always comes to an answer and
changes nothing. Of the answers, those to the opposite questions agree when the values are exchanged,
no value is both less and greater than another, and both equalities are symmetric. A value is the same
as itself unless it is a NaN. Values that are the same are equal, unless just one of them is a string
that passes for undefined. -/
theorem compareValues_laws (hw : w.Sound limit h) :
    ∃ c : Comparison → Value → Value → Bool,
      (∀ op a b, h.Language a → h.Language b →
        runs (compareValues op a b) w = (.ok (c op a b), w)) ∧
      ∀ a b, h.Language a → h.Language b →
        c .less a b = c .greater b a ∧ c .lessEq a b = c .greaterEq b a ∧
        ¬(c .less a b = true ∧ c .greater a b = true) ∧
        (c .lessEq a b = true → ¬c .greater a b = true) ∧
        (c .less a b = true → c .lessEq a b = true) ∧
        c .eq a b = c .eq b a ∧ c .strictEq a b = c .strictEq b a ∧
        (c .strictEq a b = true → (c .eq a b = true ↔ (h.Poses a ↔ h.Poses b))) ∧
        (c .strictEq a a = true ↔ ¬∃ x, a.number? = some x ∧ x.isNaN = true) := by
  have hm := hw.houses.memory.shows
  have hlook : ∀ v, ∃ l : Look, h.Language v → h.Looks l ∧ l.value = v := fun v => by
    by_cases hv : h.Language v
    · obtain ⟨l, hl, hlv⟩ := hw.exists_looks hv
      exact ⟨l, fun _ => ⟨hl, hlv⟩⟩
    · exact ⟨⟨v, .nan, none, false⟩, fun h => absurd h hv⟩
  choose look hlook using hlook
  refine ⟨fun op a b => (look a).decides op (look b), fun op a b ha hb => ?_, fun a b ha hb => ?_⟩
  · obtain ⟨hl, hla⟩ := hlook a ha
    obtain ⟨hk, hkb⟩ := hlook b hb
    have hrun := runs_compareValues hm hl hk op
    rwa [hla, hkb] at hrun
  · obtain ⟨hl, hla⟩ := hlook a ha
    obtain ⟨hk, hkb⟩ := hlook b hb
    have hswap := Look.order?_swap (look a) (look b)
    have hsame := alike_of_same hm hl hk
    have hself := Look.same_self (look a)
    rw [hla, hkb] at hsame
    rw [hla] at hself
    refine ⟨?_, ?_, ?_, ?_, ?_, Look.alike_comm _ _, Look.same_comm _ _, hsame, hself⟩
    all_goals
      simp only [Look.decides, hswap]
      rcases (look a).order? (look b) with _ | _ | _ | _ <;> decide

/-- A string is part of the language. -/
lemma language_of_text {a : Value} {us : List UInt16} (hm : w.memory.Shows h) (ha : h.Text a us) :
    h.Language a :=
  .inr (.inr (.inr (.inr ⟨isCell_of_text hm ha, Option.isSome_iff_exists.mpr ha.cell⟩)))

/-- Two different letters. -/
theorem compareValues_laws_letters : ∃ a b w r,
    runs (do return (← newStringOfUnits [0x78], ← newStringOfUnits [0x79])) start = (.ok (a, b), w) ∧
    runs (compareValues .less a b) w = (.ok r, w) ∧ runs (compareValues .greater b a) w = (.ok r, w) ∧
    runs (compareValues .strictEq a a) w = (.ok true, w) ∧
    runs (compareValues .eq a a) w = (.ok true, w) := by
  obtain ⟨a, b, w, h, hrun, hw, ha, hb, -⟩ := exists_strings [0x78] [0x79] (by decide) (by decide)
  have hm := hw.houses.memory.shows
  have ha' := language_of_text hm ha
  have hb' := language_of_text hm hb
  obtain ⟨c, hc, hlaws⟩ := compareValues_laws hw
  obtain ⟨hless, -⟩ := hlaws a b ha' hb'
  obtain ⟨-, -, -, -, -, -, -, hequal, hself⟩ := hlaws a a ha' ha'
  have hstrict : c .strictEq a a = true := by
    rw [hself, Value.number?_of_isCell (isCell_of_text hm ha)]
    rintro ⟨x, hx, -⟩
    cases hx
  refine ⟨a, b, w, c .less a b, hrun, hc _ a b ha' hb', ?_, ?_, ?_⟩
  · rw [hless]
    exact hc _ b a hb' ha'
  · rw [← hstrict]
    exact hc _ a a ha' ha'
  · rw [← (hequal hstrict).mpr Iff.rfl]
    exact hc _ a a ha' ha'

/-- A string that passes for undefined is the same as another one with its units, and does not equal
it. -/
theorem compareValues_poses : ∃ a b w,
    runs (do
      let a ← newStringOfUnits [0x78]
      masquerade a
      return (a, ← newStringOfUnits [0x78])) start = (.ok (a, b), w) ∧
    runs (compareValues .strictEq a b) w = (.ok true, w) ∧
    runs (compareValues .eq a b) w = (.ok false, w) := by
  have hbase : Memory.heapBase = 268435456 := rfl
  have hstart : startSize = 32768 := rfl
  have hsize : Layout.structureSize + Layout.cellSize + Memory.roundUp (2 * [(0x78 : UInt16)].length) =
      112 := rfl
  have hstructure : Layout.structureSize ≤ 112 := by decide
  obtain ⟨h₀, hw₀, hnext₀⟩ := sound_start 281474976710656 (by omega) (by omega)
  -- the first string, which has no flags at first
  obtain ⟨c₁, w₁, h₁, y₁, hrun₁, -, hchanges₁, hcontents₁, -⟩ :=
    hw₀.runs_newStringOfUnits [0x78] (by decide) (by omega)
  have hnext₁ := hchanges₁.grows.next
  obtain ⟨t, w₂, h₂, hrun₂, hchanges₂, hcontents₂, -⟩ :=
    hchanges₁.sound.runs_masquerade (v := .ofCell c₁) hchanges₁.cell hchanges₁.kind (by omega)
  have hnext₂ := hchanges₂.grows.next
  have htext₂ := Heap.text_of_contents hchanges₂.sound.formed hchanges₂.cell hchanges₂.kind rfl
    (hcontents₂.trans hcontents₁)
  -- the second one is another cell
  obtain ⟨c₃, w₃, h₃, y₃, hrun₃, hnone₃, hchanges₃, hcontents₃, -⟩ :=
    hchanges₂.sound.runs_newStringOfUnits [0x78] (by decide) (by omega)
  have htext₃ := Heap.text_of_contents (v := .ofCell c₃) hchanges₃.sound.formed hchanges₃.cell
    hchanges₃.kind rfl hcontents₃
  have hne : (Value.ofCell c₁).bits ≠ c₃ := by
    rintro heq
    have hcell := Heap.cell?_eq_some.mp hchanges₂.cell
    rw [heq, hnone₃] at hcell
    cases hcell
  have hm := hchanges₃.sound.houses.memory.shows
  have hl : h₃.Looks _ := .string (hchanges₃.touches.text htext₂ hne)
    (hchanges₃.touches.cell?_of_ne hchanges₂.cell hne) (hchanges₃.touches.structure? hchanges₂.kind) rfl
  have hk : h₃.Looks _ := .string htext₃ hchanges₃.cell hchanges₃.kind rfl
  have hstrict := runs_compareValues hm hl hk .strictEq
  have heq := runs_compareValues hm hl hk .eq
  refine ⟨.ofCell c₁, .ofCell c₃, w₃, ?_, hstrict.trans ?_, heq.trans ?_⟩
  · rw [runs_bind_of_ok hrun₁, runs_bind_of_ok hrun₂, runs_bind_of_ok hrun₃]
    rfl
  · simp only [Look.decides, Look.same, number?_of_units hm hl rfl, beq_self_eq_true]
  · rfl

end World

end Speculation
