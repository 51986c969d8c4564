import Speculation.Proofs.Integer.Graph
import Speculation.Proofs.Integer.Code

/-!
The frame of optimised code.

A finished graph numbers the slots of its values without gaps, beyond those of the locals. Around these
the code has the header and the arguments, and below them the save slots of registers and the frame of
an outgoing call. Each of these parts is a word of the frame, and no two are the same word. Offsets are
told in 32 bits, so this is true of frames that reach no further on either side.
-/

namespace Speculation

/-! ### Slots of values -/

structure Graph.Slotted (g : Graph) : Prop where
  /-- Every value that is generated has a slot, and every constant. -/
  exists_slot {n : NodeId} {x : Node} (hx : g.nodes[n]? = some x)
    (h : x.op.hasResult = true ∧ x.shouldGenerate = true ∨ x.op.isConstant = true) :
    ∃ o, x.slot = some o
  /-- Slots of values are numbered from the locals on. -/
  numbered {n : NodeId} {x : Node} {o : Slot} (hx : g.nodes[n]? = some x) (ho : x.slot = some o) :
    ∃ j, o = .ofLocal j ∧ g.numVars ≤ j ∧ j < g.numLocals
  /-- There are no gaps. -/
  dense {j : Nat} (h₀ : g.numVars ≤ j) (h₁ : j < g.numLocals) :
    ∃ (n : NodeId) (x : Node), g.nodes[n]? = some x ∧ x.slot = some (.ofLocal j)
  distinct {m n : NodeId} {x y : Node} {o : Slot} (hx : g.nodes[m]? = some x)
    (hy : g.nodes[n]? = some y) (hxo : x.slot = some o) (hyo : y.slot = some o) : m = n
  /-- No variable has the slot of a value. -/
  unshared {n : NodeId} {x : Node} {o : Slot} {v : VarId} {y : Variable} (hx : g.nodes[n]? = some x)
    (ho : x.slot = some o) (hy : g.vars[v]? = some y) : y.operand ≠ o

/-- Some element comes after as many that are counted as there are fewer than all of them. -/
lemma exists_countP_take {α : Type} {p : α → Bool} {xs : List α} {k : Nat} (h : k < xs.countP p) :
    ∃ n x, xs[n]? = some x ∧ p x = true ∧ (xs.take n).countP p = k := by
  induction xs generalizing k with
  | nil => exact absurd h (Nat.not_lt_zero k)
  | cons x xs ih =>
    by_cases hx : p x = true
    · cases k with
      | zero => exact ⟨0, x, rfl, hx, rfl⟩
      | succ k =>
        rw [List.countP_cons_of_pos hx] at h
        obtain ⟨n, y, hy, hp, hk⟩ := ih (Nat.lt_of_succ_lt_succ h)
        exact ⟨n + 1, y, hy, hp, by rw [List.take_succ_cons, List.countP_cons_of_pos hx, hk]⟩
    · rw [List.countP_cons_of_neg hx] at h
      obtain ⟨n, y, hy, hp, hk⟩ := ih h
      exact ⟨n + 1, y, hy, hp, by rw [List.take_succ_cons, List.countP_cons_of_neg hx, hk]⟩

lemma Op.hasResult_of_isConstant {op : Op} (h : op.isConstant = true) : op.hasResult = true := by
  cases op <;> first | rfl | cases h

namespace Draft

variable {d : Draft} {fixed : List Node} {g : Graph}

/-- Every number from the locals on is that of a value's slot. -/
lemma exists_slot_eq (hs : d.Sane) (hfin : Finished d fixed g) {j : Nat} (h₀ : g.numVars ≤ j)
    (h₁ : j < g.numLocals) :
    ∃ (n : NodeId) (x : Node), g.nodes[n]? = some x ∧ x.slot = some (.ofLocal j) := by
  rw [numLocals_finish hfin] at h₁
  have hcounted : j - g.numVars < (countRefs fixed.toArray d.blocks).toList.countP needsSlot := by
    omega
  obtain ⟨n, z, hz, hneeds, hk⟩ := exists_countP_take hcounted
  rw [Array.getElem?_toList] at hz
  have hlt : n < d.nodes.size := by
    have hcount := countRefs_uncounted fixed.toArray d.blocks n
    rw [hz] at hcount
    obtain ⟨f, hf, -⟩ := Option.map_eq_some_iff.mp hcount.symm
    rw [List.getElem?_toArray] at hf
    exact hfin.length ▸ (List.getElem?_eq_some_iff.mp hf).1
  obtain ⟨x, hx⟩ := hfin.total hlt
  obtain ⟨-, z', hz', hslot⟩ := slot_finish hs hfin hx
  rw [hz] at hz'
  cases hz'
  have hvars : g.numVars = d.numVars := congrArg Graph.numVars hfin.graph
  rw [if_pos hneeds, hk, ← hvars, Nat.add_sub_cancel' h₀] at hslot
  exact ⟨n, x, hx, hslot⟩

lemma operand_finish (hd : Built d) (hfin : Finished d fixed g) {v : VarId} {y : Variable}
    (hy : g.vars[v]? = some y) :
    (∃ k, g.arguments[k]? = some v ∧ y.operand = .ofArgument k) ∨
      v ∉ g.arguments ∧ ∃ j, j < g.numVars ∧ y.operand = .ofLocal j := by
  have hvars : g.vars = d.vars := congrArg Graph.vars hfin.graph
  have hargs : g.arguments = d.arguments := congrArg Graph.arguments hfin.graph
  have hnum : g.numVars = d.numVars := congrArg Graph.numVars hfin.graph
  rw [hvars] at hy
  by_cases hv : v ∈ d.arguments
  · obtain ⟨k, hk⟩ := Array.mem_iff_getElem?.mp hv
    obtain ⟨x, hx, hop⟩ := hd.placed.argument hk
    rw [hy] at hx
    cases hx
    exact .inl ⟨k, hargs ▸ hk, hop⟩
  · exact .inr ⟨hargs ▸ hv, hnum ▸ hd.placed.var hy hv⟩

/-- A finished graph whose locals can be counted in 28 bits, and its arguments in 31, has its values in
slots of their own. -/
lemma Built.slotted (hd : Built d) (h : d.finish = .ok g) (hlocals : g.numLocals < 268435456)
    (hargs : Frame.headerSize + g.arguments.size ≤ 2147483648) : g.Slotted := by
  obtain ⟨-, fixed, hfin⟩ := finish_finished h
  have hs := hd.sane
  have hnumbered := @slot_beyond d fixed g hs hfin
  refine ⟨fun {n x} hx hgen => ?_, fun hx ho => hnumbered hx ho, exists_slot_eq hs hfin,
    (hd.formed h).slot_inj, fun {n x o v y} hx ho hy heq => ?_⟩
  · rcases hgen with ⟨hr, hgen⟩ | hc
    · exact slot_isSome hs hfin hx hr (.inl hgen)
    · exact slot_isSome hs hfin hx (Op.hasResult_of_isConstant hc) (.inr hc)
  · obtain ⟨j, rfl, h₀, h₁⟩ := hnumbered hx ho
    obtain ⟨k, hk, hop⟩ | ⟨-, i, hi, hop⟩ := operand_finish hd hfin hy
    · -- an argument's index is not negative, and that of a local is
      have hfew := (Array.getElem?_eq_some_iff.mp hk).1
      have hindex := congrArg Slot.index (hop.symm.trans heq)
      have hh : Frame.headerSize = 5 := rfl
      simp only [Slot.ofArgument, Slot.ofLocal] at hindex
      rw [Slot.signed_of_lt (by omega), Slot.signed_of_lt (by omega)] at hindex
      omega
    · have := Slot.ofLocal_inj (hop.symm.trans heq) (by omega)
        (Nat.lt_of_le_of_lt (Nat.sub_le _ _) (Nat.lt_trans (by omega) (by decide : 268435456 < _)))
      omega

end Draft

/-! ### Parts of a frame -/

namespace Slot

lemma index_ofLocal {i : Nat} (h : i < 2147483648) : (ofLocal i).index = -i - 1 :=
  congrArg (-· - 1) (signed_of_lt h)

lemma index_ofArgument {i : Nat} (h : i < 2147483648) :
    (ofArgument i).index = Frame.headerSize + i :=
  congrArg ((Frame.headerSize : Int) + ·) (signed_of_lt h)

end Slot

inductive FramePart where
  | argument (i : Nat)
  | header (i : Nat)
  | var (i : Nat)
  | value (n : NodeId)
  | gprSave (r : Gpr)
  | fprSave (r : Fpr)
  | outgoing (i : Nat)
deriving DecidableEq

namespace Lowering

/-- Where the code has a part of its frame, if there is that part. -/
inductive FrameLayout.Has (g : Graph) (f : FrameLayout) : FramePart → Address → Prop
  | argument {i : Nat} (h : i < g.arguments.size) :
    Has g f (.argument i) (FrameLayout.address (.ofArgument i))
  | header {i : Nat} (h : i < Frame.headerSize) :
    Has g f (.header i) (.ofBase .frame (Int32.ofNat (8 * i)))
  | var {i : Nat} (h : i < g.numVars) : Has g f (.var i) (FrameLayout.address (.ofLocal i))
  | value {n : NodeId} {x : Node} {o : Slot} (hx : g.nodes[n]? = some x) (ho : x.slot = some o) :
    Has g f (.value n) (FrameLayout.address o)
  | gprSave {r : Gpr} (h : r ∈ Gpr.allocatable) : Has g f (.gprSave r) (f.gprSave r.val)
  | fprSave {r : Fpr} (h : r ∈ Fpr.allocatable) : Has g f (.fprSave r) (f.fprSave r.val)
  | outgoing {n : NodeId} {x : Node} {i : Nat} (hx : g.nodes[n]? = some x) (hop : x.op = .call)
    (h : i < Frame.headerSize + (x.children.size - 1)) : Has g f (.outgoing i) (f.outgoing i)

/-- What is asked of the layout of a frame, in bytes from the frame register. -/
structure FrameLayout.Apart (g : Graph) (f : FrameLayout) : Prop where
  /-- The stack check looks as far as all slots below the frame register reach. -/
  bottom : f.outgoingOffset.toInt = -(8 * f.frameSlots)
  /-- Every part lies between there and the end of the arguments. -/
  within {p : FramePart} {a : Address} (h : f.Has g p a) : ∃ o : Int32, a = .ofBase .frame o ∧
    f.outgoingOffset.toInt ≤ o.toInt ∧ o.toInt + 8 ≤ 8 * (Frame.headerSize + g.arguments.size)
  /-- No two parts have a byte in common. -/
  apart {p q : FramePart} {o o' : Int32} (hp : f.Has g p (.ofBase .frame o))
    (hq : f.Has g q (.ofBase .frame o')) (hne : p ≠ q) :
    o.toInt + 8 ≤ o'.toInt ∨ o'.toInt + 8 ≤ o.toInt

def FrameLayout.word (g : Graph) (f : FrameLayout) : FramePart → Int
  | .argument i => Frame.headerSize + i
  | .header i => i
  | .var i => -i - 1
  | .value n => ((g.nodes[n]?.bind Node.slot).map Slot.index).getD 0
  | .gprSave r => -(f.numLocals + r.val) - 1
  | .fprSave r => -(f.numLocals + 12 + r.val) - 1
  | .outgoing i => i - f.frameSlots

namespace FrameLayout

variable {g : Graph} {f : FrameLayout} {p q : FramePart} {a b : Address} {k : Nat}

/-- A count that never falls, and that no step leaves below its element, ends above all of them. -/
lemma le_foldlM {α : Type} (size : α → Nat) {step : Nat → α → Except Breach Nat} {xs : List α}
    {most : Nat} (hstep : ∀ {most x next}, step most x = .ok next → most ≤ next ∧ size x ≤ next)
    (h : xs.foldlM step most = .ok k) : most ≤ k ∧ ∀ x ∈ xs, size x ≤ k := by
  induction xs generalizing most with
  | nil =>
    cases h
    exact ⟨Nat.le_refl _, nofun⟩
  | cons x xs ih =>
    rw [List.foldlM_cons] at h
    obtain ⟨next, hx, h⟩ := bind_eq_ok.mp h
    obtain ⟨hle, hxs⟩ := ih h
    obtain ⟨hnext, hsize⟩ := hstep hx
    exact ⟨hnext.trans hle, List.forall_mem_cons.mpr ⟨hsize.trans hle, hxs⟩⟩

/-- There is room for the arguments of every call. -/
lemma size_le_maxCallArgs (h : g.maxCallArgs = .ok k) {n : NodeId} {x : Node}
    (hx : g.nodes[n]? = some x) (hop : x.op = .call) : x.children.size - 1 ≤ k := by
  unfold Graph.maxCallArgs at h
  rw [← Array.foldlM_toList] at h
  have hle := (le_foldlM (fun x : Node => if x.op = .call then x.children.size - 1 else 0)
    (fun {most y next} hy => ?_) h).2 x (Array.mem_toList_iff.mpr (Array.mem_of_getElem? hx))
  · rwa [if_pos hop] at hle
  · split at hy
    · rename_i hcall
      rw [if_pos hcall]
      split at hy
      · cases hy
      · cases hy
        exact ⟨Nat.le_max_left _ _, Nat.le_max_right _ _⟩
    · rename_i hcall
      cases hy
      exact ⟨Nat.le_refl _, by rw [if_neg fun h => hcall h]; exact Nat.zero_le _⟩

lemma ofGraph_eq_ok (h : FrameLayout.ofGraph g = .ok f) : f.numLocals = g.numLocals ∧
    g.numLocals + saveAreaSlots + Frame.headerSize ≤ f.frameSlots ∧
    ∀ {n : NodeId} {x : Node}, g.nodes[n]? = some x → x.op = .call →
      g.numLocals + saveAreaSlots + Frame.headerSize + (x.children.size - 1) ≤ f.frameSlots := by
  obtain ⟨k, hk, h⟩ := bind_eq_ok.mp h
  cases h
  exact ⟨rfl, Nat.le_add_right _ _, fun hx hop => Nat.add_le_add_left (size_le_maxCallArgs hk hx hop) _⟩

/-- Graph and layout agree, and both sides of the frame can be told in 32 bits. -/
structure Lays (g : Graph) (f : FrameLayout) : Prop where
  slotted : g.Slotted
  vars : g.numVars ≤ g.numLocals
  layout : FrameLayout.ofGraph g = .ok f
  near : f.frameSlots * 8 < 2147483648
  above : (Frame.headerSize + g.arguments.size) * 8 ≤ 2147483648

/-- The region of a part: words from the lowest on, to the one after the highest. -/
def region (g : Graph) (f : FrameLayout) : FramePart → Int × Int
  | .argument _ => (Frame.headerSize, Frame.headerSize + g.arguments.size)
  | .header _ => (0, Frame.headerSize)
  | .var _ => (-g.numVars, 0)
  | .value _ => (-g.numLocals, -g.numVars)
  | .gprSave _ => (-(g.numLocals + 12), -g.numLocals)
  | .fprSave _ => (-(g.numLocals + 20), -(g.numLocals + 12))
  | .outgoing _ => (-f.frameSlots, -(g.numLocals + 20))

lemma word_value {n : NodeId} {x : Node} {o : Slot} (hx : g.nodes[n]? = some x)
    (ho : x.slot = some o) : f.word g (.value n) = o.index := by
  rw [word, hx, Option.bind_some, ho]
  rfl

namespace Lays

variable (h : Lays g f)
include h

lemma near_word (hp : f.Has g p a) : (region g f p).1 ≤ f.word g p ∧ f.word g p < (region g f p).2 := by
  obtain ⟨hlocals, hslots, hcalls⟩ := ofGraph_eq_ok h.layout
  have hh : Frame.headerSize = 5 := rfl
  have hs : saveAreaSlots = 20 := rfl
  have hgprs : ∀ r : Gpr, r ∈ Gpr.allocatable → r.val < 12 := by decide
  have hfprs : ∀ r : Fpr, r ∈ Fpr.allocatable → r.val < 8 := by decide
  cases hp with
  | argument hi => simp only [region, word]; omega
  | header hi => simp only [region, word]; omega
  | var hi => simp only [region, word]; omega
  | value hx ho =>
    obtain ⟨j, hj, h₀, h₁⟩ := h.slotted.numbered hx ho
    have hnear := h.near
    have hindex := Slot.index_ofLocal (i := j) (by omega)
    rw [word_value hx ho, hj, hindex]
    simp only [region]
    omega
  | @gprSave r hr =>
    have := hgprs r hr
    simp only [region, word, hlocals]
    omega
  | @fprSave r hr =>
    have := hfprs r hr
    simp only [region, word, hlocals]
    omega
  | outgoing hx hop hi =>
    have := hcalls hx hop
    simp only [region, word]
    omega

/-- The code has a part at the offset of its word. -/
lemma toInt_disp (hp : f.Has g p a) : ∃ o, a = .ofBase .frame o ∧ o.toInt = 8 * f.word g p := by
  obtain ⟨hlocals, hslots, hcalls⟩ := ofGraph_eq_ok h.layout
  have hnear := h.near
  have hvars := h.vars
  have hh : Frame.headerSize = 5 := rfl
  have hs : saveAreaSlots = 20 := rfl
  have hgprs : ∀ r : Gpr, r ∈ Gpr.allocatable → r.val < 12 := by decide
  have hfprs : ∀ r : Fpr, r ∈ Fpr.allocatable → r.val < 8 := by decide
  have hlocal {k : Nat} (hk : k < 268435456) : ∃ o, address (.ofLocal k) = .ofBase .frame o ∧
      o.toInt = 8 * (-k - 1) := by
    have hindex := Slot.index_ofLocal (i := k) (by omega)
    refine ⟨_, rfl, ?_⟩
    rw [Slot.toInt_offset (by omega) (by omega), hindex]
    exact Int.mul_comm _ _
  cases hp with
  | @argument i hi =>
    have habove := h.above
    have hindex := Slot.index_ofArgument (i := i) (by omega)
    refine ⟨_, rfl, ?_⟩
    rw [Slot.toInt_offset (by omega) (by omega), hindex]
    exact Int.mul_comm _ _
  | header hi =>
    refine ⟨_, rfl, ?_⟩
    rw [Int32.toInt_ofNat_of_lt (by omega), word]
    push_cast
    rfl
  | var hi => exact hlocal (by omega)
  | value hx ho =>
    obtain ⟨j, hj, h₀, h₁⟩ := h.slotted.numbered hx ho
    rw [word_value hx ho, hj, Slot.index_ofLocal (by omega)]
    exact hlocal (by omega)
  | @gprSave r hr =>
    have := hgprs r hr
    simpa [gprSave, word] using hlocal (k := f.numLocals + r.val) (by omega)
  | @fprSave r hr =>
    have := hfprs r hr
    simpa [fprSave, word, Int.add_assoc] using hlocal (k := f.numLocals + 12 + r.val) (by omega)
  | @outgoing n x i hx hop hi =>
    have := hcalls hx hop
    refine ⟨_, rfl, ?_⟩
    rw [Int32.toInt_add, outgoingOffset, Scene.toInt_outgoing (by omega),
      Int32.toInt_ofNat_of_lt (by omega), Int.bmod_eq_of_le (by omega) (by omega), word]
    push_cast
    omega

/-- No two parts are the same word. -/
lemma word_inj (hp : f.Has g p a) (hq : f.Has g q b) (heq : f.word g p = f.word g q) : p = q := by
  obtain ⟨hlocals, hslots, hcalls⟩ := ofGraph_eq_ok h.layout
  have hvars := h.vars
  have hh : Frame.headerSize = 5 := rfl
  have hs : saveAreaSlots = 20 := rfl
  have hnp := h.near_word hp
  have hnq := h.near_word hq
  rw [← heq] at hnq
  cases hp <;> cases hq
  case argument.argument i hi j hj =>
    simp only [word] at heq
    congr 1
    omega
  case header.header i hi j hj =>
    simp only [word] at heq
    congr 1
    omega
  case var.var i hi j hj =>
    simp only [word] at heq
    congr 1
    omega
  case value.value m x o hx ho n y o' hy ho' =>
    rw [word_value hx ho, word_value hy ho'] at heq
    have hslot : o = o' := congrArg Slot.mk heq
    rw [h.slotted.distinct hx hy ho (hslot ▸ ho')]
  case gprSave.gprSave r hr r' hr' =>
    simp only [word] at heq
    rw [Fin.ext (a := r) (b := r') (by omega)]
  case fprSave.fprSave r hr r' hr' =>
    simp only [word] at heq
    rw [Fin.ext (a := r) (b := r') (by omega)]
  case outgoing.outgoing m x i hx hop hi n y j hy hop' hj =>
    simp only [word] at heq
    congr 1
    omega
  -- parts of different kinds lie in different regions
  all_goals
    simp only [region] at hnp hnq
    omega

lemma apart : f.Apart g where
  bottom := Scene.toInt_outgoing (by have := h.near; omega)
  within {p a} hp := by
    obtain ⟨hlocals, hslots, hcalls⟩ := ofGraph_eq_ok h.layout
    have hh : Frame.headerSize = 5 := rfl
    have hs : saveAreaSlots = 20 := rfl
    have hvars := h.vars
    obtain ⟨o, ha, ho⟩ := h.toInt_disp hp
    obtain ⟨hlow, hhigh⟩ := h.near_word hp
    have hregion : -(f.frameSlots : Int) ≤ (region g f p).1 ∧
        (region g f p).2 ≤ Frame.headerSize + g.arguments.size := by
      cases p <;> simp only [region] <;> omega
    refine ⟨o, ha, ?_, by omega⟩
    rw [outgoingOffset, Scene.toInt_outgoing (by have := h.near; omega)]
    omega
  apart {p q o o'} hp hq hne := by
    obtain ⟨r, heq, ho⟩ := h.toInt_disp hp
    obtain ⟨r', heq', ho'⟩ := h.toInt_disp hq
    obtain rfl : o = r := congrArg Address.disp heq
    obtain rfl : o' = r' := congrArg Address.disp heq'
    have hword : f.word g p ≠ f.word g q := fun h' => hne (h.word_inj hp hq h')
    omega

end Lays

end FrameLayout

end Lowering

namespace Draft

open Lowering

/-- In the frame of a finished graph every value has a slot of its own, and no two parts overlap, as
long as both sides of the frame can be told in 32 bits. -/
theorem Built.frame_apart {d : Draft} {g : Graph} {f : FrameLayout} (hd : Built d)
    (h : d.finish = .ok g) (hf : FrameLayout.ofGraph g = .ok f)
    (hbelow : f.frameSlots * 8 < 2147483648)
    (habove : (Frame.headerSize + g.arguments.size) * 8 ≤ 2147483648) : g.Slotted ∧ f.Apart g := by
  obtain ⟨-, fixed, hfin⟩ := finish_finished h
  obtain ⟨-, hslots, -⟩ := FrameLayout.ofGraph_eq_ok hf
  have hvars : g.numVars ≤ g.numLocals := numLocals_finish hfin ▸ Nat.le_add_right _ _
  have hslotted := hd.slotted h (by omega) (by omega)
  exact ⟨hslotted, FrameLayout.Lays.apart ⟨hslotted, hvars, hf, hbelow, habove⟩⟩

def calling : Draft :=
  let d := (({ name := "calling", kind := .function } : Draft).addBlock.select 0)
  let d := (d.addVariable .top .value).2
  let d := (d.addNode (.getLocal 0) [] .top).2
  let d := (d.addNode .call [0, 0] .top).2
  (d.addNode .ret [1] .empty).2

/-- The last word of the save area is next to the argument of the call. -/
theorem frame_apart_calling : ∃ (g : Graph) (f : FrameLayout), calling.finish = .ok g ∧
    FrameLayout.ofGraph g = .ok f ∧ f.frameSlots = 29 ∧ g.arguments.size = 0 ∧ g.Slotted ∧ f.Apart g ∧
    f.Has g (.outgoing 5) (.ofBase .frame (-192)) ∧ f.Has g (.fprSave 7) (.ofBase .frame (-184)) := by
  have hbuilt : Built calling := by
    refine .addNode (.addNode (.addNode ?_ ?_ _ _ _ _) ?_ _ _ _ _) ?_ _ _ _ _
    · exact (Built.new "calling" .function).addBlock.select 0 |>.addVariable .top .value
    all_goals decide
  have hlays : calling.finish.toOption.bind (fun g => (FrameLayout.ofGraph g).toOption.map fun f =>
      (f.numLocals, f.frameSlots, g.arguments.size,
        g.nodes[1]?.map fun x => (x.op, x.children.size))) = some (3, 29, 0, some (.call, 2)) := by
    decide +kernel
  rcases h : calling.finish with e | g
  · rw [h] at hlays
    cases hlays
  rw [h] at hlays
  rcases hf : FrameLayout.ofGraph g with e | f
  · simp [Except.toOption, hf] at hlays
  simp only [Except.toOption, hf, Option.bind_some, Option.map_some, Option.some.injEq,
    Prod.mk.injEq] at hlays
  obtain ⟨hlocals, hslots, hargs, hcall⟩ := hlays
  obtain ⟨x, hx, hcall⟩ := Option.map_eq_some_iff.mp hcall
  obtain ⟨hop, hsize⟩ := Prod.mk.inj hcall
  obtain ⟨hslotted, hapart⟩ :=
    hbuilt.frame_apart h hf (by rw [hslots]; decide) (by rw [hargs]; decide)
  refine ⟨g, f, rfl, hf, hslots, hargs, hslotted, hapart, ?_, ?_⟩
  · have hout := FrameLayout.Has.outgoing (f := f) (i := 5) hx hop (by rw [hsize]; decide)
    rwa [FrameLayout.outgoing, FrameLayout.outgoingOffset, hslots] at hout
  · have hsave := FrameLayout.Has.fprSave (g := g) (f := f) (r := 7) (by decide)
    rwa [FrameLayout.fprSave, hlocals] at hsave

/-! ### Arguments out of reach -/

def addArguments (d : Draft) : Nat → Draft
  | 0 => d
  | n + 1 => ((d.addArguments n).addArgument .top .value).2

lemma Built.addArguments {d : Draft} (hd : Built d) (n : Nat) : Built (d.addArguments n) := by
  induction n with
  | zero => exact hd
  | succ n ih => exact ih.addArgument .top .value

lemma addArguments_eq (d : Draft) (n : Nat) : ∃ (vs : Array Variable) (as : Array VarId),
    as.size = d.arguments.size + n ∧ d.addArguments n = { d with vars := vs, arguments := as } := by
  induction n with
  | zero => exact ⟨d.vars, d.arguments, rfl, rfl⟩
  | succ n ih =>
    obtain ⟨vs, as, hsize, h⟩ := ih
    rw [Draft.addArguments, h]
    exact ⟨_, _, by rw [Array.size_push, hsize, Nat.add_assoc], rfl⟩

def answering : Draft :=
  let d := (({ name := "answering", kind := .function } : Draft).addBlock.select 0)
  let d := (d.addConstant .undefined).2
  (d.addNode .ret [0] .empty).2

lemma finish_answering (vs : Array Variable) (as : Array VarId) : ∃ (g : Graph) (x : Node),
    ({ answering with vars := vs, arguments := as } : Draft).finish = .ok g ∧ g.arguments = as ∧
    g.maxCallArgs = .ok 0 ∧ g.numLocals = 1 ∧ g.nodes[0]? = some x ∧ x.slot = some (.ofLocal 0) := by
  set d : Draft := { answering with vars := vs, arguments := as }
  have hfinish : d.finish = Breach.lift (annotateForwards
      (d.slotted (countRefs answering.nodes answering.blocks))) :=
    @finish_of_fixed d answering.nodes.toList rfl rfl
  have hcounted : countRefs answering.nodes answering.blocks =
      #[{ answering.nodes[0]! with refCount := 1 },
        { answering.nodes[1]! with flags := { mustGenerate := true } }] := by
    decide +kernel
  rw [hfinish, hcounted]
  exact ⟨_, _, rfl, rfl, rfl, rfl, rfl, rfl⟩

/-- The offset of argument `2^29 - 6` leaves the range of 32 bits and comes round to where the first
value below the frame register is. -/
theorem not_apart_answering : ∃ (g : Graph) (f : FrameLayout),
    Built (answering.addArguments 536870907) ∧ (answering.addArguments 536870907).finish = .ok g ∧
    FrameLayout.ofGraph g = .ok f ∧ f.frameSlots * 8 < 2147483648 ∧
    f.Has g (.argument 536870906) (.ofBase .frame (-8)) ∧ f.Has g (.value 0) (.ofBase .frame (-8)) ∧
    ¬f.Apart g := by
  have hbuilt : Built answering := by
    refine .addNode (.addNode ?_ ?_ _ _ _ _) ?_ _ _ _ _
    · exact (Built.new "answering" .function).addBlock.select 0
    all_goals decide
  obtain ⟨vs, as, hsize, hargs⟩ := addArguments_eq answering 536870907
  obtain ⟨g, x, hfin, rfl, hcalls, hlocals, hx, hslot⟩ := finish_answering vs as
  have hlayout : FrameLayout.ofGraph g = .ok ⟨1, 26⟩ := by
    rw [FrameLayout.ofGraph, hcalls, hlocals]
    rfl
  have hlt : 536870906 < g.arguments.size := by
    rw [hsize]
    decide
  have harg : FrameLayout.Has g ⟨1, 26⟩ (.argument 536870906) (.ofBase .frame (-8)) := .argument hlt
  have hval : FrameLayout.Has g ⟨1, 26⟩ (.value 0) (.ofBase .frame (-8)) := .value hx hslot
  refine ⟨g, ⟨1, 26⟩, hbuilt.addArguments 536870907, hargs ▸ hfin, hlayout, by decide, harg, hval,
    fun h => ?_⟩
  have hapart := h.apart harg hval nofun
  omega

end Draft

end Speculation
