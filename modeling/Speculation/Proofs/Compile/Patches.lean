import Mathlib.Data.List.Induction
import Speculation.Proofs.Compile.WellFormed

/-!
Patching keeps code intact.

The code of an artifact spells its instructions, one after the other. A patch writes into fields of
the instructions at its site, each of which is as long as it was, so that patched code spells as
many instructions at the same places. `Artifact.now` says which: an instruction is what it was linked
as, but for what the last patches that reached it wrote.
-/

namespace Speculation

/-! ### Instructions one after the other -/

inductive Placed : Nat → List (Nat × Inst) → Nat → Prop where
  | stop (o : Nat) : Placed o [] o
  | step {o stop : Nat} {i : Inst} {is : List (Nat × Inst)}
    (h : Placed (o + i.encode.length) is stop) : Placed o ((o, i) :: is) stop

def spelling (is : List (Nat × Inst)) : List UInt8 := is.flatMap fun x => x.2.encode

namespace Placed

variable {is js : List (Nat × Inst)} {o stop : Nat} {x : Nat × Inst} {i j : Inst}

lemma length (h : Placed o is stop) : stop = o + (spelling is).length := by
  induction h with
  | stop => rfl
  | step _ ih => rw [ih, spelling, spelling, List.flatMap_cons, List.length_append, Nat.add_assoc]

lemma le (h : Placed o is stop) : ∀ x ∈ is, o ≤ x.1 := by
  induction h with
  | stop => exact List.forall_mem_nil _
  | step _ ih =>
    exact List.forall_mem_cons.mpr ⟨Nat.le_refl _, fun x hx => Nat.le_of_add_right_le (ih x hx)⟩

/-- Every instruction has its own place. -/
lemma split (h : Placed o is stop) (hx : x ∈ is) : ∃ pre post, is = pre ++ x :: post ∧
    x.1 = o + (spelling pre).length ∧ (∀ y ∈ pre, y.1 ≠ x.1) ∧ ∀ y ∈ post, y.1 ≠ x.1 := by
  induction h with
  | stop => cases hx
  | @step o stop i is hrest ih =>
    have hpos := i.length_encode_pos
    have hle := hrest.le
    rcases List.mem_cons.mp hx with rfl | hx
    · refine ⟨[], is, rfl, rfl, List.forall_mem_nil _, fun y hy => ?_⟩
      exact Nat.ne_of_gt (Nat.lt_of_lt_of_le (Nat.lt_add_of_pos_right hpos) (hle y hy))
    · obtain ⟨pre, post, rfl, ho, hpre, hpost⟩ := ih hx
      refine ⟨(o, i) :: pre, post, rfl, ?_, List.forall_mem_cons.mpr ⟨?_, hpre⟩, hpost⟩
      · rw [ho, spelling, spelling, List.flatMap_cons, List.length_append, Nat.add_assoc]
      · have := hle x hx
        dsimp only
        omega

lemma unique (h : Placed o is stop) {k : Nat} (hi : (k, i) ∈ is) (hj : (k, j) ∈ is) : i = j := by
  obtain ⟨pre, post, rfl, -, hpre, hpost⟩ := h.split hi
  rcases List.mem_append.mp hj with hj | hj
  · exact absurd rfl (hpre (k, j) hj)
  rcases List.mem_cons.mp hj with hj | hj
  · exact (congrArg Prod.snd hj).symm
  · exact absurd rfl (hpost (k, j) hj)

lemma map (h : Placed o is stop) {f : Nat × Inst → Nat × Inst}
    (hf : ∀ x ∈ is, (f x).1 = x.1 ∧ (f x).2.encode.length = x.2.encode.length) :
    Placed o (is.map f) stop := by
  induction h with
  | stop => exact .stop _
  | @step o stop i is _ ih =>
    obtain ⟨⟨ho, hlen⟩, hf⟩ := List.forall_mem_cons.mp hf
    have hrest := ih hf
    rw [← hlen] at hrest
    rw [List.map_cons, show f (o, i) = (o, (f (o, i)).2) from Prod.ext ho rfl]
    exact .step hrest

end Placed

/-- The code is these instructions, up to an offset, and then these bytes. -/
structure Spelled (code : ByteArray) (is : List (Nat × Inst)) (stop : Nat) (rest : List UInt8) :
    Prop where
  placed : Placed 0 is stop
  bytes : code.data.toList = spelling is ++ rest

def setAt (o : Nat) (i : Inst) (x : Nat × Inst) : Nat × Inst := if x.1 = o then (o, i) else x

namespace Spelled

variable {code code' : ByteArray} {is : List (Nat × Inst)} {stop o : Nat} {rest : List UInt8}
  {i j : Inst}

lemma decodes (h : Spelled code is stop rest) : Decodes code 0 is stop := by
  have hfrom : ∀ {o stop : Nat} {is : List (Nat × Inst)}, Placed o is stop →
      ∀ pre : List UInt8, pre.length = o → code.data.toList = pre ++ (spelling is ++ rest) →
        Decodes code o is stop := by
    intro o stop is hp
    induction hp with
    | stop => exact fun _ _ _ => .stop _
    | @step o stop i is _ ih =>
      rintro pre rfl hcode
      rw [spelling, List.flatMap_cons, List.append_assoc] at hcode
      exact .step (Inst.decodeAt_of_bytes hcode)
        (ih (pre ++ i.encode) (List.length_append ..) (hcode.trans (List.append_assoc ..).symm))
  exact hfrom h.placed [] rfl h.bytes

lemma code_unique (h : Spelled code is stop rest) (h' : Spelled code' is stop rest) :
    code = code' :=
  ByteArray.ext (Array.toList_inj.mp (h.bytes.trans h'.bytes.symm))

lemma length_eq (h : Spelled code is stop rest) :
    code.data.toList.length = stop + rest.length := by
  rw [h.bytes, List.length_append, h.placed.length, Nat.zero_add]

/-- Code of as many instructions and the same bytes after them is as long. -/
lemma size_eq {js : List (Nat × Inst)} (h : Spelled code is stop rest)
    (h' : Spelled code' js stop rest) : code.size = code'.size := by
  rw [← ByteArray.size_data, ← ByteArray.size_data, ← Array.length_toList, ← Array.length_toList,
    h.length_eq, h'.length_eq]

lemma drop_eq (h : Spelled code is stop rest) : code.data.toList.drop stop = rest := by
  rw [h.bytes, h.placed.length, Nat.zero_add, List.drop_left]

/-- A field of an instruction is overwritten, and no other instruction changes. -/
lemma overwrite (h : Spelled code is stop rest) (hi : (o, i) ∈ is) {u v w t : List UInt8}
    (hv : i.encode = u ++ (v ++ t)) (hw : j.encode = u ++ (w ++ t)) (hlen : w.length = v.length) :
    Spelled (Bytes.overwrite code (o + u.length) w) (is.map (setAt o j)) stop rest := by
  obtain ⟨pre, post, hsplit, ho, hpre, hpost⟩ := h.placed.split hi
  have hother : ∀ ys : List (Nat × Inst), (∀ y ∈ ys, y.1 ≠ o) → ys.map (setAt o j) = ys :=
    fun ys hys => (List.map_congr_left fun y hy => if_neg (hys y hy)).trans (List.map_id ys)
  have hmap : is.map (setAt o j) = pre ++ (o, j) :: post := by
    rw [hsplit, List.map_append, List.map_cons, hother pre hpre, hother post hpost, setAt,
      if_pos rfl]
  refine ⟨h.placed.map fun x hx => ?_, ?_⟩
  · unfold setAt
    split
    · rename_i hxo
      obtain rfl : x.2 = i := h.placed.unique (k := o) (hxo ▸ hx) hi
      refine ⟨hxo.symm, ?_⟩
      simp only [hv, hw, List.length_append, hlen]
    · exact ⟨rfl, rfl⟩
  · have hcode : code.data.toList = (spelling pre ++ u) ++ (v ++ (t ++ (spelling post ++ rest))) := by
      rw [h.bytes, hsplit]
      simp [spelling, hv]
    have hdata := Bytes.data_overwrite hcode hlen
    rw [List.length_append, ← show o = (spelling pre).length from ho.trans (Nat.zero_add _)] at hdata
    rw [hdata, hmap]
    simp [spelling, hw]

lemma replace (h : Spelled code is stop rest) (hi : (o, i) ∈ is)
    (hlen : j.encode.length = i.encode.length) :
    Spelled (Bytes.overwrite code o j.encode) (is.map (setAt o j)) stop rest := by
  have hbytes (bs : List UInt8) : bs = [] ++ (bs ++ []) := by simp
  exact h.overwrite hi (hbytes _) (hbytes _) hlen

end Spelled

def Inst.setDisp (i : Inst) (d : Int32) : Inst :=
  match i with
  | .load width signed dst addr => .load width signed dst { addr with disp := d }
  | .store width src addr => .store width src { addr with disp := d }
  | i => i

lemma Lowering.CacheKind.encode_setDisp (kind : CacheKind) (base value : Gpr) :
    ∃ u : List UInt8, u.length = Encoding.displacementField ∧
      ∀ d, ((kind.access base value).setDisp d).encode = u ++ (Encoding.int32 d ++ []) := by
  simp only [List.append_nil]
  refine ⟨(kind.access base value).encode.take 6, ?_, fun d => ?_⟩
  · cases kind <;> rfl
  · cases kind <;> rfl

/-! ### Patches -/

inductive Patch where
  | cache (kind : Lowering.CacheKind) (site : Nat) (structure' : UInt64) (slot : Nat)
  | link (site : Nat) (target : UInt64)
  | fire
deriving DecidableEq, Repr

/-- What a patch is of. The watchpoints fire together. -/
inductive PatchSite where
  | cache (site : Nat)
  | call (site : Nat)
  | watchpoints
deriving DecidableEq, Repr

def Patch.site : Patch → PatchSite
  | .cache _ site _ _ => .cache site
  | .link site _ => .call site
  | .fire => .watchpoints

/-- What `f` makes of the last element that it makes something of. -/
def lastOf {α β : Type} (f : α → Option β) (xs : List α) : Option β := xs.reverse.findSome? f

@[simp] lemma lastOf_concat {α β : Type} (f : α → Option β) (xs : List α) (x : α) :
    lastOf f (xs ++ [x]) = (f x).or (lastOf f xs) := by
  rw [lastOf, List.reverse_concat, List.findSome?_cons]
  cases f x <;> rfl

namespace Artifact

variable {a a' : Artifact} {is : List (Nat × Inst)} {stop o : Nat} {rest : List UInt8}
  {p q : Patch} {ps : List Patch} {x : Nat × Inst} {i : Inst}

def apply (a : Artifact) : Patch → Except PatchError Artifact
  | .cache kind site structure' slot => a.patchCache kind site structure' slot
  | .link site target => a.linkCall site target
  | .fire => .ok a.fireWatchpoints

/-- The artifact after a patch. A patch that is refused changes nothing. -/
def after (a : Artifact) (p : Patch) : Artifact :=
  match a.apply p with
  | .ok a' => a'
  | .error _ => a

def afterAll (a : Artifact) (ps : List Patch) : Artifact := ps.foldl after a

/-- The inline cache that a patch fills, with the structure and the slot, if it is not refused. -/
def fills? (a : Artifact) : Patch → Option (Cache × UInt64 × Nat)
  | .cache kind site structure' slot =>
    a.caches[site]?.bind fun c =>
      if c.kind = kind ∧ slot < Layout.inlineCapacity then some (c, structure', slot) else none
  | _ => none

def structureBy (a : Artifact) (o : Nat) (p : Patch) : Option UInt64 :=
  (a.fills? p).bind fun (c, structure', _) => if c.structureImm = o then some structure' else none

def displacementBy (a : Artifact) (o : Nat) (p : Patch) : Option Int32 :=
  (a.fills? p).bind fun (c, _, slot) =>
    if c.access = o then some (Int32.ofNat (Layout.inlineStorage + 8 * slot)) else none

def targetBy (a : Artifact) (o : Nat) : Patch → Option UInt64
  | .link site target =>
    a.calls[site]?.bind fun c => if c.offset = o then some target else none
  | _ => none

def leapBy (a : Artifact) (o : Nat) : Patch → Option Inst
  | .fire => (a.jumps.find? fun j => j.source == o).map leap
  | _ => none

def now (a : Artifact) (ps : List Patch) (x : Nat × Inst) : Nat × Inst :=
  (x.1, match x.2 with
    | .movImm dst imm => .movImm dst ((lastOf (a.structureBy x.1) ps).getD imm)
    | .load width signed dst addr =>
      .load width signed dst { addr with disp := (lastOf (a.displacementBy x.1) ps).getD addr.disp }
    | .store width src addr =>
      .store width src { addr with disp := (lastOf (a.displacementBy x.1) ps).getD addr.disp }
    | .call target => .call ((lastOf (a.targetBy x.1) ps).getD target)
    | .watchpoint id => (lastOf (a.leapBy x.1) ps).getD (.watchpoint id)
    | i => i)

/-- Every site has its instructions, and they are of no other site. -/
structure Places (a : Artifact) (is : List (Nat × Inst)) : Prop where
  cache {c : Cache} (h : c ∈ a.caches) : ∃ base expected value,
    (c.structureImm, .movImm expected 0) ∈ is ∧ (c.access, c.kind.access base value) ∈ is
  caches {j k : Nat} {c d : Cache} (hc : a.caches[j]? = some c) (hd : a.caches[k]? = some d)
    (h : c.structureImm = d.structureImm ∨ c.access = d.access) : j = k
  call {c : Lowering.CallSite} (h : c ∈ a.calls) :
    (c.offset, .call Thunk.virtualCall.address) ∈ is
  calls {j k : Nat} {c d : Lowering.CallSite} (hc : a.calls[j]? = some c)
    (hd : a.calls[k]? = some d) (h : c.offset = d.offset) : j = k
  jump {j : JumpReplacement} (h : j ∈ a.jumps) : ∃ id, (j.source, .watchpoint id) ∈ is
  jumps : a.jumps.toList.Pairwise fun j k => j.source ≠ k.source

/-! What a patch does to an instruction -/

lemma after_ok (h : a.apply p = .ok a') : a.after p = a' := by rw [after, h]

lemma after_error {e : PatchError} (h : a.apply p = .error e) : a.after p = a := by rw [after, h]

lemma now_nil (x : Nat × Inst) : a.now [] x = x := by
  obtain ⟨o, i⟩ := x
  cases i <;> rfl

lemma now_access (kind : Lowering.CacheKind) (base value : Gpr) :
    a.now ps (o, kind.access base value) = (o, (kind.access base value).setDisp
      ((lastOf (a.displacementBy o) ps).getD (Int32.ofNat Layout.inlineStorage))) := by
  cases kind <;> rfl

/-- A patch that has nothing to do with an instruction leaves it as it is. -/
lemma now_concat_of_none (hs : a.structureBy x.1 p = none) (hd : a.displacementBy x.1 p = none)
    (ht : a.targetBy x.1 p = none) (hl : a.leapBy x.1 p = none) :
    a.now (ps ++ [p]) x = a.now ps x := by
  simp only [now, lastOf_concat, hs, hd, ht, hl, Option.none_or]

lemma fills?_eq_some {c : Cache} {structure' : UInt64} {slot : Nat}
    (h : a.fills? p = some (c, structure', slot)) : ∃ kind site, p = .cache kind site structure' slot ∧
      a.caches[site]? = some c ∧ c.kind = kind ∧ slot < Layout.inlineCapacity := by
  cases p with
  | cache kind site structure'' slot' =>
    obtain ⟨d, hd, h⟩ := Option.bind_eq_some_iff.mp h
    split at h
    · rename_i hk
      cases h
      exact ⟨kind, site, rfl, hd, hk⟩
    · cases h
  | _ => cases h

lemma apply_fills {c : Cache} {structure' : UInt64} {slot : Nat}
    (h : a.fills? p = some (c, structure', slot)) : a.apply p =
      .ok ((a.patch (c.structureImm + Encoding.movImmField) (Encoding.uint64 structure')).patch
        (c.access + Encoding.displacementField)
        (Encoding.int32 (Int32.ofNat (Layout.inlineStorage + 8 * slot)))) := by
  obtain ⟨kind, site, rfl, hc, hkind, hslot⟩ := fills?_eq_some h
  simp [apply, patchCache, hc, hkind, Nat.not_le.mpr hslot]

lemma apply_cache_of_none {kind : Lowering.CacheKind} {site slot : Nat} {structure' : UInt64}
    (h : a.fills? (.cache kind site structure' slot) = none) :
    ∃ e, a.apply (.cache kind site structure' slot) = .error e := by
  show ∃ e, a.patchCache kind site structure' slot = .error e
  unfold patchCache
  split
  · exact ⟨_, rfl⟩
  · rename_i c hc
    split
    · exact ⟨_, rfl⟩
    · rename_i hkind
      split
      · exact ⟨_, rfl⟩
      · rename_i hslot
        rw [fills?, hc, Option.bind_some,
          if_pos ⟨Decidable.not_not.mp hkind, Nat.not_le.mp hslot⟩] at h
        cases h

section By

variable {c : Cache} {structure' : UInt64} {slot : Nat}
  (hf : a.fills? p = some (c, structure', slot))
include hf

lemma structureBy_fill :
    a.structureBy o p = if c.structureImm = o then some structure' else none := by
  rw [structureBy, hf, Option.bind_some]

lemma displacementBy_fill : a.displacementBy o p =
    if c.access = o then some (Int32.ofNat (Layout.inlineStorage + 8 * slot)) else none := by
  rw [displacementBy, hf, Option.bind_some]

lemma targetBy_fill : a.targetBy o p = none ∧ a.leapBy o p = none := by
  obtain ⟨kind, site, rfl, -⟩ := fills?_eq_some hf
  exact ⟨rfl, rfl⟩

end By

/-- The instructions of an inline cache are apart. -/
lemma ne_access {c : Cache} {base expected value : Gpr} (hplaced : Placed 0 is stop)
    (himm : (c.structureImm, .movImm expected 0) ∈ is)
    (haccess : (c.access, c.kind.access base value) ∈ is) : c.access ≠ c.structureImm := by
  intro he
  rw [he] at haccess
  have h := hplaced.unique himm haccess
  revert h
  cases c.kind <;> exact nofun

lemma setAt_fill {c : Cache} {structure' : UInt64} {slot : Nat} {base expected value : Gpr}
    (hplaced : Placed 0 is stop) (hf : a.fills? p = some (c, structure', slot))
    (himm : (c.structureImm, .movImm expected 0) ∈ is)
    (haccess : (c.access, c.kind.access base value) ∈ is) (hx : x ∈ is) :
    ((setAt c.access ((c.kind.access base value).setDisp
        (Int32.ofNat (Layout.inlineStorage + 8 * slot))) ∘
      setAt c.structureImm (.movImm expected structure')) ∘ a.now ps) x = a.now (ps ++ [p]) x := by
  obtain ⟨o, i⟩ := x
  have hne := ne_access hplaced himm haccess
  obtain ⟨htarget, hleap⟩ := targetBy_fill (o := o) hf
  simp only [Function.comp_apply]
  by_cases ho : o = c.access
  · subst ho
    have hsame : setAt c.structureImm (.movImm expected structure') (a.now ps (c.access, i)) =
        a.now ps (c.access, i) := if_neg hne
    rw [hsame, hplaced.unique hx haccess, now_access, now_access, lastOf_concat,
      displacementBy_fill hf, if_pos rfl]
    exact if_pos rfl
  have hother (x : Nat × Inst) (hxo : x.1 = o) (j : Inst) : setAt c.access j x = x :=
    if_neg (hxo ▸ ho)
  by_cases ho' : o = c.structureImm
  · subst ho'
    have hset : setAt c.structureImm (.movImm expected structure')
        (a.now ps (c.structureImm, i)) = (c.structureImm, .movImm expected structure') := if_pos rfl
    rw [hset, hother _ rfl, hplaced.unique hx himm]
    simp only [now, lastOf_concat, structureBy_fill hf, if_pos, Option.some_or, Option.getD_some]
  · have hset (j : Inst) : setAt c.structureImm j (a.now ps (o, i)) = a.now ps (o, i) := if_neg ho'
    rw [hset, hother _ rfl, now_concat_of_none (a := a) (p := p) (x := (o, i)) _ _ htarget hleap]
    · rw [structureBy_fill hf, if_neg (Ne.symm ho')]
    · rw [displacementBy_fill hf, if_neg (Ne.symm ho)]

lemma length_now_watchpoint {id : UInt32} :
    (a.now ps (o, .watchpoint id)).2.encode.length = 5 := by
  show ((lastOf (a.leapBy o) ps).getD (.watchpoint id)).encode.length = 5
  rcases hl : lastOf (a.leapBy o) ps with _ | i
  · rfl
  · obtain ⟨p, -, hp⟩ := List.exists_of_findSome?_eq_some hl
    unfold leapBy at hp
    split at hp
    · obtain ⟨j, -, rfl⟩ := Option.map_eq_some_iff.mp hp
      exact length_leap j
    · cases hp

/-- Watchpoints become jumps, one after the other. -/
lemma spelled_leaps {js : List JumpReplacement} {code : ByteArray}
    (h : Spelled code is stop rest)
    (hjs : ∀ j ∈ js, ∃ i : Inst, (j.source, i) ∈ is ∧ i.encode.length = 5) :
    ∃ code', js.foldl fire { a with code } = { a with code := code' } ∧
      Spelled code' (is.map fun x => js.foldl (fun x j => setAt j.source (leap j) x) x) stop rest := by
  induction js generalizing code is with
  | nil => exact ⟨code, rfl, by simpa using h⟩
  | cons j js ih =>
    obtain ⟨⟨i, hi, hlen⟩, hjs⟩ := List.forall_mem_cons.mp hjs
    have h₁ := h.replace hi ((length_leap j).trans hlen.symm)
    obtain ⟨code', hcode, h₂⟩ := ih h₁ fun k hk => by
      obtain ⟨i', hi', hlen'⟩ := hjs k hk
      by_cases hkj : k.source = j.source
      · exact ⟨leap j, List.mem_map.mpr ⟨_, hi', by rw [hkj]; exact if_pos rfl⟩, length_leap j⟩
      · exact ⟨i', List.mem_map.mpr ⟨_, hi', if_neg hkj⟩, hlen'⟩
    have hfire : fire { a with code } j =
        { a with code := Bytes.overwrite code j.source (leap j).encode } := rfl
    rw [List.map_map] at h₂
    exact ⟨code', by rw [List.foldl_cons, hfire, hcode], h₂⟩

/-- Of sites that are apart at most one is at the place of an instruction. -/
lemma foldl_setAt {js : List JumpReplacement} (hjs : js.Pairwise fun j k => j.source ≠ k.source)
    (x : Nat × Inst) : js.foldl (fun x j => setAt j.source (leap j) x) x =
      match js.find? fun j => j.source == x.1 with
      | some j => (x.1, leap j)
      | none => x := by
  induction js generalizing x with
  | nil => rfl
  | cons j js ih =>
    obtain ⟨hj, hjs⟩ := List.pairwise_cons.mp hjs
    rw [List.foldl_cons, ih hjs, List.find?_cons]
    by_cases hx : x.1 = j.source
    · have hnone : (js.find? fun k => k.source == j.source) = none :=
        List.find?_eq_none.mpr fun k hk => by simpa using (hj k hk).symm
      simp [setAt, hx, hnone]
    · have hj : (j.source == x.1) = false := beq_eq_false_iff_ne.mpr (Ne.symm hx)
      rw [setAt, if_neg hx, hj]

section Step

variable {code : ByteArray} (hp : a.Places is) (hplaced : Placed 0 is stop)
  (h : Spelled code (is.map (a.now ps)) stop rest)
include hp hplaced h

lemma spelled_fill {c : Cache} {structure' : UInt64} {slot : Nat}
    (hf : a.fills? p = some (c, structure', slot)) :
    Spelled (Bytes.overwrite
      (Bytes.overwrite code (c.structureImm + Encoding.movImmField) (Encoding.uint64 structure'))
      (c.access + Encoding.displacementField)
      (Encoding.int32 (Int32.ofNat (Layout.inlineStorage + 8 * slot))))
      (is.map (a.now (ps ++ [p]))) stop rest := by
  obtain ⟨kind, site, rfl, hc, -⟩ := fills?_eq_some hf
  obtain ⟨base, expected, value, himm, haccess⟩ := hp.cache (Array.mem_of_getElem? hc)
  have hne := ne_access hplaced himm haccess
  obtain ⟨u, hu, hdisp⟩ := c.kind.encode_setDisp base value
  have himm' : (c.structureImm, Inst.movImm expected ((lastOf (a.structureBy c.structureImm) ps).getD 0)) ∈
      is.map (a.now ps) := List.mem_map_of_mem himm
  have h₁ := h.overwrite himm' (j := .movImm expected structure') (u := [0x05, expected.code])
    (v := Encoding.uint64 _) (w := Encoding.uint64 structure') (t := []) rfl
    (List.append_nil _).symm (by simp [Encoding.uint64])
  have hmem := List.mem_map_of_mem (f := a.now ps) haccess
  rw [now_access] at hmem
  have haccess' : (c.access, (c.kind.access base value).setDisp
      ((lastOf (a.displacementBy c.access) ps).getD (Int32.ofNat Layout.inlineStorage))) ∈
      (is.map (a.now ps)).map (setAt c.structureImm (.movImm expected structure')) :=
    List.mem_map.mpr ⟨_, hmem, if_neg hne⟩
  have h₂ := h₁.overwrite haccess' (hdisp _) (hdisp (Int32.ofNat (Layout.inlineStorage + 8 * slot)))
    (by simp [Encoding.int32])
  rw [hu, List.map_map, List.map_map,
    List.map_congr_left fun x hx => setAt_fill hplaced hf himm haccess hx] at h₂
  exact h₂

lemma spelled_link {c : Lowering.CallSite} {site : Nat} (hc : a.calls[site]? = some c)
    (target : UInt64) : Spelled (Bytes.overwrite code c.offset (Inst.call target).encode)
      (is.map (a.now (ps ++ [.link site target]))) stop rest := by
  have hcall := hp.call (Array.mem_of_getElem? hc)
  have hby (o : Nat) : a.targetBy o (.link site target) =
      if c.offset = o then some target else none := by rw [targetBy, hc, Option.bind_some]
  have hcall' : (c.offset, Inst.call ((lastOf (a.targetBy c.offset) ps).getD
      Thunk.virtualCall.address)) ∈ is.map (a.now ps) := List.mem_map_of_mem hcall
  have h₁ := h.replace hcall' (j := .call target) rfl
  rw [List.map_map, List.map_congr_left fun x hx => ?_] at h₁
  · exact h₁
  obtain ⟨o, i⟩ := x
  rw [Function.comp_apply]
  by_cases ho : o = c.offset
  · subst ho
    rw [hplaced.unique hx hcall]
    simp only [now, lastOf_concat, hby, if_pos, Option.some_or, Option.getD_some]
    exact if_pos rfl
  · rw [now_concat_of_none rfl rfl ((hby o).trans (if_neg (Ne.symm ho))) rfl]
    exact if_neg ho

lemma spelled_fire : ∃ code', Artifact.fireWatchpoints { a with code } = { a with code := code' } ∧
    Spelled code' (is.map (a.now (ps ++ [.fire]))) stop rest := by
  have hsites : ∀ j ∈ a.jumps.toList, ∃ i : Inst, (j.source, i) ∈ is.map (a.now ps) ∧
      i.encode.length = 5 := by
    intro j hj
    obtain ⟨id, hid⟩ := hp.jump (Array.mem_toList_iff.mp hj)
    exact ⟨_, List.mem_map_of_mem hid, length_now_watchpoint⟩
  obtain ⟨code', hcode, h₁⟩ := spelled_leaps (a := a) h hsites
  refine ⟨code', ?_, ?_⟩
  · rw [fireWatchpoints, ← Array.foldl_toList]
    exact hcode
  rw [List.map_map, List.map_congr_left fun x hx => ?_] at h₁
  · exact h₁
  obtain ⟨o, i⟩ := x
  rw [Function.comp_apply, foldl_setAt hp.jumps, Array.find?_toList]
  dsimp only [now]
  split
  · rename_i j hj
    have hjo : j.source = o := beq_iff_eq.mp (Array.find?_some hj :)
    obtain ⟨id, hid⟩ := hp.jump (Array.mem_of_find?_eq_some hj)
    rw [hjo] at hid
    rw [hplaced.unique hx hid]
    simp [leapBy, hj]
  · rename_i hnone
    have hleap : a.leapBy o .fire = none := by rw [leapBy, hnone, Option.map_none]
    exact (now_concat_of_none (x := (o, i)) rfl rfl rfl hleap).symm

lemma spelled_after (p : Patch) : ∃ code', after { a with code } p = { a with code := code' } ∧
    Spelled code' (is.map (a.now (ps ++ [p]))) stop rest := by
  have hsame (hs : ∀ o, a.structureBy o p = none) (hd : ∀ o, a.displacementBy o p = none)
      (ht : ∀ o, a.targetBy o p = none) (hl : ∀ o, a.leapBy o p = none) :
      Spelled code (is.map (a.now (ps ++ [p]))) stop rest := by
    rwa [List.map_congr_left fun x _ =>
      now_concat_of_none (a := a) (p := p) (x := x) (hs x.1) (hd x.1) (ht x.1) (hl x.1)]
  cases p with
  | cache kind site structure' slot =>
    rcases hf : a.fills? (.cache kind site structure' slot) with _ | ⟨c, s, n⟩
    · obtain ⟨e, he⟩ := apply_cache_of_none (a := { a with code }) hf
      refine ⟨code, after_error he, hsame (fun o => ?_) (fun o => ?_) (fun _ => rfl) fun _ => rfl⟩
      · rw [structureBy, hf, Option.bind_none]
      · rw [displacementBy, hf, Option.bind_none]
    · have hf' : fills? { a with code } (.cache kind site structure' slot) = some (c, s, n) := hf
      exact ⟨_, after_ok ((apply_fills hf').trans (by simp only [patch])), spelled_fill hp hplaced h hf⟩
  | link site target =>
    rcases hc : a.calls[site]? with _ | c
    · have he : apply { a with code } (.link site target) = .error (.noSuchCall site) := by
        simp only [apply, linkCall, hc]
      refine ⟨code, after_error he, hsame (fun _ => rfl) (fun _ => rfl) (fun o => ?_) fun _ => rfl⟩
      rw [targetBy, hc, Option.bind_none]
    · have he : apply { a with code } (.link site target) =
          .ok { a with code := Bytes.overwrite code c.offset (Inst.call target).encode } := by
        simp only [apply, linkCall, hc, patch]
      exact ⟨_, after_ok he, spelled_link hp hplaced h hc target⟩
  | fire =>
    obtain ⟨code', hcode, hs⟩ := spelled_fire hp hplaced h
    exact ⟨code', after_ok (congrArg Except.ok hcode), hs⟩

end Step

lemma afterAll_concat (a : Artifact) (ps : List Patch) (p : Patch) :
    a.afterAll (ps ++ [p]) = (a.afterAll ps).after p := List.foldl_concat ..

/-- After any patches code is spelled by what has become of its instructions. -/
lemma spelled_afterAll (hp : a.Places is) (h : Spelled a.code is stop rest) (ps : List Patch) :
    ∃ code', a.afterAll ps = { a with code := code' } ∧
      Spelled code' (is.map (a.now ps)) stop rest := by
  induction ps using List.reverseRecOn with
  | nil => exact ⟨a.code, rfl, by rwa [List.map_congr_left fun x _ => now_nil x, List.map_id']⟩
  | append_singleton ps p ih =>
    obtain ⟨code, hcode, hs⟩ := ih
    rw [afterAll_concat, hcode]
    exact spelled_after hp h.placed hs p

/-! Patches of different sites -/

lemma lastOf_swap {β : Type} {f : Patch → Option β} (h : f p = none ∨ f q = none) :
    lastOf f (ps ++ [p] ++ [q]) = lastOf f (ps ++ [q] ++ [p]) := by
  simp only [lastOf_concat]
  rcases h with h | h <;> simp [h]

/-- Patches that reach one instruction are of one site. -/
lemma now_swap (hp : a.Places is) (h : p.site ≠ q.site) (x : Nat × Inst) :
    a.now (ps ++ [p] ++ [q]) x = a.now (ps ++ [q] ++ [p]) x := by
  have hfills : ∀ o, (a.structureBy o p = none ∨ a.structureBy o q = none) ∧
      (a.displacementBy o p = none ∨ a.displacementBy o q = none) := by
    intro o
    unfold structureBy displacementBy
    rcases hf : a.fills? p with _ | ⟨c, s, n⟩
    · exact ⟨.inl rfl, .inl rfl⟩
    rcases hf' : a.fills? q with _ | ⟨d, s', n'⟩
    · exact ⟨.inr rfl, .inr rfl⟩
    obtain ⟨_, j, rfl, hc, -⟩ := fills?_eq_some hf
    obtain ⟨_, k, rfl, hd, -⟩ := fills?_eq_some hf'
    have hne : ¬(c.structureImm = d.structureImm ∨ c.access = d.access) :=
      fun he => h (congrArg PatchSite.cache (hp.caches hc hd he))
    simp only [Option.bind_some]
    constructor
    · by_cases ho : c.structureImm = o
      · exact .inr (if_neg fun he => hne (.inl (ho.trans he.symm)))
      · exact .inl (if_neg ho)
    · by_cases ho : c.access = o
      · exact .inr (if_neg fun he => hne (.inr (ho.trans he.symm)))
      · exact .inl (if_neg ho)
  have htarget : ∀ o, a.targetBy o p = none ∨ a.targetBy o q = none := by
    intro o
    by_contra! hboth
    obtain ⟨⟨t, ht⟩, u, hu⟩ := hboth.imp Option.ne_none_iff_exists'.mp Option.ne_none_iff_exists'.mp
    unfold targetBy at ht hu
    split at ht
    · split at hu
      · obtain ⟨c, hc, hco⟩ := Option.bind_eq_some_iff.mp ht
        obtain ⟨d, hd, hdo⟩ := Option.bind_eq_some_iff.mp hu
        split at hco
        · rename_i hoc
          split at hdo
          · rename_i hod
            exact h (congrArg PatchSite.call (hp.calls hc hd (hoc.trans hod.symm)))
          · cases hdo
        · cases hco
      · cases hu
    · cases ht
  have hleap : ∀ o, a.leapBy o p = none ∨ a.leapBy o q = none := by
    intro o
    unfold leapBy
    cases p with
    | fire =>
      cases q with
      | fire => exact absurd rfl h
      | _ => exact .inr rfl
    | _ => exact .inl rfl
  rw [now, now, lastOf_swap (hfills x.1).1, lastOf_swap (hfills x.1).2, lastOf_swap (htarget x.1),
    lastOf_swap (hleap x.1)]

lemma afterAll_swap (hp : a.Places is) (hs : Spelled a.code is stop rest) (h : p.site ≠ q.site) :
    a.afterAll (ps ++ [p] ++ [q]) = a.afterAll (ps ++ [q] ++ [p]) := by
  obtain ⟨code, hcode, hs₁⟩ := spelled_afterAll hp hs (ps ++ [p] ++ [q])
  obtain ⟨code', hcode', hs₂⟩ := spelled_afterAll hp hs (ps ++ [q] ++ [p])
  rw [List.map_congr_left fun x _ => now_swap hp h x] at hs₁
  rw [hcode, hcode', hs₁.code_unique hs₂]

end Artifact

end Speculation
