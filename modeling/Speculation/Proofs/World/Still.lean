import Speculation.Execution.Step
import Speculation.Proofs.Execution.Steps
import Mathlib.Tactic.Lemma

/-!
Running code changes no code.

Whatever a step of the run-time system does, the bytes of all code stay as they are, and so do the
sites that a watchpoint patches; code that is installed stays installed. Only the counts of exits
change.
-/

namespace Speculation

/-- The code and its sites are the same, and exits have the same stubs. -/
structure Artifact.SameCode (a a' : Artifact) : Prop where
  base : a'.base = a.base
  code : a'.code = a.code
  jumps : a'.jumps = a.jumps
  stubs : a'.exits.map ExitSite.stub = a.exits.map ExitSite.stub

namespace Artifact.SameCode

variable {a a' a'' : Artifact}

lemma refl (a : Artifact) : a.SameCode a := ⟨rfl, rfl, rfl, rfl⟩

lemma symm (h : a.SameCode a') : a'.SameCode a :=
  ⟨h.base.symm, h.code.symm, h.jumps.symm, h.stubs.symm⟩

lemma trans (h : a.SameCode a') (h' : a'.SameCode a'') : a.SameCode a'' :=
  ⟨h'.base.trans h.base, h'.code.trans h.code, h'.jumps.trans h.jumps, h'.stubs.trans h.stubs⟩

end Artifact.SameCode

/-- From `w` to `w'` the code has stayed; and if `q`, none was installed. -/
structure World.Stays (q : Prop) (w w' : World) : Prop where
  valid : w'.noMasquerades = w.noMasquerades
  size : w'.artifacts.size = w.artifacts.size
  code {i : Nat} {a : Artifact} (h : w.artifacts[i]? = some a) :
    ∃ a', w'.artifacts[i]? = some a' ∧ a.SameCode a'
  installed {c : Nat} (h : c ∈ w.installed) : c ∈ w'.installed
  same (hq : q) : w'.installed = w.installed

namespace World.Stays

variable {q : Prop} {w w' w'' : World}

lemma of_eq (hv : w'.noMasquerades = w.noMasquerades) (ha : w'.artifacts = w.artifacts)
    (hi : w'.installed = w.installed) : Stays q w w' :=
  ⟨hv, by rw [ha], fun h => ⟨_, ha ▸ h, .refl _⟩, fun h => hi ▸ h, fun _ => hi⟩

lemma refl (w : World) : Stays q w w := of_eq rfl rfl rfl

lemma trans (h : Stays q w w') (h' : Stays q w' w'') : Stays q w w'' where
  valid := h'.valid.trans h.valid
  size := h'.size.trans h.size
  code ha := by
    obtain ⟨a', ha', hs⟩ := h.code ha
    obtain ⟨a'', ha'', hs'⟩ := h'.code ha'
    exact ⟨a'', ha'', hs.trans hs'⟩
  installed hc := h'.installed (h.installed hc)
  same hq := (h'.same hq).trans (h.same hq)

lemma weaken (h : Stays q w w') : Stays False w w' :=
  ⟨h.valid, h.size, h.code, h.installed, False.elim⟩

end World.Stays

def World.after {α : Type} (w : World) (x : Run α) : World := (x.run.run w).2

/-- The step leaves the code as it is; and if `q`, it installs none. -/
def StillIf {α : Type} (q : Prop) (x : Run α) : Prop := ∀ w : World, w.Stays q (w.after x)

abbrev Still {α : Type} (x : Run α) : Prop := StillIf False x

namespace Still

open World Semantics Execution

variable {α β : Type} {q : Prop}

@[simp] lemma pure (a : α) : StillIf q (pure a) := fun w => .refl w

@[simp] lemma throw (f : Fault) : StillIf q (throw f : Run α) := fun w => .refl w

/-- What follows a step starts with its result in the world it has left. -/
lemma bind_of {x : Run β} {f : β → Run α} {w : World} (hx : w.Stays q (w.after x))
    (hf : ∀ b w', x.run.run w = (.ok b, w') → w.Stays q w' → w'.Stays q (w'.after (f b))) :
    w.Stays q (w.after (x >>= f)) := by
  simp only [World.after, ExceptT.run_bind, StateT.run_bind] at hx ⊢
  rcases hw : x.run.run w with ⟨e | b, w'⟩
  · rw [hw] at hx
    exact hx
  · rw [hw] at hx
    exact hx.trans (hf b w' hw hx)

lemma bind {x : Run β} {f : β → Run α} (hx : StillIf q x) (hf : ∀ b, StillIf q (f b)) :
    StillIf q (x >>= f) :=
  fun w => bind_of (hx w) fun b w' _ _ => hf b w'

@[simp] lemma map {x : Run β} {f : β → α} (hx : StillIf q x) : StillIf q (f <$> x) := by
  rw [map_eq_pure_bind]
  exact bind hx fun _ => pure _

lemma ite {c : Prop} [Decidable c] {x y : Run α} (hx : StillIf q x) (hy : StillIf q y) :
    StillIf q (if c then x else y) := by
  split
  · exact hx
  · exact hy

lemma tryCatch {x : Run α} {h : Fault → Run α} (hx : StillIf q x) (hh : ∀ e, StillIf q (h e)) :
    StillIf q (tryCatch x h) := by
  intro w
  have hw := hx w
  have hrun : (MonadExcept.tryCatch x h : Run α).run.run w =
      match x.run.run w with
      | (.ok a, w') => (.ok a, w')
      | (.error e, w') => (h e).run.run w' := by
    show (ExceptT.tryCatch x h).run.run w = _
    simp only [ExceptT.tryCatch, ExceptT.run, ExceptT.mk, Bind.bind, StateT.bind, StateT.run]
    rcases x w with ⟨e | a, w'⟩ <;> rfl
  unfold World.after at hw ⊢
  rw [hrun]
  rcases hx' : x.run.run w with ⟨e | a, w'⟩
  · rw [hx'] at hw
    exact hw.trans (hh e w')
  · rw [hx'] at hw
    exact hw

@[simp] lemma get : StillIf q (get : Run World) := fun w => .refl w

lemma modifyGet {f : World → α × World} (hv : ∀ w, (f w).2.noMasquerades = w.noMasquerades)
    (ha : ∀ w, (f w).2.artifacts = w.artifacts) (hi : ∀ w, (f w).2.installed = w.installed) :
    StillIf q (modifyGet f : Run α) :=
  fun w => .of_eq (hv w) (ha w) (hi w)

lemma modify {f : World → World} (hv : ∀ w, (f w).noMasquerades = w.noMasquerades)
    (ha : ∀ w, (f w).artifacts = w.artifacts) (hi : ∀ w, (f w).installed = w.installed) :
    StillIf q (modify f : Run PUnit) :=
  modifyGet hv ha hi

@[simp] lemma unsupported (u : Unsupported) : StillIf q (unsupported u : Run α) := throw _

@[simp] lemma breach (b : Breach) : StillIf q (breach b : Run α) := throw _

/-! ### Memory -/

@[simp] lemma offset (a : UInt64) (n : Nat) : StillIf q (offset a n) := ite (pure _) (breach _)

@[simp] lemma readWord (n : Nat) (a : UInt64) : StillIf q (readWord n a) := by
  refine bind get fun w => ?_
  split <;> simp

@[simp] lemma read8 (a : UInt64) : StillIf q (read8 a) := bind (readWord _ _) fun _ => pure _

@[simp] lemma read16 (a : UInt64) : StillIf q (read16 a) := bind (readWord _ _) fun _ => pure _

@[simp] lemma read32 (a : UInt64) : StillIf q (read32 a) := bind (readWord _ _) fun _ => pure _

@[simp] lemma read64 (a : UInt64) : StillIf q (read64 a) := bind (readWord _ _) fun _ => pure _

@[simp] lemma readValue (a : UInt64) : StillIf q (readValue a) := bind (read64 _) fun _ => pure _

lemma changeMemory (f : Memory → α × Memory) : StillIf q (MonadState.modifyGet fun w =>
    let (a, m) := f w.memory
    (a, { w with memory := m }) : Run α) :=
  modifyGet (fun _ => rfl) (fun _ => rfl) fun _ => rfl

@[simp] lemma writeWord (n : Nat) (a : UInt64) (x : Nat) : StillIf q (writeWord n a x) :=
  bind (changeMemory fun m => m.write n a x) fun _ => ite (pure _) (throw _)

@[simp] lemma write8 (a : UInt64) (x : UInt8) : StillIf q (write8 a x) := writeWord _ _ _

@[simp] lemma write16 (a : UInt64) (x : UInt16) : StillIf q (write16 a x) := writeWord _ _ _

@[simp] lemma write32 (a : UInt64) (x : UInt32) : StillIf q (write32 a x) := writeWord _ _ _

@[simp] lemma write64 (a : UInt64) (x : UInt64) : StillIf q (write64 a x) := writeWord _ _ _

@[simp] lemma writeValue (a : UInt64) (v : Value) : StillIf q (writeValue a v) := write64 _ _

@[simp] lemma alloc (n : Nat) : StillIf q (alloc n) := changeMemory fun m => m.alloc n

@[simp] lemma writeWords (n : Nat) (a : UInt64) (xs : List Nat) : StillIf q (writeWords n a xs) := by
  induction xs generalizing a with
  | nil => exact pure _
  | cons x xs ih => exact bind (writeWord _ _ _) fun _ => ih _

@[simp] lemma artifact (code : Nat) : StillIf q (artifact code) := by
  refine bind get fun w => ?_
  split <;> simp

@[simp] lemma codeBlock (block : Nat) : StillIf q (codeBlock block) := by
  refine bind get fun w => ?_
  split <;> simp

@[simp] lemma install (code : Nat) : Still (install code) := by
  intro w
  have hw : w.after (World.install code) = if w.installed.contains code then w
      else { w with installed := w.installed.push code } := rfl
  rw [hw]
  split
  · exact .refl w
  · exact ⟨rfl, rfl, fun h => ⟨_, h, .refl _⟩, fun h => Array.mem_push_of_mem _ h, False.elim⟩

/-! ### Objects -/

@[simp] lemma cellAddress (v : Value) : StillIf q (cellAddress v) := by
  unfold World.cellAddress
  with_reducible repeat' first | refine bind ?_ fun _ => ?_ | refine ite ?_ ?_ | split
  all_goals simp

@[simp] lemma newStructure (t : CellType) (i f : UInt8) (p : Value) (ns : List String) :
    StillIf q (newStructure t i f p ns) := by
  unfold World.newStructure
  refine bind (alloc _) fun _ => bind (modifyGet (fun _ => rfl) (fun _ => rfl) fun _ => rfl)
    fun _ => ?_
  with_reducible repeat' refine bind ?_ fun _ => ?_
  any_goals simp
  exact modify (fun _ => rfl) (fun _ => rfl) fun _ => rfl

@[simp] lemma structureType (s : UInt64) : StillIf q (structureType s) := by
  unfold World.structureType
  with_reducible repeat' first | refine bind ?_ fun _ => ?_ | refine ite ?_ ?_ | split
  all_goals simp

@[simp] lemma structureIndexing (s : UInt64) : StillIf q (structureIndexing s) := by
  unfold World.structureIndexing
  with_reducible repeat' first | refine bind ?_ fun _ => ?_ | refine ite ?_ ?_ | split
  all_goals simp

@[simp] lemma structureFlags (s : UInt64) : StillIf q (structureFlags s) := by
  unfold World.structureFlags
  with_reducible repeat' first | refine bind ?_ fun _ => ?_ | refine ite ?_ ?_ | split
  all_goals simp

@[simp] lemma structurePrototype (s : UInt64) : StillIf q (structurePrototype s) := by
  unfold World.structurePrototype
  with_reducible repeat' first | refine bind ?_ fun _ => ?_ | refine ite ?_ ?_ | split
  all_goals simp

@[simp] lemma deriveStructure (s : UInt64) (ns : List String) (i f : UInt8) :
    StillIf q (deriveStructure s ns i f) := by
  unfold World.deriveStructure
  with_reducible repeat' first | refine bind ?_ fun _ => ?_ | refine ite ?_ ?_ | split
  all_goals simp

@[simp] lemma newCell (s : UInt64) : StillIf q (newCell s) := by
  unfold World.newCell
  with_reducible repeat' first | refine bind ?_ fun _ => ?_ | refine ite ?_ ?_ | split
  all_goals simp

@[simp] lemma structureOf (v : Value) : StillIf q (structureOf v) := by
  unfold World.structureOf
  with_reducible repeat' first | refine bind ?_ fun _ => ?_ | refine ite ?_ ?_ | split
  all_goals simp

@[simp] lemma setStructure (v : Value) (s : UInt64) : StillIf q (setStructure v s) := by
  unfold World.setStructure
  with_reducible repeat' first | refine bind ?_ fun _ => ?_ | refine ite ?_ ?_ | split
  all_goals simp

@[simp] lemma cellType (v : Value) : StillIf q (cellType v) := by
  unfold World.cellType
  with_reducible repeat' first | refine bind ?_ fun _ => ?_ | refine ite ?_ ?_ | split
  all_goals simp

@[simp] lemma indexing (v : Value) : StillIf q (indexing v) := by
  unfold World.indexing
  with_reducible repeat' first | refine bind ?_ fun _ => ?_ | refine ite ?_ ?_ | split
  all_goals simp

@[simp] lemma flags (v : Value) : StillIf q (flags v) := by
  unfold World.flags
  with_reducible repeat' first | refine bind ?_ fun _ => ?_ | refine ite ?_ ?_ | split
  all_goals simp

@[simp] lemma prototype (v : Value) : StillIf q (prototype v) := by
  unfold World.prototype
  with_reducible repeat' first | refine bind ?_ fun _ => ?_ | refine ite ?_ ?_ | split
  all_goals simp

@[simp] lemma storage (v : Value) : StillIf q (storage v) := by
  unfold World.storage
  with_reducible repeat' first | refine bind ?_ fun _ => ?_ | refine ite ?_ ?_ | split
  all_goals simp

@[simp] lemma setStorage (v : Value) (a : UInt64) : StillIf q (setStorage v a) := by
  unfold World.setStorage
  with_reducible repeat' first | refine bind ?_ fun _ => ?_ | refine ite ?_ ?_ | split
  all_goals simp

@[simp] lemma cellLength (v : Value) : StillIf q (cellLength v) := by
  unfold World.cellLength
  with_reducible repeat' first | refine bind ?_ fun _ => ?_ | refine ite ?_ ?_ | split
  all_goals simp

@[simp] lemma setCellLength (v : Value) (n : UInt32) : StillIf q (setCellLength v n) := by
  unfold World.setCellLength
  with_reducible repeat' first | refine bind ?_ fun _ => ?_ | refine ite ?_ ?_ | split
  all_goals simp

@[simp] lemma newObject (p : Value) : StillIf q (newObject p) := by
  unfold World.newObject
  with_reducible repeat' first | refine bind ?_ fun _ => ?_ | refine ite ?_ ?_ | split
  any_goals simp
  all_goals exact modify (fun _ => rfl) (fun _ => rfl) fun _ => rfl

@[simp] lemma addFlag (v : Value) (f : UInt8) : StillIf q (addFlag v f) := by
  unfold World.addFlag
  with_reducible repeat' first | refine bind ?_ fun _ => ?_ | refine ite ?_ ?_ | split
  all_goals simp

@[simp] lemma transition (s : UInt64) (name : String) : StillIf q (transition s name) := by
  unfold World.transition
  with_reducible repeat' first | refine bind ?_ fun _ => ?_ | refine ite ?_ ?_ | split
  any_goals simp
  all_goals exact modify (fun _ => rfl) (fun _ => rfl) fun _ => rfl

@[simp] lemma putProperty (o : Value) (name : String) (v : Value) :
    StillIf q (putProperty o name v) := by
  unfold World.putProperty
  with_reducible repeat' first | refine bind ?_ fun _ => ?_ | refine ite ?_ ?_ | split
  all_goals simp

@[simp] lemma count32 (n : Nat) (what : Counted) : StillIf q (count32 n what) := by
  unfold World.count32
  with_reducible repeat' first | refine bind ?_ fun _ => ?_ | refine ite ?_ ?_ | split
  all_goals simp

@[simp] lemma newElements (n : Nat) : StillIf q (newElements n) := by
  unfold World.newElements
  with_reducible repeat' first | refine bind ?_ fun _ => ?_ | refine ite ?_ ?_ | split
  all_goals simp

@[simp] lemma elementBits (s : ArrayShape) (v : Value) : StillIf q (elementBits s v) := by
  unfold World.elementBits
  with_reducible repeat' first | refine bind ?_ fun _ => ?_ | refine ite ?_ ?_ | split
  all_goals simp

@[simp] lemma writeElements (s : ArrayShape) (a : UInt64) (vs : List Value) :
    StillIf q (writeElements s a vs) := by
  induction vs generalizing a with
  | nil => exact pure _
  | cons v vs ih =>
    refine bind (elementBits _ _) fun _ => bind (write64 _ _) fun _ => ?_
    split
    · exact pure _
    · exact bind (offset _ _) fun _ => ih _

@[simp] lemma newArray (s : ArrayShape) (vs : List Value) : StillIf q (newArray s vs) := by
  unfold World.newArray
  with_reducible repeat' first | refine bind ?_ fun _ => ?_ | refine ite ?_ ?_ | split
  all_goals simp

@[simp] lemma arrayLength (v : Value) : StillIf q (arrayLength v) := by
  unfold World.arrayLength
  with_reducible repeat' first | refine bind ?_ fun _ => ?_ | refine ite ?_ ?_ | split
  all_goals simp

@[simp] lemma arrayGet (v : Value) (i : Nat) : StillIf q (arrayGet v i) := by
  unfold World.arrayGet
  with_reducible repeat' first | refine bind ?_ fun _ => ?_ | refine ite ?_ ?_ | split
  all_goals simp

@[simp] lemma arrayElements (v : Value) (i n : Nat) : StillIf q (arrayElements v i n) := by
  induction n generalizing i with
  | zero => exact pure _
  | succ n ih => exact bind (arrayGet _ _) fun _ => bind (ih _) fun _ => pure _

@[simp] lemma setIndexing (v : Value) (i : UInt8) : StillIf q (setIndexing v i) := by
  unfold World.setIndexing
  with_reducible repeat' first | refine bind ?_ fun _ => ?_ | refine ite ?_ ?_ | split
  any_goals simp
  all_goals exact modify (fun _ => rfl) (fun _ => rfl) fun _ => rfl

@[simp] lemma ensureShape (v : Value) (s : ArrayShape) : StillIf q (ensureShape v s) := by
  unfold World.ensureShape
  with_reducible repeat' first | refine bind ?_ fun _ => ?_ | refine ite ?_ ?_ | split
  all_goals simp

@[simp] lemma stringStructure : StillIf q stringStructure := by
  unfold World.stringStructure
  with_reducible repeat' first | refine bind ?_ fun _ => ?_ | refine ite ?_ ?_ | split
  any_goals simp
  all_goals exact modify (fun _ => rfl) (fun _ => rfl) fun _ => rfl

@[simp] lemma newStringOfUnits (us : List UInt16) : StillIf q (newStringOfUnits us) := by
  unfold World.newStringOfUnits
  with_reducible repeat' first | refine bind ?_ fun _ => ?_ | refine ite ?_ ?_ | split
  all_goals simp

@[simp] lemma newString (s : String) : StillIf q (newString s) := by
  unfold World.newString
  simp

@[simp] lemma readUnits (a : UInt64) (n : Nat) : StillIf q (readUnits a n) := by
  induction n generalizing a with
  | zero => exact pure _
  | succ n ih =>
    refine bind (read16 _) fun _ => ?_
    split
    · exact pure _
    · exact bind (offset _ _) fun _ => bind (ih _) fun _ => pure _

@[simp] lemma stringUnits (v : Value) : StillIf q (stringUnits v) := by
  unfold World.stringUnits
  with_reducible repeat' first | refine bind ?_ fun _ => ?_ | refine ite ?_ ?_ | split
  all_goals simp

@[simp] lemma stringValue (v : Value) : StillIf q (stringValue v) := by
  unfold World.stringValue
  with_reducible repeat' first | refine bind ?_ fun _ => ?_ | refine ite ?_ ?_ | split
  all_goals simp

@[simp] lemma isString (v : Value) : StillIf q (isString v) := by
  unfold World.isString
  refine ite (bind (tryCatch ?_ fun e => ?_) fun r => ?_) (pure _)
  · exact bind (cellType v) fun _ => pure _
  · split
    · exact bind (breach _) fun _ => pure _
    · exact pure _
  · cases r <;> exact pure _

@[simp] lemma functionOf (v : Value) : StillIf q (functionOf v) := by
  unfold World.functionOf
  with_reducible repeat' first | refine bind ?_ fun _ => ?_ | refine ite ?_ ?_ | split
  all_goals simp

@[simp] lemma lookupProperty (name : String) (fuel : Nat) (v : Value) :
    StillIf q (lookupProperty name fuel v) := by
  induction fuel generalizing v with
  | zero => exact throw _
  | succ fuel ih =>
    unfold World.lookupProperty
    with_reducible repeat' first | refine bind ?_ fun _ => ?_ | refine ite ?_ ?_ | split
    all_goals simp [ih]

@[simp] lemma getProperty (v : Value) (name : String) : StillIf q (getProperty v name) := by
  unfold World.getProperty
  with_reducible repeat' first | refine bind ?_ fun _ => ?_ | refine ite ?_ ?_ | split
  all_goals simp

@[simp] lemma contextField (n : Nat) : StillIf q (contextField n) := by
  unfold World.contextField
  with_reducible repeat' first | refine bind ?_ fun _ => ?_ | refine ite ?_ ?_ | split
  all_goals simp

@[simp] lemma stackLimit : StillIf q stackLimit := by
  unfold World.stackLimit
  with_reducible repeat' first | refine bind ?_ fun _ => ?_ | refine ite ?_ ?_ | split
  all_goals simp

@[simp] lemma pendingException : StillIf q pendingException := by
  unfold World.pendingException
  with_reducible repeat' first | refine bind ?_ fun _ => ?_ | refine ite ?_ ?_ | split
  all_goals simp

@[simp] lemma setException (v : Value) : StillIf q (setException v) := by
  unfold World.setException
  with_reducible repeat' first | refine bind ?_ fun _ => ?_ | refine ite ?_ ?_ | split
  all_goals simp

@[simp] lemma clearException : StillIf q clearException := by
  unfold World.clearException
  with_reducible repeat' first | refine bind ?_ fun _ => ?_ | refine ite ?_ ?_ | split
  all_goals simp

@[simp] lemma throwTypeError (s : String) : StillIf q (throwTypeError s) := by
  unfold World.throwTypeError
  with_reducible repeat' first | refine bind ?_ fun _ => ?_ | refine ite ?_ ?_ | split
  all_goals simp

@[simp] lemma throwStackOverflow : StillIf q throwStackOverflow := by
  unfold World.throwStackOverflow
  with_reducible repeat' first | refine bind ?_ fun _ => ?_ | refine ite ?_ ?_ | split
  all_goals simp

@[simp] lemma singleCharacter? (u : UInt16) : StillIf q (singleCharacter? u) := by
  unfold World.singleCharacter?
  with_reducible repeat' first | refine bind ?_ fun _ => ?_ | refine ite ?_ ?_ | split
  all_goals simp

/-! ### Operations of the language -/

@[simp] lemma toNumber (v : Value) : StillIf q (toNumber v) := by
  unfold Semantics.toNumber
  with_reducible repeat' first | refine bind ?_ fun _ => ?_ | refine ite ?_ ?_ | split
  all_goals simp

@[simp] lemma isMasquerader (v : Value) : StillIf q (isMasquerader v) := by
  unfold Semantics.isMasquerader
  with_reducible repeat' first | refine bind ?_ fun _ => ?_ | refine ite ?_ ?_ | split
  all_goals simp

@[simp] lemma toBoolean (v : Value) : StillIf q (toBoolean v) := by
  unfold Semantics.toBoolean
  with_reducible repeat' first | refine bind ?_ fun _ => ?_ | refine ite ?_ ?_ | split
  all_goals simp

@[simp] lemma toText (v : Value) : StillIf q (toText v) := by
  unfold Semantics.toText
  with_reducible repeat' first | refine bind ?_ fun _ => ?_ | refine ite ?_ ?_ | split
  all_goals simp

@[simp] lemma isUndefinedLike (v : Value) : StillIf q (isUndefinedLike v) := by
  unfold Semantics.isUndefinedLike
  with_reducible repeat' first | refine bind ?_ fun _ => ?_ | refine ite ?_ ?_ | split
  all_goals simp

@[simp] lemma bothStrings (a b : Value) : StillIf q (bothStrings a b) := by
  unfold Semantics.bothStrings
  with_reducible repeat' first | refine bind ?_ fun _ => ?_ | refine ite ?_ ?_ | split
  all_goals simp

@[simp] lemma strictEq (a b : Value) : StillIf q (strictEq a b) := by
  unfold Semantics.strictEq
  with_reducible repeat' first | refine bind ?_ fun _ => ?_ | refine ite ?_ ?_ | split
  all_goals simp

@[simp] lemma isObject (v : Value) : StillIf q (isObject v) := by
  unfold Semantics.isObject
  with_reducible repeat' first | refine bind ?_ fun _ => ?_ | refine ite ?_ ?_ | split
  all_goals simp

@[simp] lemma looseEq (a b : Value) : StillIf q (looseEq a b) := by
  unfold Semantics.looseEq
  with_reducible repeat' first | refine bind ?_ fun _ => ?_ | refine ite ?_ ?_ | split
  all_goals simp

@[simp] lemma order? (a b : Value) : StillIf q (order? a b) := by
  unfold Semantics.order?
  with_reducible repeat' first | refine bind ?_ fun _ => ?_ | refine ite ?_ ?_ | split
  all_goals simp

@[simp] lemma compareValues (op : Comparison) (a b : Value) : StillIf q (compareValues op a b) := by
  unfold Semantics.compareValues
  with_reducible repeat' first | refine bind ?_ fun _ => ?_ | refine ite ?_ ?_ | split
  all_goals simp

@[simp] lemma addValues (a b : Value) : StillIf q (addValues a b) := by
  unfold Semantics.addValues
  with_reducible repeat' first | refine bind ?_ fun _ => ?_ | refine ite ?_ ?_ | split
  all_goals simp

@[simp] lemma arith (op : GenericArith) (a b : Value) : StillIf q (arith op a b) := by
  unfold Semantics.arith
  with_reducible repeat' first | refine bind ?_ fun _ => ?_ | refine ite ?_ ?_ | split
  all_goals simp

@[simp] lemma getNamed (v : Value) (name : String) : StillIf q (getNamed v name) := by
  unfold Semantics.getNamed
  with_reducible repeat' first | refine bind ?_ fun _ => ?_ | refine ite ?_ ?_ | split
  all_goals simp

@[simp] lemma putNamed (v : Value) (name : String) (x : Value) : StillIf q (putNamed v name x) := by
  unfold Semantics.putNamed
  with_reducible repeat' first | refine bind ?_ fun _ => ?_ | refine ite ?_ ?_ | split
  all_goals simp

@[simp] lemma foldlM {f : β → α → Run β} (hf : ∀ b a, StillIf q (f b a)) (xs : List α) (b : β) :
    StillIf q (xs.foldlM f b) := by
  induction xs generalizing b with
  | nil => exact pure _
  | cons x xs ih => exact bind (hf _ _) fun _ => ih _

@[simp] lemma runHost (f : HostFunction) (v : Value) (vs : List Value) :
    StillIf q (runHost f v vs) := by
  cases f
  · exact pure _
  · exact pure _
  · exact foldlM (fun _ _ => addValues _ _) _ _
  · exact bind (setException _) fun _ => pure _
  · exact unsupported _

/-! ### Execution -/

@[simp] lemma recover (m : Registers) (r : Recovery) : StillIf q (recover m r) := by
  unfold Execution.recover
  with_reducible repeat' first | refine bind ?_ fun _ => ?_ | refine ite ?_ ?_ | split
  all_goals simp

@[simp] lemma mapM {f : α → Run β} (hf : ∀ a, StillIf q (f a)) (xs : Array α) : StillIf q (xs.mapM f) := by
  have hlist : ∀ xs : List α, StillIf q (xs.mapM f) := by
    intro xs
    induction xs with
    | nil => exact pure _
    | cons x xs ih =>
      rw [List.mapM_cons]
      exact bind (hf _) fun _ => bind ih fun _ => pure _
  rw [Array.mapM_eq_mapM_toList]
  exact map (hlist _)

/-- Counting an exit leaves the code as it is. -/
lemma sameCode_noteExit {a a' : Artifact} {i : Nat} {often : Bool}
    (h : a.noteExit i = .ok (often, a')) : a.SameCode a' := by
  rcases hx : a.exits[i]? with _ | x <;>
    simp only [Artifact.noteExit, Breach.get, hx, Bind.bind, Except.bind] at h
  · cases h
  · split at h
    · cases h
    · cases h
      refine ⟨rfl, rfl, rfl, ?_⟩
      obtain ⟨hi, rfl⟩ := Array.getElem?_eq_some_iff.mp hx
      refine Array.ext_getElem? fun j => ?_
      by_cases hij : i = j
      · subst hij
        simp [hi]
      · simp [hij]

/-- Leaving code counts the exit. -/
@[simp] lemma leave (m : Registers) (code : Nat) : StillIf q (leave m code) := by
  intro w
  refine bind_of (artifact code w) fun a w' ha _ => ?_
  obtain ⟨rfl, ha⟩ : w' = w ∧ w.artifacts[code]? = some a := by
    rcases hc : w.artifacts[code]? with _ | b
    · have hnone : runs (World.artifact code) w = (.error (.breach .outOfRange), w) := by
        rw [World.artifact, runs_bind_of_ok runs_get, hc]
        rfl
      cases hnone.symm.trans ha
    · cases (runs_artifact hc).symm.trans ha
      exact ⟨rfl, rfl⟩
  split
  · exact unsupported _ _
  dsimp only
  split
  · exact breach _ _
  · refine bind_of (mapM (recover _) _ _) fun _ w₁ _ h₁ => ?_
    refine bind_of (mapM (recover _) _ _) fun _ w₂ _ h₂ => ?_
    split
    · exact breach _ _
    · rename_i often a' hn
      refine bind_of ⟨rfl, Array.size_modify, fun {i b} hb => ?_, id,
        fun _ => rfl⟩ fun _ w₃ _ _ => .refl w₃
      change ∃ c, (w₂.artifacts.modify code fun _ => a')[i]? = some c ∧ b.SameCode c
      rw [Array.getElem?_modify, hb]
      by_cases hi : code = i
      · -- the code that is left has been the same all along
        subst hi
        obtain ⟨b', hb', hs⟩ := (h₁.trans h₂).code ha
        rw [hb] at hb'
        cases hb'
        exact ⟨a', by simp, hs.symm.trans (sameCode_noteExit hn)⟩
      · exact ⟨b, by simp [hi], .refl b⟩

@[simp] lemma copyWords (a b : UInt64) (n : Nat) : StillIf q (copyWords a b n) := by
  induction n generalizing a b with
  | zero => exact pure _
  | succ n ih =>
    refine bind (read64 _) fun _ => bind (write64 _ _) fun _ => ?_
    split
    · exact pure _
    · exact bind (offset _ _) fun _ => bind (offset _ _) fun _ => ih _ _

@[simp] lemma fillUndefined (a : UInt64) (n : Nat) : StillIf q (fillUndefined a n) := by
  induction n generalizing a with
  | zero => exact pure _
  | succ n ih =>
    refine bind (writeValue _ _) fun _ => ?_
    split
    · exact pure _
    · exact bind (offset _ _) fun _ => ih _

@[simp] lemma fixArity (f : UInt64) (n k : Nat) : StillIf q (fixArity f n k) := by
  unfold Execution.fixArity
  with_reducible repeat' first | refine bind ?_ fun _ => ?_ | refine ite ?_ ?_ | split
  all_goals simp

@[simp] lemma switchText? (b : CodeBlock) (t : Nat) (v : Value) : StillIf q (switchText? b t v) := by
  unfold Execution.switchText?
  with_reducible repeat' first | refine bind ?_ fun _ => ?_ | refine ite ?_ ?_ | split
  all_goals simp

@[simp] lemma identifier (a : Artifact) (i : UInt64) : StillIf q (identifier a i) := by
  unfold Execution.identifier
  with_reducible repeat' first | refine bind ?_ fun _ => ?_ | refine ite ?_ ?_ | split
  all_goals simp

@[simp] lemma serve (h : Helper) (m : Registers) (code : Nat) : StillIf q (serve h m code) := by
  unfold Execution.serve
  with_reducible repeat' first | refine bind ?_ fun _ => ?_ | refine ite ?_ ?_ | split
  all_goals simp

@[simp] lemma callHelper (h : Helper) (m : Registers) (code : Nat) :
    StillIf q (callHelper h m code) := by
  unfold Execution.callHelper
  with_reducible repeat' first | refine bind ?_ fun _ => ?_ | refine ite ?_ ?_ | split
  all_goals simp

@[simp] lemma unwind (t : Thread) : StillIf q (unwind t) := by
  unfold Execution.unwind
  with_reducible repeat' first | refine bind ?_ fun _ => ?_ | refine ite ?_ ?_ | split
  all_goals simp

@[simp] lemma resolve (c : Nat) (a : UInt64) : StillIf q (resolve c a) := by
  unfold Execution.resolve
  with_reducible repeat' first | refine bind ?_ fun _ => ?_ | refine ite ?_ ?_ | split
  all_goals simp

@[simp] lemma jump (t : Thread) (a : UInt64) : StillIf q (jump t a) := by
  unfold Execution.jump
  with_reducible repeat' first | refine bind ?_ fun _ => ?_ | refine ite ?_ ?_ | split
  all_goals simp

@[simp] lemma enter (t : Thread) (c : Nat) (a f r : UInt64) : StillIf q (enter t c a f r) := by
  unfold Execution.enter
  with_reducible repeat' first | refine bind ?_ fun _ => ?_ | refine ite ?_ ?_ | split
  all_goals simp

@[simp] lemma readValues (a : UInt64) (n : Nat) : StillIf q (readValues a n) := by
  induction n generalizing a with
  | zero => exact pure _
  | succ n ih =>
    refine bind (readValue _) fun _ => ?_
    split
    · exact pure _
    · exact bind (offset _ _) fun _ => bind (ih _) fun _ => pure _

@[simp] lemma callHost (f : HostFunction) (a : UInt64) : StillIf q (callHost f a) := by
  unfold Execution.callHost
  with_reducible repeat' first | refine bind ?_ fun _ => ?_ | refine ite ?_ ?_ | split
  all_goals simp

@[simp] lemma virtualCall (t : Thread) (a : UInt64) : Still (virtualCall t a) := by
  unfold Execution.virtualCall
  refine bind (offset _ _) fun _ => bind (readValue _) fun _ =>
    bind (tryCatch (map (functionOf _)) fun e => ?_) fun f => ?_
  · split <;> simp
  · with_reducible repeat' first | refine bind ?_ fun _ => ?_ | split
    all_goals simp

@[simp] lemma call (t : Thread) (a r : UInt64) : Still (call t a r) := by
  unfold Execution.call
  with_reducible repeat' first | refine bind ?_ fun _ => ?_ | refine ite ?_ ?_ | split
  all_goals simp

@[simp] lemma tableTarget (c : Nat) (t : UInt16) (i : UInt64) : StillIf q (tableTarget c t i) := by
  unfold Execution.tableTarget
  with_reducible repeat' first | refine bind ?_ fun _ => ?_ | refine ite ?_ ?_ | split
  all_goals simp

@[simp] lemma execute (t : Thread) (a : UInt64) (i : Inst) : Still (execute t a i) := by
  unfold Execution.execute
  cases i
  all_goals dsimp only
  all_goals with_reducible repeat' first | refine bind ?_ fun _ => ?_ | refine ite ?_ ?_ | split
  all_goals simp

@[simp] lemma step (t : Thread) : Still (step t) := by
  unfold Execution.step
  with_reducible repeat' first | refine bind ?_ fun _ => ?_ | refine ite ?_ ?_ | split
  all_goals simp

@[simp] lemma run (n : Nat) (t : Thread) : Still (run n t) := by
  induction n generalizing t with
  | zero => exact throw _
  | succ n ih =>
    refine bind (step t) fun p => ?_
    split
    · exact ih _
    · exact pure _

@[simp] lemma pushFrame (c : Nat) (v : Value) (vs : List Value) : StillIf q (pushFrame c v vs) := by
  unfold Execution.pushFrame
  with_reducible repeat' first | refine bind ?_ fun _ => ?_ | refine ite ?_ ?_ | split
  all_goals simp

@[simp] lemma start (c : Nat) (a f : UInt64) : Still (start c a f) := by
  unfold Execution.start
  simp

@[simp] lemma callCode (c : Nat) (v : Value) (vs : List Value) : Still (callCode c v vs) := by
  unfold Execution.callCode
  with_reducible repeat' first | refine bind ?_ fun _ => ?_ | refine ite ?_ ?_ | split
  all_goals simp

@[simp] lemma storeLocals (f : UInt64) (vs : Array Value) (xs : List Variable) :
    StillIf q (storeLocals f vs xs) := by
  induction xs with
  | nil => exact pure _
  | cons x xs ih =>
    unfold Execution.storeLocals
    with_reducible repeat' first | refine bind ?_ fun _ => ?_ | split
    all_goals simp [ih]

@[simp] lemma enterBlock (c : Nat) (b : BlockId) (v : Value) (vs : List Value) (ls : Array Value) :
    Still (enterBlock c b v vs ls) := by
  unfold Execution.enterBlock
  with_reducible repeat' first | refine bind ?_ fun _ => ?_ | refine ite ?_ ?_ | split
  all_goals simp

end Still
end Speculation
