import Speculation.Lowering.Fill
import Speculation.Proofs.Independence.Registers

/-!
Filling operands in two lowerings.

A value is found at the same place in both, and what is known of it is the same, so both bring it into
the same register behind the same guards.
-/

namespace Speculation
namespace Lowering
namespace Similar

variable {c : Twins} {ls : List (Label × Label)} {n : NodeId} {e : Edge}

@[simp] lemma locate (h : c.Shares n) : Similar c ls Eq (locate n) (locate n) := by
  refine bindGraph ?_
  rw [h.valueConstant]
  refine bindEq (assume _) fun v => ?_
  split
  · exact pureEq _
  · refine bindEq (info h) fun x => ite (internal _) ?_
    split
    · exact pureEq _
    · exact pureEq _
    · exact ite (pureEq _) (internal _)

@[simp] lemma bindGpr (h : c.Shares n) (r : Gpr) (format : DataFormat) :
    Similar c ls Eq (bindGpr n r format) (bindGpr n r format) := by
  unfold Lowering.bindGpr
  with_reducible repeat' refine bindEq ?_ fun _ => ?_
  all_goals simp [h]

@[simp] lemma bindFpr (h : c.Shares n) (r : Fpr) :
    Similar c ls Eq (bindFpr n r) (bindFpr n r) := by
  unfold Lowering.bindFpr
  with_reducible repeat' refine bindEq ?_ fun _ => ?_
  all_goals simp [h]

@[simp] lemma refine' (h : c.Shares n) (r : Gpr) (format : DataFormat) :
    Similar c ls Eq (refine n r format) (refine n r format) := by
  unfold Lowering.refine
  with_reducible repeat' first | refine bindEq ?_ fun _ => ?_ | refine ite ?_ ?_
  all_goals simp [h]

@[simp] lemma fillSpilledGpr (h : c.Shares n) (format : DataFormat) :
    Similar c ls Eq (fillSpilledGpr n format) (fillSpilledGpr n format) := by
  unfold Lowering.fillSpilledGpr
  cases format <;> with_reducible repeat' refine bindEq ?_ fun _ => ?_
  all_goals simp [h]

@[simp] lemma fillSpilledFpr (h : c.Shares n) :
    Similar c ls Eq (fillSpilledFpr n) (fillSpilledFpr n) := by
  unfold Lowering.fillSpilledFpr
  with_reducible repeat' refine bindEq ?_ fun _ => ?_
  all_goals simp [h]

@[simp] lemma proven (h : c.Shares e.node) : Similar c ls Eq (proven e) (proven e) :=
  bindGet fun _ _ _ hs _ => by
    rw [Facts.provenOf, Facts.provenOf, Breach.get_congr (hs.facts h).proven]
    exact assume _

@[simp] lemma provenIs (h : c.Shares e.node) (t : TypeSet) :
    Similar c ls Eq (provenIs e t) (provenIs e t) :=
  bindEq (proven h) fun _ => pureEq _

@[simp] lemma mayBe (h : c.Shares e.node) (t : TypeSet) :
    Similar c ls Eq (mayBe e t) (mayBe e t) :=
  bindEq (proven h) fun _ => pureEq _

@[simp] lemma intFromGpr (h : c.Shares e.node) (r : Gpr) (format : DataFormat) :
    Similar c ls Eq (intFromGpr e r format) (intFromGpr e r format) := by
  unfold Lowering.intFromGpr
  with_reducible repeat' first
    | refine bindNewLabel fun _ _ => ?_ | refine bindEq ?_ fun _ => ?_ | refine ite ?_ ?_ | split
  all_goals simp [h]

@[simp] lemma fillInt (h : c.Shares e.node) :
    Similar c ls Eq (fillInt e) (fillInt e) := by
  unfold Lowering.fillInt
  with_reducible repeat' first
    | refine bindNewLabel fun _ _ => ?_ | refine bindEq ?_ fun _ => ?_ | refine ite ?_ ?_ | split
  all_goals simp [h]

@[simp] lemma fillStrictInt (h : c.Shares e.node) :
    Similar c ls Eq (fillStrictInt e) (fillStrictInt e) := by
  unfold Lowering.fillStrictInt
  with_reducible repeat' first
    | refine bindNewLabel fun _ _ => ?_ | refine bindEq ?_ fun _ => ?_ | refine ite ?_ ?_ | split
  all_goals simp [h]

@[simp] lemma doubleFromGpr (h : c.Shares e.node) (r : Gpr) (format : DataFormat) :
    Similar c ls Eq (doubleFromGpr e r format) (doubleFromGpr e r format) := by
  unfold Lowering.doubleFromGpr
  with_reducible repeat' first
    | refine bindNewLabel fun _ _ => ?_ | refine bindEq ?_ fun _ => ?_ | refine ite ?_ ?_ | split
  all_goals simp [h]

@[simp] lemma fillDouble (h : c.Shares e.node) :
    Similar c ls Eq (fillDouble e) (fillDouble e) := by
  unfold Lowering.fillDouble
  with_reducible repeat' first
    | refine bindNewLabel fun _ _ => ?_ | refine bindEq ?_ fun _ => ?_ | refine ite ?_ ?_ | split
  all_goals simp [h]

@[simp] lemma cellFromGpr (h : c.Shares e.node) (r : Gpr) (format : DataFormat) :
    Similar c ls Eq (cellFromGpr e r format) (cellFromGpr e r format) := by
  unfold Lowering.cellFromGpr
  with_reducible repeat' first
    | refine bindNewLabel fun _ _ => ?_ | refine bindEq ?_ fun _ => ?_ | refine ite ?_ ?_ | split
  all_goals simp [h]

@[simp] lemma fillCell (h : c.Shares e.node) :
    Similar c ls Eq (fillCell e) (fillCell e) := by
  unfold Lowering.fillCell
  with_reducible repeat' first
    | refine bindNewLabel fun _ _ => ?_ | refine bindEq ?_ fun _ => ?_ | refine ite ?_ ?_ | split
  all_goals simp [h]

@[simp] lemma guardCellType (cell : Gpr) (type : CellType) (want : Bool) (kind : ExitKind) :
    Similar c ls Eq (guardCellType cell type want kind) (guardCellType cell type want kind) := by
  unfold Lowering.guardCellType
  with_reducible repeat' first
    | refine bindNewLabel fun _ _ => ?_ | refine bindEq ?_ fun _ => ?_ | refine ite ?_ ?_ | split
  all_goals simp 

@[simp] lemma fillObject (h : c.Shares e.node) :
    Similar c ls Eq (fillObject e) (fillObject e) := by
  unfold Lowering.fillObject
  with_reducible repeat' first
    | refine bindNewLabel fun _ _ => ?_ | refine bindEq ?_ fun _ => ?_ | refine ite ?_ ?_ | split
  all_goals simp [h]

@[simp] lemma fillString (h : c.Shares e.node) :
    Similar c ls Eq (fillString e) (fillString e) := by
  unfold Lowering.fillString
  with_reducible repeat' first
    | refine bindNewLabel fun _ _ => ?_ | refine bindEq ?_ fun _ => ?_ | refine ite ?_ ?_ | split
  all_goals simp [h]

@[simp] lemma booleanFromGpr (h : c.Shares e.node) (r : Gpr) (format : DataFormat) (shared : Bool) :
    Similar c ls Eq (booleanFromGpr e r format shared) (booleanFromGpr e r format shared) := by
  unfold Lowering.booleanFromGpr
  with_reducible repeat' first
    | refine bindNewLabel fun _ _ => ?_ | refine bindEq ?_ fun _ => ?_ | refine ite ?_ ?_ | split
  all_goals simp [h]

@[simp] lemma fillBoolean (h : c.Shares e.node) :
    Similar c ls Eq (fillBoolean e) (fillBoolean e) := by
  unfold Lowering.fillBoolean
  with_reducible repeat' first
    | refine bindNewLabel fun _ _ => ?_ | refine bindEq ?_ fun _ => ?_ | refine ite ?_ ?_ | split
  all_goals simp [h]

@[simp] lemma fillStorage (h : c.Shares e.node) :
    Similar c ls Eq (fillStorage e) (fillStorage e) := by
  unfold Lowering.fillStorage
  with_reducible repeat' first
    | refine bindNewLabel fun _ _ => ?_ | refine bindEq ?_ fun _ => ?_ | refine ite ?_ ?_ | split
  all_goals simp [h]

@[simp] lemma boxGpr (h : c.Shares n) (r : Gpr) (shared : Bool) (tag : Operand) (boxed : DataFormat) :
    Similar c ls Eq (boxGpr n r shared tag boxed) (boxGpr n r shared tag boxed) := by
  unfold Lowering.boxGpr
  with_reducible repeat' first
    | refine bindNewLabel fun _ _ => ?_ | refine bindEq ?_ fun _ => ?_ | refine ite ?_ ?_ | split
  all_goals simp [h]

@[simp] lemma boxInt (h : c.Shares n) (r : Gpr) (shared : Bool) :
    Similar c ls Eq (boxInt n r shared) (boxInt n r shared) :=
  boxGpr h _ _ _ _

@[simp] lemma boxBoolean (h : c.Shares n) (r : Gpr) (shared : Bool) :
    Similar c ls Eq (boxBoolean n r shared) (boxBoolean n r shared) :=
  boxGpr h _ _ _ _

@[simp] lemma fillValue (h : c.Shares e.node) :
    Similar c ls Eq (fillValue e) (fillValue e) := by
  unfold Lowering.fillValue
  with_reducible repeat' first
    | refine bindNewLabel fun _ _ => ?_ | refine bindEq ?_ fun _ => ?_ | refine ite ?_ ?_ | split
  all_goals simp [h]

end Similar
end Lowering
end Speculation
