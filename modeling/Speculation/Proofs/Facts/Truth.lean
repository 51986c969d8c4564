import Speculation.Proofs.Heap.Backing
import Speculation.Proofs.Independence.Facts

/-!
Facts only narrow until they are forgotten, and stay true.

Whatever is filtered and executed, a node has the kind that was proven beforehand, narrowed by all
that was filtered on it since the block began. When a block begins, nothing is left of the one before:
no query tells the facts from those that a graph starts with, although only touched nodes are reset.

What is proven of a node is true of its value if the type of the value is among the types that are
proven. A node that executes filters on its operands what their uses require and what it has checked;
so where that is so, what was true stays true.
-/

/-! ### Facts narrow -/

namespace Speculation

inductive FactsAction where
  | filter (n : NodeId) (t : TypeSet)
  | execute (n : NodeId)
  | beginBlock

namespace FactsAction

variable {g : Graph} {n : NodeId}

/-- The kinds that a check filters on the value that it checks, apart from those of its edge. -/
def checked (op : Op) : List TypeSet :=
  match op with
  | .checkArray mode | .arrayify mode => [mode.typeSet]
  | _ => []

/-- Does the operation look at its first child when it executes? -/
def HasBase : Op → Prop
  | .checkStructure _ | .checkArray _ | .arrayify _ => True
  | _ => False

/-- The nodes that an action is about are nodes of the graph, and a check has something to check. -/
def Fits (g : Graph) : FactsAction → Prop
  | filter n _ => n < g.nodes.size
  | execute n => ∃ d, g.nodes[n]? = some d ∧ (∀ e ∈ d.children, e.node < g.nodes.size) ∧
    (HasBase d.op → 0 < d.children.size)
  | beginBlock => True

/-- What the execution of a node filters on another one: what its edges to that require, and what it
checks if that is its base. -/
def filteredBy (d : Node) (n : NodeId) : List TypeSet :=
  ((d.children.toList.filter fun e => e.node = n).map fun e => e.kind.filter) ++
    if d.children[0]?.map Edge.node = some n then checked d.op else []

/-- All that was filtered on a node since its block began, after one more action. -/
def filtered (g : Graph) (n : NodeId) (seen : List TypeSet) : FactsAction → List TypeSet
  | filter m t => if m = n then seen ++ [t] else seen
  | execute m => seen ++ (g.nodes[m]?.map fun d => filteredBy d n).getD []
  | beginBlock => []

def filteredSince (g : Graph) (n : NodeId) (actions : List FactsAction) : List TypeSet :=
  actions.foldl (filtered g n) []

end FactsAction

namespace Facts

variable {g : Graph} {f f' : Facts} {m n : NodeId} {t : TypeSet} {seen : List TypeSet}

def perform (g : Graph) (f : Facts) : FactsAction → Except Breach Facts
  | .filter n t => f.filter n t
  | .execute n => f.execute g n
  | .beginBlock => .ok (f.beginBlock g)

def run (g : Graph) (f : Facts) (actions : List FactsAction) : Except Breach Facts :=
  actions.foldlM (perform g) f

/-- What the facts are after some actions: what is not touched is as it was proven, and a node has the
kind that was proven of it, narrowed by all that was `seen` to be filtered on it. -/
structure Narrowed (g : Graph) (seen : NodeId → List TypeSet) (f : Facts) : Prop where
  clean : f.Clean g
  proven (n : NodeId) :
    f.proven[n]? = g.nodes[n]?.map fun d => (seen n).foldl TypeSet.inter d.proven

namespace Narrowed

variable {seen : NodeId → List TypeSet}

lemma ofGraph (g : Graph) : Narrowed g (fun _ => []) (.ofGraph g) where
  clean := .ofGraph g
  proven _ := Array.getElem?_map

lemma narrow (h : Narrowed g seen f) (m : NodeId) (t : TypeSet) :
    Narrowed g (fun n => if m = n then seen n ++ [t] else seen n) (f.narrow m t) where
  clean := h.clean.narrow m t
  proven n := by
    rw [Facts.narrow, Array.getElem?_modify, h.proven]
    split
    · rw [Option.map_map]
      refine congrArg (Option.map · _) (funext fun d => ?_)
      simp
    · rfl

lemma narrowEdges (h : Narrowed g seen f) (es : List Edge) :
    Narrowed g (fun n => seen n ++ (es.filter fun e => e.node = n).map fun e => e.kind.filter)
      (f.narrowEdges es) := by
  induction es generalizing f seen with
  | nil => simpa [Facts.narrowEdges] using h
  | cons e es ih =>
    have hn := ih (h.narrow e.node e.kind.filter)
    refine ⟨hn.clean, fun n => (hn.proven n).trans ?_⟩
    rw [List.filter_cons]
    by_cases he : e.node = n
    · simp [he]
    · simp [he]

lemma congr {seen' : NodeId → List TypeSet} (h : Narrowed g seen f) (he : ∀ n, seen' n = seen n) :
    Narrowed g seen' f :=
  ⟨h.clean, fun n => by rw [h.proven, he]⟩

/-- Only what is known of structures and arrays has changed. -/
lemma of_clean (h : Narrowed g seen f) (hc : f'.Clean g) (hp : f'.proven = f.proven) :
    Narrowed g seen f' :=
  ⟨hc, fun n => by rw [hp, h.proven]⟩

lemma lt_size (h : Narrowed g seen f) (hm : m < g.nodes.size) : m < f.proven.size :=
  h.clean.provenSize.symm ▸ hm

lemma execute (h : Narrowed g seen f) (ha : (FactsAction.execute m).Fits g) :
    ∃ f', f.execute g m = .ok f' ∧
      Narrowed g (fun n => FactsAction.filtered g n (seen n) (.execute m)) f' := by
  obtain ⟨d, hd, hes, hbase⟩ := ha
  have hedges := h.narrowEdges d.children.toList
  -- an operation that checks no array filters nothing but what its edges require
  have hplain (hop : FactsAction.checked d.op = []) (n : NodeId) :
      FactsAction.filtered g n (seen n) (.execute m) =
        seen n ++ (d.children.toList.filter fun e => e.node = n).map fun e => e.kind.filter := by
    simp [FactsAction.filtered, FactsAction.filteredBy, hd, hop]
  have hchild (hop : FactsAction.HasBase d.op) : ∃ e, d.child 0 = .ok e ∧ d.children[0]? = some e :=
    ⟨_, Breach.get_eq_ok.mpr (Array.getElem?_eq_getElem (hbase hop)),
      Array.getElem?_eq_getElem (hbase hop)⟩
  have harray (mode : ArrayMode) (hop : FactsAction.checked d.op = [mode.typeSet]) {e : Edge}
      (he : d.children[0]? = some e) {f : Facts}
      (hf : Narrowed g (fun n => seen n ++
        (d.children.toList.filter fun e => e.node = n).map fun e => e.kind.filter) f) :
      ∃ f', Facts.filter { f.touch e.node with
          arrayModes := f.arrayModes.setIfInBounds e.node (some mode) } e.node mode.typeSet = .ok f' ∧
        Narrowed g (fun n => FactsAction.filtered g n (seen n) (.execute m)) f' := by
    have hset := hf.of_clean (hf.clean.setArrayModes e.node (some mode)) rfl
    have hlt := hset.lt_size (hes e (Array.mem_of_getElem? he))
    refine ⟨_, filter_of_lt hlt _, (hset.narrow e.node mode.typeSet).congr fun n => ?_⟩
    by_cases hn : e.node = n
    · simp [FactsAction.filtered, FactsAction.filteredBy, hd, hop, he, hn]
    · simp [FactsAction.filtered, FactsAction.filteredBy, hd, he, hn]
  rw [execute_of_node hd fun e he => h.lt_size (hes e he)]
  generalize f.narrowEdges d.children.toList = f₀ at hedges
  unfold learn
  rcases hop : d.op <;> rw [hop] at hplain hchild harray
  case checkStructure set =>
    obtain ⟨e, hok, he⟩ := hchild trivial
    rw [hok]
    exact ⟨_, rfl, (hedges.of_clean (hedges.clean.setStructures _ _) rfl).congr (hplain rfl)⟩
  case checkArray mode | arrayify mode =>
    obtain ⟨e, hok, he⟩ := hchild trivial
    rw [hok]
    exact harray mode rfl he hedges
  case call | putById | putByVal =>
    exact ⟨_, rfl, (hedges.of_clean hedges.clean.forgetHeap rfl).congr (hplain rfl)⟩
  all_goals exact ⟨_, rfl, hedges.congr (hplain rfl)⟩

lemma perform (h : Narrowed g seen f) {a : FactsAction} (ha : a.Fits g) :
    ∃ f', f.perform g a = .ok f' ∧ Narrowed g (fun n => a.filtered g n (seen n)) f' := by
  cases a with
  | filter m t => exact ⟨_, filter_of_lt (h.lt_size ha) t, h.narrow m t⟩
  | execute m => exact h.execute ha
  | beginBlock => exact ⟨_, rfl, h.clean.beginBlock ▸ .ofGraph g⟩

lemma perform_error (h : Narrowed g seen f) {a : FactsAction} (ha : ¬a.Fits g) :
    f.perform g a = .error .outOfRange := by
  have hsize := h.clean.provenSize
  cases a with
  | filter m t => exact filter_of_le (hsize.symm ▸ Nat.le_of_not_lt ha) t
  | execute m =>
    rcases hd : g.nodes[m]? with _ | d
    · rw [Facts.perform, Facts.execute, Graph.node,
        Breach.get_of_le (Array.getElem?_eq_none_iff.mp hd)]
      rfl
    by_cases hes : ∀ e ∈ d.children, e.node < g.nodes.size
    · -- a check without a base
      have hbase : FactsAction.HasBase d.op ∧ d.children.size = 0 := by
        by_contra hnot
        exact ha ⟨d, hd, hes, fun hop => Nat.pos_of_ne_zero fun hz => hnot ⟨hop, hz⟩⟩
      have hnone : d.child 0 = .error .outOfRange := Breach.get_of_le (Nat.le_of_eq hbase.2)
      rw [Facts.perform, execute_of_node hd fun e he => h.lt_size (hes e he), learn]
      rcases hop : d.op <;> rw [hop] at hbase
      case checkStructure | checkArray | arrayify =>
        rw [hnone]
        rfl
      all_goals exact absurd hbase.1 id
    · push Not at hes
      rw [← hsize] at hes
      exact execute_of_operand hd hes
  | beginBlock => exact absurd trivial ha

lemma run (h : Narrowed g seen f) {actions : List FactsAction} (ha : ∀ a ∈ actions, a.Fits g) :
    ∃ f', f.run g actions = .ok f' ∧
      Narrowed g (fun n => actions.foldl (FactsAction.filtered g n) (seen n)) f' := by
  induction actions generalizing f seen with
  | nil => exact ⟨f, rfl, h⟩
  | cons a actions ih =>
    obtain ⟨ha, has⟩ := List.forall_mem_cons.mp ha
    obtain ⟨f₁, hok, h₁⟩ := h.perform ha
    obtain ⟨f₂, hok', h₂⟩ := ih h₁ has
    refine ⟨f₂, ?_, h₂⟩
    rw [Facts.run, List.foldlM_cons, hok]
    exact hok'

lemma run_error (h : Narrowed g seen f) {actions : List FactsAction} (ha : ¬∀ a ∈ actions, a.Fits g) :
    f.run g actions = .error .outOfRange := by
  induction actions generalizing f seen with
  | nil => exact absurd (List.forall_mem_nil _) ha
  | cons a actions ih =>
    rw [Facts.run, List.foldlM_cons]
    by_cases hfit : a.Fits g
    · obtain ⟨f₁, hok, h₁⟩ := h.perform hfit
      rw [hok]
      exact ih h₁ fun has => ha (List.forall_mem_cons.mpr ⟨hfit, has⟩)
    · rw [h.perform_error hfit]
      rfl

lemma provenOf (h : Narrowed g seen f) (n : NodeId) :
    f.provenOf n = (g.node n).map fun d => (seen n).foldl TypeSet.inter d.proven := by
  rw [Facts.provenOf, Graph.node, Breach.get, Breach.get, h.proven]
  rcases g.nodes[n]? with _ | d <;> rfl

end Narrowed

/-- Whatever is done with facts of nodes of the graph, a node has the kind that was proven of it,
narrowed by all that was filtered on it since the last block began; and if another block begins, all
that can be asked is answered as if nothing had been done. Nothing is done with facts of other
nodes. -/
theorem run_narrowed (g : Graph) (actions : List FactsAction) :
    ((∀ a ∈ actions, a.Fits g) → ∃ f, run g (.ofGraph g) actions = .ok f ∧
      (∀ n, f.provenOf n = (g.node n).map fun d =>
        (FactsAction.filteredSince g n actions).foldl TypeSet.inter d.proven) ∧
      ∀ n, (f.beginBlock g).provenOf n = (ofGraph g).provenOf n ∧
        (∀ mode, (f.beginBlock g).isArrayValidated n mode = (ofGraph g).isArrayValidated n mode) ∧
        ∀ set, (f.beginBlock g).isStructureChecked n set = (ofGraph g).isStructureChecked n set) ∧
    ((¬∀ a ∈ actions, a.Fits g) → run g (.ofGraph g) actions = .error .outOfRange) := by
  refine ⟨fun ha => ?_, (Narrowed.ofGraph g).run_error⟩
  obtain ⟨f, hok, h⟩ := (Narrowed.ofGraph g).run ha
  refine ⟨f, hok, h.provenOf, fun n => ?_⟩
  rw [h.clean.beginBlock]
  exact ⟨rfl, fun _ => rfl, fun _ => rfl⟩

/-- A value that was checked to be an array of integers is that, and no longer an integer as in the
block before. -/
theorem run_narrowed_array :
    let g : Graph := { (default : Graph) with
      nodes := #[{ op := .getLocal 0, origin := default },
        { op := .checkArray .int32Array, children := #[⟨0, .cell⟩], origin := default }] }
    let actions := [.filter 0 .int32, .execute 1, .beginBlock, .execute 1]
    (∀ a ∈ actions, FactsAction.Fits g a) ∧
      ∃ f, run g (.ofGraph g) actions = .ok f ∧ f.provenOf 0 = .ok .int32Array ∧
        (f.beginBlock g).provenOf 0 = .ok .top := by
  intro g actions
  have hexec : FactsAction.Fits g (.execute 1) := by
    refine ⟨_, rfl, fun e he => ?_, fun _ => Nat.one_pos⟩
    obtain rfl : e = ⟨0, .cell⟩ := by simpa [g] using he
    exact Nat.two_pos
  have ha : ∀ a ∈ actions, FactsAction.Fits g a :=
    List.forall_mem_cons.mpr ⟨Nat.two_pos, List.forall_mem_cons.mpr ⟨hexec,
      List.forall_mem_cons.mpr ⟨trivial, List.forall_mem_cons.mpr ⟨hexec, nofun⟩⟩⟩⟩
  obtain ⟨f, hok, hproven, hfresh⟩ := (run_narrowed g actions).1 ha
  exact ⟨ha, f, hok, (hproven 0).trans (by decide), (hfresh 0).1.trans (by cbv)⟩

end Facts

end Speculation

/-! ### Facts are true -/

namespace Speculation

namespace TypeSet

variable {a b c : TypeSet}

lemma subset_iff : a.subset b = true ↔ a.bits &&& b.bits = a.bits := by
  have hbits : ∀ x y : UInt16, x &&& ~~~y = 0 ↔ x &&& y = x := by
    intro x y
    simp only [← UInt16.toBitVec_inj, UInt16.toBitVec_and, UInt16.toBitVec_not]
    constructor
    all_goals
      intro h
      ext i hi
      have hi' := congrArg (fun z : BitVec 16 => z[i]) h
      simp at hi' ⊢
      grind
  rw [subset, beq_iff_eq, hbits]

/-- A nonempty subset is not empty. -/
lemma isA_iff : a.isA b = true ↔ a.bits ≠ 0 ∧ a.bits &&& b.bits = a.bits := by
  rw [isA, Bool.and_eq_true, subset_iff, isEmpty, Bool.not_eq_true', beq_eq_false_iff_ne]

lemma isA_self (h : a.bits ≠ 0) : a.isA a = true := isA_iff.mpr ⟨h, UInt16.and_self⟩

lemma isA_of_subset (h : a.isA b = true) (hs : b.subset c = true) : a.isA c = true := by
  obtain ⟨hne, hab⟩ := isA_iff.mp h
  refine isA_iff.mpr ⟨hne, ?_⟩
  rw [← hab, UInt16.and_assoc, subset_iff.mp hs]

lemma isA_inter (h : a.isA b = true) (h' : a.isA c = true) : a.isA (b.inter c) = true := by
  obtain ⟨hne, hab⟩ := isA_iff.mp h
  refine isA_iff.mpr ⟨hne, ?_⟩
  rw [inter, ← UInt16.and_assoc, hab, (isA_iff.mp h').2]

lemma intersects_of_isA (h : a.isA b = true) (h' : a.isA c = true) : b.intersects c = true := by
  obtain ⟨hne, hab⟩ := isA_iff.mp h
  rw [intersects, bne_iff_ne]
  intro hzero
  refine hne ?_
  rw [← (isA_iff.mp h').2, ← hab, UInt16.and_assoc, hzero, UInt16.and_zero]

end TypeSet

/-! ### The types of values -/

namespace World

variable {w : World} {v : Value} {mode : ArrayMode} {t : TypeSet}

def cellKind (v : Value) : Run TypeSet := do
  match ← cellType v with
  | .object => return if (← indexing v) &&& Indexing.isArray = 0 then .finalObject else .array
  | .string => return .string
  | .int32Array => return .int32Array
  | .float64Array => return .float64Array
  | .function => return .function

/-- The type of a value. What is no value of the language has none. -/
def typeOf (w : World) (v : Value) : TypeSet :=
  .ofValue v fun c =>
    match runs (cellKind (.ofCell c)) w with
    | (.ok t, _) => t
    | _ => .empty

lemma subset_cell_of_cellKind {w' : World} (h : runs (cellKind v) w = (.ok t, w')) :
    t.subset .cell = true := by
  obtain ⟨type, w₁, -, hrest⟩ := runs_bind_eq_ok h
  cases type with
  | object =>
    obtain ⟨b, w₂, -, hrest⟩ := runs_bind_eq_ok hrest
    split at hrest <;> cases hrest <;> decide
  | string | int32Array | float64Array | function =>
    cases hrest
    decide

/-- What a type says of whether the value is an integer, a number or a cell. -/
lemma typeOf_spec (h : (w.typeOf v).isA t = true) :
    (v.isInt32 = true ↔ (w.typeOf v).isA .int32 = true) ∧
    (v.isNumber = true ↔ (w.typeOf v).isA .number = true) ∧
    (v.isCell = true ↔ (w.typeOf v).isA .cell = true) := by
  obtain ⟨type, htype⟩ : ∃ type, w.typeOf v = type := ⟨_, rfl⟩
  rw [htype] at h ⊢
  unfold typeOf TypeSet.ofValue at htype
  split at htype
  · rename_i hint
    rw [hint, Value.isNumber_of_isInt32 hint, Value.isCell_of_isInt32 hint, ← htype]
    decide
  rename_i hint
  split at htype
  · rename_i x hx
    have hd : v.isDouble = true := by
      by_contra hd
      rw [Value.double?, if_neg hd] at hx
      cases hx
    have hnumber : v.isNumber = true := by
      rw [Value.isDouble, Bool.and_eq_true] at hd
      exact hd.1
    rw [Value.isInt32_of_double? hx, hnumber, Value.isCell_of_double? hx, ← htype]
    split <;> decide
  rename_i hdouble
  have hnumber : v.isNumber = false := by
    by_contra hno
    have hd := Value.isDouble_of_isNumber (by simpa using hno) (by simpa using hint)
    rw [Value.double?, if_pos hd] at hdouble
    exact hdouble _ rfl
  rw [hnumber, Value.isInt32_of_isNumber_eq_false hnumber]
  split at htype
  · rename_i hb
    rw [Value.isCell_of_isBoolean hb, ← htype]
    decide
  split at htype
  · rename_i ho
    rw [Value.isCell_of_isUndefinedOrNull ho, ← htype]
    decide
  split at htype
  · rename_i c hc
    have hcell : v.isCell = true := by
      by_contra hcell
      rw [Value.cell?, if_neg hcell] at hc
      cases hc
    beta_reduce at htype
    split at htype
    · rename_i type' w' hrun
      subst htype
      have hsub := TypeSet.isA_of_subset (TypeSet.isA_self (TypeSet.isA_iff.mp h).1)
        (subset_cell_of_cellKind hrun)
      have hno : ∀ u : TypeSet, TypeSet.cell.intersects u = false → type'.isA u = false := by
        intro u hu
        by_contra hisA
        rw [TypeSet.intersects_of_isA hsub (by simpa using hisA)] at hu
        cases hu
      rw [hcell, hsub, hno _ (by decide), hno _ (by decide)]
      decide
    · rw [← htype] at h
      exact absurd rfl (TypeSet.isA_iff.mp h).1
  · rw [← htype] at h
    exact absurd rfl (TypeSet.isA_iff.mp h).1

end World

namespace Structure

variable {d : Structure} {mode : ArrayMode}

def kind (d : Structure) : TypeSet :=
  match d.type with
  | .object => if d.indexing &&& Indexing.isArray = 0 then .finalObject else .array
  | .string => .string
  | .int32Array => .int32Array
  | .float64Array => .float64Array
  | .function => .function

/-- Elements with a shape are those of objects. -/
lemma isA_typeSet (hd : d.Suits mode) (hnone : d.type ≠ .object → d.indexing = Indexing.none) :
    d.kind.isA mode.typeSet = true := by
  have hobject : d.indexing &&& Indexing.shapeMask ≠ Indexing.none → d.kind.isA .object = true := by
    intro hne
    have htype : d.type = .object := by
      by_contra hno
      rw [hnone hno] at hne
      exact hne rfl
    rw [kind, htype]
    dsimp only
    split <;> decide
  cases mode with
  | contiguous | double =>
    refine hobject ?_
    rw [show _ = _ from hd]
    decide
  | int32Array | float64Array | string =>
    rw [kind, show d.type = _ from hd]
    dsimp only
    decide

lemma suits_of_isA {type : CellType} (htype : Lowering.cellType? mode = some type)
    (h : d.kind.isA mode.typeSet = true) : d.type = type := by
  unfold kind at h
  cases mode with
  | contiguous | double => cases htype
  | int32Array | float64Array | string =>
    cases htype
    split at h
    · split at h
      all_goals exact absurd h (by decide)
    all_goals first | assumption | exact absurd h (by decide)

end Structure

lemma Memory.Houses.typeOf_eq {w : World} {limit : Nat} {h : Heap} {v : Value} {x : Cell} {d : Structure}
    (hm : w.memory.Houses limit h) (hv : h.cell? v.bits = some x) (hs : h.structure? x.kind = some d) :
    w.typeOf v = d.kind := by
  have hcell := hm.isCell hv
  have hbool : v.isBoolean = false := by
    by_contra hb
    rw [Value.isCell_of_isBoolean (by simpa using hb)] at hcell
    cases hcell
  have hother : v.isUndefinedOrNull = false := by
    by_contra ho
    rw [Value.isCell_of_isUndefinedOrNull (by simpa using ho)] at hcell
    cases hcell
  have hrun : World.runs (World.cellKind v) w = (.ok d.kind, w) := by
    rw [World.cellKind, World.runs_bind_of_ok (hm.runs_cellType hv hs), Structure.kind]
    split
    · rw [World.runs_bind_of_ok (hm.runs_indexing hv hs)]
      split <;> rfl
    all_goals rfl
  rw [World.typeOf, TypeSet.ofValue, Value.isInt32_of_isCell hcell, Value.double?_of_isCell hcell, hbool,
    hother, Value.cell?, if_pos hcell]
  simp only [Bool.false_eq_true, if_false]
  rw [show Value.ofCell v.bits = v from rfl, hrun]

/-! ### Executing a node -/

namespace Facts

variable {f f' : Facts} {g : Graph} {m n : NodeId} {d : Node} {t u : TypeSet}

lemma isA_narrow (h : t.isA (f.known n) = true) (hu : m = n → t.isA u = true) :
    t.isA ((f.narrow m u).known n) = true := by
  rw [known_narrow]
  split
  · rename_i heq
    exact TypeSet.isA_inter h (hu heq.symm)
  · exact h

lemma isA_filter (hf : f.filter m u = .ok f') (h : t.isA (f.known n) = true)
    (hu : m = n → t.isA u = true) : t.isA (f'.known n) = true := by
  obtain ⟨s, -, hf⟩ := bind_eq_ok.mp hf
  cases hf
  exact isA_narrow h hu

lemma isA_filterEdges {es : List Edge}
    (hf : es.foldlM (fun f e => f.filter e.node e.kind.filter) f = .ok f')
    (h : t.isA (f.known n) = true) (hs : ∀ e ∈ es, e.node = n → t.isA e.kind.filter = true) :
    t.isA (f'.known n) = true := by
  induction es generalizing f with
  | nil =>
    cases hf
    exact h
  | cons e es ih =>
    obtain ⟨he, hs⟩ := List.forall_mem_cons.mp hs
    rw [List.foldlM_cons] at hf
    obtain ⟨f₁, h₁, hf⟩ := bind_eq_ok.mp hf
    exact ih hf (isA_filter h₁ h he) hs

/-- **What is proven of a node stays true** when another one executes, as long as the value is of the
types that this one requires and has checked. -/
lemma isA_execute (hf : f.execute g m = .ok f') (hd : g.nodes[m]? = some d)
    (h : t.isA (f.known n) = true) (hs : ∀ u ∈ FactsAction.filteredBy d n, t.isA u = true) :
    t.isA (f'.known n) = true := by
  unfold FactsAction.filteredBy at hs
  obtain ⟨d', hd', hf⟩ := bind_eq_ok.mp hf
  obtain rfl : d = d' := Option.some.inj (hd.symm.trans (Graph.node_eq_ok.mp hd'))
  obtain ⟨f₀, h₀, hf⟩ := bind_eq_ok.mp hf
  rw [← Array.foldlM_toList] at h₀
  have hedges := isA_filterEdges h₀ h fun e he hn => hs _ (List.mem_append_left _
    (List.mem_map_of_mem (List.mem_filter.mpr ⟨he, by simpa using hn⟩)))
  -- a check narrows what is known of its base
  have hcheck : ∀ (mode : ArrayMode) (e : Edge), FactsAction.checked d.op = [mode.typeSet] →
      d.child 0 = .ok e → e.node = n → t.isA mode.typeSet = true := by
    intro mode e hop he hn
    refine hs _ (List.mem_append_right _ ?_)
    rw [Breach.get_eq_ok.mp he, Option.map_some, hn, if_pos rfl, hop]
    exact List.mem_singleton_self _
  unfold learn at hf
  rcases hop : d.op <;> rw [hop] at hf hcheck
  case checkStructure set =>
    obtain ⟨e, -, hf⟩ := bind_eq_ok.mp hf
    cases hf
    exact hedges
  case checkArray mode | arrayify mode =>
    obtain ⟨e, he, hf⟩ := bind_eq_ok.mp hf
    exact isA_filter hf hedges (hcheck mode e rfl he)
  case call | putById | putByVal =>
    cases hf
    exact hedges
  all_goals
    cases hf
    exact hedges

end Facts
end Speculation
