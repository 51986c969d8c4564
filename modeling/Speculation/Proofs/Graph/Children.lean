import Speculation.Compile
import Speculation.Proofs.Graph.Generated

/-!
Drafts that cannot be finished.

Validation looks at where the children of a node stand, not at how many there are. Choosing what an
edge requires looks at the children of some operations by position, and so does the search for a
store that guards may resume after. `finish_outcomes` says that nothing else can go wrong: if no node
lacks such a child, finishing a draft gives a graph or names what is malformed.

Calls are finished without a callee, too. `frame_outcomes` says that they are what keeps the frame of a
finished graph from being laid out, and that a graph with such a call never compiles.
-/

namespace Speculation

/-! ### How steps end that can fail -/

section Settles

variable {ε α β : Type}

/-- A result of the step has `Q`, and a failure of it has `E`. -/
def Settles (x : Except ε α) (Q : α → Prop) (E : ε → Prop) : Prop :=
  match x with
  | .ok a => Q a
  | .error e => E e

namespace Settles

variable {x : Except ε α} {f : α → Except ε β} {Q Q' : α → Prop} {R : β → Prop} {E E' : ε → Prop}

lemma ok (h : Settles x Q E) {a : α} (hx : x = .ok a) : Q a := by
  rw [hx] at h
  exact h

lemma error (h : Settles x Q E) {e : ε} (hx : x = .error e) : E e := by
  rw [hx] at h
  exact h

lemma mono (h : Settles x Q E) (hQ : ∀ a, Q a → Q' a) (hE : ∀ e, E e → E' e) : Settles x Q' E' := by
  rcases x with e | a
  · exact hE e h
  · exact hQ a h

/-- What is known otherwise of the results. -/
lemma also (h : Settles x Q E) (hQ : ∀ a, x = .ok a → Q' a) : Settles x Q' E := by
  rcases x with e | a
  · exact h
  · exact hQ a rfl

lemma bind (hx : Settles x Q E) (hf : ∀ a, Q a → Settles (f a) R E) : Settles (x >>= f) R E := by
  rcases x with e | a
  · exact hx
  · exact hf a hx

lemma lift {y : Except Breach α} {F : Failure → Prop} (h : Settles y Q fun b => F (.breach b)) :
    Settles (Breach.lift y) Q F := by
  rcases y with b | a <;> exact h

lemma get {xs : Array α} {i : Nat} : Settles (Breach.get xs i) (fun a => xs[i]? = some a)
    fun b => b = .outOfRange ∧ xs.size ≤ i := by
  unfold Breach.get
  split
  · assumption
  · rename_i h
    exact ⟨rfl, Array.getElem?_eq_none_iff.mp h⟩

/-- A pass keeps what its steps keep, and if it comes to its end, every step has done so. -/
lemma foldlM {P : β → Prop} {D : α → Prop} {f : β → α → Except ε β} {xs : List α} {b : β}
    (hf : ∀ a ∈ xs, ∀ b, P b → Settles (f b a) (fun b' => P b' ∧ D a) E) (hb : P b) :
    Settles (xs.foldlM f b) (fun b' => P b' ∧ ∀ a ∈ xs, D a) E := by
  induction xs generalizing b with
  | nil => exact ⟨hb, by simp⟩
  | cons a xs ih =>
    rw [List.foldlM_cons]
    refine (hf a List.mem_cons_self b hb).bind fun b' hb' => ?_
    refine (ih (fun a h => hf a (List.mem_cons_of_mem _ h)) hb'.1).mono (fun c hc => ?_) fun _ => id
    exact ⟨hc.1, List.forall_mem_cons.mpr ⟨hb'.2, hc.2⟩⟩

lemma mapM {D : α → Prop} {f : α → Except ε β} {xs : List α}
    (hf : ∀ a ∈ xs, Settles (f a) (fun _ => D a) E) :
    Settles (xs.mapM f) (fun _ => ∀ a ∈ xs, D a) E := by
  induction xs with
  | nil => exact fun _ h => by cases h
  | cons a xs ih =>
    rw [List.mapM_cons]
    refine (hf a List.mem_cons_self).bind fun b ha => ?_
    refine (ih fun a h => hf a (List.mem_cons_of_mem _ h)).bind fun bs hxs => ?_
    exact List.forall_mem_cons.mpr ⟨ha, hxs⟩

/-- A loop of checks fails as one of them does. -/
lemma forIn {f : α → Except ε Unit} {xs : List α}
    (hf : ∀ a ∈ xs, Settles (f a) (fun _ => True) E) :
    Settles (ForIn.forIn xs PUnit.unit fun x _ => f x >>= fun _ => pure (.yield PUnit.unit))
      (fun _ => True) E := by
  induction xs with
  | nil => trivial
  | cons a xs ih =>
    rw [List.forIn_cons, bind_assoc]
    exact (hf a List.mem_cons_self).bind fun _ _ => ih fun a h => hf a (List.mem_cons_of_mem _ h)

end Settles

end Settles

/-! ### Children that are looked at by position -/

/-- How many children a node has to have for the kinds of its edges to be chosen. -/
def Op.leastChildren : Op → Nat
  | .valueToInt32 | .logicalNot | .branch .. | .getArrayLength _ | .getById _ => 1
  | .switch data =>
    match data.kind with
    | .imm => 1
    | .string => 0
  | .compare _ | .putById _ | .instanceOf => 2
  | .getByVal _ | .stringCharCodeAt | .stringCharAt => 3
  | .putByVal _ => 4
  | _ => 0

def Op.passesOn : Op → Bool
  | .setLocal _ | .int32ToDouble => true
  | _ => false

/-- The node lacks a child that choosing the kinds of its edges looks at. -/
def Node.Short (n : Node) : Prop := n.children.size < n.op.leastChildren

instance (n : Node) : Decidable n.Short :=
  inferInstanceAs (Decidable (n.children.size < n.op.leastChildren))

/-- The node stores or converts a value that it does not have. -/
def Node.Void (n : Node) : Prop := n.op.passesOn = true ∧ n.children = #[]

/-- The arguments of the call cannot be counted. -/
def Node.Calleeless (n : Node) : Prop := n.op = .call ∧ n.children = #[]

namespace Draft

variable {d : Draft} {n : Node} {m : NodeId}

def NamesVars (d : Draft) : Prop := ∀ x ∈ d.nodes, ∀ v, x.op = .setLocal v → v < d.vars.size

/-- The kind of an edge that the node does not have was chosen. -/
def Astray (n : Node) (ks : List (Option UseKind)) : Prop :=
  ∃ i k, ks[i]? = some (some k) ∧ n.children.size ≤ i

lemma astray_iff {ks : List (Option UseKind)} (h : ∀ k ∈ ks, k.isSome = true) :
    Astray n ks ↔ n.children.size < ks.length := by
  constructor
  · rintro ⟨i, k, hk, hi⟩
    exact Nat.lt_of_le_of_lt hi (List.getElem?_eq_some_iff.mp hk).1
  · intro hlt
    obtain ⟨k, hk⟩ := Option.isSome_iff_exists.mp (h _ (List.getElem_mem hlt))
    exact ⟨_, k, by rw [List.getElem?_eq_getElem hlt, hk], Nat.le_refl _⟩

lemma not_astray_of_le {ks : List (Option UseKind)} (h : ks.length ≤ n.children.size) :
    ¬Astray n ks := by
  rintro ⟨i, k, hk, hi⟩
  have := (List.getElem?_eq_some_iff.mp hk).1
  omega

lemma settles_child {i : Nat} (h : i < n.op.leastChildren) : Settles (n.child i)
    (fun _ => i < n.children.size) fun b => b = .outOfRange ∧ n.Short :=
  Settles.get.mono (fun _ h => (Array.getElem?_eq_some_iff.mp h).1)
    fun _ hb => ⟨hb.1, Nat.lt_of_le_of_lt hb.2 h⟩

/-- Choosing the kinds of the edges goes astray or fails just if the node lacks a child. -/
lemma settles_chosenKinds (hv : ∀ v, n.op = .setLocal v → v < d.vars.size) :
    Settles (d.chosenKinds n) (fun ks => n.Short ↔ Astray n ks)
      fun b => b = .outOfRange ∧ n.Short := by
  -- one kind for each edge, or a list as long as the node has to have children
  have heach : ∀ {ks : List (Option UseKind)}, ks.length ≤ n.children.size →
      n.op.leastChildren ≤ n.children.size → (n.Short ↔ Astray n ks) := fun hks h =>
    iff_of_false (Nat.not_lt.mpr h) (not_astray_of_le hks)
  have hlist : ∀ {ks : List (Option UseKind)}, (∀ k ∈ ks, k.isSome = true) →
      ks.length = n.op.leastChildren → (n.Short ↔ Astray n ks) := by
    intro ks hks hlen
    rw [astray_iff hks, hlen, Node.Short]
  have hfirst : ∀ {α : Type} (f : Edge → α), 0 < n.op.leastChildren →
      Settles (n.child 0 >>= fun e => pure (f e)) (fun _ => 0 < n.children.size)
        fun b => b = .outOfRange ∧ n.Short :=
    fun f h => (settles_child h).bind fun _ hlt => hlt
  have hcell : 0 < n.op.leastChildren →
      Settles ((n.child 0 >>= fun e => pure (d.prediction e)) >>= fun t =>
        pure (if t.isA .cell then UseKind.cell else .untyped)) (fun _ => 0 < n.children.size)
        fun b => b = .outOfRange ∧ n.Short :=
    fun h => (hfirst _ h).bind fun _ hlt => hlt
  unfold chosenKinds
  dsimp only
  split
  all_goals rename_i hop
  case h_16 | h_18 | h_19 =>
    have hl : n.op.leastChildren = 1 := by rw [hop]; rfl
    exact (hfirst _ (by omega)).bind fun _ hlt => heach (by simp) (by omega)
  case h_17 =>
    have hl : n.op.leastChildren = 2 := by rw [hop]; rfl
    refine (hfirst _ (by omega)).bind fun l _ => (settles_child (by omega)).bind fun r hlt => ?_
    refine heach ?_ (by omega)
    repeat' split
    all_goals simp <;> omega
  case h_20 v =>
    refine (Settles.get.mono (fun _ => id) fun b hb => ?_).bind fun x _ => ?_
    · exact absurd (hv v hop) (Nat.not_lt.mpr hb.2)
    · exact heach (by simp) (by rw [hop]; exact Nat.zero_le _)
  case h_26 =>
    have hl : n.op.leastChildren = 1 := by rw [hop]; rfl
    exact (settles_child (by omega)).bind fun _ hlt => heach (by simp) (by omega)
  case h_27 | h_28 | h_29 | h_30 => exact hlist (by simp) (by rw [hop]; rfl)
  case h_31 =>
    have hl : n.op.leastChildren = 1 := by rw [hop]; rfl
    exact (hcell (by omega)).bind fun _ _ => hlist (by simp) (by rw [hop]; rfl)
  case h_32 | h_33 =>
    have hl : n.op.leastChildren = 2 := by rw [hop]; rfl
    exact (hcell (by omega)).bind fun _ _ => hlist (by simp) (by rw [hop]; rfl)
  case h_34 data =>
    split
    · rename_i hkind
      have hl : n.op.leastChildren = 1 := by
        rw [hop, Op.leastChildren, hkind]
      exact (hfirst _ (by omega)).bind fun _ hlt => heach (by simp) (by omega)
    · rename_i hkind
      have hl : n.op.leastChildren = 0 := by
        rw [hop, Op.leastChildren, hkind]
      exact heach (by simp) (by omega)
  case h_35 =>
    refine heach (by simp) ?_
    rw [Op.leastChildren]
    · exact Nat.zero_le _
    all_goals assumption
  all_goals exact heach (by simp) (by rw [hop]; exact Nat.zero_le _)

/-- Edges whose kind was given exist. -/
lemma Built.fixedEdges (h : Built d) : ∀ p ∈ d.fixedEdges, ∃ x, d.nodes[p.1]? = some x ∧
    p.2 < x.children.size := by
  -- a node keeps its children, and so the edges that it had are still there
  have hmodify : ∀ {d : Draft} {m : NodeId} {f : Node → Node},
      (∀ x, (f x).children.size = x.children.size) →
      ∀ {p : NodeId × Nat}, (∃ x, d.nodes[p.1]? = some x ∧ p.2 < x.children.size) →
        ∃ x, (d.modifyNode m f).nodes[p.1]? = some x ∧ p.2 < x.children.size := by
    rintro d m f hf p ⟨x, hx, hlt⟩
    rw [modifyNode, Array.getElem?_modify, hx]
    split
    · exact ⟨f x, rfl, by rw [hf]; exact hlt⟩
    · exact ⟨x, rfl, hlt⟩
  induction h with
  | new => simp
  | addArgument h t f ih => exact ih
  | addVariable h t f ih => exact ih
  | identifier h name ih =>
    unfold Draft.identifier
    split <;> exact ih
  | addInlineFrame h callee caller ih => exact ih
  | profile h b ih => exact ih
  | addBlock h ih => exact ih
  | select h b ih => exact ih
  | setUnreachable h b ih => exact ih
  | setOsrTarget h b ih => exact ih
  | addLiveAtHead h b v ih => exact ih
  | setOrigin h o ih => exact ih
  | addNode h hid op children t u ih =>
    have hpush : ∀ (d : Draft) (y : Node) (p : NodeId × Nat),
        (∃ x, d.nodes[p.1]? = some x ∧ p.2 < x.children.size) →
        ∃ x, (d.nodes.push y)[p.1]? = some x ∧ p.2 < x.children.size := by
      rintro d y p ⟨x, hx, hlt⟩
      have hp := (Array.getElem?_eq_some_iff.mp hx).1
      exact ⟨x, by rw [Array.getElem?_push_lt hp, ← Array.getElem?_eq_getElem hp, hx], hlt⟩
    unfold Draft.addNode
    dsimp only
    split <;> exact fun p hp => hpush _ _ p (ih p hp)
  | addFlags h n f ih =>
    exact fun p hp => hmodify (f := fun x => { x with flags := x.flags.union f }) (fun _ => rfl)
      (ih p hp)
  | setProven h n t ih =>
    exact fun p hp => hmodify (f := fun x => { x with proven := t }) (fun _ => rfl) (ih p hp)
  | setUseKind h n i kind hk ih =>
    obtain ⟨x, hx, hk'⟩ := bind_eq_ok.mp hk
    obtain ⟨e, he, -⟩ := bind_eq_ok.mp hk'
    have hx := Breach.get_eq_ok.mp hx
    have hi := (Array.getElem?_eq_some_iff.mp (Breach.get_eq_ok.mp he)).1
    rw [setUseKind_eq_ok hk]
    intro p hp
    refine hmodify (fun _ => Array.size_modify) ?_
    obtain rfl | hp := List.mem_cons.mp hp
    · exact ⟨x, hx, hi⟩
    · exact ih p hp

/-- Fixing the edges of a node fails just if the node lacks a child. -/
lemma settles_fixNode (hb : Built d) (hn : d.nodes[m]? = some n)
    (hv : ∀ v, n.op = .setLocal v → v < d.vars.size) :
    Settles (d.fixNode m n) (fun _ => ¬n.Short) fun b => b = .outOfRange ∧ n.Short := by
  refine (settles_chosenKinds hv).bind fun ks hks => ?_
  refine (Settles.foldlM (P := fun x => x.children.size = n.children.size)
    (D := fun p : Option UseKind × Nat => p.1.isSome = true → p.2 < n.children.size)
    (fun p hp x hx => ?_) rfl).mono (fun x hx hshort => ?_) fun _ => id
  · rcases p with ⟨_ | kind, i⟩
    · exact ⟨hx, by simp⟩
    · dsimp only
      split
      · rename_i hfixed
        obtain ⟨y, hy, hi⟩ := hb.fixedEdges (m, i) (by simpa using hfixed)
        rw [hn] at hy
        cases hy
        exact ⟨hx, fun _ => hi⟩
      · refine (Settles.get.mono (fun _ h => (Array.getElem?_eq_some_iff.mp h).1) ?_).bind
          fun e hi => ⟨by simpa using hx, fun _ => hx ▸ hi⟩
        intro b hb
        have hk := List.mem_zipIdx_iff_getElem?.mp hp
        exact ⟨hb.1, hks.mpr ⟨i, kind, by simpa using hk, hx ▸ hb.2⟩⟩
  · obtain ⟨i, k, hk, hi⟩ := hks.mp hshort
    have := hx.2 (some k, i) (List.mem_zipIdx_iff_getElem?.mpr (by simpa using hk)) rfl
    omega

/-! ### Validation -/

def Named (f : Failure) : Prop := ∃ g, f = .compile (.graph g)

lemma settles_validateBlock (hs : d.Sane) {b : BlockId} {blk : Block}
    (hb : blk ∈ d.blocks.toList) : Settles (d.validateBlock b blk) (fun _ => True) Named := by
  have hnode : ∀ m ∈ blk.nodes.toList, ∀ seen,
      Settles (d.validateNode b seen m) (fun _ => True ∧ True) Named := by
    intro m hm seen
    have hlt := hs.bounded (List.mem_append_left _ (List.mem_flatMap.mpr ⟨blk, hb, hm⟩))
    refine Settles.bind (Settles.lift (Settles.get.mono (fun _ => id) fun _ h => ?_)) fun x _ => ?_
    · exact absurd h.2 (Nat.not_le.mpr hlt)
    · split
      · exact ⟨_, rfl⟩
      · exact ⟨trivial, trivial⟩
  have hthrow : ∀ (c : Prop) [Decidable c], Settles
      (if c then throw (.compile (.graph (.noTerminal b))) else pure () : Except Failure Unit)
      (fun _ => True) Named := by
    intro c _
    split
    · exact ⟨_, rfl⟩
    · trivial
  unfold validateBlock
  rw [← Array.foldlM_toList]
  exact (Settles.foldlM (P := fun _ => True) (fun m hm seen _ => hnode m hm seen) trivial).bind
    fun _ _ => hthrow _

lemma settles_validate (hs : d.Sane) : Settles d.validate (fun _ => True) Named := by
  unfold validate
  rcases hempty : d.blocks.isEmpty with _ | _
  · rcases d.orphans[0]? with _ | id
    · refine (Settles.forIn fun p hp => settles_validateBlock hs ?_).bind fun _ _ => trivial
      obtain ⟨hi, hblk⟩ := List.mem_zipIdx' hp
      exact hblk ▸ List.getElem_mem hi
    · exact ⟨_, rfl⟩
  · exact ⟨_, rfl⟩

/-! ### The search for stores -/

variable {g g' : Graph}

def Hollow (nodes : Array Node) : Prop := ∃ x ∈ nodes, x.Void

/-- A search over nodes that exist fails only at a store or conversion of nothing. -/
lemma settles_forwardStoreFrom {ids : List NodeId} (hids : ∀ m ∈ ids, m < g.nodes.size) (i : Nat)
    (value : NodeId) (converted : Bool) :
    Settles (g.forwardStoreFrom ids i value converted)
      (fun r => ∀ k, r = some k → k < i + ids.length)
      fun b => b = .outOfRange ∧ Hollow g.nodes := by
  have hnone : ∀ m k, (none : Option Nat) = some k → k < m := fun _ _ h => by cases h
  induction ids generalizing i value converted with
  | nil => exact hnone _
  | cons m ids ih =>
    obtain ⟨hm, hids⟩ := List.forall_mem_cons.mp hids
    have hrest : ∀ value converted, Settles (g.forwardStoreFrom ids (i + 1) value converted)
        (fun r => ∀ k, r = some k → k < i + (m :: ids).length)
        fun b => b = .outOfRange ∧ Hollow g.nodes :=
      fun value converted => (ih hids (i + 1) value converted).mono
        (fun r hr k hk => by have := hr k hk; rw [List.length_cons]; omega) fun _ => id
    have hchild : ∀ {x : Node}, g.nodes[m]? = some x → x.op.passesOn = true →
        Settles (x.child 0) (fun _ => True)
          fun b => b = .outOfRange ∧ Hollow g.nodes := by
      intro x hx hop
      refine Settles.get.mono (fun _ _ => trivial) fun b hb =>
        ⟨hb.1, x, Array.mem_of_getElem? hx, hop, ?_⟩
      exact Array.eq_empty_of_size_eq_zero (Nat.le_zero.mp hb.2)
    rw [Graph.forwardStoreFrom]
    refine (Settles.get.mono (fun _ => id) fun b hb => absurd hb.2 (Nat.not_le.mpr hm)).bind
      fun x hx => ?_
    split
    case h_4 hop =>
      split
      · exact hnone _
      · refine (hchild hx (by rw [hop]; rfl)).bind fun e _ => ?_
        split
        · exact hrest m true
        · exact hnone _
    case h_5 hop =>
      refine (hchild hx (by rw [hop]; rfl)).bind fun e _ => ?_
      split
      · intro k hk
        cases hk
        simp
      · exact hnone _
    case h_6 => exact hnone _
    all_goals exact hrest value converted

lemma Noted.hollow (h : Noted g g') (hh : Hollow g'.nodes) : Hollow g.nodes := by
  obtain ⟨x, hx, hop, hnone⟩ := hh
  obtain ⟨m, hm⟩ := Array.mem_iff_getElem?.mp hx
  have hn := h.nodes m
  rw [hm] at hn
  obtain ⟨y, hy, hxy⟩ := Option.map_eq_some_iff.mp hn.symm
  have hop' : y.op = x.op := (congrArg Node.op hxy :)
  have hchildren : y.children = x.children := (congrArg Node.children hxy :)
  exact ⟨y, Array.mem_of_getElem? hy, hop' ▸ hop, hchildren.trans hnone⟩

lemma settles_annotateForward {b : BlockId} {blk : Block} {pos : Nat} (h : Noted g g')
    (hb : g.blocks[b]? = some blk) (hin : ∀ m ∈ blk.nodes, m < g.nodes.size)
    (hm : blk.nodes[pos]? = some m) :
    Settles (annotateForward g' b pos m) (Noted g) fun b => b = .outOfRange ∧ Hollow g.nodes := by
  have hb' : g'.blocks[b]? = some blk := by rw [congrArg Graph.blocks h.graph]; exact hb
  have hlt : ∀ k ∈ blk.nodes, k < g'.nodes.size := fun k hk => h.size ▸ hin k hk
  have hblock : Settles (g'.block b) (fun c => c = blk)
      fun b => b = .outOfRange ∧ Hollow g.nodes := by
    refine Settles.get.mono (fun c hc => ?_) fun _ he => ?_
    · rw [hb'] at hc
      exact (Option.some.inj hc).symm
    · exact absurd he.2 (Nat.not_le.mpr (Array.getElem?_eq_some_iff.mp hb').1)
  have hsearch : Settles (g'.findForwardStore b pos) (fun r => ∀ k, r = some k → k < blk.nodes.size)
      fun b => b = .outOfRange ∧ Hollow g.nodes := by
    refine hblock.bind fun c hc => ?_
    cases hc
    simp only [hm]
    refine (settles_forwardStoreFrom (fun k hk => hlt k ?_) _ _ _).mono (fun r hr k hk => ?_)
      fun e he => ?_
    · exact Array.mem_toList_iff.mp (List.mem_of_mem_drop hk)
    · have := hr k hk
      have := (Array.getElem?_eq_some_iff.mp hm).1
      rw [List.length_drop, Array.length_toList] at *
      omega
    · exact ⟨he.1, h.hollow he.2⟩
  refine Settles.also (Q := fun _ => True) ?_ fun _ hok => annotateForward_noted hok h
  unfold annotateForward
  refine (Settles.get.mono (fun _ => id) fun _ he => ?_).bind fun x hx => ?_
  · exact absurd he.2 (Nat.not_le.mpr (hlt m (Array.mem_of_getElem? hm)))
  split
  case h_3 => trivial
  all_goals
    refine hsearch.bind fun r hr => ?_
    rcases r with _ | store
    · trivial
    · refine hblock.bind fun c hc => ?_
      cases hc
      refine (Settles.get.mono (fun _ => id) fun _ he => ?_).bind fun _ _ => trivial
      exact absurd he.2 (Nat.not_le.mpr (hr store rfl))

lemma settles_annotateForwards (hin : ∀ blk ∈ g.blocks, ∀ m ∈ blk.nodes, m < g.nodes.size) :
    Settles (annotateForwards g) (fun _ => True) fun b => b = .outOfRange ∧ Hollow g.nodes := by
  refine (Settles.foldlM (P := Noted g) (D := fun _ => True) (fun p hp g₁ h₁ => ?_)
    ⟨rfl, fun _ => rfl⟩).mono (fun _ _ => trivial) fun _ => id
  obtain ⟨blk, b⟩ := p
  have hb : g.blocks[b]? = some blk := by simpa using List.mem_zipIdx_iff_getElem?.mp hp
  refine (Settles.foldlM (P := Noted g) (D := fun _ => True) (fun q hq g₂ h₂ => ?_) h₁).mono
    (fun _ h => ⟨h.1, trivial⟩) fun _ => id
  obtain ⟨m, pos⟩ := q
  have hm : blk.nodes[pos]? = some m := by simpa using List.mem_zipIdx_iff_getElem?.mp hq
  exact (settles_annotateForward h₂ hb (hin blk (Array.mem_of_getElem? hb)) hm).mono
    (fun _ h => ⟨h, trivial⟩) fun _ => id

/-! ### Finishing -/

def Lacks (d : Draft) : Prop := ∃ x ∈ d.nodes, x.Short ∨ x.Void

lemma nodes_of_mem_zipIdx {p : Node × NodeId} (h : p ∈ d.nodes.toList.zipIdx) :
    d.nodes[p.2]? = some p.1 := by
  simpa using List.mem_zipIdx_iff_getElem?.mp h

lemma settles_fixNodes (hd : Built d) (hv : d.NamesVars) :
    Settles (d.nodes.toList.zipIdx.mapM fun (n, m) => d.fixNode m n)
      (fun _ => ∀ p ∈ d.nodes.toList.zipIdx, ¬p.1.Short) fun b => b = .outOfRange ∧ d.Lacks := by
  refine Settles.mapM fun p hp => ?_
  have hmem := Array.mem_of_getElem? (nodes_of_mem_zipIdx hp)
  exact (settles_fixNode hd (nodes_of_mem_zipIdx hp) (hv _ hmem)).mono (fun _ h => h)
    fun _ hb => ⟨hb.1, _, hmem, .inl hb.2⟩

lemma settles_finish (hd : Built d) (hv : d.NamesVars) :
    Settles d.finish (fun _ => ∀ x ∈ d.nodes, ¬x.Short)
      fun f => (Named f ∧ d.validate = .error f) ∨ f = .breach .outOfRange ∧ d.Lacks := by
  have hs := hd.sane
  have hvalid : Settles d.validate (fun _ => True) fun f => Named f ∧ d.validate = .error f := by
    rcases h : d.validate with f | _
    · exact ⟨(settles_validate hs).error h, rfl⟩
    · trivial
  have hfix := settles_fixNodes hd hv
  have hfix' := (hfix.mono (fun _ => id) fun b hb => (.inr ⟨by rw [hb.1], hb.2⟩ :
    (Named (.breach b) ∧ d.validate = .error (.breach b)) ∨
      Failure.breach b = .breach .outOfRange ∧ d.Lacks)).also fun fixed hfixed =>
    And.intro hfixed (hfix.ok hfixed)
  refine (hvalid.mono (fun _ => id) fun _ => .inl).bind fun _ _ => ?_
  refine (Settles.lift hfix').bind fun fixed h => ?_
  obtain ⟨hfixed, hfull⟩ := h
  have hin : ∀ blk ∈ (d.slotted (countRefs fixed.toArray d.blocks)).blocks, ∀ m ∈ blk.nodes,
      m < (d.slotted (countRefs fixed.toArray d.blocks)).nodes.size := by
    intro blk hblk m hm
    rw [size_slotted hfixed]
    exact hs.bounded (List.mem_append_left _ (List.mem_flatMap.mpr
      ⟨blk, Array.mem_toList_iff.mpr hblk, Array.mem_toList_iff.mpr hm⟩))
  refine Settles.lift ((settles_annotateForwards hin).mono (fun _ _ x hx => ?_) ?_)
  · obtain ⟨m, hm⟩ := Array.mem_iff_getElem?.mp hx
    exact hfull (x, m) (List.mem_zipIdx_iff_getElem?.mpr (by simpa using hm))
  · rintro b ⟨rfl, y, hy, hop, hnone⟩
    obtain ⟨m, hm⟩ := Array.mem_iff_getElem?.mp hy
    obtain ⟨x, f, z, hst⟩ := stages_slotted hfixed hm
    obtain ⟨hop', -, -, hchildren, -⟩ := hst.kept
    have hempty : x.children = #[] := by
      have := (fixNode_fixed hst.fix).children
      rw [← hchildren, hnone] at this
      simpa using this.symm
    exact .inr ⟨rfl, x, Array.mem_of_getElem? hst.draft, .inr ⟨hop' ▸ hop, hempty⟩⟩

/-- Finishing a draft gives a graph or names what is malformed, unless a node lacks a child that is
looked at by position; and a valid draft in which a node lacks a child that its operation has to have
is never finished. -/
theorem finish_outcomes (hd : Built d) (hv : d.NamesVars) :
    ((∃ g, d.finish = .ok g) ∨ (∃ f, d.finish = .error (.compile (.graph f))) ∨
      d.finish = .error (.breach .outOfRange) ∧ d.Lacks) ∧
    ((∃ x ∈ d.nodes, x.Short) → d.validate = .ok () →
      d.finish = .error (.breach .outOfRange)) := by
  have hends := settles_finish hd hv
  rcases hf : d.finish with f | g
  · rcases hends.error hf with ⟨⟨f, rfl⟩, hinvalid⟩ | ⟨rfl, hlacks⟩
    · refine ⟨.inr (.inl ⟨f, rfl⟩), fun _ hvalid => ?_⟩
      rw [hinvalid] at hvalid
      cases hvalid
    · exact ⟨.inr (.inr ⟨rfl, hlacks⟩), fun _ _ => rfl⟩
  · refine ⟨.inl ⟨g, rfl⟩, ?_⟩
    rintro ⟨x, hx, hshort⟩ -
    exact absurd hshort (hends.ok hf x hx)

theorem finish_outcomes_hinted : (∃ g, hinted.finish = .ok g) ∨
    ∃ f, hinted.finish = .error (.compile (.graph f)) := by
  have hbuilt : Built hinted := by
    refine .addNode (.addNode (.addNode (.addNode (.addNode ?_ ?_ _ _ _ _) ?_ _ _ _ _) ?_ _ _ _ _)
      ?_ _ _ _ _) ?_ _ _ _ _
    · exact (Built.new "hinted" .function).addBlock.select 0 |>.addVariable .int32 .value
    all_goals decide
  have hfull : ∀ x ∈ hinted.nodes, ¬x.Short ∧ x.op.passesOn = false := by decide +kernel
  have hvars : hinted.NamesVars := by
    intro x hx v hop
    have := (hfull x hx).2
    rw [hop] at this
    cases this
  rcases (finish_outcomes hbuilt hvars).1 with hok | hmalformed | ⟨-, x, hx, hshort | ⟨hop, -⟩⟩
  · exact .inl hok
  · exact .inr hmalformed
  · exact absurd hshort (hfull x hx).1
  · rw [(hfull x hx).2] at hop
    cases hop

def childless : Draft :=
  let d := (({ name := "f", kind := .function } : Draft).addArgument .other .value).2.addBlock.select 0
  let d := (d.addNode .valueToInt32 [] .empty).2
  (d.addNode .ret [0] .empty).2

/-- A draft that validation finds nothing wrong with need not be finished. -/
theorem finish_childless : ¬∀ d : Draft, Built d → d.NamesVars →
    (∃ g, d.finish = .ok g) ∨ ∃ f, d.finish = .error (.compile (.graph f)) := by
  intro h
  have hbuilt : Built childless := by
    refine .addNode (.addNode ?_ ?_ _ _ _ _) ?_ _ _ _ _
    · exact ((Built.new "f" .function).addArgument .other .value).addBlock.select 0
    all_goals decide
  have hvars : childless.NamesVars := by
    intro x hx v hop
    have hnone : ∀ x ∈ childless.nodes, x.op.passesOn = false := by decide +kernel
    have := hnone x hx
    rw [hop] at this
    cases this
  have hfinish : childless.finish = .error (.breach .outOfRange) := by rfl
  rcases h childless hbuilt hvars with ⟨g, hg⟩ | ⟨f, hf⟩
  · rw [hfinish] at hg
    cases hg
  · rw [hfinish] at hf
    cases hf

/-! ### The frame of what is finished -/

lemma settles_maxCallArgs {g : Graph} : Settles g.maxCallArgs (fun _ => ∀ x ∈ g.nodes, ¬x.Calleeless)
    fun b => b = .overflow ∧ ∃ x ∈ g.nodes, x.Calleeless := by
  rw [Graph.maxCallArgs, ← Array.foldlM_toList]
  refine (Settles.foldlM (P := fun _ => True) (D := fun x => ¬x.Calleeless) (fun x hx most _ => ?_) trivial).mono
    (fun _ h x hx => h.2 x (Array.mem_toList_iff.mpr hx)) fun _ => id
  split
  · rename_i hop
    split
    · rename_i hnone
      exact ⟨rfl, x, Array.mem_toList_iff.mp hx, hop, Array.isEmpty_iff.mp hnone⟩
    · rename_i hsome
      exact ⟨trivial, fun h => hsome (Array.isEmpty_iff.mpr h.2)⟩
  · rename_i hop
    exact ⟨trivial, fun h => hop h.1⟩

lemma calleeless_finish {g : Graph} (hfin : d.finish = .ok g) :
    (∃ x ∈ g.nodes, x.Calleeless) ↔ ∃ x ∈ d.nodes, x.Calleeless := by
  obtain ⟨-, fixed, h⟩ := finish_finished hfin
  have hkept : ∀ {n : NodeId} {x m f z : Node}, Stages d (countRefs fixed.toArray d.blocks) n x m f z →
      (x.Calleeless ↔ m.Calleeless) := by
    intro n x m f z hst
    obtain ⟨hop, -, -, hchildren, -⟩ := hst.kept
    have hsize := congrArg Array.size (fixNode_fixed hst.fix).children
    rw [Array.size_map, Array.size_map] at hsize
    rw [Node.Calleeless, Node.Calleeless, hop, hchildren, ← Array.size_eq_zero_iff, hsize, Array.size_eq_zero_iff]
  constructor
  · rintro ⟨x, hx, hcall⟩
    obtain ⟨n, hn⟩ := Array.mem_iff_getElem?.mp hx
    obtain ⟨m, f, z, hst⟩ := h.node hn
    exact ⟨m, Array.mem_of_getElem? hst.draft, (hkept hst).mp hcall⟩
  · rintro ⟨m, hm, hcall⟩
    obtain ⟨n, hn⟩ := Array.mem_iff_getElem?.mp hm
    obtain ⟨x, hx⟩ := h.total (Array.getElem?_eq_some_iff.mp hn).1
    obtain ⟨m', f, z, hst⟩ := h.node hx
    obtain rfl := Option.some.inj (hn.symm.trans hst.draft)
    exact ⟨x, Array.mem_of_getElem? hx, (hkept hst).mpr hcall⟩

/-- Finishing does not look for the callees of calls. The frame of what is finished is laid out if every
call has its callee, and a graph with a call that has none never compiles. -/
theorem frame_outcomes {g : Graph} (hfin : d.finish = .ok g) :
    ((∃ x ∈ d.nodes, x.Calleeless) → ∀ (p : Plan) (base : UInt64), p.graph = g →
      (p.compile base).outcome = .error (.breach .overflow)) ∧
    ((∀ x ∈ d.nodes, ¬x.Calleeless) → ∃ f, Lowering.FrameLayout.ofGraph g = .ok f) := by
  have hsettles := settles_maxCallArgs (g := g)
  rcases h : g.maxCallArgs with b | most
  · obtain ⟨rfl, hcall⟩ := hsettles.error h
    refine ⟨?_, fun hnone => ?_⟩
    · rintro - p base rfl
      have hlayout : Lowering.FrameLayout.ofGraph p.graph = .error .overflow := by
        rw [Lowering.FrameLayout.ofGraph, h]
        rfl
      rw [Plan.compile, Plan.build, Plan.lower, hlayout]
    · obtain ⟨x, hx, hc⟩ := (calleeless_finish hfin).mp hcall
      exact absurd hc (hnone x hx)
  · refine ⟨fun hcall => ?_, fun _ => ⟨_, by rw [Lowering.FrameLayout.ofGraph, h]; rfl⟩⟩
    obtain ⟨x, hx, hc⟩ := (calleeless_finish hfin).mpr hcall
    exact absurd hc (hsettles.ok h x hx)

end Draft
end Speculation
