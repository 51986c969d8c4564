import Speculation.Lowering.Block
import Speculation.Proofs.Graph.Built

/-!
Reasoning about lowering steps.

A step ends in one of three ways: with a result, by terminating the current node, or in a failure
of the compile. `Leads` says what holds in each case; its rules take a step apart along its
binds, so that a specification is needed only for the steps that change something.
-/

namespace Speculation

def Facts.known (f : Facts) (n : NodeId) : TypeSet := f.proven.getD n .empty

lemma Facts.provenOf_eq_ok {f : Facts} {n : NodeId} {t : TypeSet} :
    f.provenOf n = .ok t ↔ n < f.proven.size ∧ t = f.known n := by
  rw [provenOf, Breach.get_eq_ok, known, Array.getD_eq_getD_getElem?]
  by_cases h : n < f.proven.size <;> simp [h, eq_comm]

namespace Lowering

variable {α β : Type} {env : Env} {s s' : State}

/-- How a step ends, and in which state. -/
def outcome (x : Lower α) (env : Env) (s : State) : Except Stop α × State :=
  ((x.run env).run).run s

/-- From state `s` the step gives a result with `Q`, or terminates the node with `T`, or fails with
`F`. -/
def Leads (env : Env) (s : State) (x : Lower α) (Q : α → State → Prop) (T : State → Prop)
    (F : Failure → State → Prop) : Prop :=
  match outcome x env s with
  | (.ok a, s') => Q a s'
  | (.error .terminated, s') => T s'
  | (.error (.failed f), s') => F f s'

variable {Q Q' : α → State → Prop} {T T' : State → Prop} {F F' : Failure → State → Prop}

lemma Leads.mono {x : Lower α} (h : Leads env s x Q T F) (hQ : ∀ a s', Q a s' → Q' a s')
    (hT : ∀ s', T s' → T' s') (hF : ∀ f s', F f s' → F' f s') : Leads env s x Q' T' F' := by
  unfold Leads at h ⊢
  rcases hx : outcome x env s with ⟨e | a, s'⟩
  · rw [hx] at h
    cases e with
    | terminated => exact hT _ h
    | failed f => exact hF _ _ h
  · rw [hx] at h
    exact hQ _ _ h

lemma Leads.weaken {x : Lower α} (h : Leads env s x Q T F) (hQ : ∀ a s', Q a s' → Q' a s') :
    Leads env s x Q' T F :=
  h.mono hQ (fun _ h => h) (fun _ _ h => h)

lemma Leads.and {x : Lower α} (h : Leads env s x Q T F) (h' : Leads env s x Q' T' F') :
    Leads env s x (fun a s' => Q a s' ∧ Q' a s') (fun s' => T s' ∧ T' s')
      fun f s' => F f s' ∧ F' f s' := by
  unfold Leads at h h' ⊢
  rcases hx : outcome x env s with ⟨(_ | f) | a, s'⟩ <;> rw [hx] at h h' <;> exact ⟨h, h'⟩

/-- What is known otherwise of a step that succeeds. -/
lemma Leads.also {x : Lower α} (h : Leads env s x Q (fun _ => False) fun _ _ => False)
    (h' : Leads env s x Q' T F) :
    Leads env s x (fun a s' => Q a s' ∧ Q' a s') (fun _ => False) fun _ _ => False :=
  (h.and h').mono (fun _ _ h => h) (fun _ h => h.1) fun _ _ h => h.1

/-- A run that gave a result satisfies what the step leads to. -/
lemma Leads.result {x : Lower α} (h : Leads env s x Q T F) {a : α}
    (hx : outcome x env s = (.ok a, s')) : Q a s' := by
  unfold Leads at h
  rw [hx] at h
  exact h

lemma Leads.failure {x : Lower α} (h : Leads env s x Q T F) {f : Failure}
    (hx : outcome x env s = (.error (.failed f), s')) : F f s' := by
  unfold Leads at h
  rw [hx] at h
  exact h

/-- What holds of every result and of every failure holds of how the step ends. -/
lemma Leads.always {x : Lower α} {P : State → Prop} (h : Leads env s x (fun _ => P) P fun _ => P) :
    P (outcome x env s).2 := by
  unfold Leads at h
  rcases hx : outcome x env s with ⟨(_ | f) | a, s'⟩ <;> rw [hx] at h <;> exact h

lemma outcome_bind (x : Lower α) (f : α → Lower β) :
    outcome (x >>= f) env s =
      match outcome x env s with
      | (.ok a, s') => outcome (f a) env s'
      | (.error e, s') => (.error e, s') := by
  simp only [outcome, ReaderT.run_bind, ExceptT.run_bind, StateT.run_bind]
  rcases ((x.run env).run).run s with ⟨e | a, s'⟩ <;> rfl

@[simp] lemma outcome_pure (a : α) : outcome (pure a) env s = (.ok a, s) := rfl

lemma leads_bind {x : Lower β} {f : β → Lower α} :
    Leads env s (x >>= f) Q T F ↔
      Leads env s x (fun a s' => Leads env s' (f a) Q T F) T F := by
  unfold Leads
  rw [outcome_bind]
  rcases outcome x env s with ⟨e | a, s'⟩
  · cases e <;> rfl
  · rfl

/-! ### Rules for the primitive steps -/

@[simp] lemma leads_pure {a : α} : Leads env s (pure a) Q T F ↔ Q a s := Iff.rfl

@[simp] lemma leads_get {Q : State → State → Prop} : Leads env s get Q T F ↔ Q s s := Iff.rfl

@[simp] lemma leads_read {Q : Env → State → Prop} : Leads env s read Q T F ↔ Q env s := Iff.rfl

@[simp] lemma leads_set {Q : PUnit → State → Prop} : Leads env s (set s') Q T F ↔ Q () s' := Iff.rfl

@[simp] lemma leads_modify {f : State → State} {Q : PUnit → State → Prop} :
    Leads env s (modify f) Q T F ↔ Q () (f s) := Iff.rfl

@[simp] lemma leads_modifyGet {f : State → α × State} :
    Leads env s (modifyGet f) Q T F ↔ Q (f s).1 (f s).2 := Iff.rfl

@[simp] lemma leads_terminated : Leads env s (throw .terminated : Lower α) Q T F ↔ T s := Iff.rfl

@[simp] lemma leads_failed {f : Failure} :
    Leads env s (throw (.failed f) : Lower α) Q T F ↔ F f s := Iff.rfl

@[simp] lemma leads_fail {e : CompileError} :
    Leads env s (fail e : Lower α) Q T F ↔ F (.compile e) s := Iff.rfl

@[simp] lemma leads_internal {f : InternalFault} :
    Leads env s (internal f : Lower α) Q T F ↔ F (.compile (.internal f)) s := Iff.rfl

@[simp] lemma leads_check {x : Except CompileError α} :
    Leads env s (check x) Q T F ↔
      (∀ a, x = .ok a → Q a s) ∧ ∀ e, x = .error e → F (.compile e) s := by
  cases x <;> simp [check]

@[simp] lemma leads_assume {x : Except Breach α} :
    Leads env s (assume x) Q T F ↔
      (∀ a, x = .ok a → Q a s) ∧ ∀ b, x = .error b → F (.breach b) s := by
  cases x <;> simp [assume]

lemma leads_assume_ok {a : α} : Leads env s (assume (.ok a)) Q T F ↔ Q a s := by
  simp

@[simp] lemma leads_map {x : Lower β} {f : β → α} :
    Leads env s (f <$> x) Q T F ↔ Leads env s x (fun a => Q (f a)) T F := by
  rw [← bind_pure_comp, leads_bind]
  rfl

@[simp] lemma leads_discard {x : Lower β} {Q : PUnit → State → Prop} :
    Leads env s (discard x) Q T F ↔ Leads env s x (fun _ => Q ()) T F :=
  leads_map

lemma leads_ite {c : Prop} [Decidable c] {x y : Lower α} :
    Leads env s (if c then x else y) Q T F ↔
      (c → Leads env s x Q T F) ∧ (¬c → Leads env s y Q T F) := by
  split <;> simp_all

lemma outcome_tryCatch {x : Lower α} {h : Stop → Lower α} :
    outcome (tryCatch x h) env s =
      match outcome x env s with
      | (.ok a, s') => (.ok a, s')
      | (.error e, s') => outcome (h e) env s' := by
  show (tryCatch (x.run env) fun e => (h e).run env).run.run s = _
  simp only [outcome, tryCatch, tryCatchThe, MonadExceptOf.tryCatch, ExceptT.tryCatch,
    ExceptT.run, ExceptT.mk, bind, StateT.bind, StateT.run]
  rcases x.run env s with ⟨e | a, s'⟩ <;> rfl

lemma leads_tryCatch {x : Lower α} {h : Stop → Lower α} :
    Leads env s (tryCatch x h) Q T F ↔
      Leads env s x Q (fun s' => Leads env s' (h .terminated) Q T F)
        (fun f s' => Leads env s' (h (.failed f)) Q T F) := by
  unfold Leads
  rw [outcome_tryCatch]
  rcases outcome x env s with ⟨e | a, s'⟩
  · cases e <;> rfl
  · rfl

section Known

variable {e : Edge} {t : TypeSet} {Q : Bool → State → Prop}

lemma leads_proven {Q : TypeSet → State → Prop} :
    Leads env s (proven e) Q T F ↔
      (e.node < s.facts.proven.size → Q (s.facts.known e.node) s) ∧
        (s.facts.proven.size ≤ e.node → F (.breach .outOfRange) s) := by
  rw [proven, leads_bind, leads_get, leads_assume]
  refine and_congr ⟨fun h hlt => h _ (Facts.provenOf_eq_ok.mpr ⟨hlt, rfl⟩), fun h t ht => ?_⟩
    ⟨fun h hle => h _ (Breach.get_of_le hle), fun h b hb => ?_⟩
  · obtain ⟨hlt, rfl⟩ := Facts.provenOf_eq_ok.mp ht
    exact h hlt
  · obtain ⟨hle, rfl⟩ := Breach.get_eq_error.mp hb
    exact h hle

lemma leads_mayBe :
    Leads env s (mayBe e t) Q T F ↔
      (e.node < s.facts.proven.size → Q ((s.facts.known e.node).intersects t) s) ∧
        (s.facts.proven.size ≤ e.node → F (.breach .outOfRange) s) :=
  leads_bind.trans leads_proven

lemma leads_provenIs :
    Leads env s (provenIs e t) Q T F ↔
      (e.node < s.facts.proven.size → Q ((s.facts.known e.node).subset t) s) ∧
        (s.facts.proven.size ≤ e.node → F (.breach .outOfRange) s) :=
  leads_bind.trans leads_proven

/-- Looking something up changes nothing. -/
lemma looks_assume {x : Except Breach α} : Leads env s (assume x)
    (fun a s' => s' = s ∧ x = .ok a) (fun _ => False) fun _ _ => True :=
  leads_assume.mpr ⟨fun _ ha => ⟨rfl, ha⟩, fun _ _ => trivial⟩

lemma looks_mayBe : Leads env s (mayBe e t)
    (fun b s' => s' = s ∧ b = (s.facts.known e.node).intersects t) (fun _ => False) fun _ _ => True :=
  leads_mayBe.mpr ⟨fun _ => ⟨rfl, rfl⟩, fun _ => trivial⟩

lemma looks_provenIs : Leads env s (provenIs e t)
    (fun b s' => s' = s ∧ b = (s.facts.known e.node).subset t) (fun _ => False) fun _ _ => True :=
  leads_provenIs.mpr ⟨fun _ => ⟨rfl, rfl⟩, fun _ => trivial⟩

end Known

lemma leads_forIn {xs : List β} {f : β → PUnit → Lower (ForInStep PUnit)}
    (I : List β → State → Prop) (h : I xs s)
    (hf : ∀ x rest s, I (x :: rest) s →
      Leads env s (f x ⟨⟩) (fun r s' => r = .yield ⟨⟩ ∧ I rest s') T F) :
    Leads env s (forIn xs PUnit.unit f) (fun _ s' => I [] s') T F := by
  induction xs generalizing s with
  | nil => simpa using h
  | cons x xs ih =>
    rw [List.forIn_cons, leads_bind]
    refine (hf x xs s h).weaken ?_
    rintro r s' ⟨rfl, h'⟩
    exact ih h'

end Lowering
end Speculation
