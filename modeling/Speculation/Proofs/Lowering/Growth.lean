import Speculation.Proofs.Lowering.Agreement
import Speculation.Proofs.Lowering.Aims

/-!
What lowering never takes back.

However the lowering of a node ends, code was only added, as whole pieces; an attached label stays
where it is; exits keep their stubs and kinds; and watchpoint sites are listed in the order of their
instructions. So what is known of code at one point still holds of the whole.
-/

namespace Speculation

namespace Piece

def watched (offset : Nat) : Piece → List Nat
  | inst (.watchpoint _) none => [offset]
  | _ => []

/-- The offsets of the watchpoints among pieces. -/
def watchedFrom : Nat → List Piece → List Nat
  | _, [] => []
  | offset, p :: ps => p.watched offset ++ watchedFrom (offset + p.bytes.length) ps

lemma watchedFrom_append (offset : Nat) (ps qs : List Piece) :
    watchedFrom offset (ps ++ qs) =
      watchedFrom offset ps ++ watchedFrom (offset + (ps.flatMap bytes).length) qs := by
  induction ps generalizing offset with
  | nil => rfl
  | cons p ps ih => simp [watchedFrom, ih, Nat.add_assoc]

end Piece

/-- What an exit is once it was made. -/
def Exit.identity (x : Exit) : Label × ExitKind × NodeId := (x.stub, x.kind, x.node)

lemma Exit.stub_eq {x y : Exit} (h : y.identity = x.identity) : y.stub = x.stub :=
  congrArg Prod.fst h

lemma Exit.kind_eq {x y : Exit} (h : y.identity = x.identity) : y.kind = x.kind :=
  congrArg (·.2.1) h

namespace Lowering

variable {α β : Type} {env : Env} {s s' s'' : State}

structure Extends (env : Env) (s s' : State) : Prop where
  pieces : ∃ qs, s.asm.Adds s'.asm qs ∧ (∀ p ∈ qs, p.Fits) ∧
    ∃ ws, s'.watchpoints.toList = s.watchpoints.toList ++ ws ∧
      (ws.map WatchpointSite.offset).Sublist (Piece.watchedFrom s.asm.offset qs) ∧
      (env.noMasquerades = false → ws = [])
  labels {l : Label} {o : Nat} (h : s.asm.labels[l]? = some (some o)) :
    s'.asm.labels[l]? = some (some o)
  within {l : Label} {o : Nat} (h : s'.asm.labels[l]? = some (some o)) :
    s.asm.labels[l]? = some (some o) ∨ o ≤ s'.asm.offset
  exits {i : Nat} {x : Exit} (h : s.exits[i]? = some x) :
    ∃ y, s'.exits[i]? = some y ∧ y.identity = x.identity
  switches {n : NodeId} (h : n ∈ s'.switches) :
    n ∈ s.switches ∨ ∃ data, env.graph.op? n = some (.switch data)
  listed {n : NodeId} (h : n ∈ s.switches) : n ∈ s'.switches
  loads {x : Nat × UInt64} (h : x ∈ s.loads) : x ∈ s'.loads
  paths {p : SlowPath} (h : p ∈ s.slowPaths) : p ∈ s'.slowPaths

namespace Extends

lemma of_adds {qs : List Piece} (ha : s.asm.Adds s'.asm qs) (hf : ∀ p ∈ qs, p.Fits)
    (hl : s'.asm.labels = s.asm.labels)
    (hw : s'.watchpoints = s.watchpoints) (hx : s'.exits = s.exits)
    (hs : s'.switches = s.switches) (hd : ∀ x ∈ s.loads, x ∈ s'.loads)
    (hp : ∀ p ∈ s.slowPaths, p ∈ s'.slowPaths) : Extends env s s' where
  pieces := ⟨qs, ha, hf, [], by simp [hw], by simp, fun _ => rfl⟩
  labels h := hl ▸ h
  within h := .inl (hl ▸ h)
  exits h := ⟨_, hx ▸ h, rfl⟩
  switches h := .inl (hs ▸ h)
  listed h := hs ▸ h
  loads h := hd _ h
  paths h := hp _ h

lemma of_eq (ha : s'.asm = s.asm) (hw : s'.watchpoints = s.watchpoints)
    (hx : s'.exits = s.exits) (hs : s'.switches = s.switches) (hd : s'.loads = s.loads)
    (hp : ∀ p ∈ s.slowPaths, p ∈ s'.slowPaths) : Extends env s s' :=
  of_adds (.of_eq (by rw [ha]) (by rw [ha])) (by simp) (by rw [ha]) hw hx hs (fun _ h => hd ▸ h) hp

lemma refl (s : State) : Extends env s s := of_eq rfl rfl rfl rfl rfl fun _ => id

lemma attached (h : Extends env s s') {l : Label} (hl : s.Attached l) : s'.Attached l :=
  let ⟨o, ho⟩ := hl
  ⟨o, h.labels ho⟩

lemma stands (h : Extends env s s') {o : Nat} {ps : List Piece} (hs : s.asm.Stands o ps) :
    s'.asm.Stands o ps :=
  let ⟨_, ha, hf, _⟩ := h.pieces
  hs.adds ha hf

lemma trans (h : Extends env s s') (h' : Extends env s' s'') : Extends env s s'' where
  pieces := by
    obtain ⟨qs, ha, hf, ws, hw, hsub, hn⟩ := h.pieces
    obtain ⟨qs', ha', hf', ws', hw', hsub', hn'⟩ := h'.pieces
    refine ⟨qs ++ qs', ha.trans ha', ?_, ws ++ ws', by rw [hw', hw, List.append_assoc], ?_, ?_⟩
    · intro p hp
      exact (List.mem_append.mp hp).elim (hf p) (hf' p)
    · rw [List.map_append, Piece.watchedFrom_append, ← ha.offset]
      exact hsub.append hsub'
    · intro he
      rw [hn he, hn' he, List.append_nil]
  labels hl := h'.labels (h.labels hl)
  within hl := by
    rcases h'.within hl with hl | hl
    · refine (h.within hl).imp id fun ho => Nat.le_trans ho ?_
      obtain ⟨qs, ha, -⟩ := h'.pieces
      rw [ha.offset]
      exact Nat.le_add_right _ _
    · exact .inr hl
  exits hx := by
    obtain ⟨y, hy, hs⟩ := h.exits hx
    obtain ⟨z, hz, hs'⟩ := h'.exits hy
    exact ⟨z, hz, hs'.trans hs⟩
  switches hn := (h'.switches hn).elim h.switches .inr
  listed hn := h'.listed (h.listed hn)
  loads hx := h'.loads (h.loads hx)
  paths hp := h'.paths (h.paths hp)

end Extends

/-- Lowering went on from `s` to `s'`, and what was assembled leads where it should. -/
structure Proceeds (env : Env) (s s' : State) : Prop extends Extends env s s' where
  isCode {l : Label} (h : s.IsCode l) : s'.IsCode l
  aimed (h : Aimed env s) : Aimed env s'

namespace Proceeds

lemma refl (s : State) : Proceeds env s s := ⟨.refl s, id, id⟩

lemma trans (h : Proceeds env s s') (h' : Proceeds env s' s'') : Proceeds env s s'' :=
  ⟨h.toExtends.trans h'.toExtends, h'.isCode ∘ h.isCode, h'.aimed ∘ h.aimed⟩

end Proceeds

def Unseen (s s' : State) : Prop :=
  (s'.asm, s'.switches, s'.tables) = (s.asm, s.switches, s.tables)

lemma Unseen.drop (ls : List Location) : Unseen s (ls.foldl State.drop s) := by
  obtain ⟨b, c, gs, h⟩ := s.exists_foldl_drop ls
  rw [h]
  rfl

lemma Unseen.proceeds (h : Unseen s s') : Proceeds env s s' := by
  obtain ⟨hasm, hswitches, ht⟩ : s'.asm = s.asm ∧ s'.switches = s.switches ∧ SameTables s s' := by
      simpa only [Unseen, SameTables, Prod.mk.injEq] using h
  exact {
    toExtends := .of_eq hasm ht.watchpoints ht.exits hswitches ht.loads fun _ h => ht.slowPaths ▸ h
    isCode := fun hl => hl.of_size (by rw [hasm]) ht.poolLabels
    aimed := fun hs => hs.labels (by rw [hasm]) (by rw [hasm]) (by rw [hasm])
      (fun _ _ ho => .inl (hasm ▸ ho)) (fun _ _ ho => hasm ▸ ho) ht }

/-- What has to come after a call refers to what it should. -/
lemma aims_afterCall (h : Aimed env s) (e : ExternalTarget) :
    ∀ p ∈ afterCall env e, ∃ i t, p = .inst i t ∧ ∀ o, s.Aims o i t := by
  have hcheck : ∀ p ∈ checkPieces env, ∃ i t, p = .inst i t ∧ ∀ o, s.Aims o i t := by
    simp only [checkPieces, exceptionLoads, Piece.plain, List.map_cons, List.map_nil,
      List.cons_append, List.nil_append, List.forall_mem_cons]
    exact ⟨⟨_, _, rfl, fun _ => rfl⟩, ⟨_, _, rfl, fun _ => rfl⟩, ⟨_, _, rfl, fun _ => rfl⟩,
      ⟨_, _, rfl, fun _ => h.rooted.exception⟩, List.forall_mem_nil _⟩
  unfold afterCall exceptionPieces
  split
  · exact List.forall_mem_cons.mpr ⟨⟨_, _, rfl, fun _ => rfl⟩,
      List.forall_mem_singleton.mpr ⟨_, _, rfl, fun _ => h.rooted.rollback⟩⟩
  · exact List.forall_mem_singleton.mpr ⟨_, _, rfl, fun _ => h.rooted.rollback⟩
  · exact List.forall_mem_singleton.mpr ⟨_, _, rfl, fun _ => rfl⟩
  · exact List.forall_mem_singleton.mpr ⟨_, _, rfl, fun _ => rfl⟩
  · split
    · exact hcheck
    · exact List.forall_mem_nil _
  · exact hcheck

/-- Instructions were added that refer to what they should. -/
lemma Lain.proceeds {qs : List Piece} (h : Lain s s' qs)
    (haims : ∀ p ∈ qs, ∃ i t, p = .inst i t ∧ ∀ o, s.Aims o i t)
    (hfollowed : Followed env s.asm.offset qs) : Proceeds env s s' := by
  have hfits : ∀ p ∈ qs, p.Fits := by
    intro p hp
    obtain ⟨i, t, rfl, h⟩ := haims p hp
    exact (h 0).fits
  rw [h.rest]
  exact
    { toExtends := .of_adds h.adds hfits h.labels rfl rfl rfl (fun _ => id) fun _ => id
      isCode := fun hl => hl.of_size (by rw [h.labels]) rfl
      aimed := fun hs => by
        refine hs.adds h.adds (fun p hp => ?_) (fun o i t hw => ?_) hfollowed
          (by rw [h.labels]) (fun _ _ ho => .inl (h.labels ▸ ho)) (fun _ _ ho => h.labels ▸ ho) rfl
        · obtain ⟨i, t, hp, -⟩ := haims p hp
          exact ⟨i, t, hp⟩
        · obtain ⟨i, t, hp, h⟩ := haims _ hw.mem
          cases hp
          exact h o }

/-- A call was added together with what has to come after it. -/
lemma Lain.proceeds_call {e : ExternalTarget}
    (h : Lain s s' (.inst (.call 0) (some (.external e)) :: afterCall env e)) (hs : Aimed env s) :
    Proceeds env s s' :=
  h.proceeds (List.forall_mem_cons.mpr ⟨⟨_, _, rfl, fun _ => trivial⟩, aims_afterCall hs e⟩)
    (followed_call 0 e)

/-- However the step ends, lowering only went on from `s`. -/
abbrev ProceedsBy (env : Env) (s : State) (x : Lower α) : Prop :=
  Leads env s x (fun _ => Proceeds env s) (Proceeds env s) fun _ => Proceeds env s

/-- The step takes nothing back, whatever the state. It refers to no labels but those in the list,
those it makes itself, and those that are known to the state. -/
def Extending (env : Env) (ls : List Label) (x : Lower α) : Prop :=
  ∀ s, Aimed env s → (∀ l ∈ ls, s.IsCode l) → ProceedsBy env s x

/-- What a later state leads to extends the earlier one. -/
lemma ProceedsBy.before {x : Lower α} (hx : ProceedsBy env s' x) (h : Proceeds env s s') :
    Leads env s' x (fun _ => Proceeds env s) (Proceeds env s) fun _ => Proceeds env s :=
  hx.mono (fun _ _ => h.trans) (fun _ => h.trans) fun _ _ => h.trans

section

variable {ls : List Label} (hs : Aimed env s) (hls : ∀ l ∈ ls, s.IsCode l)
include hs hls

/-- The step that follows may use what the first one has shown of the labels. -/
lemma Proceeds.then {x : Lower α} (h : Proceeds env s s') (hx : Extending env ls x) :
    Leads env s' x (fun _ => Proceeds env s) (Proceeds env s) fun _ => Proceeds env s :=
  (hx s' (h.aimed hs) fun l hl => h.isCode (hls l hl) : ProceedsBy env s' x).before h

lemma ProceedsBy.bind {x : Lower β} {f : β → Lower α} (hx : ProceedsBy env s x)
    (hf : ∀ b, Extending env ls (f b)) : ProceedsBy env s (x >>= f) :=
  leads_bind.mpr (hx.weaken fun b _ h => h.then hs hls (hf b))

lemma ProceedsBy.tryCatch {x : Lower α} {h : Stop → Lower α} (hx : ProceedsBy env s x)
    (hh : ∀ e, Extending env ls (h e)) : ProceedsBy env s (tryCatch x h) :=
  leads_tryCatch.mpr <| hx.mono (fun _ _ => id) (fun _ h' => h'.then hs hls (hh _))
    fun _ _ h' => h'.then hs hls (hh _)

end

def State.attached (s : State) (l : Label) : State :=
  { s with asm := { s.asm.comment ("l" ++ toString l) with
      labels := s.asm.labels.set! l (some s.asm.offset) } }

lemma attached_cases {l k : Label} {o : Nat}
    (h : (s.attached l).asm.labels[k]? = some (some o)) :
    s.asm.labels[k]? = some (some o) ∨ k = l ∧ o = s.asm.offset := by
  rw [State.attached, Array.set!_eq_setIfInBounds, Array.getElem?_setIfInBounds] at h
  split at h
  · split at h
    · rename_i hlk _
      exact .inr ⟨hlk.symm, (Option.some.inj (Option.some.inj h)).symm⟩
    · cases h
  · exact .inl h

/-- Attaching a label leaves the attached ones as they are, since it is not one of them. -/
lemma extends_attached {l : Label} (hfree : s.asm.labels[l]? = some none) :
    Extends env s (s.attached l) where
  pieces := ⟨[], .of_eq rfl rfl, by simp, [], by simp [State.attached], by simp, fun _ => rfl⟩
  labels {k o} hk := by
    have hne : l ≠ k := by
      rintro rfl
      rw [hfree] at hk
      cases hk
    simpa [State.attached, Array.getElem?_setIfInBounds, hne] using hk
  within hk := (attached_cases hk).imp_right fun ⟨_, ho⟩ => Nat.le_of_eq ho
  exits h := ⟨_, h, rfl⟩
  switches := .inl
  listed := id
  loads := id
  paths := id

lemma proceeds_attached {l : Label} (hfree : s.asm.labels[l]? = some none) :
    Proceeds env s (s.attached l) where
  toExtends := extends_attached hfree
  isCode h := h.of_size (by simp [State.attached]) rfl
  aimed h := by
    have hext : Extends env s (s.attached l) := extends_attached hfree
    exact h.labels rfl rfl (by simp [State.attached])
      (fun _ _ hk => (attached_cases hk).imp_right And.right) (fun _ _ => hext.labels) rfl

lemma leads_attach {l : Label} : Leads env s (attach l)
    (fun _ s' => s' = s.attached l ∧ s.asm.labels[l]? = some none) (fun _ => False)
    fun _ s' => s' = s := by
  unfold attach
  simp only [leads_bind, leads_get, leads_assume]
  refine ⟨fun asm hasm => ?_, fun _ _ => trivial⟩
  rcases hl : s.asm.labels[l]? with _ | _ | o <;>
    simp [Assembler.attach, Breach.get, hl, bind, Except.bind, pure, Except.pure] at hasm
  rw [← hasm]
  exact ⟨rfl, rfl⟩

def watchpoint (x : Nat) : Lower Unit := do
  let offset ← emit (.watchpoint (UInt32.ofNat x))
  modify fun s => { s with watchpoints := s.watchpoints.push { offset, exit := x } }

namespace Extending

variable {ls : List Label}

@[simp] lemma pure (a : α) : Extending env ls (pure a : Lower α) := fun s _ _ => .refl s

lemma bind {x : Lower β} {f : β → Lower α} (hx : Extending env ls x)
    (hf : ∀ b, Extending env ls (f b)) : Extending env ls (x >>= f) :=
  fun s hs hls => (hx s hs hls).bind hs hls hf

@[simp] lemma map {x : Lower β} {f : β → α} (hx : Extending env ls x) :
    Extending env ls (f <$> x) :=
  fun s hs hls => leads_map.mpr (hx s hs hls)

@[simp] lemma discard {x : Lower β} (hx : Extending env ls x) : Extending env ls (discard x) :=
  map hx

lemma ite {c : Prop} [Decidable c] {x y : Lower α} (hx : Extending env ls x)
    (hy : Extending env ls y) : Extending env ls (if c then x else y) := by
  split
  · exact hx
  · exact hy

lemma forIn_mem {γ : Type} {xs : List β} {b : γ} {f : β → γ → Lower (ForInStep γ)}
    (hf : ∀ x ∈ xs, ∀ b, Extending env ls (f x b)) : Extending env ls (forIn xs b f) := by
  induction xs generalizing b with
  | nil => exact pure b
  | cons x xs ih =>
    rw [List.forIn_cons]
    refine bind (hf x List.mem_cons_self b) fun r => ?_
    cases r with
    | done b => exact pure b
    | yield b => exact ih fun y hy => hf y (List.mem_cons_of_mem x hy)

lemma forIn {γ : Type} {xs : List β} {b : γ} {f : β → γ → Lower (ForInStep γ)}
    (hf : ∀ x b, Extending env ls (f x b)) : Extending env ls (forIn xs b f) :=
  forIn_mem fun x _ => hf x

@[simp] lemma get : Extending env ls (get : Lower State) := fun s _ _ => .refl s

@[simp] lemma read : Extending env ls (read : Lower Env) := fun s _ _ => .refl s

/-- A step that refers to labels of the environment. -/
lemma bindRead {f : Env → Lower α}
    (hf : Extending env (env.exceptionLabel :: env.rollbackLabel :: ls) (f env)) :
    Extending env ls (MonadReader.read >>= f) := by
  refine fun s hs hls => leads_bind.mpr (leads_read.mpr (hf s hs ?_))
  exact List.forall_mem_cons.mpr ⟨hs.rooted.exception,
    List.forall_mem_cons.mpr ⟨hs.rooted.rollback, hls⟩⟩

@[simp] lemma throw (e : Stop) : Extending env ls (throw e : Lower α) := by
  intro s _ _
  cases e
  · exact .refl s
  · exact .refl s

@[simp] lemma assume (x : Except Breach α) : Extending env ls (assume x) :=
  fun s _ _ => leads_assume.mpr ⟨fun _ _ => .refl s, fun _ _ => .refl s⟩

@[simp] lemma check (x : Except CompileError α) : Extending env ls (check x) :=
  fun s _ _ => leads_check.mpr ⟨fun _ _ => .refl s, fun _ _ => .refl s⟩

@[simp] lemma fail (e : CompileError) : Extending env ls (fail e : Lower α) := fun s _ _ => .refl s

@[simp] lemma internal (f : InternalFault) : Extending env ls (internal f : Lower α) :=
  fun s _ _ => .refl s

/-- A change of the state that the code does not see. -/
lemma modify {f : State → State} (h : ∀ s, Unseen s (f s)) :
    Extending env ls (modify f : Lower PUnit) :=
  fun s _ _ => (h s).proceeds

/-! ### Looking things up -/

@[simp] lemma graph : Extending env ls graph := bind read fun _ => pure _

@[simp] lemma node (n : NodeId) : Extending env ls (node n) := bind read fun _ => assume _

@[simp] lemma currentNode : Extending env ls currentNode := bind get fun _ => node _

@[simp] lemma child (i : Nat) : Extending env ls (child i) := bind currentNode fun _ => assume _

@[simp] lemma variableOf (v : VarId) :
    Extending env ls (variableOf v) := bind read fun _ => assume _

@[simp] lemma blockLabel (b : BlockId) :
    Extending env ls (blockLabel b) := bind read fun _ => assume _

@[simp] lemma slotOf (n : NodeId) : Extending env ls (slotOf n) := by
  unfold Lowering.slotOf
  refine bind (node n) fun d => ?_
  split <;> simp

@[simp] lemma ledgerIndex (o : Slot) : Extending env ls (ledgerIndex o) := by
  unfold Lowering.ledgerIndex
  split
  · exact bind get fun _ => ite (pure _) (internal _)
  · exact internal _

@[simp] lemma infoAt (i : Nat) : Extending env ls (infoAt i) := bind get fun _ => pure _

@[simp] lemma info (n : NodeId) : Extending env ls (info n) :=
  bind (slotOf n) fun _ => bind (ledgerIndex _) fun _ => infoAt _

@[simp] lemma proven (e : Edge) : Extending env ls (proven e) := bind get fun _ => assume _

@[simp] lemma provenIs (e : Edge) (t : TypeSet) : Extending env ls (provenIs e t) :=
  bind (proven e) fun _ => pure _

@[simp] lemma mayBe (e : Edge) (t : TypeSet) : Extending env ls (mayBe e t) :=
  bind (proven e) fun _ => pure _

@[simp] lemma isLockedGpr (r : Gpr) : Extending env ls (isLockedGpr r) := bind get fun _ => pure _

@[simp] lemma canReuse (e : Edge) : Extending env ls (canReuse e) := by
  unfold Lowering.canReuse
  refine bind (node _) fun d => ?_
  split
  · refine bind get fun s => ?_
    split <;> simp
  · exact pure _

/-! ### Code -/

/-- An instruction that refers to what it should is added. -/
lemma proceeds_adds {a : Assembler} {i : Inst} {t : Option RelocTarget}
    (ha : s.asm.Adds a [.inst i t]) (hl : a.labels = s.asm.labels)
    (haims : s.Aims s.asm.offset i t) (hi : i.isCall = false) :
    Proceeds env s { s with asm := a } where
  toExtends := .of_adds ha (by simpa using haims.fits) hl rfl rfl rfl (fun _ => id) fun _ => id
  isCode h := h.of_size (by rw [hl]) rfl
  aimed h := h.emit ha haims hi hl rfl

@[simp] lemma emit {i : Inst} (h : i.isPlain = true) : Extending env ls (emit i) := fun s _ _ =>
  proceeds_adds (s.asm.adds_emit i) (s.asm.labels_emit i) (aims_none.mpr h)
    (Inst.isCall_of_isPlain h)

@[simp] lemma emit' {i : Inst} (h : i.isPlain = true) : Extending env ls (emit' i) :=
  discard (emit h)

lemma emitReloc {i : Inst} {t : RelocTarget} (hi : i.isCall = false)
    (h : ∀ s : State, (∀ l ∈ ls, s.IsCode l) → s.Aims s.asm.offset i (some t)) :
    Extending env ls (emitReloc i t) := by
  intro s _ hls
  obtain ⟨asm, ha, hadds, hl⟩ := Assembler.adds_emitReloc (a := s.asm) (h s hls).fits
  unfold Lowering.emitReloc
  simp only [leads_bind, leads_get, ha, leads_assume_ok]
  exact proceeds_adds hadds hl (h s hls) hi

lemma proceeds_comment (text : String) : Proceeds env s { s with asm := s.asm.comment text } where
  toExtends := .of_adds (.of_eq rfl rfl) (by simp) rfl rfl rfl rfl (fun _ => id) fun _ => id
  isCode h := h.of_size (Nat.le_refl _) rfl
  aimed h := h.labels rfl rfl (Nat.le_refl _) (fun _ _ => .inl) (fun _ _ => id) rfl

@[simp] lemma comment (text : String) : Extending env ls (comment text) :=
  fun _ _ _ => proceeds_comment text

lemma addLabel {x : Option Nat} (hc : s'.asm.code = s.asm.code) (hr : s'.asm.relocs = s.asm.relocs)
    (hl : s'.asm.labels = s.asm.labels.push x) (hx : ∀ o, x = some o → o = s.asm.offset)
    (hw : s'.watchpoints = s.watchpoints) (hs : s'.switches = s.switches)
    (ht : SameTables s s') : Proceeds env s s' where
  pieces := ⟨[], .of_eq hc hr, by simp, [], by simp [hw], by simp, fun _ => rfl⟩
  labels {l o} h := by
    have hlt := (Array.getElem?_eq_some_iff.mp h).1
    rw [hl, Array.getElem?_push_lt hlt, ← Array.getElem?_eq_getElem hlt, h]
  within {l o} h := by
    rw [hl, Array.getElem?_push] at h
    split at h
    · rw [hx o (Option.some.inj h), Assembler.offset, Assembler.offset, hc]
      exact .inr (Nat.le_refl _)
    · exact .inl h
  exits h := ⟨_, ht.exits ▸ h, rfl⟩
  switches h := .inl (hs ▸ h)
  listed h := hs ▸ h
  loads h := ht.loads ▸ h
  paths h := ht.slowPaths ▸ h
  isCode h := h.of_size (by rw [hl, Array.size_push]; omega) ht.poolLabels
  aimed h := by
    refine h.labels hc hr (by rw [hl, Array.size_push]; omega) (fun l o ho => ?_) ?_ ht
    · rw [hl, Array.getElem?_push] at ho
      split at ho
      · exact .inr (hx o (Option.some.inj ho))
      · exact .inl ho
    · intro l o ho
      have hlt := (Array.getElem?_eq_some_iff.mp ho).1
      rw [hl, Array.getElem?_push_lt hlt, ← Array.getElem?_eq_getElem hlt, ho]

lemma isCode_addLabel (h : Aimed env s) {x : Option Nat}
    (hl : s'.asm.labels = s.asm.labels.push x) (ht : SameTables s s') :
    s'.IsCode s.asm.labels.size where
  lt := by simp [hl]
  notPool hm := by
    rw [ht.poolLabels] at hm
    exact Nat.lt_irrefl _ (h.pooled.lt hm)

lemma leads_newLabel (h : Aimed env s) : Leads env s newLabel
    (fun l s' => Proceeds env s s' ∧ s'.IsCode l) (fun _ => False) fun _ _ => False :=
  ⟨addLabel rfl rfl rfl (fun _ => nofun) rfl rfl rfl, isCode_addLabel h rfl rfl⟩

lemma leads_here (h : Aimed env s) : Leads env s here
    (fun l s' => Proceeds env s s' ∧ s'.IsCode l ∧ s'.Attached l) (fun _ => False)
    fun _ _ => False :=
  ⟨addLabel rfl rfl rfl (fun _ h => (Option.some.inj h).symm) rfl rfl rfl, isCode_addLabel h rfl rfl,
    s.asm.offset, Array.getElem?_push_size⟩

lemma bindLabel {x : Lower Label} {f : Label → Lower α}
    (hx : ∀ s, Aimed env s → Leads env s x (fun l s' => Proceeds env s s' ∧ s'.IsCode l)
      (Proceeds env s) fun _ => Proceeds env s)
    (hf : ∀ l, Extending env (l :: ls) (f l)) : Extending env ls (x >>= f) := by
  refine fun s hs hls => leads_bind.mpr ((hx s hs).weaken fun l s' ⟨h, hl⟩ => ?_)
  refine ProceedsBy.before (hf l s' (h.aimed hs) ?_) h
  exact List.forall_mem_cons.mpr ⟨hl, fun l hl => h.isCode (hls l hl)⟩

lemma bindNewLabel {f : Label → Lower α} (hf : ∀ l, Extending env (l :: ls) (f l)) :
    Extending env ls (newLabel >>= f) :=
  bindLabel (fun _ hs => (leads_newLabel hs).mono (fun _ _ => id) (fun _ => False.elim)
    fun _ _ => False.elim) hf

lemma bindHere {f : Label → Lower α} (hf : ∀ l, Extending env (l :: ls) (f l)) :
    Extending env ls (here >>= f) :=
  bindLabel (fun _ hs => (leads_here hs).mono (fun _ _ h => ⟨h.1, h.2.1⟩) (fun _ => False.elim)
    fun _ _ => False.elim) hf

lemma bindBlockLabel {b : BlockId} {f : Label → Lower α}
    (hf : ∀ l, Extending env (l :: ls) (f l)) : Extending env ls (Lowering.blockLabel b >>= f) := by
  refine bindLabel (fun s hs => leads_bind.mpr (leads_read.mpr (leads_assume.mpr
    ⟨fun l hl => ⟨.refl s, hs.rooted.block (b := b) ?_⟩, fun _ _ => .refl s⟩))) hf
  rw [Breach.get] at hl
  split at hl
  · cases hl
    assumption
  · cases hl

@[simp] lemma newLabel : Extending env ls newLabel := fun _ hs _ =>
  (leads_newLabel hs).mono (fun _ _ h => h.1) (fun _ => False.elim) fun _ _ => False.elim

@[simp] lemma here : Extending env ls here := fun _ hs _ =>
  (leads_here hs).mono (fun _ _ h => h.1) (fun _ => False.elim) fun _ _ => False.elim

@[simp] lemma attach (l : Label) : Extending env ls (attach l) := fun _ _ _ =>
  leads_attach.mono (fun _ _ ⟨h, hfree⟩ => h ▸ proceeds_attached hfree) (fun _ => False.elim)
    fun _ _ h => h ▸ .refl _

@[simp] lemma jcc (c : Cond) {l : Label} (h : l ∈ ls) : Extending env ls (jcc c l) :=
  discard (emitReloc rfl fun _ hls => hls l h)

@[simp] lemma jmp {l : Label} (h : l ∈ ls) : Extending env ls (jmp l) :=
  discard (emitReloc rfl fun _ hls => hls l h)

@[simp] lemma mov (d r : Gpr) : Extending env ls (mov d r) := ite (pure _) (emit' rfl)

@[simp] lemma dmov (d r : Fpr) : Extending env ls (dmov d r) := ite (pure _) (emit' rfl)

@[simp] lemma movImm (d : Gpr) (x : UInt64) : Extending env ls (movImm d x) := emit rfl

@[simp] lemma alu32 (op : AluOp) (d : Gpr) (x : Operand) :
    Extending env ls (alu32 op d x) := emit' rfl

@[simp] lemma alu64 (op : AluOp) (d : Gpr) (x : Operand) :
    Extending env ls (alu64 op d x) := emit' rfl

@[simp] lemma cmp32 (r : Gpr) (x : Operand) : Extending env ls (cmp32 r x) := emit' rfl

@[simp] lemma cmp64 (r : Gpr) (x : Operand) : Extending env ls (cmp64 r x) := emit' rfl

@[simp] lemma test32 (r : Gpr) (x : Operand) : Extending env ls (test32 r x) := emit' rfl

@[simp] lemma test64 (r : Gpr) (x : Operand) : Extending env ls (test64 r x) := emit' rfl

@[simp] lemma load (w : Width) (d : Gpr) (a : Address) : Extending env ls (load w d a) := emit' rfl

@[simp] lemma load64 (d : Gpr) (a : Address) : Extending env ls (load64 d a) := emit' rfl

@[simp] lemma store64 (r : Gpr) (a : Address) : Extending env ls (store64 r a) := emit' rfl

/-- A pattern has an entry, or a new one is made for it. -/
lemma intern_eq (bits : UInt64) (pool : Array UInt64) :
    (∃ k, intern bits pool = (k, pool) ∧ pool[k]? = some bits) ∨
      intern bits pool = (pool.size, pool.push bits) := by
  unfold intern
  split
  · rename_i k hk
    obtain ⟨hlt, hbits, -⟩ := Array.findIdx?_eq_some_iff_getElem.mp hk
    exact .inl ⟨k, rfl, by rw [Array.getElem?_eq_getElem hlt, eq_of_beq hbits]⟩
  · exact .inr rfl

/-- A new entry of the pool has a new label. -/
lemma proceeds_intern (bits : UInt64) : Proceeds env s { s with
    asm := s.asm.newLabel.2
    pool := s.pool.push bits
    poolLabels := s.poolLabels.push s.asm.labels.size } := by
  have hlabel : Proceeds env s { s with asm := s.asm.newLabel.2 } :=
    addLabel rfl rfl rfl (fun _ => nofun) rfl rfl rfl
  have hcode : ∀ l, s.IsCode l → State.IsCode { s with
      asm := s.asm.newLabel.2
      pool := s.pool.push bits
      poolLabels := s.poolLabels.push s.asm.labels.size } l := by
    refine fun l h => ⟨(hlabel.isCode h).lt, fun hm => ?_⟩
    rcases Array.mem_push.mp hm with hm | rfl
    · exact h.notPool hm
    · exact Nat.lt_irrefl _ h.lt
  refine ⟨hlabel.toExtends.trans (.of_eq rfl rfl rfl rfl rfl fun _ => id), fun h => hcode _ h,
    fun h => ?_⟩
  have hadds : s.asm.Adds s.asm.newLabel.2 [] := .of_eq rfl rfl
  refine ⟨h.coded.adds hadds (by simp) (fun _ _ _ hw => hw.not_nil.elim) followed_nil ?_ hcode
    fun _ hx => hx, h.rooted.mono hcode (fun _ => hlabel.attached) (fun _ hx => h.rooted.stub hx)
      fun _ hp => h.rooted.done hp, ⟨?_, ?_, ?_⟩,
    h.listed.mono hadds (by simp) (by simp) (fun _ _ => hlabel.labels) (fun _ => id) rfl rfl rfl⟩
  · intro l o ho
    simp only [Assembler.newLabel, Array.getElem?_push] at ho
    split at ho
    · cases ho
    · exact .inl ho
  · simp [h.pooled.size]
  · intro l hl
    rcases Array.mem_push.mp hl with hl | rfl
    · exact Nat.lt_trans (h.pooled.lt hl) (by simp [Assembler.newLabel])
    · simp [Assembler.newLabel]
  · intro o x hx
    obtain ⟨d, l, k, hst, hl, hk⟩ := h.pooled.load hx
    have hl' := (Array.getElem?_eq_some_iff.mp hl).1
    have hk' := (Array.getElem?_eq_some_iff.mp hk).1
    refine ⟨d, l, k, hst.adds hadds (by simp), ?_, ?_⟩
    · rw [Array.getElem?_push_lt hl', ← Array.getElem?_eq_getElem hl', hl]
    · rw [Array.getElem?_push_lt hk', ← Array.getElem?_eq_getElem hk', hk]

lemma proceeds_load {a : Assembler} {d : Fpr} {l : Label} {k : Nat} {bits : UInt64}
    (ha : s.asm.Adds a [.inst (.loadDConst d 0) (some (.label l))])
    (hlabels : a.labels = s.asm.labels) (hl : s.poolLabels[k]? = some l)
    (hk : s.pool[k]? = some bits) :
    Proceeds env s { s with asm := a, loads := s.loads.push (s.asm.offset, bits) } := by
  have hfits : ∀ p ∈ [Piece.inst (.loadDConst d 0) (some (.label l))], p.Fits :=
    List.forall_mem_singleton.mpr rfl
  have hcode : ∀ l, s.IsCode l →
      State.IsCode { s with asm := a, loads := s.loads.push (s.asm.offset, bits) } l :=
    fun l h => h.of_size (by rw [hlabels]) rfl
  refine ⟨.of_adds ha hfits hlabels rfl rfl rfl (fun _ => Array.mem_push_of_mem _) fun _ => id,
    fun h => hcode _ h, fun h => ?_⟩
  refine ⟨h.coded.adds ha (by simp) (fun o i t hw => ?_) (followed_inst rfl)
    (fun _ _ ho => .inl (hlabels ▸ ho)) hcode fun _ hx => Array.mem_push_of_mem _ hx,
    h.rooted.mono hcode (fun _ ⟨o, ho⟩ => ⟨o, hlabels ▸ ho⟩) (fun _ hx => h.rooted.stub hx)
      fun _ hp => h.rooted.done hp,
    ⟨h.pooled.size, fun hl => by rw [hlabels]; exact h.pooled.lt hl, ?_⟩,
    h.listed.mono ha hfits (by simp) (fun _ _ ho => hlabels ▸ ho) (fun _ => id) rfl rfl rfl⟩
  · obtain ⟨rfl, rfl, rfl⟩ := hw.singleton
    exact ⟨bits, Array.mem_push_self⟩
  · intro o x hx
    rcases Array.mem_push.mp hx with hx | hx
    · obtain ⟨d, l, k, hst, hlk⟩ := h.pooled.load hx
      exact ⟨d, l, k, hst.adds ha hfits, hlk⟩
    · cases hx
      obtain ⟨ps, hm, -⟩ := h.coded
      exact ⟨d, l, k, hm.stands ha hfits, hl, hk⟩

@[simp] lemma loadDoubleConstant (d : Fpr) (x : Double) :
    Extending env ls (loadDoubleConstant d x) := by
  intro s hs _
  have hload : ∀ {s₁ : State} {k l : Nat}, s₁.poolLabels[k]? = some l → s₁.pool[k]? = some x.bits →
      Proceeds env s s₁ → ∀ s₂, s₂ = { s₁ with loads := s₁.loads.push (s₁.asm.offset, x.bits) } →
        Leads env s₂ (Functor.discard (Lowering.emitReloc (.loadDConst d 0) (.label l)))
          (fun _ => Proceeds env s) (Proceeds env s) fun _ => Proceeds env s := by
    rintro s₁ k l hl hk h s₂ rfl
    obtain ⟨asm, ha, hadds, hlabels⟩ :=
      Assembler.adds_emitReloc (a := s₁.asm) (i := .loadDConst d 0) (t := .label l) rfl
    unfold Lowering.emitReloc
    simp only [leads_discard, leads_bind, leads_get, ha, leads_assume_ok]
    exact h.trans (proceeds_load hadds hlabels hl hk)
  unfold Lowering.loadDoubleConstant
  simp only [leads_bind, leads_modify, leads_get]
  rcases intern_eq x.bits s.pool with ⟨k, hi, hk⟩ | hi
  · have hlt := (Array.getElem?_eq_some_iff.mp hk).1
    rw [hs.pooled.size] at hlt
    rw [hi]
    simp only [Array.getElem?_eq_getElem hlt]
    exact hload (Array.getElem?_eq_getElem hlt) hk (.refl s) _ rfl
  · have hnone : s.poolLabels[s.pool.size]? = none := by
      rw [hs.pooled.size]
      simp
    rw [hi]
    simp only [hnone, leads_bind, leads_modify]
    refine leads_modifyGet.mpr (hload (k := s.pool.size) (l := s.asm.labels.size) ?_ ?_
      (proceeds_intern x.bits) _ rfl)
    · rw [hs.pooled.size]
      simp
    · simp

/-! ### Values and registers -/

@[simp] lemma event (e : Event) : Extending env ls (event e) :=
  modify fun _ => rfl

@[simp] lemma setInfoAt (i : Nat) (x : ValueInfo) : Extending env ls (setInfoAt i x) :=
  modify fun _ => rfl

@[simp] lemma setInfo (n : NodeId) (x : ValueInfo) : Extending env ls (setInfo n x) :=
  bind (slotOf n) fun _ => bind (ledgerIndex _) fun _ => setInfoAt _ _

@[simp] lemma modifyGprs (f : Bank Gpr → Bank Gpr) : Extending env ls (modifyGprs f) :=
  modify fun _ => rfl

@[simp] lemma modifyFprs (f : Bank Fpr → Bank Fpr) : Extending env ls (modifyFprs f) :=
  modify fun _ => rfl

@[simp] lemma holdGpr (b : Bank Gpr) (r : Gpr) : Extending env ls (holdGpr b r) :=
  modify fun _ => rfl

@[simp] lemma holdFpr (b : Bank Fpr) (r : Fpr) : Extending env ls (holdFpr b r) :=
  modify fun _ => rfl

@[simp] lemma lockGpr (r : Gpr) : Extending env ls (lockGpr r) :=
  bind get fun _ => bind (check _) fun _ => holdGpr _ _

@[simp] lemma lockFpr (r : Fpr) : Extending env ls (lockFpr r) :=
  bind get fun _ => bind (check _) fun _ => holdFpr _ _

@[simp] lemma unlockGpr (r : Gpr) : Extending env ls (unlockGpr r) := modify fun _ => rfl

@[simp] lemma unlockFpr (r : Fpr) : Extending env ls (unlockFpr r) := modify fun _ => rfl

@[simp] lemma dropGuards : Extending env ls dropGuards := modify fun _ => .drop _

@[simp] lemma spillSlot (o : Slot) (l : Location) : Extending env ls (spillSlot o l) := by
  unfold Lowering.spillSlot
  refine bind (ledgerIndex o) fun i => bind (infoAt i) fun x => ?_
  split
  · exact internal _
  · refine ite (internal _) (ite (bind (setInfoAt _ _) fun _ => event _) ?_)
    cases l <;> repeat' with_reducible refine bind ?_ fun _ => ?_
    all_goals simp

@[simp] lemma allocGpr : Extending env ls allocGpr := by
  unfold Lowering.allocGpr
  refine bind get fun _ => bind (check _) fun ⟨a, bank⟩ => bind (holdGpr _ _) fun _ => ?_
  dsimp only
  split
  · exact bind (spillSlot _ _) fun _ => pure _
  · exact pure _

@[simp] lemma allocFpr : Extending env ls allocFpr := by
  unfold Lowering.allocFpr
  refine bind get fun _ => bind (check _) fun ⟨a, bank⟩ => bind (holdFpr _ _) fun _ => ?_
  dsimp only
  split
  · exact bind (spillSlot _ _) fun _ => pure _
  · exact pure _

@[simp] lemma allocGprPreferring (r : Gpr) : Extending env ls (allocGprPreferring r) := by
  unfold Lowering.allocGprPreferring
  refine bind get fun _ => bind (check _) fun ⟨a, bank⟩ => bind (holdGpr _ _) fun _ => ?_
  dsimp only
  split
  · exact bind (spillSlot _ _) fun _ => pure _
  · exact pure _

@[simp] lemma allocFprPreferring (r : Fpr) : Extending env ls (allocFprPreferring r) := by
  unfold Lowering.allocFprPreferring
  refine bind get fun _ => bind (check _) fun ⟨a, bank⟩ => bind (holdFpr _ _) fun _ => ?_
  dsimp only
  split
  · exact bind (spillSlot _ _) fun _ => pure _
  · exact pure _

@[simp] lemma flushRegisters : Extending env ls flushRegisters := by
  unfold Lowering.flushRegisters
  refine bind get fun _ => bind (forIn fun x _ => ?_) fun _ => bind get fun _ =>
    bind (forIn fun x _ => ?_) fun _ => pure _
  · exact bind (modifyGprs _) fun _ => bind (spillSlot _ _) fun _ => pure _
  · exact bind (modifyFprs _) fun _ => bind (spillSlot _ _) fun _ => pure _

@[simp] lemma gprResult (r : Gpr) (format : DataFormat) :
    Extending env ls (gprResult r format) := by
  unfold Lowering.gprResult
  refine bind get fun _ => bind currentNode fun _ => ite (pure _) ?_
  repeat' with_reducible refine bind ?_ fun _ => ?_
  all_goals simp

@[simp] lemma fprResult (r : Fpr) : Extending env ls (fprResult r) := by
  unfold Lowering.fprResult
  refine bind get fun _ => bind currentNode fun _ => ite (pure _) ?_
  repeat' with_reducible refine bind ?_ fun _ => ?_
  all_goals simp

@[simp] lemma releaseLocation (o : Slot) (l : Location) :
    Extending env ls (releaseLocation o l) := by
  unfold Lowering.releaseLocation
  split
  · exact bind get fun _ => ite (modifyGprs _) (pure _)
  · exact bind get fun _ => ite (modifyFprs _) (pure _)
  · exact pure _

@[simp] lemma useNode (n : NodeId) : Extending env ls (useNode n) := by
  unfold Lowering.useNode
  refine bind (node n) fun _ => ?_
  split
  · refine bind (ledgerIndex _) fun _ => bind (infoAt _) fun _ => ite (bind (assume _) fun y => ?_)
      (pure _)
    refine ite (bind (releaseLocation _ _) fun _ => bind (setInfoAt _ _) fun _ => ?_)
      (setInfoAt _ _)
    exact ite (pure _) (event _)
  · exact pure _

@[simp] lemma useChildren (n : NodeId) : Extending env ls (useChildren n) :=
  bind (node n) fun _ => bind (forIn fun _ _ => bind (useNode _) fun _ => pure _) fun _ => pure _

/-! ### Exits -/

lemma proceeds_exits {exits : Array Exit} {views : Array (Array ValueInfo)}
    (hkeep : ∀ (i : Nat) (x : Exit), s.exits[i]? = some x →
      ∃ y, exits[i]? = some y ∧ y.identity = x.identity)
    (hnew : Aimed env s → ∀ x ∈ exits, s.IsCode x.stub) :
    Proceeds env s { s with exits, views } where
  pieces := ⟨[], .of_eq rfl rfl, by simp, [], by simp, by simp, fun _ => rfl⟩
  labels := id
  within := .inl
  exits h := hkeep _ _ h
  switches := .inl
  listed := id
  loads := id
  paths := id
  isCode h := h.of_size (Nat.le_refl _) rfl
  aimed h := h.rest rfl rfl rfl rfl (hnew h) (fun _ hp => h.rooted.done hp)
    (h.listed.mono (.of_eq rfl rfl) (by simp) (by simp) (fun _ _ => id) (fun _ => id) rfl rfl rfl)

@[simp] lemma newExit (kind : ExitKind) : Extending env ls (newExit kind) := by
  refine bindNewLabel fun stub => bind currentNode fun n => fun s hs hls => ?_
  refine proceeds_exits (fun i x h => ⟨x, ?_, rfl⟩) fun _ x hx => ?_
  · have hlt := (Array.getElem?_eq_some_iff.mp h).1
    rw [Array.getElem?_push_lt hlt, ← Array.getElem?_eq_getElem hlt, h]
  · rcases Array.mem_push.mp hx with hx | rfl
    · exact hs.rooted.stub hx
    · exact hls _ List.mem_cons_self

lemma modifyExit {i : Nat} {f : Exit → Exit} (hf : ∀ x, (f x).identity = x.identity) :
    Extending env ls (modifyExit i f) := by
  refine fun s hs _ => proceeds_exits (fun j x h => ⟨if i = j then f x else x, ?_, ?_⟩)
    fun _ x hx => ?_
  · rw [Array.getElem?_modify, h]
    split <;> rfl
  · split
    · exact hf x
    · rfl
  · obtain ⟨j, hj⟩ := Array.mem_iff_getElem?.mp hx
    rw [Array.getElem?_modify] at hj
    split at hj
    · obtain ⟨y, hy, rfl⟩ := Option.map_eq_some_iff.mp hj
      rw [Exit.stub_eq (hf y)]
      exact hs.rooted.stub (Array.mem_of_getElem? hy)
    · exact hs.rooted.stub (Array.mem_of_getElem? hj)

lemma bindExit {x : Nat} {f : Exit → Lower α} (hf : ∀ e, Extending env (e.stub :: ls) (f e)) :
    Extending env ls (MonadState.get >>= fun s => Lowering.assume (Breach.get s.exits x) >>= f) := by
  refine fun s hs hls => leads_bind.mpr (leads_get.mpr (leads_bind.mpr (leads_assume.mpr
    ⟨fun e he => hf e s hs (List.forall_mem_cons.mpr ⟨?_, hls⟩), fun _ _ => .refl s⟩)))
  rw [Breach.get] at he
  split at he
  · rename_i h
    cases he
    exact hs.rooted.stub (Array.mem_of_getElem? h)
  · cases he

@[simp] lemma jccExit (c : Cond) (x : Nat) : Extending env ls (jccExit c x) :=
  bindExit fun _ => jcc _ List.mem_cons_self

@[simp] lemma guard (kind : ExitKind) (c : Cond) : Extending env ls (guard kind c) :=
  bind (newExit _) fun _ => bind (jccExit _ _) fun _ => pure _

@[simp] lemma guard' (kind : ExitKind) (c : Cond) : Extending env ls (guard' kind c) :=
  discard (guard _ _)

@[simp] lemma guardUndo (kind : ExitKind) (c : Cond) (u : Undo) :
    Extending env ls (guardUndo kind c u) :=
  bind (newExit _) fun _ => bind (modifyExit fun _ => rfl) fun _ => jccExit _ _

@[simp] lemma terminate (kind : ExitKind) : Extending env ls (terminate kind : Lower α) :=
  bind (newExit _) fun _ => bindExit fun _ => bind (jmp List.mem_cons_self) fun _ => throw _

/-- While no object passes for undefined, watchpoints may be emitted; each is listed as a site. -/
lemma watchpoint (h : env.noMasquerades = true) (x : Nat) : Extending env ls (watchpoint x) := by
  intro s hs _
  have hadds := s.asm.adds_emit (.watchpoint (UInt32.ofNat x))
  have hl := s.asm.labels_emit (.watchpoint (UInt32.ofNat x))
  refine ⟨⟨⟨_, hadds, by simp [Piece.Fits], [⟨s.asm.offset, x⟩], by simp, ?_, ?_⟩,
    fun {l o} h => (congrArg (·[l]?) hl).trans h,
    fun {l o} h => .inl ((congrArg (·[l]?) hl).symm.trans h), fun h => ⟨_, h, rfl⟩, .inl, id, id, id⟩,
    fun h => h.of_size (by rw [hl]) rfl, fun _ => ?_⟩
  · simp [Piece.watchedFrom, Piece.watched]
  · simp [h]
  · have hemit : Aimed env { s with asm := s.asm.emit (.watchpoint (UInt32.ofNat x)) } :=
      hs.emit hadds (aims_none.mpr rfl) rfl hl rfl
    refine hemit.rest rfl rfl rfl rfl (fun _ hx => hemit.rooted.stub hx)
      (fun _ hp => hemit.rooted.done hp) ⟨fun hc => hemit.listed.call hc, hemit.listed.calls,
        fun hc => ?_, hemit.listed.caches, fun hw => ?_⟩
    · obtain ⟨o, p, hc⟩ := hemit.listed.cache hc
      exact ⟨o, p, hc.codes, hc.structureImm, hc.access, hc.path, hc.work, hc.done⟩
    · rcases Array.mem_push.mp hw with hw | rfl
      · exact hemit.listed.watchpoint hw
      · obtain ⟨ps, hm, hi, -⟩ := hs.coded
        exact hm.codes hi hadds (by simp [Piece.Fits]) (by simp)

lemma guardWatchpoint (h : env.noMasquerades = true) (kind : ExitKind) :
    Extending env ls (guardWatchpoint kind) :=
  bind (newExit _) fun x => bind (modifyExit fun _ => rfl) fun _ => watchpoint h x

@[simp] lemma makeForward (x : Nat) (r : Recovery) : Extending env ls (makeForward x r) := by
  unfold Lowering.makeForward
  refine bind graph fun g => bind get fun s => bind currentNode fun n => ?_
  dsimp only
  split
  case' h_1 => refine bind (assume _) fun _ => bind (pure _) fun store => ?_
  case' h_2 => refine bind (assume _) fun store => ?_
  all_goals
    split
    · refine bind (assume _) fun resume => ?_
      split
      · exact modifyExit fun _ => rfl
      · exact pure _
    · exact pure _

/-! ### Calls and jumps -/

@[simp] lemma setupArguments (args : List Argument) : Extending env ls (setupArguments args) := by
  unfold Lowering.setupArguments
  refine bind (check _) fun m => bind (forIn fun x _ => ?_)
    fun _ => bind (forIn fun x _ => ?_) fun _ => bind (forIn fun x _ => ?_) fun _ => pure _
  · exact bind (emit' rfl) fun _ => pure _
  · exact bind (emit' rfl) fun _ => pure _
  · exact bind (discard (movImm _ _)) fun _ => pure _

@[simp] lemma exceptionCheck : Extending env ls exceptionCheck := by
  unfold Lowering.exceptionCheck
  with_reducible repeat' first | refine bindRead ?_ | refine bind ?_ fun _ => ?_
  all_goals simp

/-- What comes after a call is known, so that both are added together. -/
lemma of_call {x : Lower α} {a : α} {e : ExternalTarget}
    (h : Lays env x a (.inst (.call 0) (some (.external e)) :: afterCall env e)) :
    Extending env ls x := fun s hs _ => (h s).mono
  (fun _ _ ⟨_, hl⟩ => hl.proceeds_call hs) (fun _ => False.elim) fun _ _ => False.elim

lemma called {f : Helper} (hf : f.serves = true) :
    Extending env ls (do Lowering.emitCall f; if f.mayThrow then Lowering.exceptionCheck) :=
  of_call (e := .helper f) (afterCall_of_serves hf ▸ Lays.called f)

@[simp] lemma callHelper {f : Helper} (hf : f.serves = true) (args : List Argument) :
    Extending env ls (callHelper f args) :=
  bind flushRegisters fun _ => bind (setupArguments _) fun _ => called hf

@[simp] lemma callResultGpr : Extending env ls callResultGpr :=
  bind (allocGprPreferring _) fun _ => bind (mov _ _) fun _ => pure _

@[simp] lemma callResultFpr : Extending env ls callResultFpr :=
  bind (allocFprPreferring _) fun _ => bind (dmov _ _) fun _ => pure _

/-- A slow path goes back to a place in the code. -/
lemma proceeds_path {p : SlowPath} (h : s.Returns p) :
    Proceeds env s { s with slowPaths := s.slowPaths.push p } where
  toExtends := .of_eq rfl rfl rfl rfl rfl fun _ => Array.mem_push_of_mem _
  isCode hl := hl.of_size (Nat.le_refl _) rfl
  aimed hs := by
    refine hs.rest rfl rfl rfl rfl (fun _ hx => hs.rooted.stub hx) (fun q hq => ?_)
      (hs.listed.mono (.of_eq rfl rfl) (by simp) (by simp) (fun _ _ => id)
        (fun _ => Array.mem_push_of_mem _) rfl rfl rfl)
    rcases Array.mem_push.mp hq with hq | rfl
    · exact hs.rooted.done hq
    · exact h

@[simp] lemma jumpToBlock (b : BlockId) : Extending env ls (jumpToBlock b) :=
  bind get fun _ => ite (pure _) (bindBlockLabel fun _ => jmp List.mem_cons_self)

@[simp] lemma branch (c : Cond) (t f : BlockId) : Extending env ls (branch c t f) :=
  bind get fun _ => ite (bindBlockLabel fun _ => jcc _ List.mem_cons_self)
    (bindBlockLabel fun _ => bind (jcc _ List.mem_cons_self) fun _ => jumpToBlock f)

/-! ### Operands -/

@[simp] lemma locate (n : NodeId) : Extending env ls (locate n) := by
  unfold Lowering.locate
  refine bind graph fun g => bind (assume _) fun v => ?_
  split
  · exact pure _
  · refine bind (info n) fun x => ite (internal _) ?_
    split
    · exact pure _
    · exact pure _
    · exact ite (pure _) (internal _)

@[simp] lemma bindGpr (n : NodeId) (r : Gpr) (format : DataFormat) :
    Extending env ls (bindGpr n r format) := by
  unfold Lowering.bindGpr
  repeat' with_reducible refine bind ?_ fun _ => ?_
  all_goals simp

@[simp] lemma bindFpr (n : NodeId) (r : Fpr) : Extending env ls (bindFpr n r) := by
  unfold Lowering.bindFpr
  repeat' with_reducible refine bind ?_ fun _ => ?_
  all_goals simp

@[simp] lemma refine' (n : NodeId) (r : Gpr) (format : DataFormat) :
    Extending env ls (refine n r format) := by
  unfold Lowering.refine
  refine bind (info n) fun x => ite (pure _) ?_
  repeat' with_reducible refine bind ?_ fun _ => ?_
  all_goals simp

@[simp] lemma fillSpilledGpr (n : NodeId) (format : DataFormat) :
    Extending env ls (fillSpilledGpr n format) := by
  unfold Lowering.fillSpilledGpr
  cases format <;> repeat' with_reducible refine bind ?_ fun _ => ?_
  all_goals simp

@[simp] lemma fillSpilledFpr (n : NodeId) : Extending env ls (fillSpilledFpr n) := by
  unfold Lowering.fillSpilledFpr
  repeat' with_reducible refine bind ?_ fun _ => ?_
  all_goals simp

@[simp] lemma intFromGpr (e : Edge) (r : Gpr) (format : DataFormat) :
    Extending env ls (intFromGpr e r format) := by
  unfold Lowering.intFromGpr
  split
  all_goals repeat' first
    | with_reducible refine bind ?_ fun _ => ?_
    | with_reducible refine ite ?_ ?_
  all_goals simp

@[simp] lemma fillInt (e : Edge) : Extending env ls (fillInt e) := by
  unfold Lowering.fillInt
  repeat' first
    | with_reducible refine bind ?_ fun _ => ?_
    | with_reducible refine ite ?_ ?_
    | split
  all_goals simp

@[simp] lemma fillStrictInt (e : Edge) : Extending env ls (fillStrictInt e) := by
  unfold Lowering.fillStrictInt
  with_reducible repeat' first | refine bind ?_ fun _ => ?_ | refine ite ?_ ?_ | split
  all_goals simp

@[simp] lemma doubleFromGpr (e : Edge) (r : Gpr) (format : DataFormat) :
    Extending env ls (doubleFromGpr e r format) := by
  unfold Lowering.doubleFromGpr
  with_reducible repeat' first
    | refine bindNewLabel fun _ => ?_ | refine bind ?_ fun _ => ?_ | refine ite ?_ ?_ | split
  all_goals simp

@[simp] lemma fillDouble (e : Edge) : Extending env ls (fillDouble e) := by
  unfold Lowering.fillDouble
  with_reducible repeat' first | refine bind ?_ fun _ => ?_ | refine ite ?_ ?_ | split
  all_goals simp

@[simp] lemma cellFromGpr (e : Edge) (r : Gpr) (format : DataFormat) :
    Extending env ls (cellFromGpr e r format) := by
  unfold Lowering.cellFromGpr
  with_reducible repeat' first | refine bind ?_ fun _ => ?_ | refine ite ?_ ?_ | split
  all_goals simp

@[simp] lemma fillCell (e : Edge) : Extending env ls (fillCell e) := by
  unfold Lowering.fillCell
  with_reducible repeat' first | refine bind ?_ fun _ => ?_ | refine ite ?_ ?_ | split
  all_goals simp

@[simp] lemma guardCellType (cell : Gpr) (type : CellType) (want : Bool) (kind : ExitKind) :
    Extending env ls (guardCellType cell type want kind) := by
  unfold Lowering.guardCellType
  with_reducible repeat' first | refine bind ?_ fun _ => ?_ | refine ite ?_ ?_ | split
  all_goals simp

@[simp] lemma fillObject (e : Edge) : Extending env ls (fillObject e) := by
  unfold Lowering.fillObject
  with_reducible repeat' first | refine bind ?_ fun _ => ?_ | refine ite ?_ ?_ | split
  all_goals simp

@[simp] lemma fillString (e : Edge) : Extending env ls (fillString e) := by
  unfold Lowering.fillString
  with_reducible repeat' first | refine bind ?_ fun _ => ?_ | refine ite ?_ ?_ | split
  all_goals simp

@[simp] lemma booleanFromGpr (e : Edge) (r : Gpr) (format : DataFormat) (shared : Bool) :
    Extending env ls (booleanFromGpr e r format shared) := by
  unfold Lowering.booleanFromGpr
  with_reducible repeat' first | refine bind ?_ fun _ => ?_ | refine ite ?_ ?_ | split
  all_goals simp

@[simp] lemma fillBoolean (e : Edge) : Extending env ls (fillBoolean e) := by
  unfold Lowering.fillBoolean
  with_reducible repeat' first | refine bind ?_ fun _ => ?_ | refine ite ?_ ?_ | split
  all_goals simp

@[simp] lemma fillStorage (e : Edge) : Extending env ls (fillStorage e) := by
  unfold Lowering.fillStorage
  with_reducible repeat' first | refine bind ?_ fun _ => ?_ | refine ite ?_ ?_ | split
  all_goals simp

@[simp] lemma boxGpr (n : NodeId) (r : Gpr) (shared : Bool) (tag : Operand) (boxed : DataFormat) :
    Extending env ls (boxGpr n r shared tag boxed) := by
  unfold Lowering.boxGpr
  with_reducible repeat' first | refine bind ?_ fun _ => ?_ | refine ite ?_ ?_ | split
  all_goals simp

@[simp] lemma boxInt (n : NodeId) (r : Gpr) (shared : Bool) :
    Extending env ls (boxInt n r shared) :=
  boxGpr _ _ _ _ _

@[simp] lemma boxBoolean (n : NodeId) (r : Gpr) (shared : Bool) :
    Extending env ls (boxBoolean n r shared) :=
  boxGpr _ _ _ _ _

@[simp] lemma fillValue (e : Edge) : Extending env ls (fillValue e) := by
  unfold Lowering.fillValue
  with_reducible repeat' first | refine bind ?_ fun _ => ?_ | refine ite ?_ ?_ | split
  all_goals simp

end Extending

/-- The step takes nothing back where the label is attached. -/
def ExtendingAt (env : Env) (ls : List Label) (l : Label) (x : Lower α) : Prop :=
  ∀ s, Aimed env s → (∀ l ∈ ls, s.IsCode l) → s.Attached l → ProceedsBy env s x

namespace ExtendingAt

variable {ls : List Label} {l : Label}

lemma of_extending {x : Lower α} (hx : Extending env ls x) : ExtendingAt env ls l x :=
  fun s hs hls _ => hx s hs hls

lemma bind {x : Lower β} {f : β → Lower α} (hx : ExtendingAt env ls l x)
    (hf : ∀ b, ExtendingAt env ls l (f b)) : ExtendingAt env ls l (x >>= f) := by
  refine fun s hs hls hat => leads_bind.mpr (Leads.weaken (hx s hs hls hat) fun b s₁ h => ?_)
  exact ProceedsBy.before (hf b s₁ (h.aimed hs) (fun l hl => h.isCode (hls l hl)) (h.attached hat)) h

@[simp] lemma addSlowPath (entry : Label) {done : Label} (hdone : done ∈ ls)
    (exclude : List Gpr) {work : SlowWork} (hw : work.helper.serves = true) :
    ExtendingAt env ls done (addSlowPath entry done exclude work) := by
  exact fun s hs hls hat => Extending.proceeds_path ⟨hls _ hdone, hat, hw⟩

end ExtendingAt

/-- After a label is attached, a slow path may go back to it. -/
lemma Extending.bindAttach {ls : List Label} {l : Label} {f : Unit → Lower α}
    (hf : ExtendingAt env ls l (f ())) : Extending env ls (Lowering.attach l >>= f) := by
  refine fun s hs hls => leads_bind.mpr (leads_attach.mono ?_ (fun _ => False.elim)
    fun _ _ h => h ▸ .refl _)
  rintro ⟨⟩ _ ⟨rfl, hfree⟩
  have h : Proceeds env s (s.attached l) := proceeds_attached hfree
  refine ProceedsBy.before (hf _ (h.aimed hs) (fun l hl => h.isCode (hls l hl)) ?_) h
  exact ⟨s.asm.offset, by simp [State.attached, (Array.getElem?_eq_some_iff.mp hfree).1]⟩

end Lowering
end Speculation
