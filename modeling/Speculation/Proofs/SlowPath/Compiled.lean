import Speculation.Proofs.Compile.Ledger
import Speculation.Proofs.Compile.Success
import Speculation.Proofs.SlowPath.Transparent

/-!
The slow paths of compiled code.

A slow path is registered while the entry and the blocks are lowered, and its code comes after that
of all blocks. From its first instruction on there are three ways for it to go: to the handler of
exceptions, to the stub of an exit, or back to the fast path, and then it was transparent.
-/

namespace Speculation

namespace Lowering

/-- Lower the entry and the blocks. All slow paths are registered by then. -/
def lowerMain : Lower (Label × Label) := do
  let labels ← lowerEntry
  lowerBlocks (List.range (← graph).blocks.size)
  return labels

lemma lowerGraph_eq_main (n : Nat) :
    lowerGraph n = lowerMain >>= fun labels => lowerRest n labels.1 labels.2 := by
  unfold lowerGraph lowerMain
  simp only [bind_assoc, pure_bind]

variable {env : Env} {s s' : State}

lemma leads_lowerMain (h : Blank env.graph s) (hs : Aimed env s) :
    Leads env s lowerMain
      (fun labels s' => (Proceeds env s s' ∧ s'.IsCode labels.1) ∧ Sighted env.graph s')
      (fun _ => True) fun _ _ => True := by
  have hgives : Gives env [] s lowerMain fun labels s' => s'.IsCode labels.1 :=
    gives_lowerEntry.bind fun labels s₁ _ hlabels => .read (gives_lowerBlocks.bind fun _ s₂ h₂ _ =>
      .pure fun _ _ => h₂.isCode hlabels.1)
  have hsighted : Leads env s lowerMain (fun _ s' => Sighted env.graph s') (fun _ => True)
      (Fault env.graph) := by
    refine (leads_lowerEntry h).then fun labels s₁ h₁ => ?_
    rw [leads_bind, leads_graph, List.range_eq_range']
    exact (leads_lowerBlocks h₁ (by omega)).then fun _ s₂ h₂ => h₂.sighted
  exact (Leads.and (hgives hs (List.forall_mem_nil _)) hsighted).mono (fun _ _ => id)
    (fun _ _ => trivial) fun _ _ _ => trivial

/-- What comes after the blocks has the code of the slow paths in it, and after that come the
handler of exceptions and the stubs of exits. -/
lemma leads_lowerRest_hasPath {n : Nat} {entry overflow : Label} (hsighted : Sighted env.graph s)
    (hs : Aimed env s) (hentry : s.IsCode entry) :
    Leads env s (lowerRest n entry overflow) (fun _ s' => (∀ p ∈ s.slowPaths, s'.HasPath env p) ∧
      Extends env s s' ∧ s'.Beyond (s.asm.offset + 1) env.exceptionLabel ∧
      ∀ x ∈ s'.exits, s'.Beyond (s.asm.offset + 1) x.stub) (fun _ => True) fun _ _ => True := by
  have hinsts : Gives env [entry] s (restInsts n entry overflow) fun _ s' =>
      (∀ p ∈ s.slowPaths, s'.HasPath env p) ∧ s'.Beyond (s.asm.offset + 1) env.exceptionLabel ∧
        ∀ x ∈ s'.exits, s'.Beyond (s.asm.offset + 1) x.stub := by
    refine .read ((gives_emitSlowPaths fun _ => hsighted.guards).bind fun _ s₁ he₁ h₁ =>
      (gives_arityEntry List.mem_cons_self).bind fun a s₂ h₂ _ =>
        gives_closeInsts.conseq fun _ s₃ h₃ => ?_)
    rintro ⟨-, -, -, -, -, -, hexception, hstubs⟩ - -
    have hle : s.asm.offset + 1 ≤ s₂.asm.offset + 1 :=
      Nat.succ_le_succ (he₁.trans h₂).offset_le
    exact ⟨fun p hp => (h₁ p hp).extends (h₂.trans h₃).toExtends, hexception.mono hle,
      fun x hx => (hstubs x hx).mono hle⟩
  refine (hinsts.lowerRest hs hentry).weaken ?_
  rintro - s' ⟨s₁, ⟨hpaths, hexception, hstubs⟩, hext, he, hrest⟩
  refine ⟨fun p hp => (hpaths p hp).extends he, hext, hexception.extends he, fun x hx => ?_⟩
  rw [hrest] at hx
  exact (hstubs x hx).extends he

end Lowering

/-- The thread is at an offset of the code, which from there on is as it was compiled. What comes
before may have been patched. -/
structure Artifact.Entered (a : Artifact) (o : Nat) (t : Thread) (w : World) : Prop where
  pc : t.pc = a.addressOf o
  room : a.base.toNat + a.code.size < UInt64.size
  code : ∃ b, w.artifacts[t.code]? = some b ∧ b.base = a.base ∧ b.code.size = a.code.size ∧
    b.code.data.toList.drop o = a.code.data.toList.drop o

lemma Artifact.addressOf_ne {a : Artifact} {k k' : Nat} (hlt : k < k') (hle : k' ≤ a.code.size)
    (hroom : a.base.toNat + a.code.size < UInt64.size) : a.addressOf k ≠ a.addressOf k' := by
  intro h
  have h := congrArg UInt64.toNat h
  simp only [addressOf, UInt64.toNat_add, UInt64.toNat_ofNat'] at h
  simp only [UInt64.size] at hroom
  omega

/-- The first jump that is taken in a run leads to `t'`. -/
def Execution.JumpsTo (t : Thread) (w : World) (t' : Thread) (w' : World) : Prop :=
  ∃ t₁ w₁, Ends t w t₁ w₁ ∧ Advances t₁ w₁ t' w'

def Draft.reading : Draft :=
  let d : Draft := { name := "reading", kind := .function }
  let d := ((d.identifier "x").2.addArgument .cell .value).2.addBlock.select 0
  let d := (d.addNode (.getLocal 0) [] .cell).2
  let d := (d.addNode (.getById 0) [0] .top).2
  (d.addNode .ret [1] .top).2

lemma Draft.built_reading : Draft.reading.Built := by
  refine Built.addNode (Built.addNode (Built.addNode ?_ ?_ _ _ _ _) ?_ _ _ _ _) ?_ _ _ _ _
  · exact (((Built.new _ _).identifier _).addArgument _ _).addBlock.select _
  all_goals decide +kernel

namespace Plan

open Lowering Execution

variable {d : Draft} {p : Plan} {base : UInt64} {a : Artifact} {frame : FrameLayout}
  {layout : Layout} {s s' : State}

/-- A slow path has its code, goes back to code that is there already, and leaves to code that is
yet to come. -/
lemma hasPath_of_lower (hd : d.Built) (hg : d.finish = .ok p.graph) {labels : Label × Label}
    {path : SlowPath} (h : p.lower = .ok (frame, layout, s'))
    (hs : outcome lowerMain (p.env frame) p.start = (.ok labels, s)) (hpath : path ∈ s.slowPaths) :
    path.Guards ∧ s'.HasPath (p.env frame) path ∧ ∃ e, s'.asm.labels[path.done]? = some (some e) ∧
      s'.Beyond (e + 1) (p.env frame).exceptionLabel ∧ ∀ x ∈ s'.exits, s'.Beyond (e + 1) x.stub := by
  have haimed := aimed_start p frame
  obtain ⟨⟨hproceeds, hcode⟩, hsighted⟩ :=
    (leads_lowerMain (by exact blank_start hd hg) haimed).result hs
  refine ⟨hsighted.guards hpath, ?_⟩
  have haimed' := hproceeds.aimed haimed
  obtain ⟨e, he⟩ := (haimed'.rooted.done hpath).2
  have hle : e ≤ s.asm.offset := by
    refine (hproceeds.within he).resolve_left fun h => ?_
    simp [start, Array.getElem?_replicate] at h
  obtain ⟨-, hrest⟩ := outcome_of_lower h
  rw [lowerGraph_eq_main, outcome_bind, hs] at hrest
  obtain ⟨hpaths, hext, hexception, hstubs⟩ :=
    (leads_lowerRest_hasPath hsighted haimed' hcode).result hrest
  have hle := Nat.succ_le_succ hle
  exact ⟨hpaths path hpath, e, hext.labels he, hexception.mono hle,
    fun x hx => (hstubs x hx).mono hle⟩

/-- All slow paths are registered before the code of the first one comes. -/
lemma hasPath_of_mem (hd : d.Built) (hg : d.finish = .ok p.graph) {path : SlowPath}
    (h : p.lower = .ok (frame, layout, s')) (hpath : path ∈ s'.slowPaths) :
    s'.HasPath (p.env frame) path := by
  obtain ⟨-, hout⟩ := outcome_of_lower h
  rw [lowerGraph_eq_main, outcome_bind] at hout
  rcases hs : outcome lowerMain (p.env frame) p.start with ⟨e | labels, s⟩ <;> rw [hs] at hout
  · cases hout
  · have hsighted :=
      ((leads_lowerMain (by exact blank_start hd hg) (aimed_start p frame)).result hs).2
    obtain ⟨-, hpaths⟩ := (leads_lowerRest (T := fun _ => False) hsighted).result hout
    exact (hasPath_of_lower hd hg h hs (hpaths ▸ hpath)).2.1

lemma label_le {code : ByteArray} {l : Label} {k : Nat} (h : p.lower = .ok (frame, layout, s'))
    (hcode : Link.fillFields s'.asm base = .ok code) (hk : s'.asm.labels[l]? = some (some k)) :
    k ≤ code.size := by
  obtain ⟨hext, -⟩ := complete_of_lower h
  obtain ⟨qs, hadds, hfits, -⟩ := hext.pieces
  have hlinked := Link.fillFields_ok base hadds.code hadds.relocs hfits hcode
  have hsize : code.size = s'.asm.offset := by
    rw [← ByteArray.size_data, ← Array.length_toList, hlinked, Piece.length_linked _ _ hfits,
      hadds.offset]
    exact (Nat.zero_add _).symm
  rw [hsize]
  refine (hext.within hk).resolve_left fun hstart => ?_
  simp [start, Array.getElem?_replicate] at hstart

/-- An exit of the lowering is one of the artifact. -/
lemma exists_exitSite {asm : Assembler} {exits : Array Exit} {sites : Array ExitSite} {x : Exit}
    (h : exitSites asm exits = .ok sites) (hx : x ∈ exits) :
    ∃ y ∈ sites, y.exit = x ∧ asm.labels[x.stub]? = some (some y.stub) := by
  obtain ⟨k, hk⟩ := Array.mem_iff_getElem?.mp hx
  have hlen := (forall₂_of_mapM h).length_eq
  rw [Array.length_toList, Array.length_toList] at hlen
  have hlt : k < sites.size := hlen ▸ (Array.getElem?_eq_some_iff.mp hk).1
  obtain ⟨he, hstub⟩ := exitSites_getElem? h (Array.getElem?_eq_getElem hlt)
  obtain rfl := Option.some.inj (hk.symm.trans he)
  exact ⟨_, Array.getElem_mem hlt, rfl, hstub⟩

/-- Slow paths are transparent. Take any slow path that is registered while a graph is lowered that
compiles, and any state of the machine at its entry. If the slow path comes to the place where it is
done, it was transparent; it may also come to the handler of exceptions or to the stub of an exit,
which are elsewhere. -/
theorem slowPath_transparent (hd : d.Built) (hg : d.finish = .ok p.graph)
    (h : (p.compile base).outcome = .ok a) : ∃ frame layout s', p.lower = .ok (frame, layout, s') ∧
      ∀ labels s path, outcome lowerMain (p.env frame) p.start = (.ok labels, s) →
        path ∈ s.slowPaths → ∃ o e, s'.asm.labels[path.entry]? = some (some o) ∧
          s'.asm.labels[path.done]? = some (some e) ∧
          ∀ t₀ w₀ t w, a.Entered o t₀ w₀ → JumpsTo t₀ w₀ t w →
            t.pc = a.addressOf e ∧ path.Transparent frame t₀ w₀ t w ∨
            t.pc ≠ a.addressOf e ∧
              ((∃ k, s'.asm.labels[p.graph.blocks.size]? = some (some k) ∧ t.pc = a.addressOf k) ∨
                ∃ x ∈ a.exits, t.pc = a.addressOf x.stub) := by
  obtain ⟨frame, layout, s', code, hs', hcode, ha, -⟩ := build_ok h
  obtain ⟨rfl, hexits, -, rfl, -⟩ := artifact_ok ha
  refine ⟨frame, layout, s', hs', fun labels s path hs hpath => ?_⟩
  obtain ⟨hguards, ⟨o, m, l, l', ho, hm, hstands, hl, hl'⟩, e, he, hexception, hstubs⟩ :=
    hasPath_of_lower hd hg hs' hs hpath
  refine ⟨o, e, ho, he, fun t₀ w₀ t w hentered ⟨t₁, w₁, hends, hadvances⟩ => ?_⟩
  obtain ⟨b, hb, hbase, hsize, hdrop⟩ := hentered.code
  have hroom := hentered.room
  have hlinked : b.Linked s'.asm a.base o :=
    ⟨hbase, hsize ▸ hroom, a.code, hcode, hsize, hdrop⟩
  have hlater : ∀ {l : Label} {k : Nat}, s'.Beyond (e + 1) l → s'.asm.labels[l]? = some (some k) →
      a.addressOf k ≠ a.addressOf e := by
    intro l k ⟨k', hk', hlt⟩ hk
    cases hk'.symm.trans hk
    exact (Artifact.addressOf_ne hlt (label_le hs' hcode hk) hroom).symm
  have hexit : ∀ l, path.work.Leaves s' l → path.work.guard l ≠ [] ∧ HeadsFor s'.asm a.base t₁ w₁ l →
      t.pc ≠ a.addressOf e ∧ ∃ x ∈ a.exits, t.pc = a.addressOf x.stub := by
    rintro l hl ⟨hguard, k, hk, hpc⟩
    obtain ⟨x, hx, rfl⟩ := hl hguard
    obtain ⟨y, hy, -, hstub⟩ := exists_exitSite hexits hx
    cases hk.symm.trans hstub
    have hpc := hpc t w hadvances
    exact ⟨hpc ▸ hlater (hstubs x hx) hk, y, hy, hpc⟩
  obtain ⟨k, hk, hpc⟩ | (hl₁ | hl₂) | ⟨e', he', hback⟩ := hends.slowPath hguards hm
    ⟨⟨b, hb, hlinked⟩, hentered.pc, Nat.le_refl o, hstands⟩
  · have hpc := hpc t w hadvances
    exact .inr ⟨hpc ▸ hlater hexception hk, .inl ⟨k, hk, hpc⟩⟩
  · exact .inr ((hexit l hl hl₁).imp_right .inr)
  · exact .inr ((hexit l' hl' hl₂).imp_right .inr)
  · cases he'.symm.trans he
    exact .inl (hback t w hadvances)

theorem slowPath_transparent_reading :
    ∃ a frame labels s path o e, ∃ s' : State, ((ofDraft .reading).compile 0x7e0000000000).outcome = .ok a ∧
      outcome lowerMain ((ofDraft .reading).env frame) (ofDraft .reading).start = (.ok labels, s) ∧
      path ∈ s.slowPaths ∧ s'.asm.labels[path.entry]? = some (some o) ∧
      ∀ t₀ w₀ t w, a.Entered o t₀ w₀ → JumpsTo t₀ w₀ t w →
        t.pc = a.addressOf e ∧ path.Transparent frame t₀ w₀ t w ∨
        t.pc ≠ a.addressOf e ∧ ((∃ k, s'.asm.labels[1]? = some (some k) ∧ t.pc = a.addressOf k) ∨
          ∃ x ∈ a.exits, t.pc = a.addressOf x.stub) := by
  have hok : ((ofDraft .reading).sketch 0x7e0000000000).isSome = true := by decide +kernel
  obtain ⟨⟨b, block⟩, hsketch⟩ := Option.isSome_iff_exists.mp hok
  obtain ⟨code, ha, -⟩ := exists_compiled hsketch
  obtain ⟨frame, layout, s', hlower, h⟩ :=
    slowPath_transparent Draft.built_reading (finish_ofDraft (by decide +kernel)) ha
  have hframe : (ofDraft .reading).lower.toOption.map (fun x => (x.1.numLocals, x.1.frameSlots)) =
      some (2, 27) := by decide +kernel
  rw [hlower] at hframe
  obtain ⟨m, n⟩ := frame
  cases hframe
  have hpaths : (outcome lowerMain ((ofDraft .reading).env ⟨2, 27⟩)
      (ofDraft .reading).start).1.isOk = true ∧ 0 < (outcome lowerMain ((ofDraft .reading).env
      ⟨2, 27⟩) (ofDraft .reading).start).2.slowPaths.size := by decide +kernel
  rcases hs : outcome lowerMain ((ofDraft .reading).env ⟨2, 27⟩) (ofDraft .reading).start with
    ⟨_ | labels, s⟩ <;> rw [hs] at hpaths
  · cases hpaths.1
  · have hpath := Array.getElem_mem hpaths.2
    obtain ⟨o, e, ho, -, hruns⟩ := h labels s _ hs hpath
    have hblocks : (ofDraft .reading).graph.blocks.size = 1 := by decide +kernel
    rw [hblocks] at hruns
    exact ⟨_, ⟨2, 27⟩, labels, s, _, o, e, s', ha, hs, hpath, ho, hruns⟩

end Plan
end Speculation
