import JoinPipeline.Value
import JoinPipeline.Proofs.Acceptance
import JoinPipeline.Proofs.Lineage

/-!
# Constructions

A construction is a workspace together with every collection that has been given out and how it
was built. It goes on by calls of builders on collections that have been given out before, in any
order and as often as one likes, over any number of pipelines. At every later point the chain of
its lineage still leads to a collection. Conversely, every lineage is that of some collection.
-/

namespace JoinPipeline

/-- A collection that has been given out. -/
structure Issued (β : Type) [Basis β] where
  element : ElementType β
  handle : Collection β element
  lineage : Lineage β element

structure Construction (β : Type) [Basis β] where
  workspace : Workspace β := {}
  issued : List (Issued β) := []

variable {β : Type} [Basis β]

namespace Construction

/-- One of the collections that have been given out, of a known type. -/
structure Given (s : Construction β) (t : ElementType β) where
  handle : Collection β t
  lineage : Lineage β t
  mem : ⟨t, handle, lineage⟩ ∈ s.issued

/-- The calls of builders. A source names a pipeline that has been made, and every other builder
works on collections that have been given out. -/
inductive Call (s : Construction β) : Type 1 where
  | pipeline (options : Options)
  | source (p : PipelineId) (known : p.place < s.workspace.pipelines.length) (t : ElementType β)
    (rows : List t.Carrier)
  | each {a b : ElementType β} (x : s.Given a) (e : Elementwise β a b)
  | groupByKey {k v : ElementType β} (x : s.Given (.pair k v))
  | joinTwo {k v w : ElementType β} (g : Grouper β) (name : String) (kind : PairJoin)
    (x : s.Given (.pair k v)) (y : s.Given (.pair k w))
  | joinThree {k a b c : ElementType β} (g : Grouper β) (name : String) (kind : TripleJoin)
    (x : s.Given (.pair k a)) (y : s.Given (.pair k b)) (z : s.Given (.pair k c))

section Perform

variable {t : ElementType β} (s : Construction β)

/-- Notes the collection that a builder has given out. -/
def issue (lineage : Lineage β t) (built : Collection β t × Workspace β) : Construction β :=
  ⟨built.2, ⟨t, built.1, lineage⟩ :: s.issued⟩

/-- Notes the outcome of a join; one that is refused gives out nothing. -/
def issueJoin (lineage : Lineage β t)
    (joined : Log.Traced JoinError (Collection β t) × Workspace β) : Construction β :=
  match joined.1.result with
  | .ok c => s.issue lineage (c, joined.2)
  | .error _ => { s with workspace := joined.2 }

/-- The construction behind a call. -/
def perform : s.Call → Construction β
  | .pipeline options => { s with workspace := (Workspace.addPipeline options s.workspace).2 }
  | .source p _ t rows => s.issue (.source t rows) (Collection.ofRows p t rows s.workspace)
  | .each x e => s.issue (x.lineage.each e) (e.build x.handle s.workspace)
  | .groupByKey x => s.issue x.lineage.groupByKey (x.handle.groupByKey s.workspace)
  | .joinTwo g name kind x y =>
    s.issueJoin (.joinTwo g name kind x.lineage y.lineage)
      (g.joinTwo name kind x.handle y.handle s.workspace)
  | .joinThree g name kind x y z =>
    s.issueJoin (.joinThree g name kind x.lineage y.lineage z.lineage)
      (g.joinThree name kind x.handle y.handle z.handle s.workspace)

end Perform

/-- Calls of builders lead from one construction to another. -/
inductive Leads : Construction β → Construction β → Prop
  | refl (s : Construction β) : Leads s s
  | call {s s' : Construction β} (h : Leads s s') (c : s'.Call) : Leads s (s'.perform c)

theorem Leads.trans {s s' s'' : Construction β} (h : Leads s s') (h' : Leads s' s'') :
    Leads s s'' := by
  induction h' with
  | refl => exact h
  | call _ c ih => exact .call ih c

/-- The chain of its lineage leads to every collection, and every graph is tidy. -/
structure IsSound (s : Construction β) : Prop where
  isTidy : s.workspace.IsTidy
  known : ∀ i ∈ s.issued, i.handle.pipeline.place < s.workspace.pipelines.length
  reaches : ∀ i ∈ s.issued,
    (s.workspace.graph i.handle.pipeline).Reaches i.handle.node i.lineage.chain

theorem isSound_empty : ({} : Construction β).IsSound where
  isTidy p := Graph.isTidy_of_edges_eq_nil rfl
  known i hi := by cases hi
  reaches i hi := by cases hi

section Soundness

variable {s : Construction β} {t : ElementType β}

/-- What has been given out stays good when the workspace grows. -/
theorem IsSound.grow (h : s.IsSound) {w : Workspace β} (hgrown : w.Extends s.workspace)
    (htidy : w.IsTidy) : ({ s with workspace := w } : Construction β).IsSound where
  isTidy := htidy
  known i hi := Nat.lt_of_lt_of_le (h.known i hi) hgrown.1
  reaches i hi := (h.reaches i hi).extend (hgrown.2 _)

theorem IsSound.issue (h : s.IsSound) {lineage : Lineage β t}
    {built : Collection β t × Workspace β}
    (hbuilt : Workspace.Builds s.workspace built lineage.chain) :
    (s.issue lineage built).IsSound := by
  have hold := h.grow hbuilt.grown hbuilt.isTidy
  refine ⟨hold.isTidy, fun i hi => ?_, fun i hi => ?_⟩
  · rcases List.mem_cons.1 hi with hnew | hmem
    · rw [hnew]
      exact hbuilt.known
    · exact hold.known i hmem
  · rcases List.mem_cons.1 hi with hnew | hmem
    · rw [hnew]
      exact hbuilt.reaches
    · exact hold.reaches i hmem

/-- A join that is refused changes nothing. -/
theorem IsSound.issueJoin (h : s.IsSound) {lineage : Lineage β t}
    {joined : Log.Traced JoinError (Collection β t) × Workspace β} {check : Except JoinError Unit}
    (hjoined : (∃ cause, check = .error cause ∧ joined.1.result = .error cause ∧
        joined.2 = s.workspace) ∨
      ∃ c, joined.1.result = .ok c ∧
        Workspace.Builds s.workspace (c, joined.2) lineage.chain) :
    (s.issueJoin lineage joined).IsSound := by
  unfold Construction.issueJoin
  rcases hjoined with ⟨cause, _, hcause, hsame⟩ | ⟨c, hc, hbuilds⟩
  · rw [hcause, hsame]
    exact h
  · rw [hc]
    exact h.issue hbuilds

theorem Given.known (h : s.IsSound) (x : s.Given t) :
    x.handle.pipeline.place < s.workspace.pipelines.length :=
  h.known _ x.mem

theorem Given.reaches (h : s.IsSound) (x : s.Given t) :
    (s.workspace.graph x.handle.pipeline).Reaches x.handle.node x.lineage.chain :=
  h.reaches _ x.mem

/-- A call keeps a construction sound. -/
theorem IsSound.perform (h : s.IsSound) (c : s.Call) : (s.perform c).IsSound := by
  cases c with
  | pipeline options =>
    refine h.grow (Workspace.addPipeline_extends options s.workspace) fun p => ?_
    rw [Workspace.graph_addPipeline]
    exact h.isTidy p
  | source p known t rows => exact h.issue (Collection.builds_ofRows h.isTidy known t rows)
  | each x e =>
    refine h.issue ?_
    rw [e.build_eq]
    exact Collection.builds_andThen h.isTidy (x.known h) (x.reaches h) rfl _
  | groupByKey x =>
    exact h.issue (Collection.builds_andThen h.isTidy (x.known h) (x.reaches h) rfl false)
  | joinTwo g name kind x y =>
    exact h.issueJoin (Workspace.builds_addCoGroup h.isTidy (x.known h)
      (.cons (x.reaches h) (.cons (y.reaches h) .nil)) _)
  | joinThree g name kind x y z =>
    exact h.issueJoin (Workspace.builds_addCoGroup h.isTidy (x.known h)
      (.cons (x.reaches h) (.cons (y.reaches h) (.cons (z.reaches h) .nil))) _)

theorem Leads.isSound {s s' : Construction β} (h : Leads s s') (hs : s.IsSound) : s'.IsSound := by
  induction h with
  | refl => exact hs
  | call _ c ih => exact ih.perform c

end Soundness

section Issued

variable {s s' : Construction β} {t : ElementType β}

theorem workspace_issueJoin (lineage : Lineage β t)
    (joined : Log.Traced JoinError (Collection β t) × Workspace β) :
    (s.issueJoin lineage joined).workspace = joined.2 := by
  unfold issueJoin
  split <;> rfl

theorem mem_issueJoin {i : Issued β} (hi : i ∈ s.issued) (lineage : Lineage β t)
    (joined : Log.Traced JoinError (Collection β t) × Workspace β) :
    i ∈ (s.issueJoin lineage joined).issued := by
  unfold issueJoin
  split
  · exact List.mem_cons_of_mem _ hi
  · exact hi

theorem mem_perform {i : Issued β} (hi : i ∈ s.issued) (c : s.Call) :
    i ∈ (s.perform c).issued := by
  cases c with
  | pipeline => exact hi
  | source => exact List.mem_cons_of_mem _ hi
  | each => exact List.mem_cons_of_mem _ hi
  | groupByKey => exact List.mem_cons_of_mem _ hi
  | joinTwo => exact mem_issueJoin hi _ _
  | joinThree => exact mem_issueJoin hi _ _

/-- What has been given out is never taken back. -/
theorem Leads.mem (h : Leads s s') {i : Issued β} (hi : i ∈ s.issued) :
    i ∈ s'.issued := by
  induction h with
  | refl => exact hi
  | call _ c ih => exact mem_perform ih c

/-- A collection that has been given out, at a later point. -/
def Given.later (x : s.Given t) (h : Leads s s') : s'.Given t := ⟨x.handle, x.lineage, h.mem x.mem⟩

/-- A join that passes the check of marks gives out a collection. -/
theorem issued_issueJoin {lineage : Lineage β t}
    {joined : Log.Traced JoinError (Collection β t) × Workspace β} {check : Except JoinError Unit}
    (hjoined : (∃ cause, check = .error cause ∧ joined.1.result = .error cause ∧
        joined.2 = s.workspace) ∨
      ∃ c, joined.1.result = .ok c ∧ Workspace.Builds s.workspace (c, joined.2) lineage.chain)
    (hcheck : check = .ok ()) : ∃ c, ⟨t, c, lineage⟩ ∈ (s.issueJoin lineage joined).issued := by
  rcases hjoined with ⟨cause, hcause, _⟩ | ⟨c, hc, _⟩
  · cases hcheck.symm.trans hcause
  · refine ⟨c, ?_⟩
    unfold Construction.issueJoin
    rw [hc]
    exact List.mem_cons_self

theorem IsSound.issued_joinTwo (h : s.IsSound) {k v w : ElementType β} (g : Grouper β)
    (name : String) (kind : PairJoin) (x : s.Given (.pair k v)) (y : s.Given (.pair k w))
    (hcheck : (JoinInput.check name (s.workspace.options x.handle.pipeline).chainCheck
      [x.handle.asInput, y.handle.asInput]).result = .ok ()) :
    ∃ c, ⟨.pair k (kind.payload v w), c, .joinTwo g name kind x.lineage y.lineage⟩ ∈
      (s.perform (.joinTwo g name kind x y)).issued :=
  issued_issueJoin (Workspace.builds_addCoGroup h.isTidy (x.known h)
    (.cons (x.reaches h) (.cons (y.reaches h) .nil)) (g.pairStep name kind k v w)) hcheck

theorem IsSound.issued_joinThree (h : s.IsSound) {k a b c : ElementType β} (g : Grouper β)
    (name : String) (kind : TripleJoin) (x : s.Given (.pair k a)) (y : s.Given (.pair k b))
    (z : s.Given (.pair k c))
    (hcheck : (JoinInput.check name (s.workspace.options x.handle.pipeline).chainCheck
      [x.handle.asInput, y.handle.asInput, z.handle.asInput]).result = .ok ()) :
    ∃ joined, ⟨.pair k (kind.payload a b c), joined,
        .joinThree g name kind x.lineage y.lineage z.lineage⟩ ∈
      (s.perform (.joinThree g name kind x y z)).issued :=
  issued_issueJoin (Workspace.builds_addCoGroup h.isTidy (x.known h)
    (.cons (x.reaches h) (.cons (y.reaches h) (.cons (z.reaches h) .nil)))
    (g.tripleStep name kind k a b c)) hcheck

end Issued

section Realising

variable {s : Construction β} {t : ElementType β}

/-- There is a pipeline, and none of them refuses marked inputs. -/
structure IsLenient (s : Construction β) : Prop where
  known : 0 < s.workspace.pipelines.length
  level : ∀ p, (s.workspace.options p).chainCheck ≠ .error

theorem IsLenient.of_pipelines (h : s.IsLenient) {s' : Construction β}
    (hpipelines : s'.workspace.pipelines.length = s.workspace.pipelines.length ∧
      ∀ p, s'.workspace.options p = s.workspace.options p) : s'.IsLenient where
  known := hpipelines.1 ▸ h.known
  level p := hpipelines.2 p ▸ h.level p

theorem IsLenient.check_eq_ok (h : s.IsLenient) (name : String) (p : PipelineId)
    (inputs : List (JoinInput β)) :
    (JoinInput.check name (s.workspace.options p).chainCheck inputs).result = .ok () :=
  JoinInput.result_check_of_allowed (fun hforbidden => h.level p hforbidden.1) name

theorem pipelines_andThen {u : ElementType β} (x : Collection β t) (node : Node β)
    (isChained : Bool) (w : Workspace β) :
    (x.andThen (t := u) node isChained w).2.pipelines.length = w.pipelines.length ∧
      ∀ p, (x.andThen (t := u) node isChained w).2.options p = w.options p :=
  ⟨(Workspace.length_setGraph ..).trans (Workspace.length_setGraph ..),
    fun _ => (Workspace.options_setGraph ..).trans (Workspace.options_setGraph ..)⟩

/-- Only the call of a pipeline changes which pipelines there are and their options. -/
theorem IsLenient.perform (h : s.IsLenient) (c : s.Call) (hc : ∀ options, c ≠ .pipeline options) :
    (s.perform c).IsLenient := by
  cases c with
  | pipeline options => exact (hc options rfl).elim
  | source p known t rows =>
    exact h.of_pipelines ⟨Workspace.length_setGraph .., fun _ => Workspace.options_setGraph ..⟩
  | each x e =>
    refine h.of_pipelines ?_
    show (e.build x.handle s.workspace).2.pipelines.length = _ ∧
      ∀ p, (e.build x.handle s.workspace).2.options p = _
    rw [e.build_eq]
    exact pipelines_andThen ..
  | @groupByKey k v x =>
    exact h.of_pipelines (pipelines_andThen (u := .pair k (.vector v)) x.handle _ false _)
  | joinTwo g name kind x y =>
    refine h.of_pipelines ?_
    rw [Construction.perform, workspace_issueJoin]
    exact Workspace.pipelines_addCoGroup ..
  | joinThree g name kind x y z =>
    refine h.of_pipelines ?_
    rw [Construction.perform, workspace_issueJoin]
    exact Workspace.pipelines_addCoGroup ..

/-- Calls of builders give out a collection of every lineage. -/
theorem IsLenient.exists_issued (h : s.IsLenient) (hs : s.IsSound) (e : Lineage β t) :
    ∃ s', Leads s s' ∧ s'.IsLenient ∧ ∃ c, ⟨t, c, e⟩ ∈ s'.issued := by
  induction e generalizing s with
  | source t rows =>
    exact ⟨s.perform (.source ⟨0⟩ h.known t rows), .call (.refl s) _,
      h.perform _ fun _ => nofun, _, List.mem_cons_self⟩
  | each input e ih =>
    obtain ⟨s', hlead, hlenient, c, hc⟩ := ih h hs
    exact ⟨s'.perform (.each ⟨c, input, hc⟩ e), .call hlead _,
      hlenient.perform _ fun _ => nofun, _, List.mem_cons_self⟩
  | groupByKey input ih =>
    obtain ⟨s', hlead, hlenient, c, hc⟩ := ih h hs
    exact ⟨s'.perform (.groupByKey ⟨c, input, hc⟩), .call hlead _,
      hlenient.perform _ fun _ => nofun, _, List.mem_cons_self⟩
  | joinTwo g name kind x y ihx ihy =>
    obtain ⟨s₁, hlead₁, hlenient₁, cx, hcx⟩ := ihx h hs
    obtain ⟨s₂, hlead₂, hlenient₂, cy, hcy⟩ := ihy hlenient₁ (hlead₁.isSound hs)
    have hlead := hlead₁.trans hlead₂
    exact ⟨s₂.perform (.joinTwo g name kind ⟨cx, x, hlead₂.mem hcx⟩ ⟨cy, y, hcy⟩), .call hlead _,
      hlenient₂.perform _ fun _ => nofun,
      (hlead.isSound hs).issued_joinTwo g name kind _ _ (hlenient₂.check_eq_ok ..)⟩
  | joinThree g name kind x y z ihx ihy ihz =>
    obtain ⟨s₁, hlead₁, hlenient₁, cx, hcx⟩ := ihx h hs
    obtain ⟨s₂, hlead₂, hlenient₂, cy, hcy⟩ := ihy hlenient₁ (hlead₁.isSound hs)
    have hlead := hlead₁.trans hlead₂
    obtain ⟨s₃, hlead₃, hlenient₃, cz, hcz⟩ := ihz hlenient₂ (hlead.isSound hs)
    exact ⟨s₃.perform (.joinThree g name kind ⟨cx, x, (hlead₂.trans hlead₃).mem hcx⟩
        ⟨cy, y, hlead₃.mem hcy⟩ ⟨cz, z, hcz⟩), .call (hlead.trans hlead₃) _,
      hlenient₃.perform _ fun _ => nofun,
      ((hlead.trans hlead₃).isSound hs).issued_joinThree g name kind _ _ _
        (hlenient₃.check_eq_ok ..)⟩

/-- A pipeline with nothing in it. -/
def fresh : Construction β := ({} : Construction β).perform (.pipeline {})

theorem leads_fresh : Leads {} (fresh : Construction β) := .call (.refl _) _

theorem isLenient_fresh : (fresh : Construction β).IsLenient where
  known := Nat.one_pos
  level p := by
    have hoptions : (fresh : Construction β).workspace.options p = {} := by
      obtain ⟨place⟩ := p
      cases place <;> rfl
    rw [hoptions]
    nofun

theorem isSound_fresh : (fresh : Construction β).IsSound := leads_fresh.isSound isSound_empty

/-- Every lineage is that of a collection that can be built. -/
theorem exists_issued (e : Lineage β t) : ∃ s, Leads {} s ∧ ∃ c, ⟨t, c, e⟩ ∈ s.issued := by
  obtain ⟨s, hlead, _, hissued⟩ := isLenient_fresh.exists_issued isSound_fresh e
  exact ⟨s, leads_fresh.trans hlead, hissued⟩

end Realising

section Sample

def sampleList : List (Int64 × Int64) := [(2, 10), (1, 20), (2, 30)]

/-- A pipeline with one source of keyed numbers. -/
def sample : Construction Atom :=
  (({} : Construction Atom).perform (.pipeline {})).perform
    (.source ⟨0⟩ (by decide) (.pair (.base .int64) (.base .int64)) sampleList)

theorem leads_sample : Leads {} sample := .call (.call (.refl _) _) _

/-- The source of the sample. -/
def sampleRows : sample.Given (.pair (.base .int64) (.base .int64)) := ⟨_, _, List.mem_cons_self⟩

/-- The sample with its source joined with itself. -/
def selfJoined (g : Grouper Atom) : Construction Atom :=
  sample.perform (.joinTwo g "inner" .inner sampleRows sampleRows)

theorem leads_selfJoined (g : Grouper Atom) : Leads {} (selfJoined g) := .call leads_sample _

theorem issued_selfJoined (g : Grouper Atom) : ∃ c,
    ⟨_, c, .joinTwo g "inner" .inner sampleRows.lineage sampleRows.lineage⟩ ∈
      (selfJoined g).issued :=
  (leads_sample.isSound isSound_empty).issued_joinTwo g "inner" .inner sampleRows sampleRows rfl

end Sample

end Construction

end JoinPipeline
