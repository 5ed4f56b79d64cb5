import JoinPipeline.Proofs.Construction
import JoinPipeline.Proofs.Fusion

/-!
# Marks and plans

The mark of a collection says whether its rows come out of a co-group with nothing but
element-wise operations behind it. Every builder works the mark out by itself, from the marks of
the collections it is given, whereas the plan is found in the graph. They never part: at every
later point a collection is marked exactly if its plan starts with a co-group and does not group
by key, and this is the case exactly if the last step of its lineage that is not element-wise is
a join.
-/

namespace JoinPipeline

variable {β : Type} [Basis β]

namespace Chain

/-- The chain starts with a co-group, and its rows are not grouped by key behind it. -/
def ComesOutOfCoGroup (chain : Chain β) : Prop :=
  chain.head?.map Node.kind = some .coGroup ∧ ∀ node ∈ chain, node.kind ≠ .groupByKey

theorem comesOutOfCoGroup_fuse (chain : Chain β) :
    (fuse chain).ComesOutOfCoGroup ↔ chain.ComesOutOfCoGroup := by
  unfold ComesOutOfCoGroup
  rw [kind_head_fuse]
  refine and_congr_right fun _ => forall_congr' fun node => ?_
  constructor
  · intro h hmem heq
    have hfused := (mem_fuse (by rw [heq]; decide) chain).2 hmem
    exact h hfused heq
  · intro h hmem heq
    have hplain := (mem_fuse (by rw [heq]; decide) chain).1 hmem
    exact h hplain heq

/-- A node behind a chain decides nothing unless it groups by key. -/
theorem comesOutOfCoGroup_concat {chain : Chain β} (h : chain ≠ []) (node : Node β) :
    (chain ++ [node] : Chain β).ComesOutOfCoGroup ↔
      chain.ComesOutOfCoGroup ∧ node.kind ≠ .groupByKey := by
  unfold ComesOutOfCoGroup
  rw [List.head?_append_of_ne_nil _ h, List.forall_mem_append, List.forall_mem_singleton,
    and_assoc]

end Chain

namespace Lineage

variable {t : ElementType β}

/-- Whether the last step that is not element-wise is a join. -/
def comesOutOfCoGroup : {t : ElementType β} → Lineage β t → Bool
  | _, source _ _ => false
  | _, each input _ => input.comesOutOfCoGroup
  | _, groupByKey _ => false
  | _, joinTwo .. => true
  | _, joinThree .. => true

theorem chain_ne_nil (e : Lineage β t) : e.chain ≠ [] := by
  cases e with
  | source => exact List.cons_ne_nil _ _
  | each => exact List.append_ne_nil_of_right_ne_nil _ (List.cons_ne_nil _ _)
  | groupByKey => exact List.append_ne_nil_of_right_ne_nil _ (List.cons_ne_nil _ _)
  | joinTwo => exact List.cons_ne_nil _ _
  | joinThree => exact List.cons_ne_nil _ _

/-- The chain of a lineage tells what its last step is that is not element-wise. -/
theorem chain_comesOutOfCoGroup (e : Lineage β t) :
    e.chain.ComesOutOfCoGroup ↔ e.comesOutOfCoGroup = true := by
  induction e with
  | source t rows =>
    refine iff_of_false ?_ Bool.false_ne_true
    intro h
    cases h.1
  | each input e ih =>
    have hkind : (Node.stateless [e.op]).kind ≠ .groupByKey := by
      intro h
      cases h
    refine (Chain.comesOutOfCoGroup_concat input.chain_ne_nil _).trans ?_
    rw [ih, and_iff_left hkind]
    rfl
  | groupByKey input ih =>
    refine iff_of_false ?_ Bool.false_ne_true
    intro h
    exact ((Chain.comesOutOfCoGroup_concat input.chain_ne_nil _).1 h).2 rfl
  | joinTwo g name kind x y =>
    refine iff_of_true ⟨rfl, ?_⟩ rfl
    intro node hnode hkind
    rw [List.mem_singleton.1 hnode] at hkind
    cases hkind
  | joinThree g name kind x y z =>
    refine iff_of_true ⟨rfl, ?_⟩ rfl
    intro node hnode hkind
    rw [List.mem_singleton.1 hnode] at hkind
    cases hkind

/-- So does the plan, which is the chain, fused. -/
theorem plan_comesOutOfCoGroup (e : Lineage β t) :
    (Chain.fuse e.chain).ComesOutOfCoGroup ↔ e.comesOutOfCoGroup = true :=
  (Chain.comesOutOfCoGroup_fuse e.chain).trans e.chain_comesOutOfCoGroup

end Lineage

/-- A join gives out marked collections only. -/
theorem Workspace.isChained_addCoGroup {w : Workspace β} {first : PipelineId}
    {inputs : List (JoinInput β)} {step : CoGroupStep β} {c : Collection β step.output}
    (h : (addCoGroup first inputs step w).1.result = .ok c) : c.isChained = true := by
  cases hvet : (vet first inputs step.name w).result with
  | error cause =>
    rw [(addCoGroup_refused hvet).1] at h
    cases h
  | ok chains =>
    rw [(addCoGroup_accepted hvet).1] at h
    cases h
    rfl

namespace Construction

variable {s s' : Construction β} {t : ElementType β}

/-- Every collection is marked by the last step of its lineage that is not element-wise. -/
def IsMarked (s : Construction β) : Prop :=
  ∀ i ∈ s.issued, i.handle.isChained = i.lineage.comesOutOfCoGroup

theorem isMarked_empty : ({} : Construction β).IsMarked := by
  intro i hi
  cases hi

theorem IsMarked.issue (h : s.IsMarked) {lineage : Lineage β t}
    {built : Collection β t × Workspace β}
    (hmark : built.1.isChained = lineage.comesOutOfCoGroup) :
    (s.issue lineage built).IsMarked := by
  intro i hi
  rcases List.mem_cons.1 hi with hnew | hmem
  · rw [hnew]
    exact hmark
  · exact h i hmem

theorem IsMarked.issueJoin (h : s.IsMarked) {lineage : Lineage β t}
    {joined : Log.Traced JoinError (Collection β t) × Workspace β}
    (hmark : ∀ c, joined.1.result = .ok c → c.isChained = lineage.comesOutOfCoGroup) :
    (s.issueJoin lineage joined).IsMarked := by
  unfold Construction.issueJoin
  split
  next c hc => exact h.issue (hmark c hc)
  next => exact h

/-- Element-wise transforms pass the mark on, joins set it, and a source and grouping by key start
without it. -/
theorem IsMarked.perform (h : s.IsMarked) (c : s.Call) : (s.perform c).IsMarked := by
  cases c with
  | pipeline options => exact h
  | source p known t rows => exact h.issue rfl
  | each x e =>
    refine h.issue ?_
    rw [e.build_eq]
    exact h _ x.mem
  | groupByKey x => exact h.issue rfl
  | joinTwo g name kind x y =>
    exact h.issueJoin fun c hc => Workspace.isChained_addCoGroup hc
  | joinThree g name kind x y z =>
    exact h.issueJoin fun c hc => Workspace.isChained_addCoGroup hc

theorem Leads.isMarked (h : Leads s s') (hs : s.IsMarked) : s'.IsMarked := by
  induction h with
  | refl => exact hs
  | call _ c ih => exact ih.perform c

/-- A collection is marked exactly if, at every later point, its plan comes out of a co-group; that
is, if the last step that led to it and is not element-wise is a join. -/
theorem isChained_iff_plan (hreach : Leads {} s) (hlater : Leads s s') {i : Issued β}
    (hi : i ∈ s.issued) :
    ∃ plan, ((s'.workspace.graph i.handle.pipeline).buildPlan i.handle.node).result = .ok plan ∧
      (i.handle.isChained = true ↔ plan.ComesOutOfCoGroup) ∧
      (i.handle.isChained = true ↔ i.lineage.comesOutOfCoGroup = true) := by
  have hsound := hlater.isSound (hreach.isSound isSound_empty)
  have hmark := hreach.isMarked isMarked_empty i hi
  refine ⟨Chain.fuse i.lineage.chain, ?_, ?_, ?_⟩
  · rw [Graph.buildPlan_result]
    exact (hsound.reaches i (hlater.mem hi)).plan
  · rw [hmark, i.lineage.plan_comesOutOfCoGroup]
  · rw [hmark]

theorem isChained_selfJoined :
    ∃ (c : (selfJoined .firstMet).Given
        (.pair (.base .int64) (.pair (.base .int64) (.base .int64)))) (plan : Chain Atom),
      ((((selfJoined .firstMet).perform (.groupByKey c)).workspace.graph
        c.handle.pipeline).buildPlan c.handle.node).result = .ok plan ∧
      c.handle.isChained = true ∧ plan.ComesOutOfCoGroup := by
  obtain ⟨joined, hjoined⟩ := issued_selfJoined .firstMet
  obtain ⟨plan, hplan, hmark, hlineage⟩ := isChained_iff_plan (leads_selfJoined .firstMet)
    (.call (.refl _) (.groupByKey ⟨joined, _, hjoined⟩)) hjoined
  have hmarked := hlineage.2 rfl
  exact ⟨⟨joined, _, hjoined⟩, plan, hplan, hmarked, hmark.1 hmarked⟩

end Construction

end JoinPipeline
