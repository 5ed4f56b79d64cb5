import JoinPipeline.Proofs.Acceptance
import JoinPipeline.Proofs.Marks

/-!
# Chained co-groups in reachable workspaces

A pipeline whose level is error holds no co-group with an input that comes out of a co-group,
whatever other pipelines admit. A co-group in the plan of an input was a node of some pipeline
before, so that nothing is hidden in the depth of the plans either: where every pipeline has this
level, there is no chained co-group anywhere. And nothing else is turned away: such a pipeline
refuses a join exactly if one of its inputs comes out of a co-group.
-/

namespace JoinPipeline

variable {β : Type} [Basis β]

/-- No input of the co-group comes out of a co-group. -/
def Node.IsUnchained : Node β → Prop
  | .coGroup _ inputs => ∀ input ∈ inputs, ¬ Chain.ComesOutOfCoGroup input
  | _ => True

/-- A node stands in a chain or, at some depth, in an input of one of its co-groups. -/
inductive Chain.Contains : Chain β → Node β → Prop
  | here {chain : Chain β} {node : Node β} (h : node ∈ chain) : Contains chain node
  | inside {chain : Chain β} {step : CoGroupStep β} {inputs : List (Chain β)} {input : Chain β}
    {node : Node β} (h : .coGroup step inputs ∈ chain) (hinput : input ∈ inputs)
    (hnode : Contains input node) : Contains chain node

namespace Workspace

variable {w w' : Workspace β} {p : PipelineId} {inputs : List (Chain β)} {node : Node β}

/-- A node of one of the pipelines. -/
def HasNode (w : Workspace β) (node : Node β) : Prop := ∃ p id, (id, node) ∈ (w.graph p).nodes

/-- The level of a pipeline lets a co-group of these inputs in, and the co-groups in the inputs are
nodes already. -/
structure Admits (w : Workspace β) (p : PipelineId) (inputs : List (Chain β)) : Prop where
  unchained : (w.options p).chainCheck = .error →
    ∀ input ∈ inputs, ¬ input.ComesOutOfCoGroup
  known : ∀ input ∈ inputs, ∀ node ∈ input, node.kind = .coGroup → w.HasNode node

/-- Every co-group was admitted by the pipeline it is in. -/
def IsVetted (w : Workspace β) : Prop :=
  ∀ p id step inputs, (id, .coGroup step inputs) ∈ (w.graph p).nodes → w.Admits p inputs

theorem Extends.mem (h : w'.Extends w) {entry : NodeId × Node β}
    (hentry : entry ∈ (w.graph p).nodes) : entry ∈ (w'.graph p).nodes := by
  obtain ⟨nodes, hnodes⟩ := (h.2 p).1
  rw [hnodes]
  exact List.mem_append_left nodes hentry

theorem HasNode.extend (h : w.HasNode node) (hext : w'.Extends w) : w'.HasNode node := by
  obtain ⟨p, id, hmem⟩ := h
  exact ⟨p, id, hext.mem hmem⟩

theorem Admits.extend (h : w.Admits p inputs) (hext : w'.Extends w)
    (hoptions : w'.options p = w.options p) : w'.Admits p inputs where
  unchained hlevel := h.unchained (hoptions ▸ hlevel)
  known input hinput nested hnested hkind := (h.known input hinput nested hnested hkind).extend hext

theorem isVetted_empty : ({} : Workspace β).IsVetted := by
  intro p id step inputs hmem
  cases hmem

theorem known_of_mem {entry : NodeId × Node β} (h : entry ∈ (w.graph p).nodes) :
    p.place < w.pipelines.length := by
  by_contra hp
  have hnone : w.pipeline p = {} := List.getD_eq_default _ _ (Nat.le_of_not_lt hp)
  have hempty : (w.graph p).nodes = [] := by
    unfold graph
    rw [hnone]
  rw [hempty] at h
  cases h

theorem options_addPipeline (options : Options) (h : p.place < w.pipelines.length) :
    (addPipeline options w).2.options p = w.options p :=
  congrArg Pipeline.options (List.getD_append _ _ _ _ h)

theorem IsVetted.addPipeline (h : w.IsVetted) (options : Options) :
    (addPipeline options w).2.IsVetted := by
  intro p id step inputs hmem
  rw [graph_addPipeline] at hmem
  have hoptions := options_addPipeline options (known_of_mem hmem)
  exact (h p id step inputs hmem).extend (addPipeline_extends options w) hoptions

/-- A node is added to the graph of a pipeline. If it is a co-group, it has to be admitted. -/
theorem IsVetted.setGraph (h : w.IsVetted) (hp : p.place < w.pipelines.length) {g : Graph β}
    {id : NodeId} (hext : g.Extends (w.graph p))
    (hnodes : g.nodes = (w.graph p).nodes ++ [(id, node)])
    (hnode : ∀ step inputs, node = .coGroup step inputs → w.Admits p inputs) :
    (w.setGraph p g).IsVetted := by
  intro q id' step inputs hmem
  have hgrown : (w.setGraph p g).Extends w := setGraph_extends hext
  have hadmits : w.Admits q inputs := by
    by_cases hq : q = p
    · rw [hq, graph_setGraph_self hp, hnodes] at hmem
      rw [hq]
      rcases List.mem_append.1 hmem with hold | hnew
      · exact h p id' step inputs hold
      · have hadded := List.mem_singleton.1 hnew
        exact hnode step inputs (congrArg Prod.snd hadded).symm
    · rw [graph_setGraph_of_ne hq] at hmem
      exact h q id' step inputs hmem
  exact hadmits.extend hgrown (options_setGraph w p q g)

theorem IsVetted.insertNode (h : w.IsVetted) (hp : p.place < w.pipelines.length)
    (hnode : ∀ step inputs, node = .coGroup step inputs → w.Admits p inputs) :
    (insertNode p node w).2.IsVetted :=
  h.setGraph hp (Graph.insert_extends _ _) rfl hnode

theorem IsVetted.andThen (h : w.IsVetted) {s t : ElementType β} {c : Collection β s}
    (hc : c.pipeline.place < w.pipelines.length) (hnode : node.isRoot = false)
    (isChained : Bool) :
    (c.andThen node isChained w : Collection β t × Workspace β).2.IsVetted := by
  rw [Collection.andThen_eq hc]
  refine h.setGraph hc ((Graph.connect_extends _ _ _).trans (Graph.insert_extends _ _)) rfl ?_
  intro step inputs hstep
  rw [hstep] at hnode
  cases hnode

/-- A co-group at any depth is the node of a pipeline. -/
theorem IsVetted.hasNode_of_contains (h : w.IsVetted) {chain : Chain β}
    (hcontains : chain.Contains node)
    (hchain : ∀ node ∈ chain, node.kind = .coGroup → w.HasNode node)
    (hkind : node.kind = .coGroup) : w.HasNode node := by
  induction hcontains with
  | here hmem => exact hchain _ hmem hkind
  | inside hmem hinput _ ih =>
    obtain ⟨p, id, hstep⟩ := hchain _ hmem rfl
    exact ih ((h p id _ _ hstep).known _ hinput) hkind

theorem IsVetted.isUnchained (h : w.IsVetted) {id : NodeId}
    (hlevel : (w.options p).chainCheck = .error) (hnode : (id, node) ∈ (w.graph p).nodes) :
    node.IsUnchained := by
  cases node with
  | coGroup step inputs => exact (h p id step inputs hnode).unchained hlevel
  | source => trivial
  | stateless => trivial
  | groupByKey => trivial

theorem IsVetted.isUnchained_of_contains (h : w.IsVetted)
    (hlevels : ∀ p, p.place < w.pipelines.length → (w.options p).chainCheck = .error)
    {entry : NodeId × Node β} (hentry : entry ∈ (w.graph p).nodes)
    (hcontains : Chain.Contains [entry.2] node) : node.IsUnchained := by
  have hroot : ∀ first ∈ [entry.2], first.kind = .coGroup → w.HasNode first := by
    intro first hfirst _
    rw [List.mem_singleton.1 hfirst]
    exact ⟨p, entry.1, hentry⟩
  cases hkind : node.kind with
  | coGroup =>
    obtain ⟨q, id, hmem⟩ := h.hasNode_of_contains hcontains hroot hkind
    exact h.isUnchained (hlevels q (known_of_mem hmem)) hmem
  | source | stateless | groupByKey =>
    cases node with
    | coGroup => cases hkind
    | source => trivial
    | stateless => trivial
    | groupByKey => trivial

end Workspace

/-- A plan has its nodes from the graph, runs of element-wise operations apart. -/
theorem Graph.exists_mem_of_plan {g : Graph β} {terminal : NodeId} {plan : Chain β}
    (h : (g.buildPlan terminal).result = .ok plan) {node : Node β} (hnode : node ∈ plan)
    (hkind : node.kind ≠ .stateless) : ∃ id, (id, node) ∈ g.nodes := by
  rw [buildPlan_result] at h
  obtain ⟨walked, hreaches, rfl⟩ := plan_eq_ok.1 h
  exact Chain.exists_mem_of_walk hreaches ((Chain.mem_fuse hkind walked).1 hnode)

/-- The co-groups in the plan of an input are nodes of its pipeline. -/
theorem JoinInput.hasNode_of_plan {w : Workspace β} {input : JoinInput β} {chain : Chain β}
    (h : input.plan w = .ok chain) {node : Node β} (hnode : node ∈ chain)
    (hkind : node.kind = .coGroup) : w.HasNode node := by
  obtain ⟨id, hid⟩ := Graph.exists_mem_of_plan h hnode (by rw [hkind]; decide)
  exact ⟨input.pipeline, id, hid⟩

namespace Construction

variable {s s' : Construction β} {t : ElementType β}

/-- The inputs are collections that have been given out. -/
def AreIssued (s : Construction β) (inputs : List (JoinInput β)) : Prop :=
  ∀ input ∈ inputs, ∃ i ∈ s.issued, i.handle.asInput = input

theorem Given.asInput (x : s.Given t) : ∃ i ∈ s.issued, i.handle.asInput = x.handle.asInput :=
  ⟨_, x.mem, rfl⟩

/-- An input is marked exactly if its plan comes out of a co-group. -/
theorem IsSound.isChained_iff (hs : s.IsSound) (hm : s.IsMarked) {inputs : List (JoinInput β)}
    (hinputs : s.AreIssued inputs) {input : JoinInput β} (hmem : input ∈ inputs) :
    ∃ plan, input.plan s.workspace = .ok plan ∧
      (input.isChained = true ↔ plan.ComesOutOfCoGroup) := by
  obtain ⟨i, hi, hinput⟩ := hinputs input hmem
  rw [← hinput]
  refine ⟨_, JoinInput.plan_of_reaches (hs.reaches i hi), ?_⟩
  rw [i.lineage.plan_comesOutOfCoGroup, ← hm i hi]
  rfl

section Joins

variable {first : PipelineId} {inputs : List (JoinInput β)}

/-- What passes the check of marks is admitted. -/
theorem IsSound.admits (hs : s.IsSound) (hm : s.IsMarked) (hinputs : s.AreIssued inputs)
    (hallowed : ¬ JoinInput.AreForbidden (s.workspace.options first).chainCheck inputs)
    {chains : List (Chain β)}
    (hchains : List.Forall₂ (fun input chain => input.plan s.workspace = .ok chain)
      inputs chains) : s.workspace.Admits first chains where
  unchained := by
    intro hlevel chain hchain hcomes
    obtain ⟨input, hmem, hplan⟩ := JoinInput.exists_of_mem_plans hchains hchain
    obtain ⟨plan, hplan', hiff⟩ := hs.isChained_iff hm hinputs hmem
    cases hplan.symm.trans hplan'
    exact hallowed ⟨hlevel, input, hmem, hiff.2 hcomes⟩
  known := by
    intro chain hchain node hnode hkind
    obtain ⟨input, _, hplan⟩ := JoinInput.exists_of_mem_plans hchains hchain
    exact JoinInput.hasNode_of_plan hplan hnode hkind

theorem IsSound.exists_vetted (hs : s.IsSound) (hm : s.IsMarked) (hinputs : s.AreIssued inputs)
    (hallowed : ¬ JoinInput.AreForbidden (s.workspace.options first).chainCheck inputs)
    (name : String) :
    ∃ chains, s.workspace.Admits first chains ∧
      (Workspace.vet first inputs name s.workspace).result = .ok chains := by
  have hplans : ∀ input ∈ inputs, ∃ chain, input.plan s.workspace = .ok chain := by
    intro input hmem
    obtain ⟨plan, hplan, _⟩ := hs.isChained_iff hm hinputs hmem
    exact ⟨plan, hplan⟩
  obtain ⟨chains, hchains, hvet⟩ := Workspace.exists_vetted hallowed hplans name
  exact ⟨chains, hs.admits hm hinputs hallowed hchains, hvet⟩

theorem IsSound.isVetted_addCoGroup (hs : s.IsSound) (hm : s.IsMarked)
    (h : s.workspace.IsVetted) (hfirst : first.place < s.workspace.pipelines.length)
    (hinputs : s.AreIssued inputs) (step : CoGroupStep β) :
    (Workspace.addCoGroup first inputs step s.workspace).2.IsVetted := by
  by_cases hforbidden : JoinInput.AreForbidden (s.workspace.options first).chainCheck inputs
  · have hvet := Workspace.result_vet_of_forbidden hforbidden step.name
    rw [(Workspace.addCoGroup_refused hvet).2]
    exact h
  · obtain ⟨chains, hadmits, hvet⟩ := hs.exists_vetted hm hinputs hforbidden step.name
    rw [(Workspace.addCoGroup_accepted hvet).2]
    refine h.insertNode hfirst ?_
    intro step' inputs' hstep
    cases hstep
    exact hadmits

/-- A pipeline whose level is error refuses a join exactly if an input comes out of a co-group. -/
theorem IsSound.refused_iff (hs : s.IsSound) (hm : s.IsMarked) (hinputs : s.AreIssued inputs)
    (hlevel : (s.workspace.options first).chainCheck = .error) (step : CoGroupStep β) :
    (∃ cause, (Workspace.addCoGroup first inputs step s.workspace).1.result = .error cause) ↔
      ∃ input ∈ inputs, ∃ plan, input.plan s.workspace = .ok plan ∧ plan.ComesOutOfCoGroup := by
  constructor
  · intro hrefused
    by_contra hnone
    have hallowed :
        ¬ JoinInput.AreForbidden (s.workspace.options first).chainCheck inputs := by
      intro hforbidden
      obtain ⟨input, hmem, hmarked⟩ := hforbidden.2
      obtain ⟨plan, hplan, hiff⟩ := hs.isChained_iff hm hinputs hmem
      exact hnone ⟨input, hmem, plan, hplan, hiff.1 hmarked⟩
    obtain ⟨chains, _, hvet⟩ := hs.exists_vetted hm hinputs hallowed step.name
    obtain ⟨cause, hcause⟩ := hrefused
    rw [(Workspace.addCoGroup_accepted hvet).1] at hcause
    cases hcause
  · intro hcomes
    obtain ⟨input, hmem, plan, hplan, hcomes⟩ := hcomes
    obtain ⟨plan', hplan', hiff⟩ := hs.isChained_iff hm hinputs hmem
    cases hplan.symm.trans hplan'
    have hforbidden : JoinInput.AreForbidden (s.workspace.options first).chainCheck inputs :=
      ⟨hlevel, input, hmem, hiff.2 hcomes⟩
    have hvet := Workspace.result_vet_of_forbidden hforbidden step.name
    exact ⟨_, (Workspace.addCoGroup_refused hvet).1⟩

end Joins

theorem areIssued_pair {u : ElementType β} (x : s.Given t) (y : s.Given u) :
    s.AreIssued [x.handle.asInput, y.handle.asInput] :=
  List.forall_mem_cons.2 ⟨x.asInput, List.forall_mem_singleton.2 y.asInput⟩

theorem areIssued_triple {u v : ElementType β} (x : s.Given t) (y : s.Given u) (z : s.Given v) :
    s.AreIssued [x.handle.asInput, y.handle.asInput, z.handle.asInput] :=
  List.forall_mem_cons.2 ⟨x.asInput, areIssued_pair y z⟩

/-- A call adds no co-group that is not admitted. -/
theorem IsSound.isVetted_perform (hs : s.IsSound) (hm : s.IsMarked) (h : s.workspace.IsVetted)
    (c : s.Call) : (s.perform c).workspace.IsVetted := by
  cases c with
  | pipeline options => exact h.addPipeline options
  | source p known t rows =>
    refine h.insertNode known ?_
    intro step inputs hstep
    cases hstep
  | each x e =>
    show (e.build x.handle s.workspace).2.IsVetted
    rw [e.build_eq]
    exact h.andThen (x.known hs) rfl _
  | groupByKey x =>
    show (x.handle.groupByKey s.workspace).2.IsVetted
    exact h.andThen (x.known hs) rfl false
  | joinTwo g name kind x y =>
    show (s.issueJoin _ _).workspace.IsVetted
    rw [workspace_issueJoin]
    exact hs.isVetted_addCoGroup hm h (x.known hs) (areIssued_pair x y) _
  | joinThree g name kind x y z =>
    show (s.issueJoin _ _).workspace.IsVetted
    rw [workspace_issueJoin]
    exact hs.isVetted_addCoGroup hm h (x.known hs) (areIssued_triple x y z) _

theorem Leads.isVetted (h : Leads s s') (hs : s.IsSound) (hm : s.IsMarked)
    (hv : s.workspace.IsVetted) : s'.workspace.IsVetted := by
  induction h with
  | refl => exact hv
  | call h c ih => exact (h.isSound hs).isVetted_perform (h.isMarked hm) ih c

/-- Where the level is error, there is no chained co-group in a pipeline; where it is so for all
pipelines, there is none at any depth; and a join is refused exactly if one of its inputs comes
out of a co-group. -/
theorem error_level_excludes_chains (hreach : Leads {} s) :
    (∀ p, (s.workspace.options p).chainCheck = .error →
      ∀ entry ∈ (s.workspace.graph p).nodes, entry.2.IsUnchained) ∧
    ((∀ p, p.place < s.workspace.pipelines.length →
        (s.workspace.options p).chainCheck = .error) →
      ∀ p, ∀ entry ∈ (s.workspace.graph p).nodes, ∀ node, Chain.Contains [entry.2] node →
        node.IsUnchained) ∧
    (∀ {k v u : ElementType β} (g : Grouper β) (name : String) (kind : PairJoin)
      (x : s.Given (.pair k v)) (y : s.Given (.pair k u)),
      (s.workspace.options x.handle.pipeline).chainCheck = .error →
      ((∃ cause, (g.joinTwo name kind x.handle y.handle s.workspace).1.result = .error cause) ↔
        ∃ input ∈ [x.handle.asInput, y.handle.asInput],
          ∃ plan, input.plan s.workspace = .ok plan ∧ plan.ComesOutOfCoGroup)) ∧
    ∀ {k a b c : ElementType β} (g : Grouper β) (name : String) (kind : TripleJoin)
      (x : s.Given (.pair k a)) (y : s.Given (.pair k b)) (z : s.Given (.pair k c)),
      (s.workspace.options x.handle.pipeline).chainCheck = .error →
      ((∃ cause, (g.joinThree name kind x.handle y.handle z.handle s.workspace).1.result =
          .error cause) ↔
        ∃ input ∈ [x.handle.asInput, y.handle.asInput, z.handle.asInput],
          ∃ plan, input.plan s.workspace = .ok plan ∧ plan.ComesOutOfCoGroup) := by
  have hs := hreach.isSound isSound_empty
  have hm := hreach.isMarked isMarked_empty
  have hv := hreach.isVetted isSound_empty isMarked_empty Workspace.isVetted_empty
  refine ⟨?_, ?_, ?_, ?_⟩
  · intro p hlevel entry hentry
    exact hv.isUnchained hlevel hentry
  · intro hlevels p entry hentry node hnode
    exact hv.isUnchained_of_contains hlevels hentry hnode
  · intro k v u g name kind x y hlevel
    exact hs.refused_iff hm (areIssued_pair x y) hlevel _
  · intro k a b c g name kind x y z hlevel
    exact hs.refused_iff hm (areIssued_triple x y z) hlevel _

section Strict

/-- A pipeline that admits no marked inputs, with one source of keyed numbers. -/
def strict : Construction Atom :=
  (({} : Construction Atom).perform (.pipeline { chainCheck := .error })).perform
    (.source ⟨0⟩ (by decide) (.pair (.base .int64) (.base .int64)) sampleList)

def strictRows : strict.Given (.pair (.base .int64) (.base .int64)) := ⟨_, _, List.mem_cons_self⟩

/-- Its source joined with itself, which is admitted. -/
def strictJoined : Construction Atom :=
  strict.perform (.joinTwo .firstMet "inner" .inner strictRows strictRows)

theorem leads_strict : Leads {} strict := .call (.call (.refl _) _) _

theorem error_level_strictJoined :
    (∀ entry ∈ (strictJoined.workspace.graph ⟨0⟩).nodes, ∀ node,
      Chain.Contains [entry.2] node → node.IsUnchained) ∧
    ∃ (x : strictJoined.Given (.pair (.base .int64) (.base .int64)))
      (y : strictJoined.Given (.pair (.base .int64) (.pair (.base .int64) (.base .int64)))),
      ∃ cause, (Grouper.firstMet.joinTwo "again" .left x.handle y.handle
        strictJoined.workspace).1.result = .error cause := by
  have hreach : Leads {} strictJoined := .call leads_strict _
  have hsound := hreach.isSound isSound_empty
  have hjoin : strictJoined.workspace = (Workspace.addCoGroup ⟨0⟩ _ _ strict.workspace).2 :=
    workspace_issueJoin _ _
  obtain ⟨hpipelines, hoptions⟩ := Workspace.pipelines_addCoGroup ⟨0⟩ _ _ strict.workspace
  have hlength : strictJoined.workspace.pipelines.length = 1 := by
    rw [hjoin, hpipelines]
    rfl
  have hlevel : (strictJoined.workspace.options ⟨0⟩).chainCheck = .error := by
    rw [hjoin, hoptions]
    rfl
  have hlevels : ∀ p, p.place < strictJoined.workspace.pipelines.length →
      (strictJoined.workspace.options p).chainCheck = .error := by
    intro p hp
    rw [hlength, Nat.lt_one_iff] at hp
    have hplace : p = ⟨0⟩ := congrArg PipelineId.mk hp
    rw [hplace]
    exact hlevel
  obtain ⟨_, hnested, hpair, _⟩ := error_level_excludes_chains hreach
  refine ⟨hnested hlevels ⟨0⟩, ?_⟩
  have hlater : Leads strict strictJoined := .call (.refl strict) _
  have hrows := hlater.mem strictRows.mem
  obtain ⟨joined, hjoined⟩ := (leads_strict.isSound isSound_empty).issued_joinTwo .firstMet
    "inner" .inner strictRows strictRows rfl
  refine ⟨⟨_, _, hrows⟩, ⟨joined, _, hjoined⟩, ?_⟩
  refine (hpair .firstMet "again" .left ⟨_, _, hrows⟩ ⟨joined, _, hjoined⟩ hlevel).2 ?_
  refine ⟨joined.asInput, List.mem_cons_of_mem _ List.mem_cons_self, _,
    JoinInput.plan_of_reaches (hsound.reaches _ hjoined), ?_⟩
  exact (Lineage.plan_comesOutOfCoGroup _).2 rfl

end Strict

end Construction

end JoinPipeline
