import JoinPipeline.Proofs.Isolation
import JoinPipeline.Proofs.Shapes

/-!
# The guards of a run

Where a chain has the shape of a plan, no guard of the runner ever speaks up. The operations and
steps in a chain may fail with what they like, so what is said of a run is where a failure comes
from: one that finds fault with a shape was raised by a node of the plan or of the plans in it, and
not by the runner. The nodes that builders make raise no such failure.
-/

namespace JoinPipeline

variable {β : Type} [Basis β]

/-- A node raises a failure of its own: one of its operations fails in this way on some partition,
or a half of its group-by-key step on something. -/
inductive Node.Raises : Node β → RunError β → Prop
  | operation {ops : List (Op β)} {op : Op β} {p : Partition β} {cause : RunError β}
    (hop : op ∈ ops) (h : op.apply p = .error cause) : Raises (.stateless ops) cause
  | tabulate {step : GroupStep β} {p : Partition β} {cause : RunError β}
    (h : step.tabulate p = .error cause) : Raises (.groupByKey step) cause
  | merge {step : GroupStep β} {scheme : HashScheme β} {tables : List (Partial β)}
    {cause : RunError β} (h : step.merge scheme tables = .error cause) :
    Raises (.groupByKey step) cause

namespace Run

variable {ctx : RunContext β} {parts : List (Partition β)} {cause : RunError β}
  {chain : Chain β} {node : Node β}

/-- A stage behind the root fails with what its node raises. -/
theorem raises_of_stage (hroot : node.isRoot = false)
    (h : (stage ctx parts node).result = .error cause) : node.Raises cause := by
  cases node with
  | source | coGroup => cases hroot
  | stateless ops =>
    rw [result_stage_stateless] at h
    obtain ⟨p, _, hp⟩ := exists_of_mapM_eq_error h
    obtain ⟨op, hop, q, hq⟩ := exists_of_foldlM_eq_error hp
    exact .operation hop hq
  | groupByKey step =>
    rw [result_stage_groupByKey] at h
    rcases bind_eq_error.1 h with htables | ⟨tables, _, hrest⟩
    · obtain ⟨p, _, hp⟩ := exists_of_mapM_eq_error htables
      exact .tabulate hp
    rcases bind_eq_error.1 hrest with hmerge | ⟨out, _, hdone⟩
    · exact .merge hmerge
    · cases hdone

theorem raises_of_stages (hroots : ∀ node ∈ chain, node.isRoot = false)
    (h : (stages ctx parts chain).result = .error cause) : ∃ node ∈ chain, node.Raises cause := by
  induction chain generalizing ctx parts with
  | nil => cases h
  | cons node chain ih =>
    obtain ⟨hnode, hchain⟩ := List.forall_mem_cons.1 hroots
    rw [result_stages_cons] at h
    rcases bind_eq_error.1 h with hfirst | ⟨mid, _, hrest⟩
    · exact ⟨node, List.mem_cons_self, raises_of_stage hnode hfirst⟩
    · obtain ⟨later, hmem, hraises⟩ := ih hchain hrest
      exact ⟨later, List.mem_cons_of_mem _ hmem, hraises⟩

theorem findsNoFault_source (ctx : RunContext β) (element : ElementType β)
    (payload : Partition β) : FindsNoFault (source ctx element payload) := by
  simp only [source]
  split
  · exact .ok _
  · exact .error not_false

theorem findsNoFault_coalesce (name : String) (element : ElementType β)
    (parts : List (Partition β)) : FindsNoFault (coalesce name element parts) := by
  unfold coalesce
  split
  · exact .ok _
  · exact .error not_false

/-- Where the inputs of a co-group give nothing for a fault of shape, one of them does so. -/
theorem exists_of_runInputs_eq_error {inputs : List (Chain β)} {place : Nat} {name : String}
    {elements : List (ElementType β)}
    (h : (runInputs ctx place name elements inputs).result = .error cause)
    (hshape : cause.BlamesShape) :
    ∃ input ∈ inputs, ∃ ctx' : RunContext β, (Run.chain ctx' input).result = .error cause := by
  induction inputs generalizing place elements with
  | nil => cases h
  | cons input rest ih =>
    cases elements with
    | nil => cases h
    | cons element elements =>
      simp only [runInputs, Log.Traced.result_bind, Log.Traced.result_ofExcept] at h
      rcases bind_eq_error.1 h with hinput | ⟨mid, _, h⟩
      · exact ⟨input, List.mem_cons_self, _, hinput⟩
      rcases bind_eq_error.1 h with hp | ⟨p, _, h⟩
      · exact absurd hshape (findsNoFault_coalesce _ _ _ _ hp)
      rcases bind_eq_error.1 h with hrest | ⟨ps, _, hdone⟩
      · obtain ⟨later, hmem, hlater⟩ := ih hrest
        exact ⟨later, List.mem_cons_of_mem _ hmem, hlater⟩
      · cases hdone

/-- Inputs and the types of their elements are gone through in step. -/
theorem length_of_runInputs {inputs : List (Chain β)} {place : Nat} {name : String}
    {elements : List (ElementType β)}
    (h : (runInputs ctx place name elements inputs).result = .ok parts) :
    parts.length = min elements.length inputs.length := by
  induction inputs generalizing place elements parts with
  | nil =>
    cases h
    simp
  | cons input rest ih =>
    cases elements with
    | nil =>
      cases h
      simp
    | cons element elements =>
      simp only [runInputs, Log.Traced.result_bind, Log.Traced.result_ofExcept] at h
      obtain ⟨mid, _, h⟩ := bind_eq_ok.1 h
      obtain ⟨p, _, h⟩ := bind_eq_ok.1 h
      obtain ⟨ps, hps, hdone⟩ := bind_eq_ok.1 h
      cases hdone
      have hlength := ih hps
      simp only [List.length_cons]
      omega

/-- A co-group that is ready gets as many inputs as its step was made for. -/
theorem length_of_isFor {step : CoGroupStep β} {inputs : List (Chain β)} {place : Nat}
    (hstep : step.IsFor inputs.length)
    (h : (runInputs ctx place step.name step.inputElements inputs).result = .ok parts) :
    parts.length = inputs.length := by
  rw [length_of_runInputs h, hstep.elements, Nat.min_self]

theorem findsNoFault_coGroup {step : CoGroupStep β} (hstep : step.IsFor parts.length)
    (ctx : RunContext β) (inputCount : Nat) :
    FindsNoFault (coGroup ctx step inputCount parts).result := by
  simp only [coGroup, Log.Traced.result_bind, Log.Traced.result_ofExcept]
  refine FindsNoFault.bind ?_ fun outcome => .ok _
  cases hresult : step.exec ctx.scheme parts with
  | ok p => exact .ok p
  | error cause =>
    have hcause : ¬ (RunError.inCoGroup step.name cause).BlamesShape :=
      hstep.accepts _ _ rfl cause hresult
    exact .error hcause

/-- A chain without roots behind its first node fails at this node or with what a later one raises. -/
theorem root_or_raises (hrest : ∀ later ∈ chain, later.isRoot = false)
    (h : (Run.chain ctx (node :: chain)).result = .error cause) :
    (root ctx node).result = .error cause ∨
      ∃ later, Chain.Contains (node :: chain) later ∧ later.Raises cause := by
  rw [result_chain_cons] at h
  rcases bind_eq_error.1 h with hroot | ⟨parts, _, hstages⟩
  · exact .inl hroot
  · obtain ⟨later, hmem, hraises⟩ := raises_of_stages hrest hstages
    exact .inr ⟨later, .here (List.mem_cons_of_mem _ hmem), hraises⟩

/-- By induction over the captured plans: a run that finds fault with a shape has it from a node. -/
theorem raises_of_chain (hchain : chain.IsShaped)
    (h : (Run.chain ctx chain).result = .error cause) (hshape : cause.BlamesShape) :
    ∃ node, Chain.Contains chain node ∧ node.Raises cause := by
  induction hchain generalizing ctx with
  | source element payload hrest =>
    rcases root_or_raises hrest h with hroot | hlater
    · exact absurd hshape (findsNoFault_source _ _ _ _ hroot)
    · exact hlater
  | @coGroup step inputs rest hstep hinputs hrest ih =>
    rcases root_or_raises hrest h with hroot | hlater
    · simp only [root, Log.Traced.result_bind, Log.Traced.result_elsewhereIf] at hroot
      rcases bind_eq_error.1 hroot with hinner | ⟨parts, hparts, hgroup⟩
      · obtain ⟨input, hmem, ctx', hinput⟩ := exists_of_runInputs_eq_error hinner hshape
        obtain ⟨node, hcontains, hraises⟩ := ih input hmem hinput
        exact ⟨node, .inside List.mem_cons_self hmem hcontains, hraises⟩
      · have hlength := length_of_isFor hstep hparts
        have hfor : step.IsFor parts.length := hlength ▸ hstep
        exact absurd hshape (findsNoFault_coGroup hfor _ _ _ hgroup)
    · exact hlater

theorem findsNoFault_gather (t : ElementType β) (parts : List (Partition β)) :
    FindsNoFault (gather t parts) := by
  refine FindsNoFault.bind (fun cause h => ?_) fun rows => .ok _
  obtain ⟨p, _, hp⟩ := exists_of_mapM_eq_error h
  split at hp
  · cases hp
  · cases hp
    exact not_false

end Run

section Built

theorem Op.findsNoFault_onRows (label : String) (s t : ElementType β)
    (f : List s.Carrier → List t.Carrier) (p : Partition β) :
    FindsNoFault ((onRows label s t f).apply p) := by
  simp only [onRows]
  split
  · exact .ok _
  · exact .error not_false

theorem Op.IsBuilt.findsNoFault {op : Op β} (hop : op.IsBuilt) (p : Partition β) :
    FindsNoFault (op.apply p) := by
  cases hop with
  | map => exact findsNoFault_onRows _ _ _ _ p
  | filter => exact findsNoFault_onRows _ _ _ _ p
  | flatMap => exact findsNoFault_onRows _ _ _ _ p

theorem GroupStep.findsNoFault_tabulate (k v : ElementType β) (p : Partition β) :
    FindsNoFault ((byKey k v).tabulate p) := by
  simp only [byKey]
  split
  · exact .ok _
  · exact .error not_false

theorem GroupStep.findsNoFault_merge (k v : ElementType β) (scheme : HashScheme β)
    (tables : List (Partial β)) : FindsNoFault ((byKey k v).merge scheme tables) := by
  refine FindsNoFault.bind (fun cause h => ?_) fun merged => .ok _
  obtain ⟨table, _, merged, htable⟩ := exists_of_foldlM_eq_error h
  unfold absorb at htable
  split at htable
  · cases htable
  · cases htable
    exact not_false

/-- What builders make raises no fault of shape. -/
theorem Node.IsBuilt.not_blamesShape {node : Node β} (hnode : node.IsBuilt) {cause : RunError β}
    (h : node.Raises cause) : ¬ cause.BlamesShape := by
  cases h with
  | operation hop h =>
    cases hnode with
    | stateless hops => exact (hops _ hop).findsNoFault _ cause h
  | tabulate h =>
    cases hnode with
    | groupByKey hstep =>
      cases hstep with
      | byKey => exact GroupStep.findsNoFault_tabulate _ _ _ cause h
      | keepRows => cases h
  | merge h =>
    cases hnode with
    | groupByKey hstep =>
      cases hstep with
      | byKey => exact GroupStep.findsNoFault_merge _ _ _ _ cause h
      | keepRows => exact GroupStep.findsNoFault_merge _ _ _ _ cause h

theorem Chain.IsBuilt.of_contains {chain : Chain β} (h : chain.IsBuilt) {node : Node β}
    (hcontains : Contains chain node) : node.IsBuilt := by
  induction hcontains with
  | here hnode => exact h _ hnode
  | inside hstep hinput _ ih =>
    cases h _ hstep with
    | coGroup _ hinputs => exact ih (hinputs _ hinput)

end Built

namespace Graph

variable {g : Graph β} {terminal : NodeId} {t : ElementType β} {cause : RunError β}

/-- Only the run of a plan can find fault with a shape. -/
theorem exists_of_collect_eq_error {settings : RunSettings β}
    (h : (g.collect settings terminal t).result = .error cause) (hshape : cause.BlamesShape) :
    ∃ plan, (g.buildPlan terminal).result = .ok plan ∧
      (Run.chain settings.context plan).result = .error cause := by
  simp only [collect, Log.Traced.result_bind, Log.Traced.result_mapError,
    Log.Traced.result_report, Log.Traced.result_elsewhereIf, Log.Traced.result_ofExcept] at h
  cases hplan : (g.buildPlan terminal).result with
  | error e =>
    rw [hplan] at h
    cases h
    cases hshape
  | ok plan =>
    rw [hplan] at h
    have hrest : ((Run.chain settings.context plan).result >>= Run.gather t) = .error cause := h
    rcases bind_eq_error.1 hrest with hrun | ⟨parts, _, hgather⟩
    · exact ⟨plan, rfl, hrun⟩
    · exact absurd hshape (Run.findsNoFault_gather _ _ _ hgather)

theorem IsJoined.raises (h : g.IsJoined) {settings : RunSettings β}
    (hcause : (g.collect settings terminal t).result = .error cause)
    (hshape : cause.BlamesShape) :
    ∃ plan node, (g.buildPlan terminal).result = .ok plan ∧ Chain.Contains plan node ∧
      node.Raises cause := by
  obtain ⟨plan, hplan, hrun⟩ := exists_of_collect_eq_error hcause hshape
  obtain ⟨node, hcontains, hraises⟩ := Run.raises_of_chain (h.isShaped hplan) hrun hshape
  exact ⟨plan, node, hplan, hcontains, hraises⟩

/-- The plans of a graph whose co-groups were all added by joins, whatever else was done to it:
each of them starts at a root and has none behind it, and so do the plans in its co-groups, at any
depth, every one of which gets as many inputs as it was made for. So the runner finds fault with no
shape, in whichever way the plan is run: if a run fails in this way, then some operation or step in
the plan has raised this very failure, and none does that was made by a builder. The same is said
of each input of a co-group by itself, since a parallel run may report the failure of any of them. -/
theorem guards_unreachable (h : g.IsJoined) (terminal : NodeId) :
    (∀ plan, (g.buildPlan terminal).result = .ok plan → plan.IsShaped ∧
      ∀ step inputs, Chain.Contains plan (.coGroup step inputs) →
        step.IsFor inputs.length ∧
        (∀ input ∈ inputs, Chain.IsShaped input ∧
          ∀ (ctx : RunContext β) (cause : RunError β),
            (Run.chain ctx input).result = .error cause → cause.BlamesShape →
            ∃ node, Chain.Contains input node ∧ node.Raises cause) ∧
        ∀ (ctx : RunContext β) (parts : List (Partition β)),
          (Run.runInputs ctx 1 step.name step.inputElements inputs).result = .ok parts →
          parts.length = inputs.length) ∧
    (∀ (settings : RunSettings β) (t : ElementType β) (cause : RunError β),
      (g.collect settings terminal t).result = .error cause → cause.BlamesShape →
      ∃ plan node, (g.buildPlan terminal).result = .ok plan ∧ Chain.Contains plan node ∧
        node.Raises cause) ∧
    (g.IsBuilt → ∀ (settings : RunSettings β) (t : ElementType β) (cause : RunError β),
      (g.collect settings terminal t).result = .error cause → ¬ cause.BlamesShape) := by
  refine ⟨?_, fun settings t cause => h.raises, ?_⟩
  · intro plan hplan
    have hshaped := h.isShaped hplan
    refine ⟨hshaped, fun step inputs hcontains => ?_⟩
    obtain ⟨hstep, hinputs⟩ := hshaped.isReady_of_contains hcontains
    refine ⟨hstep, fun input hinput => ⟨hinputs input hinput, fun ctx cause => ?_⟩,
      fun ctx parts hparts => Run.length_of_isFor hstep hparts⟩
    exact Run.raises_of_chain (hinputs input hinput)
  · intro hbuilt settings t cause hcause hshape
    obtain ⟨plan, node, hplan, hcontains, hraises⟩ := h.raises hcause hshape
    rw [buildPlan_result] at hplan
    exact ((hbuilt.plan hplan).of_contains hcontains).not_blamesShape hraises hshape

end Graph

section Sample

open Construction

/-- The joined sample without its source, with a stage behind the join and an edge back to it. -/
def reworkedGraph : Graph Atom :=
  (((joinedGraph.remove ⟨0⟩).insert (.stateless [])).2.connect ⟨1⟩ ⟨2⟩).connect ⟨2⟩ ⟨1⟩

theorem isJoined_reworkedGraph : reworkedGraph.IsJoined := by
  have hsample := (leads_selfJoined .firstMet).hasOnly_isJoined Workspace.hasOnly_empty
  have hstage : (Node.stateless [] : Node Atom).IsJoined := .other (by simp [Node.kind])
  exact ((hsample ⟨0⟩).remove ⟨0⟩).insert hstage

theorem isBuilt_reworkedGraph : reworkedGraph.IsBuilt := by
  have hsource : Workspace.Arises sample.workspace :=
    .source (.pipeline .empty {}) ⟨0⟩ (.pair (.base Atom.int64) (.base Atom.int64)) sampleList
  have hjoined : Workspace.Arises (selfJoined .firstMet).workspace := by
    show Workspace.Arises (sample.issueJoin _ _).workspace
    rw [workspace_issueJoin]
    exact hsource.joinTwo .firstMet "inner" .inner sampleRows.handle sampleRows.handle
  have hrest : (joinedGraph.remove ⟨0⟩).IsBuilt :=
    Graph.HasOnly.remove (hjoined.isBuilt ⟨0⟩) ⟨0⟩
  exact Graph.HasOnly.insert hrest (.stateless (List.forall_mem_nil _))

theorem exists_plan_reworkedGraph :
    ∃ chains, (reworkedGraph.buildPlan ⟨2⟩).result =
      .ok [.coGroup (Grouper.firstMet.pairStep "inner" .inner (.base .int64) (.base .int64)
        (.base .int64)) chains, .stateless []] := by
  obtain ⟨chains, hworkspace, _⟩ := selfJoined_eq .firstMet
  have hnodes : reworkedGraph.nodes = [(⟨1⟩, .coGroup (Grouper.firstMet.pairStep "inner" .inner
      (.base .int64) (.base .int64) (.base .int64)) chains), (⟨2⟩, .stateless [])] := by
    rw [reworkedGraph, joinedGraph, hworkspace]
    rfl
  have hedges : reworkedGraph.edges = [(⟨1⟩, ⟨2⟩), (⟨2⟩, ⟨1⟩)] := by
    rw [reworkedGraph, joinedGraph, hworkspace]
    rfl
  refine ⟨chains, Graph.buildPlan_eq_ok_iff.2 ⟨[(⟨2⟩, .stateless [])], ⟨1⟩, .coGroup _ chains, ?_,
    by decide, ?_, .inr rfl, rfl⟩⟩
  · refine .back .start ?_ rfl ⟨[], [(⟨2⟩, ⟨1⟩)], hedges, List.forall_mem_nil _⟩
    rw [hnodes]
    rfl
  · rw [Graph.node?, hnodes]
    rfl

theorem guards_unreachable_reworkedGraph :
    (∃ step inputs, (reworkedGraph.buildPlan ⟨2⟩).result =
        .ok [.coGroup step inputs, .stateless []] ∧
      step.IsFor inputs.length ∧ ∀ input ∈ inputs, Chain.IsShaped input) ∧
    ∀ (settings : RunSettings Atom) (t : ElementType Atom) (cause : RunError Atom),
      (reworkedGraph.collect settings ⟨2⟩ t).result = .error cause → ¬ cause.BlamesShape := by
  obtain ⟨hplans, _, hbuilt⟩ := Graph.guards_unreachable isJoined_reworkedGraph ⟨2⟩
  refine ⟨?_, hbuilt isBuilt_reworkedGraph⟩
  obtain ⟨chains, hplan⟩ := exists_plan_reworkedGraph
  obtain ⟨hstep, hinputs, _⟩ := (hplans _ hplan).2 _ _ (.here List.mem_cons_self)
  exact ⟨_, chains, hplan, hstep, fun input hinput => (hinputs input hinput).1⟩

end Sample

end JoinPipeline
