import JoinPipeline.Join
import JoinPipeline.Transform
import JoinPipeline.Proofs.Success
import JoinPipeline.Proofs.Walk
import Mathlib.Data.List.Forall2
import Mathlib.Data.List.GetD

/-!
# What builders add

A builder adds one node to the graph of one pipeline, behind everything that is there, and gives
out a collection with the chain of its inputs before it. A join that is refused adds nothing.
-/

namespace JoinPipeline

variable {β : Type} [Basis β] {s t : ElementType β}

namespace Workspace

variable {w w' : Workspace β} {p q : PipelineId} {g g' : Graph β}

theorem length_setGraph (w : Workspace β) (p : PipelineId) (g : Graph β) :
    (w.setGraph p g).pipelines.length = w.pipelines.length :=
  List.length_modify _ _ _

theorem graph_setGraph_self (h : p.place < w.pipelines.length) : (w.setGraph p g).graph p = g := by
  simp [graph, pipeline, setGraph, List.getD_eq_getElem?_getD, h]

theorem pipeline_setGraph_of_ne (h : q ≠ p) : (w.setGraph p g).pipeline q = w.pipeline q := by
  have hplace : p.place ≠ q.place := by
    intro heq
    cases p
    cases q
    exact h (congrArg PipelineId.mk heq.symm)
  simp [pipeline, setGraph, List.getD_eq_getElem?_getD, hplace]

theorem graph_setGraph_of_ne (h : q ≠ p) : (w.setGraph p g).graph q = w.graph q :=
  congrArg Pipeline.graph (pipeline_setGraph_of_ne h)

theorem options_setGraph (w : Workspace β) (p q : PipelineId) (g : Graph β) :
    (w.setGraph p g).options q = w.options q := by
  unfold options pipeline setGraph
  simp only [List.getD_eq_getElem?_getD, List.getElem?_modify]
  cases w.pipelines[q.place]? with
  | none => rfl
  | some pipeline =>
    simp only [Option.map_eq_map, Option.map_some, Option.getD_some]
    split <;> rfl

/-- What holds of the graph of every pipeline still does after one of them is changed. -/
theorem forall_graph_setGraph {P : PipelineId → Graph β → Prop} (hg : P p g)
    (h : ∀ q, P q (w.graph q)) (q : PipelineId) : P q ((w.setGraph p g).graph q) := by
  by_cases hq : q = p
  · subst hq
    by_cases hplace : q.place < w.pipelines.length
    · rw [graph_setGraph_self hplace]
      exact hg
    · have hsame : w.setGraph q g = w := by
        unfold setGraph
        rw [List.modify_eq_self (Nat.le_of_not_lt hplace)]
      rw [hsame]
      exact h q
  · rw [graph_setGraph_of_ne hq]
    exact h q

theorem setGraph_setGraph : (w.setGraph p g).setGraph p g' = w.setGraph p g' := by
  unfold setGraph
  rw [List.modify_modify_eq]
  rfl

theorem graph_addPipeline (options : Options) (w : Workspace β) (p : PipelineId) :
    (addPipeline options w).2.graph p = w.graph p := by
  unfold graph pipeline addPipeline
  by_cases hp : p.place < w.pipelines.length
  · rw [List.getD_append _ _ _ _ hp]
  · have hle := Nat.le_of_not_lt hp
    rw [List.getD_append_right _ _ _ _ hle, List.getD_eq_default _ _ hle]
    cases hplace : p.place - w.pipelines.length <;> rfl

/-- Pipelines have been added, and nodes and edges behind those of every graph. -/
def Extends (w' w : Workspace β) : Prop :=
  w.pipelines.length ≤ w'.pipelines.length ∧ ∀ p, (w'.graph p).Extends (w.graph p)

theorem setGraph_extends (hg : g.Extends (w.graph p)) : (w.setGraph p g).Extends w :=
  ⟨Nat.le_of_eq (length_setGraph w p g).symm,
    forall_graph_setGraph (P := fun q g => g.Extends (w.graph q)) hg fun _ => .refl _⟩

theorem addPipeline_extends (options : Options) (w : Workspace β) :
    (addPipeline options w).2.Extends w := by
  refine ⟨?_, fun p => ?_⟩
  · unfold addPipeline
    rw [List.length_append]
    exact Nat.le_add_right _ _
  · rw [graph_addPipeline]
    exact .refl _

def IsTidy (w : Workspace β) : Prop := ∀ p, (w.graph p).IsTidy

theorem IsTidy.setGraph (h : w.IsTidy) (hg : g.IsTidy) : (w.setGraph p g).IsTidy :=
  forall_graph_setGraph (P := fun _ g => g.IsTidy) hg h

/-- A builder has given out a collection, and this chain leads to it. -/
structure Builds (w : Workspace β) (built : Collection β t × Workspace β) (chain : Chain β) :
    Prop where
  grown : built.2.Extends w
  isTidy : built.2.IsTidy
  known : built.1.pipeline.place < built.2.pipelines.length
  reaches : (built.2.graph built.1.pipeline).Reaches built.1.node chain

/-- A node with rows of its own is added. -/
theorem builds_insertNode (htidy : w.IsTidy) (hp : p.place < w.pipelines.length) {node : Node β}
    (hroot : node.isRoot = true) (isChained : Bool) :
    Builds (t := t) w (⟨p, (insertNode p node w).1, isChained⟩, (insertNode p node w).2)
      [node] where
  grown := setGraph_extends (Graph.insert_extends (w.graph p) node)
  isTidy := htidy.setGraph (htidy p).insert
  known := by
    show p.place < (w.setGraph p _).pipelines.length
    rwa [length_setGraph]
  reaches := by
    show ((w.setGraph p _).graph p).Reaches _ _
    rw [graph_setGraph_self hp]
    exact Graph.reaches_insert hroot

end Workspace

namespace Collection

open Workspace

variable {w : Workspace β}

theorem builds_ofRows (htidy : w.IsTidy) {p : PipelineId} (hp : p.place < w.pipelines.length)
    (t : ElementType β) (rows : List t.Carrier) :
    Builds w (ofRows p t rows w) [.source t ⟨t, rows⟩] :=
  builds_insertNode htidy hp rfl false

variable {c : Collection β s}

theorem andThen_eq (hc : c.pipeline.place < w.pipelines.length) (node : Node β)
    (isChained : Bool) :
    (c.andThen node isChained w : Collection β t × Workspace β) =
      (⟨c.pipeline, ⟨(w.graph c.pipeline).nextId⟩, isChained⟩,
        w.setGraph c.pipeline (((w.graph c.pipeline).insert node).2.connect c.node
          ⟨(w.graph c.pipeline).nextId⟩)) := by
  have hconnect : (Workspace.connect c.pipeline c.node ⟨(w.graph c.pipeline).nextId⟩
      (w.setGraph c.pipeline ((w.graph c.pipeline).insert node).2)).2 =
        w.setGraph c.pipeline (((w.graph c.pipeline).insert node).2.connect c.node
          ⟨(w.graph c.pipeline).nextId⟩) := by
    unfold Workspace.connect
    rw [graph_setGraph_self hc, setGraph_setGraph]
  rw [← hconnect]
  rfl

/-- A node without rows of its own is added behind a collection. -/
theorem builds_andThen (htidy : w.IsTidy) (hc : c.pipeline.place < w.pipelines.length)
    {chain : Chain β} (hreaches : (w.graph c.pipeline).Reaches c.node chain) {node : Node β}
    (hroot : node.isRoot = false) (isChained : Bool) :
    Builds (t := t) w (c.andThen node isChained w) (chain ++ [node]) := by
  rw [andThen_eq hc]
  refine ⟨setGraph_extends ?_, htidy.setGraph ((htidy c.pipeline).connect_insert c.node),
    ?_, ?_⟩
  · exact (Graph.connect_extends _ _ _).trans (Graph.insert_extends _ _)
  · rwa [length_setGraph]
  · rw [graph_setGraph_self hc]
    exact hreaches.connect_insert (htidy c.pipeline) hroot

end Collection

section Joins

variable {w : Workspace β}

namespace JoinInput

variable {inputs : List (JoinInput β)}

/-- The plan of an input, as a join takes it. -/
def plan (input : JoinInput β) (w : Workspace β) : Except WalkError (Chain β) :=
  ((w.graph input.pipeline).buildPlan input.node).result

theorem result_capture_cons (transform : String) (input : JoinInput β)
    (rest : List (JoinInput β)) :
    (capture transform w (input :: rest)).result =
      (input.plan w).mapError (.plan transform) >>= fun chain =>
        (capture transform w rest).result >>= fun chains => .ok (chain :: chains) := by
  rw [capture, Log.Traced.result_bind, Log.Traced.result_mapError]
  congr 1
  funext chain
  exact Log.Traced.result_bind _ _

theorem result_capture_of_plans {chains : List (Chain β)}
    (h : List.Forall₂ (fun input chain => input.plan w = .ok chain) inputs chains)
    (transform : String) : (capture transform w inputs).result = .ok chains := by
  induction h with
  | nil => rfl
  | cons hinput hrest ih =>
    rw [result_capture_cons, hinput, ih]
    rfl

/-- What is captured are the plans of the inputs. -/
theorem plans_of_result_capture {transform : String} {chains : List (Chain β)}
    (h : (capture transform w inputs).result = .ok chains) :
    List.Forall₂ (fun input chain => input.plan w = .ok chain) inputs chains := by
  induction inputs generalizing chains with
  | nil =>
    cases h
    exact .nil
  | cons input rest ih =>
    rw [result_capture_cons] at h
    obtain ⟨chain, hchain, hrest⟩ := bind_eq_ok.1 h
    obtain ⟨others, hothers, heq⟩ := bind_eq_ok.1 hrest
    cases heq
    have hinput : input.plan w = .ok chain := by
      cases hplan : input.plan w with
      | error cause =>
        rw [hplan] at hchain
        cases hchain
      | ok plan =>
        rw [hplan] at hchain
        cases hchain
        rfl
    exact .cons hinput (ih hothers)

theorem exists_of_mem_plans {chains : List (Chain β)}
    (h : List.Forall₂ (fun input chain => input.plan w = .ok chain) inputs chains)
    {chain : Chain β} (hmem : chain ∈ chains) : ∃ input ∈ inputs, input.plan w = .ok chain := by
  induction h with
  | nil => cases hmem
  | cons hinput _ ih =>
    rcases List.mem_cons.1 hmem with hfirst | hrest
    · rw [hfirst]
      exact ⟨_, List.mem_cons_self, hinput⟩
    · obtain ⟨input, hin, hplan⟩ := ih hrest
      exact ⟨input, List.mem_cons_of_mem _ hin, hplan⟩

theorem plan_of_reaches {input : JoinInput β} {chain : Chain β}
    (h : (w.graph input.pipeline).Reaches input.node chain) :
    input.plan w = .ok (Chain.fuse chain) := by
  rw [plan, Graph.buildPlan_result]
  exact h.plan

/-- The plans of inputs to which chains lead are these chains, fused. -/
theorem capture_eq_ok {chains : List (Chain β)}
    (h : List.Forall₂ (fun input chain => (w.graph input.pipeline).Reaches input.node chain)
      inputs chains) (transform : String) :
    (capture transform w inputs).result = .ok (chains.map Chain.fuse) := by
  refine result_capture_of_plans (List.forall₂_map_right_iff.2 (h.imp ?_)) transform
  intro input chain hreaches
  exact plan_of_reaches hreaches

end JoinInput

namespace Workspace

/-- The mark check of a join and, behind it, the plans of its inputs. -/
def vet (first : PipelineId) (inputs : List (JoinInput β)) (name : String) (w : Workspace β) :
    Log.Traced JoinError (List (Chain β)) := do
  JoinInput.check name (w.options first).chainCheck inputs
  JoinInput.capture name w inputs

variable {first : PipelineId} {inputs : List (JoinInput β)} {step : CoGroupStep β}

/-- A join that is refused adds nothing. -/
theorem addCoGroup_refused {cause : JoinError}
    (h : (vet first inputs step.name w).result = .error cause) :
    (addCoGroup first inputs step w).1.result = .error cause ∧
      (addCoGroup first inputs step w).2 = w := by
  unfold vet at h
  unfold addCoGroup
  simp only [h, and_self]

/-- A join that is accepted adds a co-group that owns the plans of its inputs. -/
theorem addCoGroup_accepted {chains : List (Chain β)}
    (h : (vet first inputs step.name w).result = .ok chains) :
    (addCoGroup first inputs step w).1.result =
        .ok ⟨first, (insertNode first (.coGroup step chains) w).1, true⟩ ∧
      (addCoGroup first inputs step w).2 = (insertNode first (.coGroup step chains) w).2 := by
  unfold vet at h
  unfold addCoGroup
  simp only [h]
  refine ⟨(Log.Traced.result_bind _ _).trans ?_, rfl⟩
  rw [h]
  rfl

/-- A join adds a co-group that owns what it was vetted with, or nothing. -/
theorem addCoGroup_cases (first : PipelineId) (inputs : List (JoinInput β))
    (step : CoGroupStep β) (w : Workspace β) :
    (addCoGroup first inputs step w).2 = w ∨
      ∃ chains, (vet first inputs step.name w).result = .ok chains ∧
        (addCoGroup first inputs step w).2 =
          (insertNode first (.coGroup step chains) w).2 := by
  cases hvet : (vet first inputs step.name w).result with
  | error cause => exact .inl (addCoGroup_refused hvet).2
  | ok chains => exact .inr ⟨chains, rfl, (addCoGroup_accepted hvet).2⟩

/-- A join changes the nodes of pipelines only. -/
theorem pipelines_addCoGroup (first : PipelineId) (inputs : List (JoinInput β))
    (step : CoGroupStep β) (w : Workspace β) :
    (addCoGroup first inputs step w).2.pipelines.length = w.pipelines.length ∧
      ∀ p, (addCoGroup first inputs step w).2.options p = w.options p := by
  rcases addCoGroup_cases first inputs step w with hsame | ⟨chains, _, hadded⟩
  · rw [hsame]
    exact ⟨rfl, fun _ => rfl⟩
  · rw [hadded]
    exact ⟨length_setGraph w first _, fun p => options_setGraph w first p _⟩

/-- The join of inputs to which chains lead is refused by the check alone; otherwise it builds a
co-group of their plans. -/
theorem builds_addCoGroup (htidy : w.IsTidy) (hfirst : first.place < w.pipelines.length)
    {chains : List (Chain β)}
    (h : List.Forall₂ (fun input chain => (w.graph input.pipeline).Reaches input.node chain)
      inputs chains) (step : CoGroupStep β) :
    (∃ cause, (JoinInput.check step.name (w.options first).chainCheck inputs).result =
        .error cause ∧ (addCoGroup first inputs step w).1.result = .error cause ∧
          (addCoGroup first inputs step w).2 = w) ∨
    ∃ c, (addCoGroup first inputs step w).1.result = .ok c ∧
      Builds w (c, (addCoGroup first inputs step w).2)
        [.coGroup step (chains.map Chain.fuse)] := by
  have hvet : (vet first inputs step.name w).result =
      (JoinInput.check step.name (w.options first).chainCheck inputs).result >>= fun _ =>
        .ok (chains.map Chain.fuse) := by
    rw [vet, Log.Traced.result_bind, JoinInput.capture_eq_ok h]
  cases hcheck : (JoinInput.check step.name (w.options first).chainCheck inputs).result with
  | error cause =>
    rw [hcheck] at hvet
    exact .inl ⟨cause, rfl, addCoGroup_refused hvet⟩
  | ok =>
    rw [hcheck] at hvet
    obtain ⟨hresult, hadded⟩ := addCoGroup_accepted hvet
    refine .inr ⟨_, hresult, ?_⟩
    rw [hadded]
    exact builds_insertNode htidy hfirst rfl true

end Workspace

end Joins

end JoinPipeline
