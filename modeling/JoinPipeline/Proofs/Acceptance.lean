import JoinPipeline.Value
import JoinPipeline.Proofs.Builders

/-!
# Which joins are accepted

A join is decided before anything is added, and in a fixed order: first the level of the pipeline
it adds to is applied to the marks of its inputs, then the plans of the inputs are taken one after
another. What is said here holds in every workspace. Nothing is assumed of the graphs, in which
nodes may be missing and edges may lead in circles, in several numbers to one node, or to nowhere;
nor of the inputs, which may name any node and carry any mark.
-/

namespace JoinPipeline

open Log (Traced)

variable {β : Type} [Basis β]

namespace JoinInput

variable {w : Workspace β} {level : ChainCheck} {inputs : List (JoinInput β)}

/-- A level does not admit these inputs. -/
def AreForbidden (level : ChainCheck) (inputs : List (JoinInput β)) : Prop :=
  level = .error ∧ ∃ input ∈ inputs, input.isChained = true

theorem result_check_of_forbidden (h : AreForbidden level inputs) (transform : String) :
    (check transform level inputs).result = .error (.chained transform) := by
  obtain ⟨hlevel, hmarked⟩ := h
  have hpos : 0 < inputs.countP isChained := List.countP_pos_iff.2 hmarked
  unfold check
  rw [hlevel]
  cases hcount : inputs.countP isChained with
  | zero => omega
  | succ marked => rfl

theorem result_check_of_allowed (h : ¬ AreForbidden level inputs) (transform : String) :
    (check transform level inputs).result = .ok () := by
  unfold check
  cases hcount : inputs.countP isChained with
  | zero => cases level <;> rfl
  | succ marked =>
    have hmarked : ∃ input ∈ inputs, input.isChained = true := by
      apply List.countP_pos_iff.1
      omega
    cases level with
    | off => rfl
    | warning => rfl
    | error => exact (h ⟨rfl, hmarked⟩).elim

/-- The first plan that cannot be taken ends it. -/
theorem result_capture_of_failure {before : List (JoinInput β)} {input : JoinInput β}
    {cause : WalkError} (hbefore : ∀ earlier ∈ before, ∃ chain, earlier.plan w = .ok chain)
    (hinput : input.plan w = .error cause) (after : List (JoinInput β)) (transform : String) :
    (capture transform w (before ++ input :: after)).result = .error (.plan transform cause) := by
  induction before with
  | nil =>
    rw [List.nil_append, result_capture_cons, hinput]
    rfl
  | cons first before ih =>
    obtain ⟨hfirst, hrest⟩ := List.forall_mem_cons.1 hbefore
    obtain ⟨chain, hchain⟩ := hfirst
    rw [List.cons_append, result_capture_cons, hchain, ih hrest]
    rfl

theorem exists_first_failure
    (h : ∃ input ∈ inputs, ∃ cause, input.plan w = .error cause) :
    ∃ before input after cause, inputs = before ++ input :: after ∧
      (∀ earlier ∈ before, ∃ chain, earlier.plan w = .ok chain) ∧
      input.plan w = .error cause := by
  induction inputs with
  | nil =>
    obtain ⟨input, hmem, _⟩ := h
    cases hmem
  | cons first rest ih =>
    cases hfirst : first.plan w with
    | error cause => exact ⟨[], first, rest, cause, rfl, List.forall_mem_nil _, hfirst⟩
    | ok chain =>
      have hrest : ∃ input ∈ rest, ∃ cause, input.plan w = .error cause := by
        obtain ⟨input, hmem, cause, hcause⟩ := h
        rcases List.mem_cons.1 hmem with hnew | hmem
        · rw [hnew, hfirst] at hcause
          cases hcause
        · exact ⟨input, hmem, cause, hcause⟩
      obtain ⟨before, input, after, cause, hinputs, hbefore, hinput⟩ := ih hrest
      refine ⟨first :: before, input, after, cause, ?_, ?_, hinput⟩
      · rw [hinputs, List.cons_append]
      · exact List.forall_mem_cons.2 ⟨⟨chain, hfirst⟩, hbefore⟩

theorem exists_plans (h : ∀ input ∈ inputs, ∃ chain, input.plan w = .ok chain) :
    ∃ chains, List.Forall₂ (fun input chain => input.plan w = .ok chain) inputs chains := by
  induction inputs with
  | nil => exact ⟨[], .nil⟩
  | cons first rest ih =>
    obtain ⟨hfirst, hrest⟩ := List.forall_mem_cons.1 h
    obtain ⟨chain, hchain⟩ := hfirst
    obtain ⟨chains, hchains⟩ := ih hrest
    exact ⟨chain :: chains, .cons hchain hchains⟩

end JoinInput

namespace Workspace

variable {w w' : Workspace β} {p q : PipelineId} {g : Graph β}

/-- One workspace is another one with a node added to a pipeline, under the number that was the
next one there; everything else is the same. -/
structure AddsNode (w : Workspace β) (p : PipelineId) (node : Node β) (w' : Workspace β) :
    Prop where
  length : w'.pipelines.length = w.pipelines.length
  others : ∀ q, q ≠ p → w'.pipeline q = w.pipeline q
  options : w'.options p = w.options p
  nextId : (w'.graph p).nextId = (w.graph p).nextId + 1
  nodes : (w'.graph p).nodes = (w.graph p).nodes ++ [(⟨(w.graph p).nextId⟩, node)]
  edges : (w'.graph p).edges = (w.graph p).edges

theorem addsNode_insertNode (h : p.place < w.pipelines.length) (node : Node β) :
    w.AddsNode p node (insertNode p node w).2 := by
  have hgraph : (insertNode p node w).2.graph p = ((w.graph p).insert node).2 :=
    graph_setGraph_self h
  refine ⟨length_setGraph w p _, fun q hq => pipeline_setGraph_of_ne hq, ?_, ?_, ?_, ?_⟩
  · exact options_setGraph w p p _
  · rw [hgraph]
    rfl
  · rw [hgraph]
    rfl
  · rw [hgraph]
    rfl

section Outcome

variable {first : PipelineId} {inputs : List (JoinInput β)} {step : CoGroupStep β}

theorem result_vet_of_forbidden
    (h : JoinInput.AreForbidden (w.options first).chainCheck inputs) (name : String) :
    (vet first inputs name w).result = .error (.chained name) := by
  rw [vet, Traced.result_bind, JoinInput.result_check_of_forbidden h]
  rfl

theorem result_vet_of_allowed
    (h : ¬ JoinInput.AreForbidden (w.options first).chainCheck inputs) (name : String) :
    (vet first inputs name w).result = (JoinInput.capture name w inputs).result := by
  rw [vet, Traced.result_bind, JoinInput.result_check_of_allowed h]
  rfl

/-- How a join of inputs comes out, and what it leaves behind. -/
structure Decides (w : Workspace β) (first : PipelineId) (inputs : List (JoinInput β))
    (step : CoGroupStep β)
    (joined : Traced JoinError (Collection β step.output) × Workspace β) : Prop where
  /-- Inputs that the level does not admit are refused, whatever their plans. -/
  forbidden : JoinInput.AreForbidden (w.options first).chainCheck inputs →
    joined.1.result = .error (.chained step.name) ∧ joined.2 = w
  /-- Otherwise the failure of the first input without a plan is reported. -/
  unplanned : ¬ JoinInput.AreForbidden (w.options first).chainCheck inputs →
    (∃ input ∈ inputs, ∃ cause, input.plan w = .error cause) →
    ∃ before input after cause, inputs = before ++ input :: after ∧
      (∀ earlier ∈ before, ∃ chain, earlier.plan w = .ok chain) ∧
      input.plan w = .error cause ∧
      joined.1.result = .error (.plan step.name cause) ∧ joined.2 = w
  /-- Otherwise a co-group that owns the plans of the inputs is added. -/
  accepted : ¬ JoinInput.AreForbidden (w.options first).chainCheck inputs →
    (∀ input ∈ inputs, ∃ chain, input.plan w = .ok chain) →
    ∃ chains, List.Forall₂ (fun input chain => input.plan w = .ok chain) inputs chains ∧
      joined.1.result = .ok ⟨first, ⟨(w.graph first).nextId⟩, true⟩ ∧
      w.AddsNode first (.coGroup step chains) joined.2

/-- Inputs that are admitted and have plans pass. -/
theorem exists_vetted (h : ¬ JoinInput.AreForbidden (w.options first).chainCheck inputs)
    (hplans : ∀ input ∈ inputs, ∃ chain, input.plan w = .ok chain) (name : String) :
    ∃ chains, List.Forall₂ (fun input chain => input.plan w = .ok chain) inputs chains ∧
      (vet first inputs name w).result = .ok chains := by
  obtain ⟨chains, hchains⟩ := JoinInput.exists_plans hplans
  refine ⟨chains, hchains, ?_⟩
  rw [result_vet_of_allowed h]
  exact JoinInput.result_capture_of_plans hchains name

theorem decides_addCoGroup (hfirst : first.place < w.pipelines.length)
    (inputs : List (JoinInput β)) (step : CoGroupStep β) :
    w.Decides first inputs step (addCoGroup first inputs step w) where
  forbidden h := addCoGroup_refused (result_vet_of_forbidden h step.name)
  unplanned h hfailure := by
    obtain ⟨before, input, after, cause, hinputs, hbefore, hinput⟩ :=
      JoinInput.exists_first_failure hfailure
    have hvet : (vet first inputs step.name w).result = .error (.plan step.name cause) := by
      rw [result_vet_of_allowed h, hinputs]
      exact JoinInput.result_capture_of_failure hbefore hinput after step.name
    exact ⟨before, input, after, cause, hinputs, hbefore, hinput, addCoGroup_refused hvet⟩
  accepted h hplans := by
    obtain ⟨chains, hchains, hvet⟩ := exists_vetted h hplans step.name
    obtain ⟨hresult, hadded⟩ := addCoGroup_accepted hvet
    refine ⟨chains, hchains, hresult, ?_⟩
    rw [hadded]
    exact addsNode_insertNode hfirst _

end Outcome

/-- Every join of two or three collections is decided in this way, in every workspace. -/
theorem decides_joins (w : Workspace β) :
    (∀ {k v u : ElementType β} (g : Grouper β) (name : String) (kind : PairJoin)
      (x : Collection β (.pair k v)) (y : Collection β (.pair k u)),
      x.pipeline.place < w.pipelines.length →
      w.Decides x.pipeline [x.asInput, y.asInput] (g.pairStep name kind k v u)
        (g.joinTwo name kind x y w)) ∧
    ∀ {k a b c : ElementType β} (g : Grouper β) (name : String) (kind : TripleJoin)
      (x : Collection β (.pair k a)) (y : Collection β (.pair k b))
      (z : Collection β (.pair k c)),
      x.pipeline.place < w.pipelines.length →
      w.Decides x.pipeline [x.asInput, y.asInput, z.asInput] (g.tripleStep name kind k a b c)
        (g.joinThree name kind x y z w) := by
  constructor
  · intro k v u g name kind x y hx
    exact decides_addCoGroup hx _ _
  · intro k a b c g name kind x y z hx
    exact decides_addCoGroup hx _ _

section Looped

def loopedList : List (Int64 × Int64) := [(1, 10)]

/-- A pipeline that admits no marked inputs, with a source and a node that leads to itself. -/
def looped : Workspace Atom where
  pipelines := [{
    graph := {
      nextId := 2
      nodes := [(⟨0⟩, .source (.pair (.base .int64) (.base .int64))
        ⟨.pair (.base .int64) (.base .int64), loopedList⟩), (⟨1⟩, .stateless [])]
      edges := [(⟨1⟩, ⟨1⟩)]
      ascending := List.pairwise_pair.2 Nat.zero_lt_one
      below := List.forall_mem_cons.2
        ⟨Nat.zero_lt_two, List.forall_mem_singleton.2 Nat.one_lt_two⟩ }
    options := { chainCheck := .error } }]

/-- The source of the looped pipeline. -/
def loopedSource : Collection Atom (.pair (.base .int64) (.base .int64)) := ⟨⟨0⟩, ⟨0⟩, false⟩

/-- The node that leads to itself. -/
def loopedNode (isChained : Bool) : Collection Atom (.pair (.base .int64) (.base .int64)) :=
  ⟨⟨0⟩, ⟨1⟩, isChained⟩

theorem decides_looped :
    ((Grouper.firstMet.joinTwo "j" .inner loopedSource (loopedNode true) looped).1.result =
        .error (.chained "j") ∧
      (Grouper.firstMet.joinTwo "j" .inner loopedSource (loopedNode true) looped).2 = looped) ∧
    ((Grouper.firstMet.joinTwo "j" .inner loopedSource (loopedNode false) looped).1.result =
        .error (.plan "j" (.missingNode ⟨1⟩)) ∧
      (Grouper.firstMet.joinTwo "j" .inner loopedSource (loopedNode false) looped).2 = looped) ∧
    (Grouper.firstMet.joinTwo "j" .inner loopedSource loopedSource looped).1.result =
        .ok ⟨⟨0⟩, ⟨2⟩, true⟩ ∧
      ((Grouper.firstMet.joinTwo "j" .inner loopedSource loopedSource looped).2.graph
        ⟨0⟩).nextId = 3 := by
  have hknown : loopedSource.pipeline.place < looped.pipelines.length := by decide
  have hsource : ∃ chain, loopedSource.asInput.plan looped = .ok chain :=
    ⟨_, JoinInput.plan_of_reaches (Chain.walk_root rfl rfl)⟩
  have hnode : (loopedNode false).asInput.plan looped = .error (.missingNode ⟨1⟩) := by
    rw [JoinInput.plan, Graph.buildPlan_result, Graph.plan, Chain.walk_behind rfl rfl rfl,
      Chain.walk_missing rfl]
    rfl
  have hallowed : ∀ c : Collection Atom (.pair (.base .int64) (.base .int64)),
      c.isChained = false → ¬ JoinInput.AreForbidden
        (looped.options loopedSource.pipeline).chainCheck [loopedSource.asInput, c.asInput] := by
    intro c hc hforbidden
    obtain ⟨input, hmem, hmarked⟩ := hforbidden.2
    simp only [List.mem_cons, List.not_mem_nil, or_false] at hmem
    rcases hmem with hinput | hinput
    · rw [hinput] at hmarked
      cases hmarked
    · rw [hinput] at hmarked
      exact Bool.false_ne_true (hc.symm.trans hmarked)
  have hdecides (c : Collection Atom (.pair (.base .int64) (.base .int64))) :=
    (decides_joins looped).1 Grouper.firstMet "j" .inner loopedSource c hknown
  refine ⟨?_, ?_, ?_⟩
  · exact (hdecides (loopedNode true)).forbidden ⟨rfl, _, .tail _ (.head _), rfl⟩
  · obtain ⟨before, input, after, cause, hinputs, _, hcause, hresult, hsame⟩ :=
      (hdecides (loopedNode false)).unplanned (hallowed _ rfl)
        ⟨_, .tail _ (.head _), _, hnode⟩
    have hmem : input ∈ [loopedSource.asInput, (loopedNode false).asInput] := by
      rw [hinputs]
      exact List.mem_append_right before List.mem_cons_self
    simp only [List.mem_cons, List.not_mem_nil, or_false] at hmem
    rcases hmem with hinput | hinput
    · obtain ⟨chain, hchain⟩ := hsource
      rw [hinput, hchain] at hcause
      cases hcause
    · rw [hinput, hnode] at hcause
      cases hcause
      exact ⟨hresult, hsame⟩
  · obtain ⟨chains, _, hresult, hadded⟩ := (hdecides loopedSource).accepted
      (hallowed _ rfl) (by simpa using hsource)
    exact ⟨hresult, hadded.nextId⟩

end Looped

end Workspace

end JoinPipeline
