import JoinPipeline.Proofs.Built
import JoinPipeline.Proofs.Chaining
import JoinPipeline.Proofs.Trails

/-!
# The shape of plans

A run has a guard against each chain that it cannot make sense of: one without nodes, one that does
not start at a root, one with a root in its middle, and a co-group with more or fewer inputs than
its step was made for. No plan is of these shapes, whatever edits its graph has seen, as long as
every co-group in it was added by a join: a walk stops at the first root it comes to, and what a
join captures are plans in their turn, one for each of its inputs.
-/

namespace JoinPipeline

variable {β : Type} [Basis β]

/-- A failure that finds fault with the shape of a plan, possibly behind a grouping that fails. -/
def RunError.BlamesShape : RunError β → Prop
  | emptyPlan => True
  | badStart _ => True
  | badMiddle _ => True
  | inputCount .. => True
  | inCoGroup _ cause => cause.BlamesShape
  | _ => False

/-- If this fails, then for another reason than a fault of shape. -/
def FindsNoFault {α : Type} (x : Except (RunError β) α) : Prop :=
  ∀ cause, x = .error cause → ¬ cause.BlamesShape

namespace FindsNoFault

variable {α γ : Type} {x : Except (RunError β) α} {f : α → Except (RunError β) γ}

omit [Basis β] in
theorem ok (a : α) : FindsNoFault (.ok a : Except (RunError β) α) := by
  intro cause h
  cases h

omit [Basis β] in
theorem error {cause : RunError β} (h : ¬ cause.BlamesShape) :
    FindsNoFault (.error cause : Except (RunError β) α) := by
  intro cause' heq
  cases heq
  exact h

omit [Basis β] in
theorem bind (hx : FindsNoFault x) (hf : ∀ a, FindsNoFault (f a)) : FindsNoFault (x >>= f) := by
  intro cause h
  rcases bind_eq_error.1 h with hfirst | ⟨a, _, hrest⟩
  · exact hx cause hfirst
  · exact hf a cause hrest

end FindsNoFault

namespace CoGroupStep

/-- A step is made for a number of inputs. It names an element type for each of them and refuses
every other number of partitions; given the right one, it has no fault to find with a shape. -/
structure IsFor (step : CoGroupStep β) (n : Nat) : Prop where
  elements : step.inputElements.length = n
  refuses : ∀ scheme parts, parts.length ≠ n →
    step.exec scheme parts = .error (.inputCount step.name n parts.length)
  accepts : ∀ scheme parts, parts.length = n → FindsNoFault (step.exec scheme parts)

variable {t a b c out : ElementType β}

theorem findsNoFault_rowsOf (name : String) (t : ElementType β) (p : Partition β) :
    FindsNoFault (rowsOf name t p) := by
  unfold rowsOf
  split
  · exact .ok _
  · exact .error not_false

theorem two_isFor (name : String)
    (rows : HashScheme β → List a.Carrier → List b.Carrier → List out.Carrier) :
    (two name a b out rows).IsFor 2 where
  elements := rfl
  refuses scheme parts h := by
    match parts with
    | [] => rfl
    | [_] => rfl
    | [_, _] => exact absurd rfl h
    | _ :: _ :: _ :: _ => rfl
  accepts scheme parts h := by
    match parts, h with
    | [p, q], _ =>
      refine (findsNoFault_rowsOf name a p).bind fun xs => ?_
      exact (findsNoFault_rowsOf name b q).bind fun ys => .ok _

theorem three_isFor (name : String)
    (rows : HashScheme β → List a.Carrier → List b.Carrier → List c.Carrier → List out.Carrier) :
    (three name a b c out rows).IsFor 3 where
  elements := rfl
  refuses scheme parts h := by
    match parts with
    | [] => rfl
    | [_] => rfl
    | [_, _] => rfl
    | [_, _, _] => exact absurd rfl h
    | _ :: _ :: _ :: _ :: _ => rfl
  accepts scheme parts h := by
    match parts, h with
    | [p, q, r], _ =>
      refine (findsNoFault_rowsOf name a p).bind fun xs => ?_
      refine (findsNoFault_rowsOf name b q).bind fun ys => ?_
      exact (findsNoFault_rowsOf name c r).bind fun zs => .ok _

end CoGroupStep

/-- A chain starts at a root and has none behind it. If the root is a co-group, then its step is made
for as many inputs as there are, and these are of the same shape. -/
inductive Chain.IsShaped : Chain β → Prop
  | source (element : ElementType β) (payload : Partition β) {rest : Chain β}
    (hrest : ∀ node ∈ rest, node.isRoot = false) : IsShaped (.source element payload :: rest)
  | coGroup {step : CoGroupStep β} {inputs : List (Chain β)} {rest : Chain β}
    (hstep : step.IsFor inputs.length) (hinputs : ∀ input ∈ inputs, IsShaped input)
    (hrest : ∀ node ∈ rest, node.isRoot = false) : IsShaped (.coGroup step inputs :: rest)

/-- A co-group whose step is made for its inputs, all of them of the shape of plans. -/
def Node.IsReady : Node β → Prop
  | .coGroup step inputs => step.IsFor inputs.length ∧ ∀ input ∈ inputs, Chain.IsShaped input
  | _ => True

theorem Node.isReady_of_isRoot_eq_false {node : Node β} (h : node.isRoot = false) :
    node.IsReady := by
  cases node with
  | coGroup => cases h
  | source | stateless | groupByKey => trivial

namespace Chain

variable {edges : List (NodeId × NodeId)} {nodes passed : List (NodeId × Node β)}
  {start id : NodeId} {node root : Node β} {rest chain : Chain β}

theorem isShaped_of_root (hroot : root.isRoot = true) (hready : root.IsReady)
    (hrest : ∀ node ∈ rest, node.isRoot = false) : IsShaped (root :: rest) := by
  cases root with
  | source element payload => exact .source element payload hrest
  | coGroup step inputs => exact .coGroup hready.1 hready.2 hrest
  | stateless => cases hroot
  | groupByKey => cases hroot

theorem IsShaped.isReady_of_mem (h : IsShaped chain) (hnode : node ∈ chain) : node.IsReady := by
  cases h with
  | source element payload hrest =>
    rcases List.mem_cons.1 hnode with hfirst | hlater
    · rw [hfirst]
      trivial
    · exact Node.isReady_of_isRoot_eq_false (hrest node hlater)
  | coGroup hstep hinputs hrest =>
    rcases List.mem_cons.1 hnode with hfirst | hlater
    · rw [hfirst]
      exact ⟨hstep, hinputs⟩
    · exact Node.isReady_of_isRoot_eq_false (hrest node hlater)

/-- A co-group at any depth of a chain is ready. -/
theorem IsShaped.isReady_of_contains (h : IsShaped chain) (hcontains : Contains chain node) :
    node.IsReady := by
  induction hcontains with
  | here hnode => exact h.isReady_of_mem hnode
  | inside hstep hinput _ ih => exact ih ((h.isReady_of_mem hstep).2 _ hinput)

/-- A trail stops at the first root it comes to. -/
theorem Trail.isRoot_eq_false (h : Trail edges nodes start passed id) :
    ∀ node ∈ passed.map Prod.snd, node.isRoot = false := by
  induction h with
  | start => exact List.forall_mem_nil _
  | back _ _ hroot _ ih => exact List.forall_mem_cons.2 ⟨hroot, ih⟩

/-- Fusing puts no root where there was none. -/
theorem isRoot_of_mem_fuse (h : ∀ node ∈ chain, node.isRoot = false) :
    ∀ node ∈ fuse chain, node.isRoot = false := by
  intro node hnode
  by_contra hroot
  have hkind : node.kind ≠ .stateless := by
    rcases (Node.isRoot_iff node).1 (eq_true_of_ne_false hroot) with hkind | hkind
    · simp [hkind]
    · simp [hkind]
  exact hroot (h node ((mem_fuse hkind chain).1 hnode))

theorem fuse_cons_of_isRoot (hroot : root.isRoot = true) (rest : Chain β) :
    fuse (root :: rest) = root :: fuse rest := by
  rw [fuse_cons]
  cases root with
  | stateless => cases hroot
  | source | groupByKey | coGroup => rfl

end Chain

namespace Graph

variable {g : Graph β} {terminal : NodeId}

/-- A plan of ready nodes is of the shape of plans. -/
theorem isShaped_of_buildPlan {plan : Chain β} (hplan : (g.buildPlan terminal).result = .ok plan)
    (hready : ∀ node ∈ plan, node.IsReady) : plan.IsShaped := by
  obtain ⟨passed, id, root, htrail, _, hnode, hkind, rfl⟩ := buildPlan_eq_ok_iff.1 hplan
  have hroot := (Node.isRoot_iff root).2 hkind
  rw [Chain.fuse_cons_of_isRoot hroot] at hready ⊢
  exact Chain.isShaped_of_root hroot (hready root List.mem_cons_self)
    (Chain.isRoot_of_mem_fuse htrail.isRoot_eq_false)

end Graph

theorem Grouper.pairStep_isFor (g : Grouper β) (name : String) (kind : PairJoin)
    (k v w : ElementType β) : (g.pairStep name kind k v w).IsFor 2 :=
  CoGroupStep.two_isFor name _

theorem Grouper.tripleStep_isFor (g : Grouper β) (name : String) (kind : TripleJoin)
    (k a b c : ElementType β) : (g.tripleStep name kind k a b c).IsFor 3 :=
  CoGroupStep.three_isFor name _

/-- A node that is no co-group, or a co-group that was not there before a join and is there behind
it, with such nodes in its inputs. Nothing is asked of the graph that the join worked on, apart from
the plans that it captured. -/
inductive Node.IsJoined : Node β → Prop
  | other {node : Node β} (h : node.kind ≠ .coGroup) : IsJoined node
  | joinTwo {w : Workspace β} {k u v : ElementType β} (g : Grouper β) (name : String)
    (kind : PairJoin) (x : Collection β (.pair k u)) (y : Collection β (.pair k v))
    {p : PipelineId} {id : NodeId} {step : CoGroupStep β} {inputs : List (List (Node β))}
    (hnew : (id, .coGroup step inputs) ∉ (w.graph p).nodes)
    (hnode : (id, .coGroup step inputs) ∈ ((g.joinTwo name kind x y w).2.graph p).nodes)
    (hinputs : ∀ input ∈ inputs, ∀ node ∈ input, IsJoined node) : IsJoined (.coGroup step inputs)
  | joinThree {w : Workspace β} {k a b c : ElementType β} (g : Grouper β) (name : String)
    (kind : TripleJoin) (x : Collection β (.pair k a)) (y : Collection β (.pair k b))
    (z : Collection β (.pair k c)) {p : PipelineId} {id : NodeId} {step : CoGroupStep β}
    {inputs : List (List (Node β))} (hnew : (id, .coGroup step inputs) ∉ (w.graph p).nodes)
    (hnode : (id, .coGroup step inputs) ∈ ((g.joinThree name kind x y z w).2.graph p).nodes)
    (hinputs : ∀ input ∈ inputs, ∀ node ∈ input, IsJoined node) : IsJoined (.coGroup step inputs)

namespace Workspace

variable {w : Workspace β} {first p : PipelineId} {id : NodeId} {inputs : List (JoinInput β)}
  {captured : List (Chain β)} {step added : CoGroupStep β}

/-- The inputs of a co-group that a join adds are plans, one for each input of the join. -/
theorem isReady_of_added (hstep : step.IsFor inputs.length)
    (hnew : (id, .coGroup added captured) ∉ (w.graph p).nodes)
    (hnode : (id, .coGroup added captured) ∈ ((addCoGroup first inputs step w).2.graph p).nodes)
    (hready : ∀ input ∈ captured, ∀ node ∈ input, node.IsReady) :
    (Node.coGroup added captured).IsReady := by
  rcases mem_addCoGroup hnode with hold | ⟨chains, hplans, heq⟩
  · exact absurd hold hnew
  · cases heq
    have hlength : captured.length = inputs.length := hplans.length_eq.symm
    refine ⟨hlength ▸ hstep, fun chain hchain => ?_⟩
    obtain ⟨input, _, hplan⟩ := JoinInput.exists_of_mem_plans hplans hchain
    exact Graph.isShaped_of_buildPlan hplan (hready chain hchain)

end Workspace

/-- By induction over the joins behind a node, which is over the depth of its captured plans. -/
theorem Node.IsJoined.isReady {node : Node β} (h : node.IsJoined) : node.IsReady := by
  induction h with
  | @other node hkind =>
    cases node with
    | coGroup => exact absurd rfl hkind
    | source | stateless | groupByKey => trivial
  | joinTwo g name kind x y hnew hnode _ ih =>
    exact Workspace.isReady_of_added (g.pairStep_isFor name kind _ _ _) hnew hnode ih
  | joinThree g name kind x y z hnew hnode _ ih =>
    exact Workspace.isReady_of_added (g.tripleStep_isFor name kind _ _ _ _) hnew hnode ih

/-- Every co-group of the graph was added by a join, in whichever state the workspace was, and so
was every one in its inputs. -/
def Graph.IsJoined (g : Graph β) : Prop := g.HasOnly Node.IsJoined

theorem Graph.IsJoined.of_mem_plan {g : Graph β} (h : g.IsJoined) {terminal : NodeId}
    {plan : Chain β} (hplan : (g.buildPlan terminal).result = .ok plan) {node : Node β}
    (hnode : node ∈ plan) : node.IsJoined := by
  by_cases hkind : node.kind = .coGroup
  · obtain ⟨id, hid⟩ := exists_mem_of_plan hplan hnode (by rw [hkind]; decide)
    exact h _ hid
  · exact .other hkind

theorem Graph.IsJoined.isShaped {g : Graph β} (h : g.IsJoined) {terminal : NodeId} {plan : Chain β}
    (hplan : (g.buildPlan terminal).result = .ok plan) : plan.IsShaped :=
  isShaped_of_buildPlan hplan fun _ hnode => (h.of_mem_plan hplan hnode).isReady

/-- A join adds a co-group of plans of such nodes. -/
theorem Workspace.HasOnly.addJoined {w : Workspace β} (h : w.HasOnly Node.IsJoined)
    {first : PipelineId} {inputs : List (JoinInput β)} {step : CoGroupStep β}
    (hadded : ∀ {p id added captured}, (id, .coGroup added captured) ∉ (w.graph p).nodes →
      (id, .coGroup added captured) ∈ ((addCoGroup first inputs step w).2.graph p).nodes →
      (∀ input ∈ captured, ∀ node ∈ input, node.IsJoined) →
      (Node.coGroup added captured).IsJoined) :
    (addCoGroup first inputs step w).2.HasOnly Node.IsJoined := by
  intro p entry hentry
  by_cases hold : entry ∈ (w.graph p).nodes
  · exact h p entry hold
  rcases mem_addCoGroup hentry with hmem | ⟨chains, hplans, hnew⟩
  · exact absurd hmem hold
  · obtain ⟨id, node⟩ := entry
    cases hnew
    refine hadded hold hentry fun chain hchain node hnode => ?_
    obtain ⟨input, _, hplan⟩ := JoinInput.exists_of_mem_plans hplans hchain
    exact Graph.IsJoined.of_mem_plan (h input.pipeline) hplan hnode

namespace Construction

variable {s s' : Construction β}

/-- A call adds no co-group but by a join. -/
theorem hasOnly_perform (h : s.workspace.HasOnly Node.IsJoined) (c : s.Call) :
    (s.perform c).workspace.HasOnly Node.IsJoined := by
  cases c with
  | pipeline options =>
    intro p
    show Graph.HasOnly _ ((Workspace.addPipeline options s.workspace).2.graph p)
    rw [Workspace.graph_addPipeline]
    exact h p
  | source p known t rows => exact h.insertNode (.other (by simp [Node.kind]))
  | each x e =>
    show Workspace.HasOnly _ (e.build x.handle s.workspace).2
    rw [e.build_eq]
    exact h.andThen x.handle (.other (by simp [Node.kind])) _
  | groupByKey x =>
    show Workspace.HasOnly _ (x.handle.groupByKey s.workspace).2
    exact h.andThen x.handle (.other (by simp [Node.kind])) false
  | joinTwo g name kind x y =>
    show Workspace.HasOnly _ (s.issueJoin _ _).workspace
    rw [workspace_issueJoin]
    exact h.addJoined fun hnew hnode hinputs =>
      .joinTwo g name kind x.handle y.handle hnew hnode hinputs
  | joinThree g name kind x y z =>
    show Workspace.HasOnly _ (s.issueJoin _ _).workspace
    rw [workspace_issueJoin]
    exact h.addJoined fun hnew hnode hinputs =>
      .joinThree g name kind x.handle y.handle z.handle hnew hnode hinputs

/-- Whatever builders lead to has no co-groups but those of joins. -/
theorem Leads.hasOnly_isJoined (h : Leads s s') (hs : s.workspace.HasOnly Node.IsJoined) :
    s'.workspace.HasOnly Node.IsJoined := by
  induction h with
  | refl => exact hs
  | call _ c ih => exact hasOnly_perform ih c

end Construction

end JoinPipeline
