import JoinPipeline.Graph.Edit
import JoinPipeline.Proofs.Fusion
import JoinPipeline.Proofs.Lineage
import JoinPipeline.Proofs.Builders

/-!
# What builders and edits make

The nodes of a graph come from builders, whatever was asked of these: a builder works on any
collection, also on one that is of another type than the rows it stands for or that names a node
which is not there. Edits put these nodes together in other ways, and change a source, a
group-by-key step or the inputs of a co-group. All of this leaves operations, group-by-key steps
and co-groups of a few forms, at every depth of the captured inputs.
-/

namespace JoinPipeline

variable {β : Type} [Basis β]

namespace Graph

variable {g : Graph β} {P : Node β → Prop} {node : Node β}

/-- Every node has the property. -/
def HasOnly (P : Node β → Prop) (g : Graph β) : Prop := ∀ entry ∈ g.nodes, P entry.2

theorem HasOnly.insert (h : g.HasOnly P) (hnode : P node) : (g.insert node).2.HasOnly P :=
  List.forall_mem_append.2 ⟨h, List.forall_mem_singleton.2 hnode⟩

theorem HasOnly.connect (h : g.HasOnly P) (start finish : NodeId) :
    (g.connect start finish).HasOnly P := h

theorem HasOnly.remove (h : g.HasOnly P) (id : NodeId) : (g.remove id).HasOnly P :=
  fun entry hentry => h entry (List.mem_filter.1 hentry).1

theorem HasOnly.replace (h : g.HasOnly P) (id : NodeId) (hnode : P node) :
    (g.replace id node).HasOnly P := by
  intro entry hentry
  obtain ⟨old, hold, rfl⟩ := List.mem_map.1 hentry
  unfold replaceEntry
  split
  · exact hnode
  · exact h old hold

end Graph

namespace Workspace

variable {w : Workspace β} {p first : PipelineId} {P : Node β → Prop} {node : Node β}

/-- Every node of every pipeline has the property. -/
def HasOnly (P : Node β → Prop) (w : Workspace β) : Prop := ∀ p, (w.graph p).HasOnly P

theorem hasOnly_empty : ({} : Workspace β).HasOnly P := by
  intro p entry hentry
  cases hentry

theorem HasOnly.setGraph (h : w.HasOnly P) {g : Graph β} (hg : g.HasOnly P) :
    (w.setGraph p g).HasOnly P :=
  forall_graph_setGraph (P := fun _ g => g.HasOnly P) hg h

theorem mem_insertNode {q : PipelineId} {entry : NodeId × Node β}
    (h : entry ∈ ((insertNode p node w).2.graph q).nodes) :
    entry ∈ (w.graph q).nodes ∨ entry.2 = node := by
  refine forall_graph_setGraph
    (P := fun q g => ∀ entry ∈ g.nodes, entry ∈ (w.graph q).nodes ∨ entry.2 = node)
    ?_ (fun _ _ hold => .inl hold) q entry h
  intro entry hentry
  rcases List.mem_append.1 hentry with hold | hnew
  · exact .inl hold
  · exact .inr (congrArg Prod.snd (List.mem_singleton.1 hnew))

theorem HasOnly.insertNode (h : w.HasOnly P) (hnode : P node) :
    (insertNode p node w).2.HasOnly P := by
  intro q entry hentry
  rcases mem_insertNode hentry with hold | hnew
  · exact h q entry hold
  · rw [hnew]
    exact hnode

theorem HasOnly.andThen (h : w.HasOnly P) {s t : ElementType β} (c : Collection β s)
    (hnode : P node) (isChained : Bool) :
    (c.andThen node isChained w : Collection β t × Workspace β).2.HasOnly P := by
  have hinsert : (Workspace.insertNode c.pipeline node w).2.HasOnly P := h.insertNode hnode
  exact hinsert.setGraph ((hinsert c.pipeline).connect _ _)

/-- A join adds no node but a co-group of plans, one for each of its inputs. -/
theorem mem_addCoGroup {inputs : List (JoinInput β)} {step : CoGroupStep β} {q : PipelineId}
    {entry : NodeId × Node β} (h : entry ∈ ((addCoGroup first inputs step w).2.graph q).nodes) :
    entry ∈ (w.graph q).nodes ∨
      ∃ chains, List.Forall₂ (fun input chain => input.plan w = .ok chain) inputs chains ∧
        entry.2 = .coGroup step chains := by
  rcases addCoGroup_cases first inputs step w with hsame | ⟨chains, hvet, hadded⟩
  · rw [hsame] at h
    exact .inl h
  · rw [vet, Log.Traced.result_bind] at hvet
    obtain ⟨_, _, hcapture⟩ := bind_eq_ok.1 hvet
    rw [hadded] at h
    rcases mem_insertNode h with hold | hnew
    · exact .inl hold
    · exact .inr ⟨chains, JoinInput.plans_of_result_capture hcapture, hnew⟩

end Workspace

/-- The operations of the element-wise transforms. -/
inductive Op.IsBuilt : Op β → Prop
  | map (s t : ElementType β) (f : s.Carrier → t.Carrier) : IsBuilt (.map s t f)
  | filter (t : ElementType β) (keep : t.Carrier → Bool) : IsBuilt (.filter t keep)
  | flatMap (s t : ElementType β) (f : s.Carrier → List t.Carrier) : IsBuilt (.flatMap s t f)

/-- The step of a grouping by key, and the same without its first half. -/
inductive GroupStep.IsBuilt : GroupStep β → Prop
  | byKey (k v : ElementType β) : IsBuilt (.byKey k v)
  | keepRows (k v : ElementType β) :
    IsBuilt { GroupStep.byKey k v with tabulate := fun p => .ok (.rows p) }

/-- The co-groups of joins, with any grouper. -/
inductive CoGroupStep.IsBuilt : CoGroupStep β → Prop
  | joinTwo (g : Grouper β) (name : String) (kind : PairJoin) (k v w : ElementType β) :
    IsBuilt (g.pairStep name kind k v w)
  | joinThree (g : Grouper β) (name : String) (kind : TripleJoin) (k a b c : ElementType β) :
    IsBuilt (g.tripleStep name kind k a b c)

/-- A node of one of these forms, as are the nodes in the inputs of a co-group. The rows of a source
may be of another type than its elements. -/
inductive Node.IsBuilt : Node β → Prop
  | source (element : ElementType β) (payload : Partition β) : IsBuilt (.source element payload)
  | stateless {ops : List (Op β)} (h : ∀ op ∈ ops, op.IsBuilt) : IsBuilt (.stateless ops)
  | groupByKey {step : GroupStep β} (h : step.IsBuilt) : IsBuilt (.groupByKey step)
  | coGroup {step : CoGroupStep β} {inputs : List (List (Node β))} (h : step.IsBuilt)
    (hinputs : ∀ input ∈ inputs, ∀ node ∈ input, IsBuilt node) : IsBuilt (.coGroup step inputs)

def Chain.IsBuilt (chain : Chain β) : Prop := ∀ node ∈ chain, node.IsBuilt

def Graph.IsBuilt (g : Graph β) : Prop := ∀ entry ∈ g.nodes, entry.2.IsBuilt

theorem Elementwise.isBuilt_op {s t : ElementType β} (e : Elementwise β s t) : e.op.IsBuilt := by
  cases e with
  | map f => exact .map _ _ f
  | filter keep => exact .filter _ keep
  | flatMap f => exact .flatMap _ _ f
  | keyBy f => exact .map _ _ _
  | mapValues f => exact .map _ _ _
  | filterValues keep => exact .filter _ _

theorem Elementwise.isBuilt_node {s t : ElementType β} (e : Elementwise β s t) :
    (Node.stateless [e.op]).IsBuilt :=
  .stateless (List.forall_mem_singleton.2 e.isBuilt_op)

namespace Chain

theorem IsBuilt.fuseNode {node : Node β} {chain : Chain β} (hnode : node.IsBuilt)
    (h : chain.IsBuilt) : (fuseNode node chain).IsBuilt := by
  unfold Chain.fuseNode
  split
  next first second rest =>
    obtain ⟨hsecond, hrest⟩ := List.forall_mem_cons.1 h
    refine List.forall_mem_cons.2 ⟨.stateless fun op hop => ?_, hrest⟩
    cases hnode with
    | stateless hfirst =>
      cases hsecond with
      | stateless hops =>
        rcases List.mem_append.1 hop with hop | hop
        · exact hfirst op hop
        · exact hops op hop
  next => exact List.forall_mem_cons.2 ⟨hnode, h⟩

theorem IsBuilt.fuse {chain : Chain β} (h : chain.IsBuilt) : (fuse chain).IsBuilt := by
  induction chain with
  | nil => exact h
  | cons node chain ih =>
    obtain ⟨hnode, hchain⟩ := List.forall_mem_cons.1 h
    rw [fuse_cons]
    exact (ih hchain).fuseNode hnode

end Chain

namespace Graph

variable {g g' : Graph β} {id : NodeId} {node : Node β}

theorem IsBuilt.reaches (h : g.IsBuilt) {chain : Chain β} (hreaches : g.Reaches id chain) :
    chain.IsBuilt := by
  intro node hnode
  obtain ⟨id', hmem⟩ := Chain.exists_mem_of_walk hreaches hnode
  exact h _ hmem

theorem IsBuilt.plan (h : g.IsBuilt) {plan : Chain β} (hplan : g.plan id = .ok plan) :
    plan.IsBuilt := by
  obtain ⟨chain, hreaches, rfl⟩ := plan_eq_ok.1 hplan
  exact (h.reaches hreaches).fuse

theorem IsBuilt.node? (h : g.IsBuilt) (hnode : g.node? id = some node) : node.IsBuilt :=
  h _ (Chain.mem_of_lookup hnode)

/-- An edit of a node puts a node of the same graph or a change of one in its place. -/
theorem IsBuilt.edit? (h : g.IsBuilt) {change : Node β → Option (Node β)}
    (hchange : ∀ node node', node.IsBuilt → change node = some node' → node'.IsBuilt)
    (hedit : g.edit? id change = some g') : g'.IsBuilt := by
  unfold Graph.edit? at hedit
  obtain ⟨node, hnode, hrest⟩ := Option.bind_eq_some_iff.1 hedit
  obtain ⟨node', hnode', heq⟩ := Option.bind_eq_some_iff.1 hrest
  cases heq
  exact HasOnly.replace h id (hchange node node' (h.node? hnode) hnode')

/-- The edits of a graph. -/
inductive EditsTo : Graph β → Graph β → Prop
  | insert (g : Graph β) : EditsTo g (g.insert (.stateless [])).2
  | connect (g : Graph β) (start finish : NodeId) : EditsTo g (g.connect start finish)
  | remove {g g' : Graph β} {id : NodeId} (h : g.remove? id = some g') : EditsTo g g'
  | setPayload {g g' : Graph β} {id : NodeId} {payload : Partition β}
    (h : g.setPayload? id payload = some g') : EditsTo g g'
  | keepRows {g g' : Graph β} {id : NodeId} (h : g.keepRows? id = some g') : EditsTo g g'
  | dropInput {g g' : Graph β} {id : NodeId} (h : g.dropInput? id = some g') : EditsTo g g'
  | setInput {g g' : Graph β} {id : NodeId} {place : Nat} {chain : List NodeId}
    (h : g.setInput? id place chain = some g') : EditsTo g g'

theorem IsBuilt.nodes (h : g.IsBuilt) {ids : List NodeId} {nodes : List (Node β)}
    (hnodes : ids.mapM g.node? = some nodes) : Chain.IsBuilt nodes := by
  induction ids generalizing nodes with
  | nil =>
    cases hnodes
    exact List.forall_mem_nil _
  | cons id ids ih =>
    rw [List.mapM_cons] at hnodes
    obtain ⟨node, hnode, hrest⟩ := Option.bind_eq_some_iff.1 hnodes
    obtain ⟨others, hothers, heq⟩ := Option.bind_eq_some_iff.1 hrest
    cases heq
    exact List.forall_mem_cons.2 ⟨h.node? hnode, ih hothers⟩

theorem IsBuilt.editsTo (h : g.IsBuilt) (hedit : g.EditsTo g') : g'.IsBuilt := by
  cases hedit with
  | insert => exact HasOnly.insert h (.stateless (List.forall_mem_nil _))
  | connect start finish => exact h
  | remove hremove =>
    obtain ⟨_, _, rfl⟩ := Option.map_eq_some_iff.1 hremove
    exact HasOnly.remove h _
  | setPayload hset =>
    refine h.edit? (fun node node' hnode hchange => ?_) hset
    split at hchange
    · cases hchange
      exact .source _ _
    · cases hchange
  | keepRows hkeep =>
    refine h.edit? (fun node node' hnode hchange => ?_) hkeep
    split at hchange
    · cases hchange
      cases hnode with
      | groupByKey hstep =>
        cases hstep with
        | byKey k v => exact .groupByKey (.keepRows k v)
        | keepRows k v => exact .groupByKey (.keepRows k v)
    · cases hchange
  | dropInput hdrop =>
    refine h.edit? (fun node node' hnode hchange => ?_) hdrop
    split at hchange
    · cases hnode with
      | coGroup hstep hinputs =>
        split at hchange
        · cases hchange
        · cases hchange
          exact .coGroup hstep fun input hinput => hinputs input (List.dropLast_subset _ hinput)
    · cases hchange
  | setInput hset =>
    obtain ⟨nodes, hnodes, hrest⟩ := Option.bind_eq_some_iff.1 hset
    refine h.edit? (fun node node' hnode hchange => ?_) hrest
    split at hchange
    · cases hnode with
      | coGroup hstep hinputs =>
        split at hchange
        · cases hchange
          refine .coGroup hstep fun input hinput => ?_
          rcases List.mem_or_eq_of_mem_set hinput with hold | hnew
          · exact hinputs input hold
          · rw [hnew]
            exact h.nodes hnodes
        · cases hchange
    · cases hchange

end Graph

namespace Workspace

variable {w : Workspace β} {p q : PipelineId} {s t : ElementType β}

/-- Workspaces to which builders and edits lead. -/
inductive Arises : Workspace β → Prop
  | empty : Arises {}
  | pipeline {w : Workspace β} (h : Arises w) (options : Options) : Arises (addPipeline options w).2
  | source {w : Workspace β} (h : Arises w) (p : PipelineId) (t : ElementType β)
    (rows : List t.Carrier) : Arises (Collection.ofRows p t rows w).2
  | each {w : Workspace β} (h : Arises w) {s t : ElementType β} (c : Collection β s)
    (e : Elementwise β s t) : Arises (e.build c w).2
  | groupByKey {w : Workspace β} (h : Arises w) {k v : ElementType β}
    (c : Collection β (.pair k v)) : Arises (c.groupByKey w).2
  | joinTwo {w : Workspace β} (h : Arises w) {k u v : ElementType β} (g : Grouper β)
    (name : String) (kind : PairJoin) (x : Collection β (.pair k u))
    (y : Collection β (.pair k v)) : Arises (g.joinTwo name kind x y w).2
  | joinThree {w : Workspace β} (h : Arises w) {k a b c : ElementType β} (g : Grouper β)
    (name : String) (kind : TripleJoin) (x : Collection β (.pair k a))
    (y : Collection β (.pair k b)) (z : Collection β (.pair k c)) :
    Arises (g.joinThree name kind x y z w).2
  | edit {w : Workspace β} (h : Arises w) (p : PipelineId) {g : Graph β}
    (hedit : (w.graph p).EditsTo g) : Arises (w.setGraph p g)

def IsBuilt (w : Workspace β) : Prop := ∀ p, (w.graph p).IsBuilt

/-- What a join captures are plans of its inputs. -/
theorem IsBuilt.addCoGroup (h : w.IsBuilt) {step : CoGroupStep β} (hstep : step.IsBuilt)
    (inputs : List (JoinInput β)) : (addCoGroup p inputs step w).2.IsBuilt := by
  intro q entry hentry
  rcases mem_addCoGroup hentry with hold | ⟨chains, hplans, hnew⟩
  · exact h q entry hold
  · rw [hnew]
    refine .coGroup hstep fun chain hchain => ?_
    obtain ⟨input, _, hplan⟩ := JoinInput.exists_of_mem_plans hplans hchain
    rw [JoinInput.plan, Graph.buildPlan_result] at hplan
    exact (h input.pipeline).plan hplan

theorem Arises.isBuilt (h : w.Arises) : w.IsBuilt := by
  induction h with
  | empty =>
    intro p entry hentry
    cases hentry
  | pipeline _ options ih =>
    intro p
    rw [graph_addPipeline]
    exact ih p
  | source _ p t rows ih => exact HasOnly.insertNode ih (.source t _)
  | each _ c e ih =>
    rw [e.build_eq]
    exact HasOnly.andThen ih c e.isBuilt_node _
  | groupByKey _ c ih =>
    show IsBuilt (c.groupByKey _).2
    exact HasOnly.andThen ih c (.groupByKey (.byKey _ _)) false
  | joinTwo _ g name kind x y ih => exact ih.addCoGroup (.joinTwo g name kind _ _ _) _
  | joinThree _ g name kind x y z ih => exact ih.addCoGroup (.joinThree g name kind _ _ _ _) _
  | edit _ p hedit ih => exact HasOnly.setGraph ih ((ih p).editsTo hedit)

end Workspace

end JoinPipeline
