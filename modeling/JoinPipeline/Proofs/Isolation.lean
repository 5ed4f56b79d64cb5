import JoinPipeline.Proofs.Construction
import JoinPipeline.Proofs.Frame

/-!
# Edits that a run does not see

A run from a node sees the nodes on the walk back from it and the first edge into each of them.
Whatever is done to the other nodes, and to the edges into them, does not reach it. A co-group ends
the walk, and in a graph that builders have made edges lead to larger numbers; so nothing that was
there before a join plays a part in a run from the join or from behind it. Nor does anything play
one that is added behind the nodes and the edges of a graph.
-/

namespace JoinPipeline

variable {β : Type} [Basis β]

namespace Graph

variable {g g' : Graph β} {terminal join id : NodeId} {node : Node β}

/-- The runs from a node that has a plan are the same where the walk back from it is. -/
theorem AgreesFrom.collect_eq (h : g'.AgreesFrom g terminal) {plan : Chain β}
    (hplan : (g.buildPlan terminal).result = .ok plan) (settings : RunSettings β)
    (t : ElementType β) : g'.collect settings terminal t = g.collect settings terminal t := by
  rw [buildPlan_result] at hplan
  obtain ⟨chain, hreaches, _⟩ := plan_eq_ok.1 hplan
  exact hreaches.collect_eq (hreaches.agree h) settings t

section Edits

theorem agreesFrom_remove (h : ¬ g.Passes terminal id) :
    (g.remove id).AgreesFrom g terminal where
  nodes other hother := by
    show (without id g.nodes).lookup other = _
    rw [Chain.lookup_without, if_neg (hother.ne h)]
    rfl
  edges _ _ _ _ _ := rfl

theorem lookup_map_replaceEntry {other : NodeId} (h : other ≠ id)
    (nodes : List (NodeId × Node β)) :
    (nodes.map (replaceEntry id node)).lookup other = nodes.lookup other := by
  induction nodes with
  | nil => rfl
  | cons entry rest ih =>
    rw [List.map_cons, List.lookup_cons, List.lookup_cons, replaceEntry_fst, ih]
    cases hother : other == entry.1 with
    | false => rfl
    | true =>
      have hne : entry.1 ≠ id := by
        rw [← eq_of_beq hother]
        exact h
      unfold replaceEntry
      rw [if_neg hne]

theorem agreesFrom_replace (h : ¬ g.Passes terminal id) :
    (g.replace id node).AgreesFrom g terminal where
  nodes other hother := by
    exact lookup_map_replaceEntry (hother.ne h) g.nodes
  edges _ _ _ _ _ := rfl

/-- The edges into other nodes than one tell the first edge into each of them. -/
theorem predecessor?_filter {other : NodeId} (h : other ≠ id)
    (edges : List (NodeId × NodeId)) :
    Chain.predecessor? (edges.filter fun edge => edge.2 != id) other =
      Chain.predecessor? edges other := by
  unfold Chain.predecessor?
  rw [List.find?_filter]
  congr 2
  funext edge
  by_cases hedge : edge.2 = other
  · simp [hedge, h]
  · simp [hedge]

theorem agreesFrom_rewire (h : ¬ g.Passes terminal id) (hnodes : g'.nodes = g.nodes)
    (hedges : g'.edges.filter (fun edge => edge.2 != id) =
      g.edges.filter fun edge => edge.2 != id) : g'.AgreesFrom g terminal where
  nodes other _ := by
    unfold node?
    rw [hnodes]
  edges other _ hother _ _ := by
    rw [← predecessor?_filter (hother.ne h), hedges, predecessor?_filter (hother.ne h)]

end Edits

/-- Every edge leads to a larger number. -/
def IsUpward (g : Graph β) : Prop := ∀ edge ∈ g.edges, edge.1.raw < edge.2.raw

/-- Two graphs are the same in the nodes from a number on and in the first edge into each of
them. -/
structure AgreesOnwards (g' g : Graph β) (start : NodeId) : Prop where
  nodes : ∀ id, start.raw ≤ id.raw → g'.node? id = g.node? id
  edges : ∀ id, start.raw ≤ id.raw →
    Chain.predecessor? g'.edges id = Chain.predecessor? g.edges id

section Upward

theorem mem_of_predecessor? {edges : List (NodeId × NodeId)} {before : NodeId}
    (h : Chain.predecessor? edges id = some before) : (before, id) ∈ edges := by
  obtain ⟨edge, hedge, rfl⟩ := Option.map_eq_some_iff.1 h
  have hend : edge.2 = id :=
    of_decide_eq_true (List.find?_some (p := fun edge : NodeId × NodeId => edge.2 = id) hedge)
  rw [← hend]
  exact List.mem_of_find?_eq_some hedge

/-- A walk goes down. -/
theorem IsUpward.le_of_passes (h : g.IsUpward) (hpasses : g.Passes terminal id) :
    id.raw ≤ terminal.raw := by
  induction hpasses with
  | here => exact Nat.le_refl _
  | back _ _ hbefore _ ih =>
    exact Nat.le_trans ih (Nat.le_of_lt (h _ (mem_of_predecessor? hbefore)))

/-- A walk that comes by a root has passed nothing below it. -/
theorem IsUpward.le_of_root (h : g.IsUpward) (hnode : g.node? join = some node)
    (hroot : node.isRoot = true) (hjoin : g.Passes terminal join) (hid : g.Passes terminal id) :
    join.raw ≤ id.raw := by
  rcases hjoin.total hid with hbehind | hfront
  · exact Nat.le_of_eq (congrArg NodeId.raw (hbehind.eq_of_root hnode hroot).symm)
  · exact h.le_of_passes hfront

theorem AgreesOnwards.agreesFrom (h : g'.AgreesOnwards g join) (hup : g.IsUpward)
    (hnode : g.node? join = some node) (hroot : node.isRoot = true)
    (hjoin : g.Passes terminal join) : g'.AgreesFrom g terminal where
  nodes _ hid := h.nodes _ (hup.le_of_root hnode hroot hjoin hid)
  edges _ _ hid _ _ := h.edges _ (hup.le_of_root hnode hroot hjoin hid)

theorem IsUpward.connect_insert (h : g.IsUpward) (node : Node β) {start : NodeId}
    (hstart : start.raw < g.nextId) :
    ((g.insert node).2.connect start ⟨g.nextId⟩).IsUpward := by
  intro edge hedge
  rcases List.mem_append.1 hedge with hold | hnew
  · exact h edge hold
  · rw [List.mem_singleton.1 hnew]
    exact hstart

end Upward

end Graph

namespace Workspace

variable {w : Workspace β} {p : PipelineId}

def IsUpward (w : Workspace β) : Prop := ∀ p, (w.graph p).IsUpward

theorem IsUpward.setGraph (h : w.IsUpward) {g : Graph β} (hg : g.IsUpward) :
    (w.setGraph p g).IsUpward :=
  forall_graph_setGraph (P := fun _ g => g.IsUpward) hg h

theorem IsUpward.insertNode (h : w.IsUpward) (node : Node β) :
    (insertNode p node w).2.IsUpward :=
  h.setGraph (h p)

theorem IsUpward.addCoGroup (h : w.IsUpward) (inputs : List (JoinInput β))
    (step : CoGroupStep β) : (addCoGroup p inputs step w).2.IsUpward := by
  rcases addCoGroup_cases p inputs step w with hsame | ⟨chains, _, hadded⟩
  · rw [hsame]
    exact h
  · rw [hadded]
    exact h.insertNode _

end Workspace

namespace Collection

variable {w : Workspace β} {s t : ElementType β} {c : Collection β s}

theorem isUpward_andThen (h : w.IsUpward) (hc : c.pipeline.place < w.pipelines.length)
    {chain : Chain β} (hreaches : (w.graph c.pipeline).Reaches c.node chain) (node : Node β)
    (isChained : Bool) :
    (c.andThen node isChained w : Collection β t × Workspace β).2.IsUpward := by
  rw [andThen_eq hc]
  exact h.setGraph ((h c.pipeline).connect_insert node hreaches.lt_nextId)

end Collection

namespace Construction

variable {s s' : Construction β}

/-- A builder connects to a new node only. -/
theorem IsSound.isUpward_perform (hs : s.IsSound) (h : s.workspace.IsUpward) (c : s.Call) :
    (s.perform c).workspace.IsUpward := by
  cases c with
  | pipeline options =>
    intro p
    show ((Workspace.addPipeline options s.workspace).2.graph p).IsUpward
    rw [Workspace.graph_addPipeline]
    exact h p
  | source p known t rows => exact h.insertNode _
  | each x e =>
    show (e.build x.handle s.workspace).2.IsUpward
    rw [e.build_eq]
    exact Collection.isUpward_andThen h (x.known hs) (x.reaches hs) _ _
  | groupByKey x =>
    show (x.handle.groupByKey s.workspace).2.IsUpward
    exact Collection.isUpward_andThen h (x.known hs) (x.reaches hs) _ _
  | joinTwo g name kind x y =>
    show (s.issueJoin _ _).workspace.IsUpward
    rw [workspace_issueJoin]
    exact h.addCoGroup _ _
  | joinThree g name kind x y z =>
    show (s.issueJoin _ _).workspace.IsUpward
    rw [workspace_issueJoin]
    exact h.addCoGroup _ _

theorem isUpward_empty : ({} : Construction β).workspace.IsUpward := by
  intro p edge hedge
  cases hedge

theorem Leads.isUpward (h : Leads s s') (hs : s.IsSound) (hup : s.workspace.IsUpward) :
    s'.workspace.IsUpward := by
  induction h with
  | refl => exact hup
  | call h c ih => exact (h.isSound hs).isUpward_perform ih c

section Runs

variable {i : Issued β} {join : NodeId} {g : Graph β}

/-- Of the graph of a collection that comes out of a join, what was there before the join may be
anything. -/
theorem Leads.collect_agreesOnwards (h : Leads {} s) (hi : i ∈ s.issued) {node : Node β}
    (hnode : (s.workspace.graph i.handle.pipeline).node? join = some node)
    (hroot : node.isRoot = true)
    (hjoin : (s.workspace.graph i.handle.pipeline).Passes i.handle.node join)
    (hagrees : g.AgreesOnwards (s.workspace.graph i.handle.pipeline) join)
    (settings : RunSettings β) (t : ElementType β) :
    g.collect settings i.handle.node t =
      (s.workspace.graph i.handle.pipeline).collect settings i.handle.node t := by
  have hup := h.isUpward isSound_empty isUpward_empty i.handle.pipeline
  have hreaches := (h.isSound isSound_empty).reaches i hi
  exact hreaches.collect_eq (hreaches.agree (hagrees.agreesFrom hup hnode hroot hjoin)) settings t

end Runs

/-- A run from a node with a plan depends on the walk back from this node alone. So what is done to
a node that is not on the walk changes nothing; a collection that comes out of a join keeps its
rows whatever becomes of the nodes that were there before the join; and nodes and edges behind
those of a graph change no rows. -/
theorem collect_isolated :
    (∀ (g g' : Graph β) (terminal : NodeId) (plan : Chain β),
      (g.buildPlan terminal).result = .ok plan → g'.AgreesFrom g terminal →
      ∀ (settings : RunSettings β) (t : ElementType β),
        g'.collect settings terminal t = g.collect settings terminal t) ∧
    (∀ (g : Graph β) (terminal id : NodeId) (plan : Chain β),
      (g.buildPlan terminal).result = .ok plan → ¬ g.Passes terminal id →
      ∀ (settings : RunSettings β) (t : ElementType β),
        (g.remove id).collect settings terminal t = g.collect settings terminal t ∧
        (∀ node, (g.replace id node).collect settings terminal t =
          g.collect settings terminal t) ∧
        ∀ g' : Graph β, g'.nodes = g.nodes →
          g'.edges.filter (fun edge => edge.2 != id) =
            g.edges.filter (fun edge => edge.2 != id) →
          g'.collect settings terminal t = g.collect settings terminal t) ∧
    (∀ s : Construction β, Leads {} s → ∀ i ∈ s.issued, ∀ join step inputs,
      (s.workspace.graph i.handle.pipeline).node? join = some (.coGroup step inputs) →
      (s.workspace.graph i.handle.pipeline).Passes i.handle.node join →
      ∀ g : Graph β, g.AgreesOnwards (s.workspace.graph i.handle.pipeline) join →
      ∀ (settings : RunSettings β) (t : ElementType β),
        g.collect settings i.handle.node t =
          (s.workspace.graph i.handle.pipeline).collect settings i.handle.node t) ∧
    ∀ (g g' : Graph β) (terminal : NodeId) (plan : Chain β),
      (g.buildPlan terminal).result = .ok plan → g'.Extends g →
      ∀ (settings : RunSettings β) (t : ElementType β),
        g'.collect settings terminal t = g.collect settings terminal t := by
  refine ⟨?_, ?_, ?_, ?_⟩
  · intro g g' terminal plan hplan hagrees settings t
    exact hagrees.collect_eq hplan settings t
  · intro g terminal id plan hplan hid settings t
    refine ⟨(Graph.agreesFrom_remove hid).collect_eq hplan settings t, fun node => ?_,
      fun g' hnodes hedges => ?_⟩
    · exact (Graph.agreesFrom_replace hid).collect_eq hplan settings t
    · exact (Graph.agreesFrom_rewire hid hnodes hedges).collect_eq hplan settings t
  · intro s hreach i hi join step inputs hnode hjoin g hagrees settings t
    exact hreach.collect_agreesOnwards hi hnode rfl hjoin hagrees settings t
  · intro g g' terminal plan hplan hext settings t
    rw [Graph.buildPlan_result] at hplan
    obtain ⟨chain, hreaches, _⟩ := Graph.plan_eq_ok.1 hplan
    exact hreaches.collect_eq (hreaches.extend hext) settings t

/-- The join of the sample with itself is the second node of its pipeline. -/
theorem selfJoined_eq (g : Grouper Atom) :
    ∃ chains, (selfJoined g).workspace = (Workspace.insertNode ⟨0⟩
        (.coGroup (g.pairStep "inner" .inner (.base .int64) (.base .int64) (.base .int64)) chains)
        sample.workspace).2 ∧
      ⟨_, ⟨⟨0⟩, ⟨1⟩, true⟩, .joinTwo g "inner" .inner sampleRows.lineage sampleRows.lineage⟩ ∈
        (selfJoined g).issued := by
  have hrows := sampleRows.reaches (leads_sample.isSound isSound_empty)
  have hvet : (Workspace.vet sampleRows.handle.pipeline
      [sampleRows.handle.asInput, sampleRows.handle.asInput] "inner" sample.workspace).result =
        .ok ([sampleRows.lineage.chain, sampleRows.lineage.chain].map Chain.fuse) := by
    rw [Workspace.vet, Log.Traced.result_bind,
      JoinInput.capture_eq_ok (.cons hrows (.cons hrows .nil))]
    rfl
  obtain ⟨hresult, hadded⟩ := @Workspace.addCoGroup_accepted Atom _ _ _ _
    (g.pairStep "inner" .inner (.base .int64) (.base .int64) (.base .int64)) _ hvet
  refine ⟨[sampleRows.lineage.chain, sampleRows.lineage.chain].map Chain.fuse, ?_, ?_⟩
  · show (sample.issueJoin _ _).workspace = _
    rw [workspace_issueJoin]
    exact hadded
  · show _ ∈ (sample.issueJoin _ _).issued
    unfold Construction.issueJoin Grouper.joinTwo
    rw [hresult]
    exact List.mem_cons_self

/-- The graph of the sample, joined with itself. -/
def joinedGraph : Graph Atom := (selfJoined .firstMet).workspace.graph ⟨0⟩

/-- The rows of the join, in whatever way they are run. -/
def joinedRun (g : Graph Atom) (settings : RunSettings Atom) :
    Log.Traced (RunError Atom) (List (Int64 × (Int64 × Int64))) :=
  g.collect settings ⟨1⟩ (.pair (.base .int64) (.pair (.base .int64) (.base .int64)))

theorem collect_isolated_selfJoined :
    joinedRun (joinedGraph.remove ⟨0⟩) = joinedRun joinedGraph ∧
      joinedRun (joinedGraph.replace ⟨0⟩ (.stateless [])) = joinedRun joinedGraph ∧
      joinedRun ((joinedGraph.remove ⟨0⟩).connect ⟨1⟩ ⟨0⟩) = joinedRun joinedGraph ∧
      joinedRun (joinedGraph.connect ⟨0⟩ ⟨1⟩) = joinedRun joinedGraph := by
  obtain ⟨chains, hworkspace, hmem⟩ := selfJoined_eq .firstMet
  have hreach := leads_selfJoined .firstMet
  have hreaches : joinedGraph.Reaches ⟨1⟩ _ :=
    (hreach.isSound isSound_empty).reaches _ hmem
  have hplan := (Graph.buildPlan_result _ _).trans hreaches.plan
  have hroot : joinedGraph.node? ⟨1⟩ = some (.coGroup
      (Grouper.firstMet.pairStep "inner" .inner (.base .int64) (.base .int64) (.base .int64))
        chains) := by
    rw [joinedGraph, hworkspace]
    rfl
  have hsource : ¬ joinedGraph.Passes ⟨1⟩ ⟨0⟩ := by
    intro hpasses
    cases hpasses.eq_of_root hroot rfl
  have hlater : ∀ id : NodeId, 1 ≤ id.raw → (⟨0⟩ : NodeId) ≠ id := by
    rintro id hid rfl
    cases hid
  obtain ⟨general, edited, joined, extended⟩ := @collect_isolated Atom _
  refine ⟨funext fun _ => ?_, funext fun _ => ?_, funext fun _ => ?_, funext fun _ => ?_⟩
  · exact general _ _ _ _ hplan (Graph.agreesFrom_remove hsource) _ _
  · exact (edited _ _ _ _ hplan hsource _ _).2.1 _
  · refine joined _ hreach _ hmem ⟨1⟩ _ _ hroot (.here _) _ ⟨fun id hid => ?_, fun id hid => ?_⟩ _ _
    · show (Graph.without ⟨0⟩ joinedGraph.nodes).lookup id = joinedGraph.nodes.lookup id
      rw [Chain.lookup_without, if_neg (hlater id hid).symm]
    · exact Chain.predecessor?_concat_of_ne (hlater id hid) joinedGraph.edges
  · exact extended _ _ _ _ hplan (Graph.connect_extends _ _ _) _ _

end Construction

end JoinPipeline
