import JoinPipeline.Proofs.Fusion
import JoinPipeline.Proofs.Walk

/-!
# The trail of a walk

A walk takes every node that it passes out of the graph. Told over the graph as it was, it follows
a trail: from a node that is no root to the start of the first edge into it. The trail may go round
in a cycle for ever, but the walk stops where the trail comes to a node again, because the node is
gone by then. So every walk has an outcome, and the trail says which one it is.
-/

namespace JoinPipeline

variable {β : Type} [Basis β]

theorem Node.isRoot_iff (node : Node β) :
    node.isRoot = true ↔ node.kind = .source ∨ node.kind = .coGroup := by
  cases node <;> simp [Node.isRoot, Node.kind]

namespace Chain

variable {edges : List (NodeId × NodeId)} {nodes passed : List (NodeId × Node β)}
  {start id before : NodeId} {node : Node β} {outcome : Except WalkError (Chain β)}

/-- An edge into a node, with no edge into the same node before it in the list. -/
def FirstEdge (edges : List (NodeId × NodeId)) (before id : NodeId) : Prop :=
  ∃ earlier later, edges = earlier ++ (before, id) :: later ∧ ∀ edge ∈ earlier, edge.2 ≠ id

theorem predecessor?_eq_some : predecessor? edges id = some before ↔ FirstEdge edges before id := by
  unfold predecessor? FirstEdge
  simp only [Option.map_eq_some_iff, List.find?_eq_some_iff_append]
  constructor
  · rintro ⟨⟨first, last⟩, ⟨hinto, earlier, later, hedges, hearlier⟩, rfl⟩
    have hlast : last = id := by simpa using hinto
    subst hlast
    exact ⟨earlier, later, hedges, fun edge hedge => by simpa using hearlier edge hedge⟩
  · rintro ⟨earlier, later, hedges, hearlier⟩
    refine ⟨(before, id), ⟨by simp, earlier, later, hedges, fun edge hedge => ?_⟩, rfl⟩
    simpa using hearlier edge hedge

theorem predecessor?_eq_none : predecessor? edges id = none ↔ ∀ edge ∈ edges, edge.2 ≠ id := by
  simp [predecessor?]

/-- The way back from a node over a graph from which nothing is taken out: the nodes that have been
passed, the last one first, and the number it has come to. -/
inductive Trail (edges : List (NodeId × NodeId)) (nodes : List (NodeId × Node β))
    (start : NodeId) : List (NodeId × Node β) → NodeId → Prop
  | start : Trail edges nodes start [] start
  | back {passed : List (NodeId × Node β)} {id before : NodeId} {node : Node β}
    (h : Trail edges nodes start passed id) (hnode : nodes.lookup id = some node)
    (hroot : node.isRoot = false) (hbefore : FirstEdge edges before id) :
    Trail edges nodes start ((id, node) :: passed) before

/-- The numbers of the nodes that have been passed. -/
def ids (passed : List (NodeId × Node β)) : List NodeId := passed.map Prod.fst

/-- What becomes of a walk that has passed some nodes and has come to a number. -/
inductive Ends (edges : List (NodeId × NodeId)) (nodes passed : List (NodeId × Node β))
    (id : NodeId) : Except WalkError (Chain β) → Prop
  | root {node : Node β} (hnew : id ∉ ids passed) (hnode : nodes.lookup id = some node)
    (hroot : node.isRoot = true) : Ends edges nodes passed id (.ok (node :: passed.map Prod.snd))
  | missing (hgone : nodes.lookup id = none ∨ id ∈ ids passed) :
    Ends edges nodes passed id (.error (.missingNode id))
  | stuck {node : Node β} (hnew : id ∉ ids passed) (hnode : nodes.lookup id = some node)
    (hroot : node.isRoot = false) (hnone : ∀ edge ∈ edges, edge.2 ≠ id) :
    Ends edges nodes passed id (.error (.noPredecessor id))

/-- The nodes that are still there. -/
def remaining (nodes : List (NodeId × Node β)) :
    List (NodeId × Node β) → List (NodeId × Node β)
  | [] => nodes
  | entry :: passed => Graph.without entry.1 (remaining nodes passed)

theorem lookup_remaining (nodes passed : List (NodeId × Node β)) (id : NodeId) :
    (remaining nodes passed).lookup id = if id ∈ ids passed then none else nodes.lookup id := by
  induction passed with
  | nil => simp [remaining, ids]
  | cons entry passed ih =>
    have hids : ids (entry :: passed) = entry.1 :: ids passed := rfl
    rw [remaining, lookup_without, ih, hids]
    by_cases hid : id = entry.1 <;> simp [hid]

/-- A node that has not been passed is still there. -/
theorem lookup_remaining_of_new (hnew : id ∉ ids passed) (hnode : nodes.lookup id = some node) :
    (remaining nodes passed).lookup id = some node := by
  rw [lookup_remaining, if_neg hnew, hnode]

/-- The walk from the start of a trail is the walk from where the trail has come to, over what is
still there, with the nodes that have been passed behind it. -/
theorem Trail.walk_eq (h : Trail edges nodes start passed id) (hdistinct : (ids passed).Nodup) :
    walk edges nodes start =
      (walk edges (remaining nodes passed) id).map (· ++ passed.map Prod.snd) := by
  induction h with
  | start =>
    cases hwalk : walk edges nodes start <;> simp [remaining, hwalk, Except.map]
  | @back passed id before node h hnode hroot hbefore ih =>
    obtain ⟨hnew, hrest⟩ := List.nodup_cons.1 hdistinct
    have hthere := lookup_remaining_of_new hnew hnode
    have hstep : walk edges (remaining nodes passed) id =
        (walk edges (remaining nodes ((id, node) :: passed)) before).map (· ++ [node]) :=
      walk_behind hthere hroot (predecessor?_eq_some.2 hbefore)
    rw [ih hrest, hstep]
    cases walk edges (remaining nodes ((id, node) :: passed)) before <;> simp [Except.map]

/-- Every node that is passed is one less that is still there. -/
theorem Trail.length_remaining (h : Trail edges nodes start passed id)
    (hdistinct : (ids passed).Nodup) :
    (remaining nodes passed).length + passed.length ≤ nodes.length := by
  induction h with
  | start => simp [remaining]
  | @back passed id before node h hnode hroot hbefore ih =>
    obtain ⟨hnew, hrest⟩ := List.nodup_cons.1 hdistinct
    have hthere := lookup_remaining_of_new hnew hnode
    have hless : (remaining nodes ((id, node) :: passed)).length <
        (remaining nodes passed).length := Graph.length_without_lt hthere
    have hbound := ih hrest
    simp only [List.length_cons]
    omega

/-- A walk whose trail ends has the outcome of the end. -/
theorem Ends.walk_eq (h : Ends edges nodes passed id outcome)
    (htrail : Trail edges nodes start passed id) (hdistinct : (ids passed).Nodup) :
    walk edges nodes start = outcome := by
  rw [htrail.walk_eq hdistinct]
  cases h with
  | @root node hnew hnode hroot =>
    have hthere := lookup_remaining_of_new hnew hnode
    rw [walk_root hthere hroot]
    rfl
  | missing hgone =>
    have hthere : (remaining nodes passed).lookup id = none := by
      rw [lookup_remaining]
      rcases hgone with hnone | hagain
      · simp [hnone]
      · simp [hagain]
    rw [walk_missing hthere]
    rfl
  | @stuck node hnew hnode hroot hnone =>
    have hthere := lookup_remaining_of_new hnew hnode
    rw [walk_stuck hthere hroot (predecessor?_eq_none.2 hnone)]
    rfl

/-- A trail either ends where it has come to, or it goes on over a node that it has not passed. -/
theorem Trail.ends_or_back (h : Trail edges nodes start passed id) :
    (∃ outcome, Ends edges nodes passed id outcome) ∨
      ∃ node before, id ∉ ids passed ∧ nodes.lookup id = some node ∧
        Trail edges nodes start ((id, node) :: passed) before := by
  by_cases hnew : id ∈ ids passed
  · exact .inl ⟨_, .missing (.inr hnew)⟩
  cases hnode : nodes.lookup id with
  | none => exact .inl ⟨_, .missing (.inl hnode)⟩
  | some node =>
    cases hroot : node.isRoot with
    | true => exact .inl ⟨_, .root hnew hnode hroot⟩
    | false =>
      cases hbefore : predecessor? edges id with
      | none => exact .inl ⟨_, .stuck hnew hnode hroot (predecessor?_eq_none.1 hbefore)⟩
      | some before =>
        exact .inr ⟨node, before, hnew, rfl, .back h hnode hroot (predecessor?_eq_some.1 hbefore)⟩

/-- Every trail over distinct nodes can be followed to an end. -/
theorem Trail.exists_ends (h : Trail edges nodes start passed id)
    (hdistinct : (ids passed).Nodup) :
    ∃ passed' id' outcome, Trail edges nodes start passed' id' ∧ (ids passed').Nodup ∧
      Ends edges nodes passed' id' outcome := by
  -- by induction on the number of nodes that are still there
  induction hleft : (remaining nodes passed).length using Nat.strongRecOn
    generalizing passed id with
  | ind left ih =>
    rcases h.ends_or_back with ⟨outcome, hends⟩ | ⟨node, before, hnew, hnode, hback⟩
    · exact ⟨passed, id, outcome, h, hdistinct, hends⟩
    · have hthere := lookup_remaining_of_new hnew hnode
      have hless : (remaining nodes ((id, node) :: passed)).length < left := by
        rw [← hleft]
        exact Graph.length_without_lt hthere
      exact ih _ hless hback (List.nodup_cons.2 ⟨hnew, hdistinct⟩) rfl

/-- A walk comes out as the end of its trail says. -/
theorem walk_eq_iff : walk edges nodes start = outcome ↔
    ∃ passed id, Trail edges nodes start passed id ∧ (ids passed).Nodup ∧
      Ends edges nodes passed id outcome := by
  constructor
  · rintro rfl
    obtain ⟨passed, id, outcome, htrail, hdistinct, hends⟩ :=
      Trail.exists_ends (.start : Trail edges nodes start [] start) List.nodup_nil
    rw [hends.walk_eq htrail hdistinct]
    exact ⟨passed, id, htrail, hdistinct, hends⟩
  · rintro ⟨passed, id, htrail, hdistinct, hends⟩
    exact hends.walk_eq htrail hdistinct

end Chain

namespace Graph

/-- The way back from a node of a graph. -/
def Trail (g : Graph β) (terminal : NodeId) (passed : List (NodeId × Node β)) (id : NodeId) :
    Prop :=
  Chain.Trail g.edges g.nodes terminal passed id

theorem plan_eq_error {g : Graph β} {terminal : NodeId} {e : WalkError} :
    g.plan terminal = .error e ↔ Chain.walk g.edges g.nodes terminal = .error e := by
  unfold plan
  cases Chain.walk g.edges g.nodes terminal <;> simp [Except.map]

variable {g : Graph β} {terminal : NodeId}

/-- A plan is a trail over distinct nodes to a root, turned round and fused. -/
theorem buildPlan_eq_ok_iff {plan : Chain β} :
    (g.buildPlan terminal).result = .ok plan ↔
      ∃ passed id root, g.Trail terminal passed id ∧ (id :: Chain.ids passed).Nodup ∧
        g.node? id = some root ∧ (root.kind = .source ∨ root.kind = .coGroup) ∧
        plan = Chain.fuse (root :: passed.map Prod.snd) := by
  rw [buildPlan_result, plan_eq_ok]
  constructor
  · rintro ⟨chain, hreaches, rfl⟩
    obtain ⟨passed, id, htrail, hdistinct, hends⟩ := Chain.walk_eq_iff.1 hreaches
    obtain ⟨hnew, hnode, hroot⟩ := hends
    exact ⟨passed, id, _, htrail, List.nodup_cons.2 ⟨hnew, hdistinct⟩, hnode,
      (Node.isRoot_iff _).1 hroot, rfl⟩
  · rintro ⟨passed, id, root, htrail, hdistinct, hnode, hkind, rfl⟩
    obtain ⟨hnew, hrest⟩ := List.nodup_cons.1 hdistinct
    have hends : Chain.Ends g.edges g.nodes passed id (.ok (root :: passed.map Prod.snd)) :=
      .root hnew hnode ((Node.isRoot_iff root).2 hkind)
    exact ⟨_, Chain.walk_eq_iff.2 ⟨passed, id, htrail, hrest, hends⟩, rfl⟩

/-- A node is missing where a trail over distinct nodes comes to one that is not there, or to one
of its own. -/
theorem buildPlan_eq_missing_iff {id : NodeId} :
    (g.buildPlan terminal).result = .error (.missingNode id) ↔
      ∃ passed, g.Trail terminal passed id ∧ (Chain.ids passed).Nodup ∧
        (g.node? id = none ∨ id ∈ Chain.ids passed) := by
  rw [buildPlan_result, plan_eq_error, Chain.walk_eq_iff]
  constructor
  · rintro ⟨passed, id', htrail, hdistinct, hends⟩
    cases hends with
    | missing hgone => exact ⟨passed, htrail, hdistinct, hgone⟩
  · rintro ⟨passed, htrail, hdistinct, hgone⟩
    exact ⟨passed, id, htrail, hdistinct, .missing hgone⟩

/-- There is no way back where a trail over distinct nodes comes to one that is no root and has no
edge into it. -/
theorem buildPlan_eq_stuck_iff {id : NodeId} :
    (g.buildPlan terminal).result = .error (.noPredecessor id) ↔
      ∃ passed node, g.Trail terminal passed id ∧ (id :: Chain.ids passed).Nodup ∧
        g.node? id = some node ∧ ¬ (node.kind = .source ∨ node.kind = .coGroup) ∧
        ∀ edge ∈ g.edges, edge.2 ≠ id := by
  rw [buildPlan_result, plan_eq_error, Chain.walk_eq_iff]
  constructor
  · rintro ⟨passed, id', htrail, hdistinct, hends⟩
    cases hends with
    | stuck hnew hnode hroot hnone =>
      refine ⟨passed, _, htrail, List.nodup_cons.2 ⟨hnew, hdistinct⟩, hnode, ?_, hnone⟩
      rw [← Node.isRoot_iff, hroot]
      exact Bool.false_ne_true
  · rintro ⟨passed, node, htrail, hdistinct, hnode, hkind, hnone⟩
    obtain ⟨hnew, hrest⟩ := List.nodup_cons.1 hdistinct
    rw [← Node.isRoot_iff] at hkind
    exact ⟨passed, id, htrail, hrest, .stuck hnew hnode (Bool.eq_false_iff.2 hkind) hnone⟩

/-- Every plan is looked for along a trail that passes each node at most once. There is a plan
exactly if the trail comes over distinct nodes to a source or a co-group, and it is the trail
turned round and fused: it takes the same steps, and no two of its stages that are next to each
other are element-wise. A node is missed exactly where the trail first comes to a number that no
node has or that it has passed already, and a node lacks what is before it exactly where the trail
first comes to a node that is no root and has no edge into it. -/
theorem buildPlan_follows_trail (g : Graph β) (terminal : NodeId) :
    (∃ passed id outcome, g.Trail terminal passed id ∧ (Chain.ids passed).Nodup ∧
      passed.length ≤ g.nodeCount ∧ Chain.Ends g.edges g.nodes passed id outcome ∧
      (g.buildPlan terminal).result = outcome.map Chain.fuse) ∧
    (∀ plan, (g.buildPlan terminal).result = .ok plan ↔
      ∃ passed id root, g.Trail terminal passed id ∧ (id :: Chain.ids passed).Nodup ∧
        g.node? id = some root ∧ (root.kind = .source ∨ root.kind = .coGroup) ∧
        plan = Chain.fuse (root :: passed.map Prod.snd)) ∧
    (∀ chain : Chain β, Chain.steps (Chain.fuse chain) = Chain.steps chain ∧
      Chain.IsFused (Chain.fuse chain)) ∧
    (∀ id, (g.buildPlan terminal).result = .error (.missingNode id) ↔
      ∃ passed, g.Trail terminal passed id ∧ (Chain.ids passed).Nodup ∧
        (g.node? id = none ∨ id ∈ Chain.ids passed)) ∧
    ∀ id, (g.buildPlan terminal).result = .error (.noPredecessor id) ↔
      ∃ passed node, g.Trail terminal passed id ∧ (id :: Chain.ids passed).Nodup ∧
        g.node? id = some node ∧ ¬ (node.kind = .source ∨ node.kind = .coGroup) ∧
        ∀ edge ∈ g.edges, edge.2 ≠ id := by
  refine ⟨?_, fun _ => buildPlan_eq_ok_iff,
    fun chain => ⟨Chain.steps_fuse chain, Chain.isFused_fuse chain⟩,
    fun _ => buildPlan_eq_missing_iff, fun _ => buildPlan_eq_stuck_iff⟩
  obtain ⟨passed, id, outcome, htrail, hdistinct, hends⟩ :=
    Chain.Trail.exists_ends (.start : g.Trail terminal [] terminal) List.nodup_nil
  have hbound := htrail.length_remaining hdistinct
  have hpassed : passed.length ≤ g.nodeCount := by
    unfold nodeCount
    omega
  have hwalk := hends.walk_eq htrail hdistinct
  refine ⟨passed, id, outcome, htrail, hdistinct, hpassed, hends, ?_⟩
  rw [buildPlan_result, plan, hwalk]

end Graph

end JoinPipeline
