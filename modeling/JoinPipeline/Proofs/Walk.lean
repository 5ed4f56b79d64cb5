import JoinPipeline.Proofs.Success

/-!
# Walks in growing graphs

A walk that has found a chain finds the same chain when nodes and edges are added behind those of
the graph: it takes the first edge into a node, and the nodes it has passed are still there. A
node that has just been added is reached from the one it was connected to, because no older edge
leads to it.
-/

namespace JoinPipeline

variable {β : Type} [Basis β]

namespace Chain

variable {edges edges' : List (NodeId × NodeId)} {nodes nodes' : List (NodeId × Node β)}
  {id other before : NodeId} {node : Node β}

theorem walk_missing (h : nodes.lookup id = none) :
    walk edges nodes id = .error (.missingNode id) := by
  rw [walk]
  split
  next => rfl
  next found hfound => rw [h] at hfound; cases hfound

theorem walk_root (h : nodes.lookup id = some node) (hroot : node.isRoot = true) :
    walk edges nodes id = .ok [node] := by
  unfold walk
  split
  next hnone => rw [h] at hnone; cases hnone
  next found hfound =>
    rw [h] at hfound
    cases hfound
    rw [if_pos hroot]

theorem walk_stuck (h : nodes.lookup id = some node) (hroot : node.isRoot = false)
    (hnone : predecessor? edges id = none) :
    walk edges nodes id = .error (.noPredecessor id) := by
  rw [walk]
  split
  next hnone => rw [h] at hnone; cases hnone
  next found hfound =>
    rw [h] at hfound
    cases hfound
    rw [if_neg (Bool.eq_false_iff.1 hroot), hnone]

theorem walk_behind (h : nodes.lookup id = some node) (hroot : node.isRoot = false)
    (hbefore : predecessor? edges id = some before) :
    walk edges nodes id = (walk edges (Graph.without id nodes) before).map (· ++ [node]) := by
  rw [walk]
  split
  next hnone => rw [h] at hnone; cases hnone
  next found hfound =>
    rw [h] at hfound
    cases hfound
    rw [if_neg (Bool.eq_false_iff.1 hroot), hbefore]

theorem mem_of_lookup (h : nodes.lookup id = some node) : (id, node) ∈ nodes := by
  obtain ⟨before, after, hnodes, _⟩ := List.lookup_eq_some_iff.1 h
  rw [hnodes]
  exact List.mem_append_right before List.mem_cons_self

/-- A chain consists of nodes of the graph. -/
theorem exists_mem_of_walk {chain : Chain β} (h : walk edges nodes id = .ok chain)
    (hnode : node ∈ chain) : ∃ id', (id', node) ∈ nodes := by
  fun_induction walk edges nodes id generalizing chain with
  | case1 nodes id hmissing => cases h
  | case2 nodes id found hfound hroot =>
    cases h
    rw [List.mem_singleton.1 hnode]
    exact ⟨id, mem_of_lookup hfound⟩
  | case3 nodes id found hfound hroot hnone => cases h
  | case4 nodes id found hfound hroot before hbefore ih =>
    obtain ⟨first, hwalk, rfl⟩ := map_eq_ok.1 h
    rcases List.mem_append.1 hnode with hfirst | hlast
    · obtain ⟨id', hmem⟩ := ih hwalk hfirst
      exact ⟨id', (List.mem_filter.1 hmem).1⟩
    · rw [List.mem_singleton.1 hlast]
      exact ⟨id, mem_of_lookup hfound⟩

theorem lookup_without (id other : NodeId) (nodes : List (NodeId × Node β)) :
    (Graph.without id nodes).lookup other = if other = id then none else nodes.lookup other := by
  induction nodes with
  | nil => simp [Graph.without]
  | cons entry rest ih =>
    unfold Graph.without at ih ⊢
    by_cases hid : entry.1 = id
    · have hdrop : (entry.1 != id) = false := by simpa using hid
      rw [List.filter_cons, hdrop, if_neg Bool.false_ne_true, ih]
      split
      · rfl
      next hother =>
        have hne : (other == entry.1) = false := by
          rw [hid]
          simpa using hother
        rw [List.lookup_cons, hne]
    · have hkeep : (entry.1 != id) = true := by simpa using hid
      rw [List.filter_cons, if_pos hkeep, List.lookup_cons, List.lookup_cons, ih]
      cases hother : other == entry.1 with
      | false => rfl
      | true =>
        have hne : ¬ other = id := by
          rw [eq_of_beq hother]
          exact hid
        simp only [if_neg hne]

theorem lookup_of_without (h : (Graph.without id nodes).lookup other = some node) :
    nodes.lookup other = some node := by
  rw [lookup_without] at h
  split at h
  · cases h
  · exact h

/-- A chain that was found is still found where there are more nodes and later edges. -/
theorem walk_mono {chain : Chain β} (h : walk edges nodes id = .ok chain)
    (hedges : ∀ other before, predecessor? edges other = some before →
      predecessor? edges' other = some before)
    (hnodes : ∀ other node, nodes.lookup other = some node → nodes'.lookup other = some node) :
    walk edges' nodes' id = .ok chain := by
  -- the nodes that have been passed are taken out of both graphs
  fun_induction walk edges nodes id generalizing chain nodes' with
  | case1 nodes id hmissing => cases h
  | case2 nodes id node hnode hroot =>
    rw [walk_root (hnodes id node hnode) hroot]
    exact h
  | case3 nodes id node hnode hroot hnone => cases h
  | case4 nodes id node hnode hroot before hbefore ih =>
    obtain ⟨first, hfirst, rfl⟩ := map_eq_ok.1 h
    have hrest : walk edges' (Graph.without id nodes') before = .ok first := by
      refine ih hfirst fun other node' hnode' => ?_
      rw [lookup_without] at hnode' ⊢
      split at hnode'
      · cases hnode'
      next hne =>
        rw [if_neg hne]
        exact hnodes other node' hnode'
    rw [walk_behind (hnodes id node hnode) (Bool.eq_false_iff.2 hroot) (hedges id before hbefore),
      hrest]
    rfl

theorem predecessor?_append (h : predecessor? edges id = some before)
    (more : List (NodeId × NodeId)) : predecessor? (edges ++ more) id = some before := by
  obtain ⟨edge, hedge, hstart⟩ := Option.map_eq_some_iff.1 h
  refine Option.map_eq_some_iff.2 ⟨edge, ?_, hstart⟩
  rw [List.find?_append, hedge]
  rfl

theorem lookup_append (h : nodes.lookup id = some node) (more : List (NodeId × Node β)) :
    (nodes ++ more).lookup id = some node := by
  rw [List.lookup_append, h]
  rfl

theorem walk_append {chain : Chain β} (h : walk edges nodes id = .ok chain)
    (moreEdges : List (NodeId × NodeId)) (moreNodes : List (NodeId × Node β)) :
    walk (edges ++ moreEdges) (nodes ++ moreNodes) id = .ok chain :=
  walk_mono h (fun _ _ hbefore => predecessor?_append hbefore moreEdges)
    fun _ _ hnode => lookup_append hnode moreNodes

end Chain

namespace Graph

/-- No edge leads to a number that has not been given yet. -/
def IsTidy (g : Graph β) : Prop := ∀ edge ∈ g.edges, edge.2.raw < g.nextId

/-- Nodes and edges have been added behind those of another graph. -/
def Extends (g' g : Graph β) : Prop :=
  (∃ nodes, g'.nodes = g.nodes ++ nodes) ∧ ∃ edges, g'.edges = g.edges ++ edges

theorem Extends.refl (g : Graph β) : g.Extends g :=
  ⟨⟨[], (List.append_nil _).symm⟩, [], (List.append_nil _).symm⟩

theorem Extends.trans {g g' g'' : Graph β} (h : g''.Extends g') (h' : g'.Extends g) :
    g''.Extends g := by
  obtain ⟨⟨nodes, hnodes⟩, edges, hedges⟩ := h
  obtain ⟨⟨nodes', hnodes'⟩, edges', hedges'⟩ := h'
  refine ⟨⟨nodes' ++ nodes, ?_⟩, edges' ++ edges, ?_⟩
  · rw [hnodes, hnodes', List.append_assoc]
  · rw [hedges, hedges', List.append_assoc]

/-- The walk back from a node finds this chain. -/
def Reaches (g : Graph β) (id : NodeId) (chain : Chain β) : Prop :=
  Chain.walk g.edges g.nodes id = .ok chain

theorem Reaches.extend {g g' : Graph β} {id : NodeId} {chain : Chain β} (h : g.Reaches id chain)
    (hext : g'.Extends g) : g'.Reaches id chain := by
  obtain ⟨⟨nodes, hnodes⟩, edges, hedges⟩ := hext
  unfold Reaches
  rw [hnodes, hedges]
  exact Chain.walk_append h edges nodes

theorem Reaches.plan {g : Graph β} {id : NodeId} {chain : Chain β} (h : g.Reaches id chain) :
    g.plan id = .ok (Chain.fuse chain) := by
  rw [Graph.plan, h]
  rfl

/-- A plan is a chain that leads to its terminal, fused. -/
theorem plan_eq_ok {g : Graph β} {id : NodeId} {plan : Chain β} :
    g.plan id = .ok plan ↔ ∃ chain, g.Reaches id chain ∧ Chain.fuse chain = plan :=
  map_eq_ok

/-- The node to which a chain leads is in the graph, at the end of the chain. -/
theorem Reaches.node? {g : Graph β} {id : NodeId} {chain : Chain β} (h : g.Reaches id chain) :
    ∃ before node, chain = before ++ [node] ∧ g.node? id = some node := by
  unfold Reaches at h
  rw [Chain.walk] at h
  split at h
  · cases h
  next node hnode =>
    split at h
    · cases h
      exact ⟨[], node, rfl, hnode⟩
    next hroot =>
      split at h
      · cases h
      next before hbefore =>
        obtain ⟨first, _, rfl⟩ := map_eq_ok.1 h
        exact ⟨first, node, rfl, hnode⟩

theorem Reaches.lt_nextId {g : Graph β} {id : NodeId} {chain : Chain β}
    (h : g.Reaches id chain) : id.raw < g.nextId := by
  obtain ⟨_, _, _, hnode⟩ := h.node?
  exact g.below _ (Chain.mem_of_lookup hnode)

theorem isTidy_of_edges_eq_nil {g : Graph β} (h : g.edges = []) : g.IsTidy := by
  intro edge hedge
  rw [h] at hedge
  cases hedge

section Insert

variable (g : Graph β) (node : Node β)

theorem insert_extends : (g.insert node).2.Extends g :=
  ⟨⟨[(⟨g.nextId⟩, node)], rfl⟩, [], (List.append_nil _).symm⟩

theorem connect_extends (start finish : NodeId) : (g.connect start finish).Extends g :=
  ⟨⟨[], (List.append_nil _).symm⟩, [(start, finish)], rfl⟩

theorem lookup_nextId : g.nodes.lookup ⟨g.nextId⟩ = none := by
  rw [List.lookup_eq_none_iff]
  intro entry hentry
  have hlt := g.below entry hentry
  have hne : (⟨g.nextId⟩ : NodeId) ≠ entry.1 := by
    intro heq
    rw [← heq] at hlt
    exact Nat.lt_irrefl _ hlt
  exact bne_iff_ne.2 hne

theorem lookup_insert : (g.insert node).2.nodes.lookup ⟨g.nextId⟩ = some node := by
  show List.lookup ⟨g.nextId⟩ (g.nodes ++ [(⟨g.nextId⟩, node)]) = _
  rw [List.lookup_append, lookup_nextId, List.lookup_cons_self]
  rfl

theorem without_insert : without ⟨g.nextId⟩ (g.insert node).2.nodes = g.nodes := by
  show without ⟨g.nextId⟩ (g.nodes ++ [(⟨g.nextId⟩, node)]) = _
  unfold without
  rw [List.filter_append]
  have hold : g.nodes.filter (fun entry => entry.1 != ⟨g.nextId⟩) = g.nodes := by
    refine List.filter_eq_self.2 fun entry hentry => ?_
    have hlt := g.below entry hentry
    refine bne_iff_ne.2 fun heq => ?_
    rw [heq] at hlt
    exact Nat.lt_irrefl _ hlt
  rw [hold]
  simp

variable {g node}

theorem IsTidy.insert (h : g.IsTidy) : (g.insert node).2.IsTidy := by
  intro edge hedge
  exact Nat.lt_succ_of_lt (h edge hedge)

theorem IsTidy.connect_insert (h : g.IsTidy) (start : NodeId) :
    ((g.insert node).2.connect start ⟨g.nextId⟩).IsTidy := by
  intro edge hedge
  rcases List.mem_append.1 hedge with hold | hnew
  · exact h.insert edge hold
  · rw [List.mem_singleton.1 hnew]
    exact Nat.lt_succ_self _

/-- A root that has been added is a chain of its own. -/
theorem reaches_insert (hroot : node.isRoot = true) :
    (g.insert node).2.Reaches ⟨g.nextId⟩ [node] :=
  Chain.walk_root (lookup_insert g node) hroot

/-- A node that has been added behind another one lies at the end of its chain. -/
theorem Reaches.connect_insert {start : NodeId} {chain : Chain β} (h : g.Reaches start chain)
    (htidy : g.IsTidy) (hroot : node.isRoot = false) :
    ((g.insert node).2.connect start ⟨g.nextId⟩).Reaches ⟨g.nextId⟩ (chain ++ [node]) := by
  have hnone : g.edges.find? (fun edge => edge.2 = ⟨g.nextId⟩) = none := by
    refine List.find?_eq_none.2 fun edge hedge heq => ?_
    have hlt := htidy edge hedge
    rw [of_decide_eq_true heq] at hlt
    exact Nat.lt_irrefl _ hlt
  have hbefore : Chain.predecessor? (g.edges ++ [(start, ⟨g.nextId⟩)]) ⟨g.nextId⟩ = some start := by
    unfold Chain.predecessor?
    rw [List.find?_append, hnone]
    simp
  have hwalk : Chain.walk (g.edges ++ [(start, ⟨g.nextId⟩)]) g.nodes start = .ok chain := by
    have happend := Chain.walk_append h [(start, ⟨g.nextId⟩)] []
    rwa [List.append_nil] at happend
  show Chain.walk (g.edges ++ [(start, ⟨g.nextId⟩)]) (g.insert node).2.nodes _ = _
  rw [Chain.walk_behind (lookup_insert g node) hroot hbefore, without_insert, hwalk]
  rfl

end Insert

end Graph

end JoinPipeline
