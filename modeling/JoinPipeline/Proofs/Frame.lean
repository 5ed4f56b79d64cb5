import JoinPipeline.Run
import JoinPipeline.Proofs.Walk

/-!
# What a walk depends on

The walk back from a node looks up the nodes that it passes, and of the edges it looks at the first
one into each of these nodes that is no root. A walk that has found a chain finds the same chain in
every graph that agrees with its own one there, whatever else has become of the graph; so a run
from its terminal is the same run, events included.
-/

namespace JoinPipeline

variable {β : Type} [Basis β]

namespace Chain

variable {edges edges' : List (NodeId × NodeId)} {nodes nodes' : List (NodeId × Node β)}
  {id other before : NodeId} {node : Node β}

/-- An edge into another node does not come into question. -/
theorem predecessor?_concat_of_ne {start finish : NodeId} (h : finish ≠ id)
    (edges : List (NodeId × NodeId)) :
    predecessor? (edges ++ [(start, finish)]) id = predecessor? edges id := by
  unfold predecessor?
  rw [List.find?_append]
  simp [h]

/-- The walk back from a node comes by another one. It goes from a node that is no root to the
start of the first edge into it. -/
inductive Passes (edges : List (NodeId × NodeId)) (nodes : List (NodeId × Node β)) :
    NodeId → NodeId → Prop
  | here (id : NodeId) : Passes edges nodes id id
  | back {id before other : NodeId} {node : Node β} (hnode : nodes.lookup id = some node)
    (hroot : node.isRoot = false) (hbefore : predecessor? edges id = some before)
    (hrest : Passes edges nodes before other) : Passes edges nodes id other

theorem Passes.of_without (h : Passes edges (Graph.without id nodes) before other) :
    Passes edges nodes before other := by
  induction h with
  | here => exact .here _
  | back hnode hroot hbefore _ ih => exact .back (lookup_of_without hnode) hroot hbefore ih

/-- A walk ends at a root. -/
theorem Passes.eq_of_root (h : Passes edges nodes id other) (hnode : nodes.lookup id = some node)
    (hroot : node.isRoot = true) : other = id := by
  cases h with
  | here => rfl
  | back hnode' hroot' =>
    rw [hnode] at hnode'
    cases hnode'
    rw [hroot] at hroot'
    cases hroot'

/-- Of two nodes on a walk, one lies behind the other. -/
theorem Passes.total {other' : NodeId} (h : Passes edges nodes id other)
    (h' : Passes edges nodes id other') :
    Passes edges nodes other other' ∨ Passes edges nodes other' other := by
  induction h with
  | here => exact .inl h'
  | back hnode hroot hbefore hrest ih =>
    cases h' with
    | here => exact .inr (.back hnode hroot hbefore hrest)
    | back _ _ hbefore' hrest' =>
      rw [hbefore] at hbefore'
      cases hbefore'
      exact ih hrest'

/-- A walk that has found a chain finds it wherever the nodes it passes and the first edges into
them are the same. -/
theorem walk_congr {chain : Chain β} (h : walk edges nodes id = .ok chain)
    (hnodes : ∀ other, Passes edges nodes id other → nodes'.lookup other = nodes.lookup other)
    (hedges : ∀ other node, Passes edges nodes id other → nodes.lookup other = some node →
      node.isRoot = false → predecessor? edges' other = predecessor? edges other) :
    walk edges' nodes' id = .ok chain := by
  -- the nodes that have been passed are taken out of both graphs
  fun_induction walk edges nodes id generalizing chain nodes' with
  | case1 nodes id hmissing => cases h
  | case2 nodes id node hnode hroot =>
    rw [walk_root ((hnodes id (.here id)).trans hnode) hroot]
    exact h
  | case3 nodes id node hnode hroot hnone => cases h
  | case4 nodes id node hnode hroot before hbefore ih =>
    have hinner : node.isRoot = false := Bool.eq_false_iff.2 hroot
    have hpasses : ∀ other, Passes edges (Graph.without id nodes) before other →
        Passes edges nodes id other := fun other hother =>
      .back hnode hinner hbefore hother.of_without
    obtain ⟨first, hfirst, rfl⟩ := map_eq_ok.1 h
    have hrest : walk edges' (Graph.without id nodes') before = .ok first := by
      refine ih hfirst ?_ ?_
      · intro other hother
        rw [lookup_without, lookup_without, hnodes other (hpasses other hother)]
      · intro other node' hother hnode' hroot'
        exact hedges other node' (hpasses other hother) (lookup_of_without hnode') hroot'
    rw [walk_behind ((hnodes id (.here id)).trans hnode) hinner
      ((hedges id node (.here id) hnode hinner).trans hbefore), hrest]
    rfl

/-- A walk that has found a chain finds one from every node that it passes. -/
theorem Passes.walk {chain : Chain β} (h : Passes edges nodes id other)
    (hwalk : walk edges nodes id = .ok chain) :
    ∃ chain', Chain.walk edges nodes other = .ok chain' := by
  induction h generalizing chain with
  | here => exact ⟨chain, hwalk⟩
  | back hnode hroot hbefore _ ih =>
    rw [walk_behind hnode hroot hbefore] at hwalk
    obtain ⟨first, hfirst, _⟩ := map_eq_ok.1 hwalk
    exact ih (walk_mono hfirst (fun _ _ h => h) fun _ _ => lookup_of_without)

/-- A walk that has found a chain has passed no node from which there is no way back. -/
theorem not_passes_of_walk {chain : Chain β} (h : walk edges nodes id = .ok chain)
    (hnode : nodes.lookup other = some node) (hroot : node.isRoot = false)
    (hnone : predecessor? edges other = none) : ¬ Passes edges nodes id other := by
  intro hpasses
  obtain ⟨chain', hwalk⟩ := hpasses.walk h
  rw [walk_stuck hnode hroot hnone] at hwalk
  cases hwalk

end Chain

namespace Graph

variable {g g' : Graph β} {terminal id : NodeId}

/-- The walk back from a node comes by another one. -/
def Passes (g : Graph β) (terminal id : NodeId) : Prop :=
  Chain.Passes g.edges g.nodes terminal id

theorem Passes.ne {other : NodeId} (hother : g.Passes terminal other)
    (h : ¬ g.Passes terminal id) : other ≠ id := by
  rintro rfl
  exact h hother

/-- Two graphs are the same on the walk back from a node: in the nodes that it passes, and in the
first edge into each of them that is no root. -/
structure AgreesFrom (g' g : Graph β) (terminal : NodeId) : Prop where
  nodes : ∀ id, g.Passes terminal id → g'.node? id = g.node? id
  edges : ∀ id node, g.Passes terminal id → g.node? id = some node → node.isRoot = false →
    Chain.predecessor? g'.edges id = Chain.predecessor? g.edges id

theorem Reaches.agree {chain : Chain β} (h : g.Reaches terminal chain)
    (hagrees : g'.AgreesFrom g terminal) : g'.Reaches terminal chain :=
  Chain.walk_congr h hagrees.nodes hagrees.edges

/-- A node into which no edge leads is reached as soon as it is connected. -/
theorem Reaches.connect {start : NodeId} {chain : Chain β} {node : Node β}
    (h : g.Reaches start chain) (hnode : g.node? id = some node) (hroot : node.isRoot = false)
    (hnone : Chain.predecessor? g.edges id = none) :
    (g.connect start id).Reaches id (chain ++ [node]) := by
  have hloose : ¬ g.Passes start id := Chain.not_passes_of_walk h hnode hroot hnone
  have hne : ∀ other, g.Passes start other → other ≠ id := fun _ hother => hother.ne hloose
  have hbefore : Chain.predecessor? (g.edges ++ [(start, id)]) id = some start := by
    unfold Chain.predecessor? at hnone ⊢
    rw [Option.map_eq_none_iff] at hnone
    rw [List.find?_append, hnone]
    simp
  have hrest : Chain.walk (g.edges ++ [(start, id)]) (without id g.nodes) start = .ok chain := by
    refine Chain.walk_congr h ?_ ?_
    · intro other hother
      rw [Chain.lookup_without, if_neg (hne other hother)]
    · intro other _ hother _ _
      exact Chain.predecessor?_concat_of_ne (hne other hother).symm g.edges
  show Chain.walk (g.edges ++ [(start, id)]) g.nodes id = .ok (chain ++ [node])
  rw [Chain.walk_behind hnode hroot hbefore, hrest]
  rfl

/-- Runs that start with the same walk are the same. -/
theorem Reaches.collect_eq {chain : Chain β} (h : g.Reaches terminal chain)
    (h' : g'.Reaches terminal chain) (settings : RunSettings β) (t : ElementType β) :
    g'.collect settings terminal t = g.collect settings terminal t := by
  unfold Reaches at h h'
  unfold Graph.collect buildPlan
  rw [h, h']

end Graph

end JoinPipeline
