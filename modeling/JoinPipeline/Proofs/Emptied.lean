import JoinPipeline.Proofs.Fusion
import JoinPipeline.Proofs.Walk

/-!
# Graphs without rows

The rows of all sources can be taken out of a graph, at every depth of the inputs that its co-groups
own, while the types of the rows stay. Plans do not look at rows: they are found in the same places,
and fail in the same way.
-/

namespace JoinPipeline

variable {β : Type} [Basis β]

mutual

/-- A node without any rows, those of the inputs of a co-group included; their types stay. -/
def Node.emptied : Node β → Node β
  | .source element payload => .source element ⟨payload.element, []⟩
  | .stateless ops => .stateless ops
  | .groupByKey step => .groupByKey step
  | .coGroup step inputs => .coGroup step (emptiedInputs inputs)

def emptiedChain : List (Node β) → List (Node β)
  | [] => []
  | node :: rest => node.emptied :: emptiedChain rest

def emptiedInputs : List (List (Node β)) → List (List (Node β))
  | [] => []
  | input :: rest => emptiedChain input :: emptiedInputs rest

end

/-- A chain without any rows. -/
def Chain.emptied (chain : Chain β) : Chain β := chain.map Node.emptied

theorem emptiedChain_eq (chain : Chain β) : emptiedChain chain = chain.emptied := by
  induction chain with
  | nil => rfl
  | cons node rest ih => rw [emptiedChain, ih, Chain.emptied, Chain.emptied, List.map_cons]

theorem emptiedInputs_eq (inputs : List (Chain β)) :
    emptiedInputs inputs = inputs.map Chain.emptied := by
  induction inputs with
  | nil => rfl
  | cons input rest ih => rw [emptiedInputs, ih, emptiedChain_eq, List.map_cons]

theorem Node.isRoot_emptied (node : Node β) : node.emptied.isRoot = node.isRoot := by
  cases node with
  | source => rfl
  | stateless => rfl
  | groupByKey => rfl
  | coGroup => rfl

theorem Chain.fuseNode_emptied (node : Node β) (chain : Chain β) :
    fuseNode node.emptied chain.emptied = (fuseNode node chain).emptied := by
  cases node with
  | source => rfl
  | groupByKey => rfl
  | coGroup => rfl
  | stateless first =>
    cases chain with
    | nil => rfl
    | cons second rest =>
      cases second with
      | source => rfl
      | stateless => rfl
      | groupByKey => rfl
      | coGroup => rfl

theorem Chain.fuse_emptied (chain : Chain β) : fuse chain.emptied = (fuse chain).emptied := by
  induction chain with
  | nil => rfl
  | cons node chain ih =>
    rw [fuse_cons, ← fuseNode_emptied, ← ih]
    rfl

/-- The same graph without any rows. -/
def Graph.emptied (g : Graph β) : Graph β :=
  { g with
    nodes := g.nodes.map fun entry => (entry.1, entry.2.emptied)
    ascending := List.pairwise_map.2 g.ascending
    below := by
      intro entry hentry
      obtain ⟨old, hold, rfl⟩ := List.mem_map.1 hentry
      exact g.below old hold }

theorem Chain.lookup_emptied (id : NodeId) (nodes : List (NodeId × Node β)) :
    (nodes.map fun entry => (entry.1, entry.2.emptied)).lookup id =
      (nodes.lookup id).map Node.emptied := by
  induction nodes with
  | nil => rfl
  | cons entry rest ih =>
    rw [List.map_cons, List.lookup_cons, List.lookup_cons, ih]
    cases id == entry.1 with
    | true => rfl
    | false => rfl

theorem Chain.lookup_emptied_of_some {id : NodeId} {node : Node β} {nodes : List (NodeId × Node β)}
    (h : nodes.lookup id = some node) :
    (nodes.map fun entry => (entry.1, entry.2.emptied)).lookup id = some node.emptied := by
  rw [lookup_emptied, h]
  rfl

theorem Chain.walk_emptied (edges : List (NodeId × NodeId)) (nodes : List (NodeId × Node β))
    (id : NodeId) :
    walk edges (nodes.map fun entry => (entry.1, entry.2.emptied)) id =
      (walk edges nodes id).map Chain.emptied := by
  fun_induction walk edges nodes id with
  | case1 nodes id hmissing =>
    refine walk_missing ?_
    rw [lookup_emptied, hmissing]
    rfl
  | case2 nodes id node hnode hroot =>
    exact walk_root (lookup_emptied_of_some hnode) ((Node.isRoot_emptied node).trans hroot)
  | case3 nodes id node hnode hroot hnone =>
    have hinner := (Node.isRoot_emptied node).trans (Bool.eq_false_iff.2 hroot)
    exact walk_stuck (lookup_emptied_of_some hnode) hinner hnone
  | case4 nodes id node hnode hroot before hbefore ih =>
    have hinner := (Node.isRoot_emptied node).trans (Bool.eq_false_iff.2 hroot)
    have hwithout : Graph.without id (nodes.map fun entry => (entry.1, entry.2.emptied)) =
        (Graph.without id nodes).map fun entry => (entry.1, entry.2.emptied) :=
      List.filter_map
    rw [walk_behind (lookup_emptied_of_some hnode) hinner hbefore, hwithout, ih]
    cases walk edges (Graph.without id nodes) before with
    | error cause => rfl
    | ok first =>
      show Except.ok _ = Except.ok _
      rw [Chain.emptied, Chain.emptied, List.map_append]
      rfl

theorem Graph.plan_emptied (g : Graph β) (terminal : NodeId) :
    g.emptied.plan terminal = (g.plan terminal).map Chain.emptied := by
  unfold Graph.plan
  show (Chain.walk g.edges (g.nodes.map _) terminal).map _ = _
  rw [Chain.walk_emptied]
  cases Chain.walk g.edges g.nodes terminal with
  | error cause => rfl
  | ok chain => exact congrArg Except.ok (Chain.fuse_emptied chain)

end JoinPipeline
