import JoinPipeline.Graph
import JoinPipeline.Log.Traced

/-!
# Plans

A plan is the chain of nodes from a root to a terminal. It is found by walking back: from a node
that is no root to the start of the first edge into it. A node that has been walked over is no
longer there for the rest of the walk, so that a cycle ends as a missing node. Neighbouring runs
of element-wise operations are then fused into one stage.
-/

namespace JoinPipeline

variable {β : Type} [Basis β]

/-- A chain of nodes, root first. -/
abbrev Chain (β : Type) [Basis β] := List (Node β)

namespace Chain

/-- The start of the first edge into a node. -/
def predecessor? (edges : List (NodeId × NodeId)) (id : NodeId) : Option NodeId :=
  (edges.find? fun edge => edge.2 = id).map Prod.fst

/-- The chain that ends at `id`, walked over the nodes that are still there. -/
def walk (edges : List (NodeId × NodeId)) (nodes : List (NodeId × Node β)) (id : NodeId) :
    Except WalkError (Chain β) :=
  match _h : nodes.lookup id with
  | none => .error (.missingNode id)
  | some node =>
    if node.isRoot then .ok [node]
    else match predecessor? edges id with
      | none => .error (.noPredecessor id)
      | some before => (walk edges (Graph.without id nodes) before).map (· ++ [node])
termination_by nodes.length
decreasing_by exact Graph.length_without_lt _h

/-- Puts a node in front of a fused chain. -/
def fuseNode (node : Node β) (chain : Chain β) : Chain β :=
  match node, chain with
  | .stateless first, .stateless second :: rest => .stateless (first ++ second) :: rest
  | node, chain => node :: chain

/-- Joins neighbouring runs of element-wise operations. -/
def fuse (chain : Chain β) : Chain β := chain.foldr fuseNode []

/-- The number of element-wise operations. -/
def statelessOps (chain : Chain β) : Nat :=
  (chain.flatMap fun
    | .stateless ops => ops
    | _ => []).length

end Chain

/-- The fused chain that ends at a node of a graph. -/
def Graph.plan (g : Graph β) (terminal : NodeId) : Except WalkError (Chain β) :=
  (Chain.walk g.edges g.nodes terminal).map Chain.fuse

/-- Finds a plan and reports its size before and after fusion. -/
def Graph.buildPlan (g : Graph β) (terminal : NodeId) : Log.Traced WalkError (Chain β) := do
  let chain ← .ofExcept (Chain.walk g.edges g.nodes terminal)
  let stages := Chain.fuse chain
  .report (.builtPlan terminal.raw chain.length stages.length)
  return stages

theorem Graph.buildPlan_result (g : Graph β) (terminal : NodeId) :
    (g.buildPlan terminal).result = g.plan terminal := by
  simp only [buildPlan, plan, Log.Traced.result_bind, Log.Traced.result_ofExcept]
  cases Chain.walk g.edges g.nodes terminal <;> rfl

end JoinPipeline
