import JoinPipeline.Graph

/-!
# Editing a graph

Changes of a graph that no builder makes, after which a plan may fail or have another shape. An
edit that does not fit the node it is meant for changes nothing.
-/

namespace JoinPipeline.Graph

variable {β : Type} [Basis β]

/-- Changes one node, if it is there and the change applies to it. -/
def edit? (g : Graph β) (id : NodeId) (change : Node β → Option (Node β)) : Option (Graph β) := do
  let node ← g.node? id
  return g.replace id (← change node)

/-- Removes a node that is there. -/
def remove? (g : Graph β) (id : NodeId) : Option (Graph β) :=
  (g.node? id).map fun _ => g.remove id

/-- Gives a source another payload; the type of its elements stays. -/
def setPayload? (g : Graph β) (id : NodeId) (payload : Partition β) : Option (Graph β) :=
  g.edit? id fun
    | .source element _ => some (.source element payload)
    | _ => none

/-- Makes a group-by-key step hand its partitions on as they are. -/
def keepRows? (g : Graph β) (id : NodeId) : Option (Graph β) :=
  g.edit? id fun
    | .groupByKey step => some (.groupByKey { step with tabulate := fun p => .ok (.rows p) })
    | _ => none

/-- Drops the last input of a co-group. -/
def dropInput? (g : Graph β) (id : NodeId) : Option (Graph β) :=
  g.edit? id fun
    | .coGroup step inputs =>
      if inputs.isEmpty then none else some (.coGroup step inputs.dropLast)
    | _ => none

/-- Makes an input of a co-group the chain of the given nodes. -/
def setInput? (g : Graph β) (id : NodeId) (place : Nat) (chain : List NodeId) :
    Option (Graph β) := do
  let nodes ← chain.mapM g.node?
  g.edit? id fun
    | .coGroup step inputs =>
      if place < inputs.length then some (.coGroup step (inputs.set place nodes)) else none
    | _ => none

/-- What a graph looks like from afar. -/
def summary (g : Graph β) : String :=
  "Pipeline Graph:\n  Nodes: " ++ toString g.nodeCount ++ "\n  Edges: " ++
    toString g.edgeCount ++ "\n"

end JoinPipeline.Graph
