import JoinPipeline.Options
import JoinPipeline.Run

/-!
# Pipelines and handles

A workspace holds pipelines, each with its graph and its options. A pipeline is referred to by its
place, and whoever has the place shares the graph. A collection is a handle on a node: it names
the pipeline and the node, carries the type of its elements, and is marked if its rows come out of
a co-group with nothing but element-wise operations behind it.
-/

namespace JoinPipeline

variable {β : Type} [Basis β]

structure Pipeline (β : Type) [Basis β] where
  graph : Graph β := {}
  options : Options := {}

structure PipelineId where
  place : Nat
  deriving DecidableEq, Repr

structure Workspace (β : Type) [Basis β] where
  pipelines : List (Pipeline β) := []

structure Collection (β : Type) [Basis β] (t : ElementType β) where
  pipeline : PipelineId
  node : NodeId
  isChained : Bool := false
  deriving DecidableEq, Repr

namespace Workspace

/-- A pipeline; one that was never made is empty. -/
def pipeline (w : Workspace β) (p : PipelineId) : Pipeline β := w.pipelines.getD p.place {}

def graph (w : Workspace β) (p : PipelineId) : Graph β := (w.pipeline p).graph

def options (w : Workspace β) (p : PipelineId) : Options := (w.pipeline p).options

/-- Adds an empty pipeline. -/
def addPipeline (options : Options) : StateM (Workspace β) PipelineId := fun w =>
  (⟨w.pipelines.length⟩, { w with pipelines := w.pipelines ++ [{ options := options }] })

def setGraph (w : Workspace β) (p : PipelineId) (g : Graph β) : Workspace β :=
  { w with pipelines := w.pipelines.modify p.place fun pipeline => { pipeline with graph := g } }

/-- Adds a node to the graph of a pipeline; this is one step, and `connect` is another. -/
def insertNode (p : PipelineId) (node : Node β) : StateM (Workspace β) NodeId := fun w =>
  let (id, g) := (w.graph p).insert node
  (id, w.setGraph p g)

def connect (p : PipelineId) (start finish : NodeId) : StateM (Workspace β) Unit := fun w =>
  ((), w.setGraph p ((w.graph p).connect start finish))

end Workspace

namespace Collection

variable {s t : ElementType β}

/-- A node behind that of a collection. -/
def andThen (c : Collection β s) (node : Node β) (isChained : Bool) :
    StateM (Workspace β) (Collection β t) := do
  let id ← Workspace.insertNode c.pipeline node
  Workspace.connect c.pipeline c.node id
  return ⟨c.pipeline, id, isChained⟩

/-- The rows of a collection. -/
def collect (c : Collection β t) (settings : RunSettings β) (w : Workspace β) :
    Log.Traced (RunError β) (List t.Carrier) :=
  (w.graph c.pipeline).collect settings c.node t

/-- The rows of a collection in ascending order. -/
def collectSorted (c : Collection β t) (settings : RunSettings β) (w : Workspace β) :
    Log.Traced (RunError β) (List t.Carrier) :=
  t.sort <$> c.collect settings w

end Collection

end JoinPipeline
