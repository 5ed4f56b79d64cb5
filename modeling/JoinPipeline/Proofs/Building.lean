import JoinPipeline.Proofs.Construction
import Mathlib.Logic.Relation

/-!
# Building at the same time

Several callers may build on one pipeline at the same time. Three things happen in one go: a node is
inserted, an edge is added, a plan is taken. A call of a builder is made of these steps, between
which there may be steps of any number of other calls: a source inserts its node, a transform
inserts its node and connects it, a join takes the plan of every input and inserts its node. A call
works on collections that other calls have given out.
-/

namespace JoinPipeline

variable {β : Type} [Basis β]

namespace Workspace

variable {w : Workspace β} {p : PipelineId}

/-- A pipeline that is there and has neither nodes nor edges. -/
structure IsFresh (w : Workspace β) (p : PipelineId) : Prop where
  known : p.place < w.pipelines.length
  nodes : (w.graph p).nodes = []
  edges : (w.graph p).edges = []

theorem graph_insertNode (h : p.place < w.pipelines.length) (node : Node β) :
    (insertNode p node w).2.graph p = ((w.graph p).insert node).2 :=
  graph_setGraph_self h

theorem graph_connect (h : p.place < w.pipelines.length) (start finish : NodeId) :
    (Workspace.connect p start finish w).2.graph p = (w.graph p).connect start finish :=
  graph_setGraph_self h

end Workspace

/-- What a call gives out for the node it has inserted. A node that is no root is connected to
another one. -/
structure Made (β : Type) [Basis β] extends Issued β where
  node : Node β
  upstream : Option NodeId
  isSome_upstream : upstream.isSome = !node.isRoot

namespace Made

def id (m : Made β) : NodeId := m.handle.node

def entry (m : Made β) : NodeId × Node β := (m.id, m.node)

def edge? (m : Made β) : Option (NodeId × NodeId) := m.upstream.map fun start => (start, m.id)

end Made

/-- How far a call has come that has given out nothing yet. -/
inductive Progress (β : Type) [Basis β] where
  /-- A transform has inserted its node. -/
  | connecting (made : Made β)
  /-- A join has taken the plans of its inputs but for the rest of them. -/
  | capturing {t : ElementType β} (lineage : Lineage β t) (step : CoGroupStep β)
    (taken : List (Chain β)) (rest : List (JoinInput β))

def Progress.made? : Progress β → Option (Made β)
  | connecting made => some made
  | capturing .. => none

/-- A workspace, what has been given out, and the calls that are under way. -/
structure Building (β : Type) [Basis β] where
  workspace : Workspace β := {}
  returned : List (Made β) := []
  pending : List (Progress β) := []

namespace Building

variable {s t : ElementType β}

/-- The nodes of transforms that are not connected yet. -/
def connecting (b : Building β) : List (Made β) := b.pending.filterMap Progress.made?

/-- What has been inserted, given out or not. -/
def inserted (b : Building β) : List (Made β) := b.returned ++ b.connecting

/-- One of the collections that have been given out, of a known type. -/
structure Given (b : Building β) (t : ElementType β) where
  made : Made β
  mem : made ∈ b.returned
  handle : Collection β t
  lineage : Lineage β t
  toIssued_eq : made.toIssued = ⟨t, handle, lineage⟩

/-- Inserts a root and gives it out. -/
def addRoot (b : Building β) (p : PipelineId) (lineage : Lineage β t) (isChained : Bool)
    (node : Node β) (hroot : node.isRoot = true) : Building β :=
  let (id, w) := Workspace.insertNode p node b.workspace
  let made : Made β := ⟨⟨t, ⟨p, id, isChained⟩, lineage⟩, node, none, by rw [hroot]; rfl⟩
  { b with workspace := w, returned := made :: b.returned }

/-- Inserts a node that is to be connected to a collection. -/
def addBehind (b : Building β) (c : Collection β s) (lineage : Lineage β t) (isChained : Bool)
    (node : Node β) (hroot : node.isRoot = false) : Building β :=
  let (id, w) := Workspace.insertNode c.pipeline node b.workspace
  let made : Made β :=
    ⟨⟨t, ⟨c.pipeline, id, isChained⟩, lineage⟩, node, some c.node, by rw [hroot]; rfl⟩
  { b with workspace := w, pending := .connecting made :: b.pending }

/-- Connects a node and gives it out. -/
def connect (b : Building β) (start : NodeId) (made : Made β) : Building β :=
  { b with
    workspace := (Workspace.connect made.handle.pipeline start made.id b.workspace).2
    returned := made :: b.returned }

section Graphs

variable {b : Building β} {p : PipelineId} {lineage : Lineage β t} {isChained : Bool}
  {node : Node β}

theorem graph_addRoot (h : p.place < b.workspace.pipelines.length) {hroot : node.isRoot = true} :
    (b.addRoot p lineage isChained node hroot).workspace.graph p =
      ((b.workspace.graph p).insert node).2 :=
  Workspace.graph_insertNode h node

theorem graph_addBehind {c : Collection β s}
    (h : c.pipeline.place < b.workspace.pipelines.length) {hroot : node.isRoot = false} :
    (b.addBehind c lineage isChained node hroot).workspace.graph c.pipeline =
      ((b.workspace.graph c.pipeline).insert node).2 :=
  Workspace.graph_insertNode h node

theorem graph_connect {made : Made β} {start : NodeId}
    (h : made.handle.pipeline.place < b.workspace.pipelines.length) :
    (b.connect start made).workspace.graph made.handle.pipeline =
      (b.workspace.graph made.handle.pipeline).connect start made.id :=
  Workspace.graph_connect h start made.id

end Graphs

/-- The steps of calls that build on one pipeline. A join starts if the level admits its inputs, and
it ends without effect if there is no plan of an input. -/
inductive Step (p : PipelineId) (b : Building β) : Building β → Prop
  | source (t : ElementType β) (rows : List t.Carrier) :
    Step p b (b.addRoot p (.source t rows) false (.source t ⟨t, rows⟩) rfl)
  | each {s t : ElementType β} (x : b.Given s) (e : Elementwise β s t) :
    Step p b (b.addBehind x.handle (x.lineage.each e) x.handle.isChained (.stateless [e.op]) rfl)
  | groupByKey {k v : ElementType β} (x : b.Given (.pair k v)) :
    Step p b (b.addBehind x.handle x.lineage.groupByKey false (.groupByKey (.byKey k v)) rfl)
  | connect {before after : List (Progress β)} {made : Made β} {start : NodeId}
    (hpending : b.pending = before ++ .connecting made :: after)
    (hstart : made.upstream = some start) :
    Step p b ({ b with pending := before ++ after }.connect start made)
  | joinTwo {k v w : ElementType β} (g : Grouper β) (name : String) (kind : PairJoin)
    (x : b.Given (.pair k v)) (y : b.Given (.pair k w))
    (hcheck : (JoinInput.check name (b.workspace.options p).chainCheck
      [x.handle.asInput, y.handle.asInput]).result = .ok ()) :
    Step p b { b with
      pending := .capturing (.joinTwo g name kind x.lineage y.lineage)
        (g.pairStep name kind k v w) [] [x.handle.asInput, y.handle.asInput] :: b.pending }
  | joinThree {k u v w : ElementType β} (g : Grouper β) (name : String) (kind : TripleJoin)
    (x : b.Given (.pair k u)) (y : b.Given (.pair k v)) (z : b.Given (.pair k w))
    (hcheck : (JoinInput.check name (b.workspace.options p).chainCheck
      [x.handle.asInput, y.handle.asInput, z.handle.asInput]).result = .ok ()) :
    Step p b { b with
      pending := .capturing (.joinThree g name kind x.lineage y.lineage z.lineage)
        (g.tripleStep name kind k u v w) []
        [x.handle.asInput, y.handle.asInput, z.handle.asInput] :: b.pending }
  | capture {before after : List (Progress β)} {t : ElementType β} {lineage : Lineage β t}
    {step : CoGroupStep β} {taken : List (Chain β)} {input : JoinInput β}
    {rest : List (JoinInput β)} {plan : Chain β}
    (hpending : b.pending = before ++ .capturing lineage step taken (input :: rest) :: after)
    (hplan : input.plan b.workspace = .ok plan) :
    Step p b { b with
      pending := before ++ .capturing lineage step (taken ++ [plan]) rest :: after }
  | refuse {before after : List (Progress β)} {t : ElementType β} {lineage : Lineage β t}
    {step : CoGroupStep β} {taken : List (Chain β)} {input : JoinInput β}
    {rest : List (JoinInput β)} {cause : WalkError}
    (hpending : b.pending = before ++ .capturing lineage step taken (input :: rest) :: after)
    (hplan : input.plan b.workspace = .error cause) :
    Step p b { b with pending := before ++ after }
  | join {before after : List (Progress β)} {t : ElementType β} {lineage : Lineage β t}
    {step : CoGroupStep β} {taken : List (Chain β)}
    (hpending : b.pending = before ++ .capturing lineage step taken [] :: after) :
    Step p b ({ b with pending := before ++ after }.addRoot p lineage true
      (.coGroup step taken) rfl)

/-- Steps lead from an empty pipeline to this state. -/
inductive Reachable (p : PipelineId) : Building β → Prop
  | start (w : Workspace β) (h : w.IsFresh p) : Reachable p { workspace := w }
  | step {b b' : Building β} (h : Reachable p b) (hstep : Step p b b') : Reachable p b'

section Alone

/-! A call whose steps follow one another without a step of another call is the builder. -/

variable {p : PipelineId} {b : Building β}

end Alone

end Building

end JoinPipeline
