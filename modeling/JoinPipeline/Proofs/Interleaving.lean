import JoinPipeline.Proofs.Building
import JoinPipeline.Proofs.Frame

/-!
# Interleaved calls do not disturb one another

Whatever the order in which the steps of calls follow one another, every node and every edge of the
pipeline belongs to one call, and every collection that has been given out is reached by the chain
of its own lineage. A node that is not connected yet is not on any walk that finds a chain, and an
edge is added behind those that walks take.
-/

namespace JoinPipeline

variable {β : Type} [Basis β]

namespace Graph

variable {g : Graph β}

/-- A number stands for one node. -/
theorem node?_of_mem {entry : NodeId × Node β} (h : entry ∈ g.nodes) :
    g.node? entry.1 = some entry.2 := by
  obtain ⟨before, after, hnodes⟩ := List.append_of_mem h
  have hbefore : ∀ other ∈ before, other.1.raw < entry.1.raw := by
    have hascending := g.ascending
    rw [hnodes] at hascending
    intro other hother
    exact (List.pairwise_append.1 hascending).2.2 other hother entry List.mem_cons_self
  refine List.lookup_eq_some_iff.2 ⟨before, after, hnodes, fun other hother => ?_⟩
  refine bne_iff_ne.2 fun hsame => ?_
  have hlt := hbefore other hother
  rw [hsame] at hlt
  exact Nat.lt_irrefl _ hlt

theorem nodup_ids (g : Graph β) : (g.nodes.map Prod.fst).Nodup := by
  refine List.pairwise_map.2 (g.ascending.imp ?_)
  intro x y hlt hsame
  rw [hsame] at hlt
  exact Nat.lt_irrefl _ hlt

end Graph

/-- The plan of an input of a join leads to it in the graph of its pipeline. -/
def JoinInput.IsPlannedAs (p : PipelineId) (g : Graph β) (input : JoinInput β) (plan : Chain β) :
    Prop :=
  input.pipeline = p ∧ ∃ chain, g.Reaches input.node chain ∧ plan = Chain.fuse chain

theorem JoinInput.IsPlannedAs.plan_eq {p : PipelineId} {w : Workspace β} {input : JoinInput β}
    {plan : Chain β} (h : input.IsPlannedAs p (w.graph p) plan) : input.plan w = .ok plan := by
  obtain ⟨rfl, chain, hreaches, rfl⟩ := h
  exact plan_of_reaches hreaches

/-- A transform is to be connected to the end of the chain that its node goes on with. The plans
that a join has taken and those that it has yet to take make up its co-group. -/
def Progress.IsSound (p : PipelineId) (g : Graph β) : Progress β → Prop
  | .connecting made => made.handle.pipeline = p ∧ ∃ start chain, made.upstream = some start ∧
      g.Reaches start chain ∧ made.lineage.chain = chain ++ [made.node]
  | .capturing lineage step taken rest => ∃ plans,
      lineage.chain = [.coGroup step (taken ++ plans)] ∧
        List.Forall₂ (JoinInput.IsPlannedAs p g) rest plans

theorem Progress.IsSound.extend {p : PipelineId} {g g' : Graph β} {q : Progress β}
    (h : q.IsSound p g) (hext : g'.Extends g) : q.IsSound p g' := by
  cases q with
  | connecting made =>
    obtain ⟨hp, start, chain, hstart, hreaches, hchain⟩ := h
    exact ⟨hp, start, chain, hstart, hreaches.extend hext, hchain⟩
  | capturing lineage step taken rest =>
    obtain ⟨plans, hchain, hplans⟩ := h
    refine ⟨plans, hchain, hplans.imp ?_⟩
    rintro input plan ⟨hp, chain, hreaches, hplan⟩
    exact ⟨hp, chain, hreaches.extend hext, hplan⟩

namespace Building

variable {p : PipelineId} {b b' : Building β} {s t : ElementType β}

/-- The nodes are those of the calls, the edges are those of the calls that have returned, and the
chain of its lineage leads to what a call has given out. -/
structure IsSound (p : PipelineId) (b : Building β) : Prop where
  known : p.place < b.workspace.pipelines.length
  nodes : (b.workspace.graph p).nodes.Perm (b.inserted.map Made.entry)
  edges : (b.workspace.graph p).edges.Perm (b.returned.filterMap Made.edge?)
  below : ∀ m ∈ b.inserted, ∀ start, m.upstream = some start → start.raw < m.id.raw
  placed : ∀ m ∈ b.returned, m.handle.pipeline = p
  reaches : ∀ m ∈ b.returned, (b.workspace.graph p).Reaches m.id m.lineage.chain
  pending : ∀ q ∈ b.pending, q.IsSound p (b.workspace.graph p)

theorem isSound_start {w : Workspace β} (h : w.IsFresh p) : IsSound p { workspace := w } where
  known := h.known
  nodes := by
    show (w.graph p).nodes.Perm []
    rw [h.nodes]
  edges := by
    show (w.graph p).edges.Perm []
    rw [h.edges]
  below m hm := by cases hm
  placed m hm := by cases hm
  reaches m hm := by cases hm
  pending q hq := by cases hq

section Facts

variable (h : b.IsSound p)

include h

theorem IsSound.nodup_ids : (b.inserted.map Made.id).Nodup := by
  have hids : (b.inserted.map Made.entry).map Prod.fst = b.inserted.map Made.id := by
    rw [List.map_map]
    rfl
  rw [← hids]
  exact (h.nodes.map Prod.fst).nodup (b.workspace.graph p).nodup_ids

theorem IsSound.node? {m : Made β} (hm : m ∈ b.inserted) :
    (b.workspace.graph p).node? m.id = some m.node := by
  have hentry : m.entry ∈ (b.workspace.graph p).nodes :=
    h.nodes.mem_iff.2 (List.mem_map_of_mem hm)
  exact Graph.node?_of_mem hentry

theorem IsSound.lt_nextId {m : Made β} (hm : m ∈ b.inserted) :
    m.id.raw < (b.workspace.graph p).nextId := by
  have hentry : m.entry ∈ (b.workspace.graph p).nodes :=
    h.nodes.mem_iff.2 (List.mem_map_of_mem hm)
  exact (b.workspace.graph p).below _ hentry

/-- An edge leads to a node that has been given out, and is the edge of its call. -/
theorem IsSound.exists_of_edge {edge : NodeId × NodeId}
    (hedge : edge ∈ (b.workspace.graph p).edges) :
    ∃ m ∈ b.returned, m.id = edge.2 ∧ m.upstream = some edge.1 := by
  obtain ⟨m, hm, hmade⟩ := List.mem_filterMap.1 (h.edges.mem_iff.1 hedge)
  obtain ⟨start, hstart, rfl⟩ := Option.map_eq_some_iff.1 hmade
  exact ⟨m, hm, rfl, hstart⟩

/-- No edge leads to a node that is yet to be connected. -/
theorem IsSound.predecessor?_connecting {m : Made β} (hm : m ∈ b.connecting) :
    Chain.predecessor? (b.workspace.graph p).edges m.id = none := by
  unfold Chain.predecessor?
  rw [Option.map_eq_none_iff, List.find?_eq_none]
  intro edge hedge hsame
  obtain ⟨m', hm', hid, _⟩ := h.exists_of_edge hedge
  have hall := List.pairwise_map.1 h.nodup_ids
  have hne : m'.id ≠ m.id := (List.pairwise_append.1 hall).2.2 m' hm' m hm
  exact hne (hid.trans (of_decide_eq_true hsame))

theorem IsSound.reaches_given (x : b.Given t) :
    x.handle.pipeline = p ∧
      (b.workspace.graph p).Reaches x.handle.node x.lineage.chain := by
  obtain ⟨made, hmem, handle, lineage, heq⟩ := x
  have hplaced := h.placed made hmem
  have hreaches := h.reaches made hmem
  unfold Made.id at hreaches
  rw [heq] at hplaced hreaches
  exact ⟨hplaced, hreaches⟩

theorem IsSound.isPlannedAs (x : b.Given t) :
    x.handle.asInput.IsPlannedAs p (b.workspace.graph p) (Chain.fuse x.lineage.chain) := by
  obtain ⟨hplace, hreaches⟩ := h.reaches_given x
  exact ⟨hplace, x.lineage.chain, hreaches, rfl⟩

end Facts

section Growth

variable {lineage : Lineage β t} {node : Node β}

/-- One state has what another one has, and its graph has grown at the end. -/
structure Grows (p : PipelineId) (b b' : Building β) : Prop where
  graph : (b'.workspace.graph p).Extends (b.workspace.graph p)
  returned : ∀ m ∈ b.returned, m ∈ b'.returned
  inserted : ∀ m ∈ b.inserted, m ∈ b'.inserted

theorem Grows.trans {b'' : Building β} (h : b.Grows p b') (h' : b'.Grows p b'') :
    b.Grows p b'' where
  graph := h'.graph.trans h.graph
  returned m hm := h'.returned m (h.returned m hm)
  inserted m hm := h'.inserted m (h.inserted m hm)

theorem grows_addRoot (hp : p.place < b.workspace.pipelines.length) (isChained : Bool)
    (hroot : node.isRoot = true) : b.Grows p (b.addRoot p lineage isChained node hroot) where
  graph := by
    rw [graph_addRoot hp]
    exact Graph.insert_extends _ node
  returned _ hm := List.mem_cons_of_mem _ hm
  inserted _ hm := List.mem_cons_of_mem _ hm

theorem grows_addBehind {c : Collection β s} (hp : c.pipeline.place < b.workspace.pipelines.length)
    (isChained : Bool) (hroot : node.isRoot = false) :
    b.Grows c.pipeline (b.addBehind c lineage isChained node hroot) where
  graph := by
    rw [graph_addBehind hp]
    exact Graph.insert_extends _ node
  returned _ hm := hm
  inserted _ hm := List.perm_middle.mem_iff.2 (List.mem_cons_of_mem _ hm)

end Growth

section Steps

variable {lineage : Lineage β t} {node : Node β}

/-- A root belongs to its call at once. -/
theorem IsSound.addRoot (h : b.IsSound p) (isChained : Bool) (hroot : node.isRoot = true)
    (hchain : lineage.chain = [node]) : (b.addRoot p lineage isChained node hroot).IsSound p := by
  have hgraph : (b.addRoot p lineage isChained node hroot).workspace.graph p =
      ((b.workspace.graph p).insert node).2 := graph_addRoot h.known
  have hgrows : b.Grows p (b.addRoot p lineage isChained node hroot) :=
    grows_addRoot h.known isChained hroot
  constructor
  · show p.place < (b.workspace.setGraph p _).pipelines.length
    rw [Workspace.length_setGraph]
    exact h.known
  · rw [hgraph]
    exact (List.perm_append_singleton _ _).trans (h.nodes.cons _)
  · rw [hgraph]
    exact h.edges
  · intro m hm start hstart
    rcases List.mem_cons.1 hm with hnew | hold
    · rw [hnew] at hstart
      cases hstart
    · exact h.below m hold start hstart
  · intro m hm
    rcases List.mem_cons.1 hm with hnew | hold
    · rw [hnew]
    · exact h.placed m hold
  · intro m hm
    rcases List.mem_cons.1 hm with hnew | hold
    · rw [hgraph, hnew]
      show Graph.Reaches _ _ lineage.chain
      rw [hchain]
      exact Graph.reaches_insert hroot
    · exact (h.reaches m hold).extend hgrows.graph
  · intro q hq
    exact (h.pending q hq).extend hgrows.graph

/-- A node that is to stand behind a collection is larger than that of the collection. -/
theorem IsSound.addBehind (h : b.IsSound p) (x : b.Given s) (isChained : Bool)
    (hroot : node.isRoot = false) (hchain : lineage.chain = x.lineage.chain ++ [node]) :
    (b.addBehind x.handle lineage isChained node hroot).IsSound p := by
  obtain ⟨rfl, hreaches⟩ := h.reaches_given x
  have hgraph : (b.addBehind x.handle lineage isChained node hroot).workspace.graph
      x.handle.pipeline = ((b.workspace.graph x.handle.pipeline).insert node).2 :=
    graph_addBehind h.known
  have hgrows : b.Grows x.handle.pipeline (b.addBehind x.handle lineage isChained node hroot) :=
    grows_addBehind h.known isChained hroot
  obtain ⟨made, hinserted, hid, hnode, hupstream⟩ :
      ∃ made, (b.addBehind x.handle lineage isChained node hroot).inserted.Perm
          (made :: b.inserted) ∧ made.id = ⟨(b.workspace.graph x.handle.pipeline).nextId⟩ ∧
        made.node = node ∧ made.upstream = some x.handle.node :=
    ⟨_, List.perm_middle, rfl, rfl, rfl⟩
  constructor
  · show x.handle.pipeline.place < (b.workspace.setGraph _ _).pipelines.length
    rw [Workspace.length_setGraph]
    exact h.known
  · have hentry : made.entry = (⟨(b.workspace.graph x.handle.pipeline).nextId⟩, node) :=
      Prod.ext hid hnode
    rw [hgraph]
    refine (List.perm_append_singleton _ _).trans ?_
    refine List.Perm.trans ?_ (hinserted.map Made.entry).symm
    rw [List.map_cons, hentry]
    exact h.nodes.cons _
  · rw [hgraph]
    exact h.edges
  · intro m hm start hstart
    rcases List.mem_cons.1 (hinserted.mem_iff.1 hm) with hnew | hold
    · rw [hnew, hupstream] at hstart
      cases hstart
      rw [hnew, hid]
      exact hreaches.lt_nextId
    · exact h.below m hold start hstart
  · exact h.placed
  · intro m hm
    exact (h.reaches m hm).extend hgrows.graph
  · intro q hq
    rcases List.mem_cons.1 hq with hnew | hold
    · rw [hnew]
      exact ⟨rfl, x.handle.node, x.lineage.chain, rfl, hreaches.extend hgrows.graph, hchain⟩
    · exact (h.pending q hold).extend hgrows.graph

/-- Other calls may be taken up or given up, as long as the nodes that are not connected stay. -/
theorem IsSound.setPending (h : b.IsSound p) {pending : List (Progress β)}
    (hmade : (pending.filterMap Progress.made?).Perm b.connecting)
    (hpending : ∀ q ∈ pending, q.IsSound p (b.workspace.graph p)) :
    ({ b with pending := pending } : Building β).IsSound p := by
  have hinserted : ({ b with pending := pending } : Building β).inserted.Perm b.inserted :=
    hmade.append_left _
  constructor
  · exact h.known
  · exact h.nodes.trans (hinserted.map _).symm
  · exact h.edges
  · intro m hm
    exact h.below m (hinserted.mem_iff.1 hm)
  · exact h.placed
  · exact h.reaches
  · exact hpending

theorem mem_pending {before after : List (Progress β)} {q q' : Progress β}
    (hpending : b.pending = before ++ q :: after) (h : q' ∈ q :: (before ++ after)) :
    q' ∈ b.pending := by
  rw [hpending]
  exact List.perm_middle.mem_iff.2 h

section Connecting

variable {before after : List (Progress β)} {made : Made β} {start : NodeId}

/-- A node that is being connected was inserted before. -/
theorem inserted_connect (hpending : b.pending = before ++ .connecting made :: after) :
    (({ b with pending := before ++ after } : Building β).connect start made).inserted.Perm
      b.inserted := by
  have hsplit : b.connecting.Perm (made :: (before ++ after).filterMap Progress.made?) := by
    unfold Building.connecting
    rw [hpending, List.filterMap_append, List.filterMap_append, List.filterMap_cons]
    exact List.perm_middle
  exact List.perm_middle.symm.trans (hsplit.symm.append_left _)

theorem grows_connect (hp : made.handle.pipeline.place < b.workspace.pipelines.length)
    (hpending : b.pending = before ++ .connecting made :: after) :
    b.Grows made.handle.pipeline
      (({ b with pending := before ++ after } : Building β).connect start made) where
  graph := by
    have hgraph := @graph_connect β _ { b with pending := before ++ after } made start hp
    rw [hgraph]
    exact Graph.connect_extends _ _ _
  returned _ hm := List.mem_cons_of_mem _ hm
  inserted _ hm := (inserted_connect hpending).mem_iff.2 hm

/-- The edge of a node makes the chain of its call lead to it. -/
theorem IsSound.connect (h : b.IsSound p)
    (hpending : b.pending = before ++ .connecting made :: after)
    (hstart : made.upstream = some start) :
    (({ b with pending := before ++ after } : Building β).connect start made).IsSound p := by
  have hmem : Progress.connecting made ∈ b.pending := mem_pending hpending List.mem_cons_self
  have hconnecting : made ∈ b.connecting := List.mem_filterMap.2 ⟨_, hmem, rfl⟩
  obtain ⟨rfl, start', chain, hstart', hreaches, hchain⟩ := h.pending _ hmem
  rw [hstart] at hstart'
  cases hstart'
  have hroot : made.node.isRoot = false := by
    have hupstream := made.isSome_upstream
    rw [hstart] at hupstream
    simpa using hupstream.symm
  have hedge : made.edge? = some (start, made.id) := by
    unfold Made.edge?
    rw [hstart]
    rfl
  have hgraph : (({ b with pending := before ++ after } : Building β).connect start
      made).workspace.graph made.handle.pipeline =
        (b.workspace.graph made.handle.pipeline).connect start made.id := graph_connect h.known
  have hgrows := @grows_connect β _ b before after made start h.known hpending
  have hinserted := @inserted_connect β _ b before after made start hpending
  constructor
  · show made.handle.pipeline.place < (b.workspace.setGraph _ _).pipelines.length
    rw [Workspace.length_setGraph]
    exact h.known
  · rw [hgraph]
    exact h.nodes.trans (hinserted.map _).symm
  · rw [hgraph]
    show (_ ++ [(start, made.id)]).Perm ((made :: b.returned).filterMap Made.edge?)
    rw [List.filterMap_cons_some hedge]
    exact (List.perm_append_singleton _ _).trans (h.edges.cons _)
  · intro m hm
    exact h.below m (hinserted.mem_iff.1 hm)
  · intro m hm
    rcases List.mem_cons.1 hm with hnew | hold
    · rw [hnew]
    · exact h.placed m hold
  · intro m hm
    rcases List.mem_cons.1 hm with hnew | hold
    · rw [hgraph, hnew, hchain]
      exact hreaches.connect (h.node? (List.mem_append_right _ hconnecting)) hroot
        (h.predecessor?_connecting hconnecting)
    · exact (h.reaches m hold).extend hgrows.graph
  · intro q hq
    exact (h.pending q (mem_pending hpending (List.mem_cons_of_mem _ hq))).extend hgrows.graph

end Connecting

section Capturing

variable {before after : List (Progress β)} {step : CoGroupStep β} {taken : List (Chain β)}
  {rest : List (JoinInput β)}

/-- A join that is under way has inserted nothing. -/
theorem connecting_capturing
    (hpending : b.pending = before ++ .capturing lineage step taken rest :: after) :
    b.connecting = before.filterMap Progress.made? ++ after.filterMap Progress.made? := by
  unfold Building.connecting
  rw [hpending, List.filterMap_append]
  rfl

theorem made_leave (hpending : b.pending = before ++ .capturing lineage step taken rest :: after) :
    ((before ++ after).filterMap Progress.made?).Perm b.connecting := by
  rw [connecting_capturing hpending, List.filterMap_append]

theorem made_capture {plan : Chain β} {input : JoinInput β}
    (hpending : b.pending = before ++ .capturing lineage step taken (input :: rest) :: after) :
    ((before ++ .capturing lineage step (taken ++ [plan]) rest :: after).filterMap
      Progress.made?).Perm b.connecting := by
  rw [connecting_capturing hpending, List.filterMap_append]
  exact .refl _

/-- A join that ends leaves the other calls as they are. -/
theorem IsSound.leave (h : b.IsSound p)
    (hpending : b.pending = before ++ .capturing lineage step taken rest :: after) :
    ({ b with pending := before ++ after } : Building β).IsSound p := by
  refine h.setPending (made_leave hpending) fun q hq => ?_
  exact h.pending q (mem_pending hpending (List.mem_cons_of_mem _ hq))

/-- The plan that a join takes is the one that its lineage has in this place. -/
theorem IsSound.capture (h : b.IsSound p) {input : JoinInput β} {plan : Chain β}
    (hpending : b.pending = before ++ .capturing lineage step taken (input :: rest) :: after)
    (hplan : input.plan b.workspace = .ok plan) :
    ({ b with pending := before ++ .capturing lineage step (taken ++ [plan]) rest :: after } :
      Building β).IsSound p := by
  obtain ⟨plans, hchain, hplans⟩ := h.pending _ (mem_pending hpending List.mem_cons_self)
  cases hplans with
  | cons hinput hrest =>
    have hsame := hplan.symm.trans hinput.plan_eq
    cases hsame
    refine h.setPending (made_capture hpending) fun q hq => ?_
    rcases List.mem_cons.1 (List.perm_middle.mem_iff.1 hq) with hnew | hold
    · rw [hnew]
      refine ⟨_, ?_, hrest⟩
      rw [List.append_assoc]
      exact hchain
    · exact h.pending q (mem_pending hpending (List.mem_cons_of_mem _ hold))

/-- A join that has taken all plans is the one of its lineage. -/
theorem IsSound.chain_eq (h : b.IsSound p)
    (hpending : b.pending = before ++ .capturing lineage step taken [] :: after) :
    lineage.chain = [.coGroup step taken] := by
  obtain ⟨plans, hchain, hplans⟩ := h.pending _ (mem_pending hpending List.mem_cons_self)
  cases hplans
  rw [hchain, List.append_nil]

end Capturing

/-- Every step keeps a state sound. -/
theorem IsSound.step (h : b.IsSound p) (hstep : Step p b b') : b'.IsSound p := by
  cases hstep with
  | source t rows => exact h.addRoot false rfl rfl
  | each x e => exact h.addBehind x _ rfl rfl
  | groupByKey x => exact h.addBehind x false rfl rfl
  | connect hpending hstart => exact h.connect hpending hstart
  | joinTwo g name kind x y hcheck =>
    refine h.setPending (.refl _) fun q hq => ?_
    rcases List.mem_cons.1 hq with hnew | hold
    · rw [hnew]
      exact ⟨_, rfl, .cons (h.isPlannedAs x) (.cons (h.isPlannedAs y) .nil)⟩
    · exact h.pending q hold
  | joinThree g name kind x y z hcheck =>
    refine h.setPending (.refl _) fun q hq => ?_
    rcases List.mem_cons.1 hq with hnew | hold
    · rw [hnew]
      exact ⟨_, rfl, .cons (h.isPlannedAs x)
        (.cons (h.isPlannedAs y) (.cons (h.isPlannedAs z) .nil))⟩
    · exact h.pending q hold
  | capture hpending hplan => exact h.capture hpending hplan
  | refuse hpending hplan => exact h.leave hpending
  | join hpending => exact (h.leave hpending).addRoot true rfl (h.chain_eq hpending)

theorem Reachable.isSound (h : Reachable p b) : b.IsSound p := by
  induction h with
  | start w hfresh => exact isSound_start hfresh
  | step _ hstep ih => exact ih.step hstep

end Steps

section Quiescence

end Quiescence

section Alone

end Alone

section Sample

@[reducible] def numbers : ElementType Atom := .pair (.base .int64) (.base .int64)

/-- A pipeline with one source of keyed numbers. -/
def sampleSource : Building Atom :=
  ({ workspace := (Workspace.addPipeline {} {}).2 } : Building Atom).addRoot ⟨0⟩
    (.source numbers Construction.sampleList) false
    (.source numbers ⟨numbers, Construction.sampleList⟩) rfl

end Sample

end Building

end JoinPipeline
