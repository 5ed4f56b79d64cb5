import JoinPipeline.Proofs.Success
import Mathlib.Data.List.Chain

/-!
# Fused chains

Fusing neighbouring runs of element-wise operations does not change what a chain gives. A fused
stage takes every partition through all of its operations before the next partition, so that of
several failures another one may come first; but it fails exactly if the stages do.
-/

namespace JoinPipeline

variable {β : Type} [Basis β]

namespace Chain

theorem fuse_cons (node : Node β) (chain : Chain β) :
    fuse (node :: chain) = fuseNode node (fuse chain) := rfl

theorem kind_head_fuseNode (node : Node β) (chain : Chain β) :
    (fuseNode node chain).head?.map Node.kind = some node.kind := by
  unfold fuseNode
  split <;> rfl

/-- A fused chain starts with a node of the same kind. -/
theorem kind_head_fuse (chain : Chain β) :
    (fuse chain).head?.map Node.kind = chain.head?.map Node.kind := by
  cases chain with
  | nil => rfl
  | cons node chain => exact kind_head_fuseNode node (fuse chain)

theorem mem_fuseNode {node : Node β} (h : node.kind ≠ .stateless) (first : Node β)
    (chain : Chain β) : node ∈ fuseNode first chain ↔ node = first ∨ node ∈ chain := by
  have hne : ∀ ops, node ≠ .stateless ops := by
    intro ops heq
    rw [heq] at h
    exact h rfl
  unfold fuseNode
  split
  · simp only [List.mem_cons, hne, false_or]
  · exact List.mem_cons

/-- Fusing touches no node but runs of element-wise operations. -/
theorem mem_fuse {node : Node β} (h : node.kind ≠ .stateless) (chain : Chain β) :
    node ∈ fuse chain ↔ node ∈ chain := by
  induction chain with
  | nil => rfl
  | cons first chain ih => rw [fuse_cons, mem_fuseNode h, ih, List.mem_cons]

/-- The element-wise operations of a chain one by one, with its other nodes between them. -/
def steps (chain : Chain β) : List (Op β ⊕ Node β) :=
  chain.flatMap fun
    | .stateless ops => ops.map .inl
    | node => [.inr node]

theorem steps_cons (node : Node β) (chain : Chain β) :
    steps (node :: chain) = steps [node] ++ steps chain := by
  simp [steps]

theorem steps_fuseNode (node : Node β) (chain : Chain β) :
    steps (fuseNode node chain) = steps (node :: chain) := by
  unfold fuseNode
  split
  · simp [steps]
  · rfl

/-- Fusing keeps every operation and every other node in its place. -/
theorem steps_fuse (chain : Chain β) : steps (fuse chain) = steps chain := by
  induction chain with
  | nil => rfl
  | cons node chain ih => rw [fuse_cons, steps_fuseNode, steps_cons, ih, ← steps_cons]

/-- No two neighbours are runs of element-wise operations. -/
def IsFused (chain : Chain β) : Prop :=
  chain.IsChain fun first second => ¬ (first.kind = .stateless ∧ second.kind = .stateless)

theorem IsFused.fuseNode {chain : Chain β} (h : IsFused chain) (node : Node β) :
    IsFused (fuseNode node chain) := by
  unfold IsFused at h ⊢
  unfold Chain.fuseNode
  split
  next first second rest =>
    -- only the kind of the first node counts, and it is the same
    cases rest with
    | nil => simp
    | cons third rest => simpa [Node.kind] using h
  next hother =>
    cases chain with
    | nil => simp
    | cons second rest =>
      refine List.isChain_cons_cons.2 ⟨?_, h⟩
      rintro ⟨hfirst, hsecond⟩
      cases node <;> cases second <;> simp_all [Node.kind]

theorem isFused_fuse (chain : Chain β) : IsFused (fuse chain) := by
  induction chain with
  | nil => exact List.isChain_nil
  | cons node chain ih => exact ih.fuseNode node

/-- The element-wise operations of a chain, in order. -/
def operations (chain : Chain β) : List (Op β) :=
  chain.flatMap fun
    | .stateless ops => ops
    | _ => []

/-- The nodes of a chain that are no runs of element-wise operations, in order. -/
def others (chain : Chain β) : List (Node β) := chain.filter fun node => node.kind ≠ .stateless

theorem statelessOps_eq (chain : Chain β) : statelessOps chain = (operations chain).length := rfl

theorem operations_eq (chain : Chain β) :
    operations chain = (steps chain).filterMap Sum.getLeft? := by
  induction chain with
  | nil => rfl
  | cons node chain ih =>
    have hfirst : operations (node :: chain) = operations [node] ++ operations chain := by
      simp [operations]
    rw [hfirst, steps_cons, List.filterMap_append, ih]
    cases node <;> simp [operations, steps, Function.comp_def]

theorem others_eq (chain : Chain β) : others chain = (steps chain).filterMap Sum.getRight? := by
  induction chain with
  | nil => rfl
  | cons node chain ih =>
    have hfirst : others (node :: chain) = others [node] ++ others chain := by
      simp only [others, ← List.filter_append, List.singleton_append]
    rw [hfirst, steps_cons, List.filterMap_append, ih]
    cases node <;> simp [others, steps, Node.kind]

/-- The operations of a fused chain are those of the chain. -/
theorem operations_fuse (chain : Chain β) : operations (fuse chain) = operations chain := by
  rw [operations_eq, steps_fuse, ← operations_eq]

/-- The other nodes of a fused chain are those of the chain. -/
theorem others_fuse (chain : Chain β) : others (fuse chain) = others chain := by
  rw [others_eq, steps_fuse, ← others_eq]

theorem statelessOps_fuse (chain : Chain β) : statelessOps (fuse chain) = statelessOps chain := by
  rw [statelessOps_eq, operations_fuse, ← statelessOps_eq]

theorem IsFused.fuseNode_eq {node : Node β} {chain : Chain β} (h : IsFused (node :: chain)) :
    Chain.fuseNode node chain = node :: chain := by
  unfold Chain.fuseNode
  split
  next first second rest =>
    have hneighbours := (List.isChain_cons_cons.1 h).1
    simp [Node.kind] at hneighbours
  next => rfl

/-- There is nothing to fuse in a fused chain. -/
theorem IsFused.fuse_eq {chain : Chain β} (h : IsFused chain) : fuse chain = chain := by
  induction chain with
  | nil => rfl
  | cons node chain ih => rw [fuse_cons, ih h.tail, h.fuseNode_eq]

theorem fuse_fuse (chain : Chain β) : fuse (fuse chain) = fuse chain := (isFused_fuse chain).fuse_eq

theorem stages_fuseNode (ctx : RunContext β) (parts : List (Partition β)) (node : Node β)
    (chain : Chain β) (out : List (Partition β)) :
    (Run.stages ctx parts (fuseNode node chain)).result = .ok out ↔
      (Run.stages ctx parts (node :: chain)).result = .ok out := by
  unfold fuseNode
  split
  next first second rest =>
    have happly : Run.applyOps (first ++ second) =
        fun p => Run.applyOps first p >>= Run.applyOps second :=
      funext (Run.applyOps_append first second)
    simp only [Run.result_stages_cons, Run.result_stage_stateless, bind_eq_ok, happly,
      mapM_bind_eq_ok]
    constructor
    · intro h
      obtain ⟨last, ⟨mid, hfirst, hsecond⟩, hrest⟩ := h
      exact ⟨mid, hfirst, last, hsecond, hrest⟩
    · intro h
      obtain ⟨mid, hfirst, last, hsecond, hrest⟩ := h
      exact ⟨last, ⟨mid, hfirst, hsecond⟩, hrest⟩
  next => rfl

/-- Fused stages give what the stages give. -/
theorem stages_fuse (ctx : RunContext β) (parts : List (Partition β)) (chain : Chain β)
    (out : List (Partition β)) :
    (Run.stages ctx parts (fuse chain)).result = .ok out ↔
      (Run.stages ctx parts chain).result = .ok out := by
  induction chain generalizing ctx parts with
  | nil => rfl
  | cons node chain ih =>
    rw [fuse_cons, stages_fuseNode, Run.result_stages_cons, Run.result_stages_cons, bind_eq_ok,
      bind_eq_ok]
    constructor
    · intro h
      obtain ⟨mid, hnode, hrest⟩ := h
      exact ⟨mid, hnode, (ih _ _).1 hrest⟩
    · intro h
      obtain ⟨mid, hnode, hrest⟩ := h
      exact ⟨mid, hnode, (ih _ _).2 hrest⟩

/-- A chain that starts with element-wise operations gives nothing. -/
theorem chain_stateless_ne_ok (ctx : RunContext β) (ops : List (Op β)) (rest : Chain β)
    (out : List (Partition β)) : (Run.chain ctx (.stateless ops :: rest)).result ≠ .ok out := by
  rw [Run.result_chain_cons]
  intro h
  obtain ⟨_, hroot, _⟩ := bind_eq_ok.1 h
  cases hroot

/-- A fused chain gives what the chain gives. -/
theorem run_fuse (ctx : RunContext β) (chain : Chain β) (out : List (Partition β)) :
    (Run.chain ctx (fuse chain)).result = .ok out ↔ (Run.chain ctx chain).result = .ok out := by
  cases chain with
  | nil => rfl
  | cons node chain =>
    rw [fuse_cons]
    unfold fuseNode
    split
    next first second rest _ =>
      exact iff_of_false (chain_stateless_ne_ok _ _ _ _) (chain_stateless_ne_ok _ _ _ _)
    next =>
      rw [Run.result_chain_cons, Run.result_chain_cons, bind_eq_ok, bind_eq_ok]
      constructor
      · intro h
        obtain ⟨parts, hroot, hstages⟩ := h
        exact ⟨parts, hroot, (stages_fuse _ _ _ _).1 hstages⟩
      · intro h
        obtain ⟨parts, hroot, hstages⟩ := h
        exact ⟨parts, hroot, (stages_fuse _ _ _ _).2 hstages⟩

/-- Fusing is a change of form alone. In every context the fused chain and the chain give the same
partitions, or both of them fail, whatever operations they have and on whichever partitions these
fail. No two neighbours are left to be fused, so that fusing once more changes nothing, and all
operations and all other nodes are there in their order. -/
theorem fuse_preserves_runs (chain : Chain β) :
    (∀ ctx : RunContext β,
      (∃ parts, (Run.chain ctx (fuse chain)).result = .ok parts ∧
        (Run.chain ctx chain).result = .ok parts) ∨
      ∃ cause cause', (Run.chain ctx (fuse chain)).result = .error cause ∧
        (Run.chain ctx chain).result = .error cause') ∧
    IsFused (fuse chain) ∧
    operations (fuse chain) = operations chain ∧
    others (fuse chain) = others chain ∧
    statelessOps (fuse chain) = statelessOps chain ∧
    fuse (fuse chain) = fuse chain := by
  refine ⟨fun ctx => ?_, isFused_fuse chain, operations_fuse chain, others_fuse chain,
    statelessOps_fuse chain, fuse_fuse chain⟩
  exact both_ok_or_both_error (run_fuse ctx chain)

end Chain

end JoinPipeline
