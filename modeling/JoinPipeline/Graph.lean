import JoinPipeline.Failure
import JoinPipeline.Grouping
import JoinPipeline.KeyTable
import JoinPipeline.Partition

/-!
# Graphs of deferred work

A node is a source with its rows, a run of element-wise operations, a group-by-key step or a
co-group. A co-group owns the chains of its inputs, which were taken when it was built, so a chain
is a tree of finite depth. A graph holds numbered nodes and a list of edges; since it may be
edited, the edges need not lead to a root.
-/

namespace JoinPipeline

variable {β : Type} [Basis β]

/-- What is free to choose where a table is made: into which bucket a key falls, which is the same
one for keys that are equal, and in which order the table lists its entries. -/
structure HashScheme (β : Type) [Basis β] where
  bucket : (k : ElementType β) → k.Carrier → Nat := fun k x => (k.hash x).toNat
  bucket_congr : ∀ k x y, (x == y) = true → bucket k x = bucket k y := by
    intro k x y h
    exact congrArg UInt64.toNat (k.hash_eq x y h)
  listing : (k v : ElementType β) → List (k.Carrier × List v.Carrier) →
    List (k.Carrier × List v.Carrier) := fun _ _ entries => entries
  listing_perm : ∀ k v entries, (listing k v entries).Perm entries := by
    intro k v entries
    exact .refl entries

/-- An element-wise operation on a partition, with the label it is reported by. -/
structure Op (β : Type) [Basis β] where
  label : String
  apply : Partition β → Except (RunError β) (Partition β)

/-- What is made of a partition before a group-by-key step merges: a table of keys and values, or
rows that were left as they are. -/
inductive Partial (β : Type) [Basis β] where
  | rows (p : Partition β)
  | table (k v : ElementType β) (entries : KeyTable k.Carrier v.Carrier)

/-- The table, if it is one of these keys and values. -/
def Partial.table? (k v : ElementType β) : Partial β → Option (KeyTable k.Carrier v.Carrier)
  | rows _ => none
  | table k' v' entries =>
    if h : k' = k ∧ v' = v then
      some (by rw [← h.1, ← h.2]; exact entries)
    else none

/-- The two halves of a group-by-key step. -/
structure GroupStep (β : Type) [Basis β] where
  tabulate : Partition β → Except (RunError β) (Partial β)
  merge : HashScheme β → List (Partial β) → Except (RunError β) (Partition β)

/-- A co-group apart from the chains of its inputs. -/
structure CoGroupStep (β : Type) [Basis β] where
  name : String
  inputElements : List (ElementType β)
  output : ElementType β
  exec : HashScheme β → List (Partition β) → Except (RunError β) (Partition β)

inductive Node (β : Type) [Basis β] where
  | source (element : ElementType β) (payload : Partition β)
  | stateless (ops : List (Op β))
  | groupByKey (step : GroupStep β)
  | coGroup (step : CoGroupStep β) (inputs : List (List (Node β)))

namespace Node

def kind : Node β → NodeKind
  | source .. => .source
  | stateless _ => .stateless
  | groupByKey _ => .groupByKey
  | coGroup .. => .coGroup

/-- Whether a node has rows of its own, so that a walk back ends at it. -/
def isRoot : Node β → Bool
  | source .. => true
  | coGroup .. => true
  | _ => false

end Node

/-- The nodes are kept in the order of their numbers, and every number is below the next one to be
given. So a node map has one form, and a new node never takes the place of an old one. -/
structure Graph (β : Type) [Basis β] where
  nextId : Nat := 0
  nodes : List (NodeId × Node β) := []
  edges : List (NodeId × NodeId) := []
  ascending : nodes.Pairwise fun x y => x.1.raw < y.1.raw := by simp
  below : ∀ entry ∈ nodes, entry.1.raw < nextId := by simp

namespace Graph

def node? (g : Graph β) (id : NodeId) : Option (Node β) := g.nodes.lookup id

/-- Adds a node under the next number. -/
def insert (g : Graph β) (node : Node β) : NodeId × Graph β :=
  (⟨g.nextId⟩,
    { nextId := g.nextId + 1
      nodes := g.nodes ++ [(⟨g.nextId⟩, node)]
      edges := g.edges
      ascending := by
        refine List.pairwise_append.2 ⟨g.ascending, List.pairwise_singleton _ _, ?_⟩
        intro x hx y hy
        rw [List.mem_singleton.1 hy]
        exact g.below x hx
      below := by
        intro entry h
        rcases List.mem_append.1 h with h | h
        · exact Nat.lt_succ_of_lt (g.below entry h)
        · rw [List.mem_singleton.1 h]
          exact Nat.lt_succ_self _ })

/-- Adds an edge behind all others. -/
def connect (g : Graph β) (start finish : NodeId) : Graph β :=
  { g with edges := g.edges ++ [(start, finish)] }

def nodeCount (g : Graph β) : Nat := g.nodes.length

def edgeCount (g : Graph β) : Nat := g.edges.length

/-- Nodes without the one of a given number. -/
def without (id : NodeId) (nodes : List (NodeId × Node β)) : List (NodeId × Node β) :=
  nodes.filter fun entry => entry.1 != id

/-- Removes a node; the edges at it stay. -/
def remove (g : Graph β) (id : NodeId) : Graph β :=
  { g with
    nodes := without id g.nodes
    ascending := g.ascending.filter _
    below := fun entry h => g.below entry (List.mem_filter.1 h).1 }

/-- An entry with another node behind it if it is the one of a given number. -/
def replaceEntry (id : NodeId) (node : Node β) (entry : NodeId × Node β) : NodeId × Node β :=
  if entry.1 = id then (entry.1, node) else entry

theorem replaceEntry_fst (id : NodeId) (node : Node β) (entry : NodeId × Node β) :
    (replaceEntry id node entry).1 = entry.1 := by
  unfold replaceEntry
  split <;> rfl

/-- Puts another node in the place of the one of a given number. -/
def replace (g : Graph β) (id : NodeId) (node : Node β) : Graph β :=
  { g with
    nodes := g.nodes.map (replaceEntry id node)
    ascending := by
      refine List.pairwise_map.2 (g.ascending.imp ?_)
      intro x y h
      rw [replaceEntry_fst, replaceEntry_fst]
      exact h
    below := by
      intro entry h
      obtain ⟨old, hold, rfl⟩ := List.mem_map.1 h
      rw [replaceEntry_fst]
      exact g.below old hold }

theorem length_without_lt {id : NodeId} {node : Node β} {nodes : List (NodeId × Node β)}
    (h : nodes.lookup id = some node) : (without id nodes).length < nodes.length := by
  induction nodes with
  | nil => simp at h
  | cons entry rest ih =>
    obtain ⟨other, n⟩ := entry
    by_cases hid : other = id
    · subst hid
      have hle : (without other rest).length ≤ rest.length := List.length_filter_le _ _
      simpa [without] using Nat.lt_succ_of_le hle
    · have hne : (id == other) = false := by simpa using fun e => hid e.symm
      have hrest : rest.lookup id = some node := by
        rwa [List.lookup_cons, hne] at h
      have hlt := ih hrest
      simpa [without, hid] using hlt

end Graph

end JoinPipeline
