import Std.Data.HashMap

/-!
# Grouping rows of several inputs by key

The inputs are lists of keyed rows, and the number of an input is its tag. Grouping makes one
group per key that occurs in any input, with one slot per tag that holds the values the key has
there, in their order. The groups come in the order in which their keys are first met. Bucketed
grouping deals the rows out to buckets by a hash of the key and groups every bucket by itself.
-/

namespace JoinPipeline

/-- A key and one slot of values per tag. -/
abbrev Group (K V : Type) := K × List (List V)

/-- Groups that are being filled. The index tells where the group of a key stands. -/
structure GroupTable (K V : Type) [BEq K] [Hashable K] where
  tags : Nat
  index : Std.HashMap K Nat := {}
  groups : Array (K × Array (Array V)) := #[]

namespace GroupTable

variable {K V : Type} [BEq K] [Hashable K]

/-- Appends a value to the slot of a tag in the group of a key, which is opened if there is none
yet. -/
def add (table : GroupTable K V) (tag : Nat) (row : K × V) : GroupTable K V :=
  let fill := fun (group : K × Array (Array V)) =>
    (group.1, group.2.modify tag fun slot => slot.push row.2)
  match table.index[row.1]? with
  | some place => { table with groups := table.groups.modify place fill }
  | none =>
    { table with
      index := table.index.insert row.1 table.groups.size
      groups := table.groups.push (fill (row.1, Array.replicate table.tags #[])) }

/-- Adds the rows of one input. -/
def addAll (table : GroupTable K V) (tag : Nat) (rows : List (K × V)) : GroupTable K V :=
  rows.foldl (fun t row => t.add tag row) table

def toList (table : GroupTable K V) : List (Group K V) :=
  table.groups.toList.map fun group => (group.1, group.2.toList.map Array.toList)

end GroupTable

variable {K V : Type} [BEq K] [Hashable K]

/-- Groups the inputs, with the keys in the order in which they are first met. -/
def groupTagged (inputs : List (List (K × V))) : List (Group K V) :=
  (inputs.zipIdx.foldl (fun table input => table.addAll input.2 input.1)
    (⟨inputs.length, {}, #[]⟩ : GroupTable K V)).toList

/-- The rows of every bucket, one list per tag. The bucket of a key is its hash modulo the number
of buckets. -/
def shards (hash : K → Nat) (buckets : Nat) (inputs : List (List (K × V))) :
    List (List (List (K × V))) :=
  let deal := fun (tag : Nat) (shards : Array (Array (Array (K × V)))) (row : K × V) =>
    shards.modify (hash row.1 % buckets) fun shard =>
      shard.modify tag fun rows => rows.push row
  let empty := Array.replicate buckets (Array.replicate inputs.length #[])
  let filled := inputs.zipIdx.foldl (fun shards input => input.1.foldl (deal input.2) shards) empty
  filled.toList.map fun shard => shard.toList.map Array.toList

/-- Groups every bucket by itself and puts the groups behind one another. -/
def groupBucketed (hash : K → Nat) (buckets : Nat) (inputs : List (List (K × V))) :
    List (Group K V) :=
  (shards hash buckets inputs).flatMap groupTagged

/-- There is at least one bucket. -/
def bucketCount (requested : Nat) : Nat := max requested 1

end JoinPipeline
