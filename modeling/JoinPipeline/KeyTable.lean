import Std.Data.HashMap

/-!
# Tables of values by key

Keyed rows gathered in one table, which holds the values of every key in the order of the rows.
Tables of consecutive parts are merged in their order, so that the merged table is that of all
rows. In which order a table lists its keys is left open.
-/

namespace JoinPipeline

variable {K V : Type} [BEq K] [Hashable K]

abbrev KeyTable (K V : Type) [BEq K] [Hashable K] := Std.HashMap K (Array V)

namespace KeyTable

/-- Appends values to those of a key. The first one of keys that compare equal stands for all of
them. -/
def append (table : KeyTable K V) (key : K) (values : Array V) : KeyTable K V :=
  table.alter (table.getKeyD key key) fun found => some (found.getD #[] ++ values)

def ofRows (rows : List (K × V)) : KeyTable K V :=
  rows.foldl (fun table row => append table row.1 #[row.2]) {}

/-- The entries of a table, with the values as lists. -/
def entries (table : KeyTable K V) : List (K × List V) :=
  table.toList.map fun entry => (entry.1, entry.2.toList)

/-- Appends the entries of another table, listed in some order. -/
def absorb (table : KeyTable K V) (entries : List (K × List V)) : KeyTable K V :=
  entries.foldl (fun table entry => append table entry.1 entry.2.toArray) table

end KeyTable

end JoinPipeline
