import JoinPipeline.Grouping
import JoinPipeline.OrAbsent

/-!
# From groups to rows

All joins are one grouping of tagged rows followed by an expansion of every group. A co-group
gives one record per key with the values of each side. A join gives a row for every pair of values
of a key: the right value is in the outer loop and the left one in the inner loop. A side that is
optional takes part with a single absent value where it has none.
-/

namespace JoinPipeline

section Records

variable {K V W A B C : Type}

/-- How two tagged inputs are grouped. -/
abbrev PairGrouping (K V W : Type) := List (List (K × (V ⊕ W))) → List (Group K (V ⊕ W))

/-- How three tagged inputs are grouped. -/
abbrev TripleGrouping (K A B C : Type) :=
  List (List (K × (A ⊕ B ⊕ C))) → List (Group K (A ⊕ B ⊕ C))

def tagLeft (rows : List (K × V)) : List (K × (V ⊕ W)) := rows.map fun r => (r.1, .inl r.2)

def tagRight (rows : List (K × W)) : List (K × (V ⊕ W)) := rows.map fun r => (r.1, .inr r.2)

def lefts (slots : List (List (V ⊕ W))) : List V := slots.flatten.filterMap Sum.getLeft?

def rights (slots : List (List (V ⊕ W))) : List W := slots.flatten.filterMap Sum.getRight?

/-- One record per key of either input. -/
def cogroup (grouping : PairGrouping K V W) (a : List (K × V)) (b : List (K × W)) :
    List (K × (List V × List W)) :=
  (grouping [tagLeft a, tagRight b]).map fun g => (g.1, (lefts g.2, rights g.2))

/-- One record per key of any of three inputs. -/
def cogroup3 (grouping : TripleGrouping K A B C) (a : List (K × A)) (b : List (K × B))
    (c : List (K × C)) : List (K × (List A × List B × List C)) :=
  (grouping [tagLeft a, tagRight (tagLeft b), tagRight (tagRight c)]).map fun g =>
    (g.1, (lefts g.2, lefts [rights g.2], rights [rights g.2]))

end Records

section Rows

variable {K V W V' W' A B C : Type}

/-- The rows of a record, when the two sides are read through `left` and `right`. -/
def expandPairs (left : List V → List V') (right : List W → List W')
    (record : K × (List V × List W)) : List (K × (V' × W')) :=
  (right record.2.2).flatMap fun w => (left record.2.1).map fun v => (record.1, (v, w))

/-- The rows of a record of three sides, the last of which is in the outermost loop. -/
def expandTriples (record : K × (List A × List B × List C)) : List (K × (A × B × C)) :=
  record.2.2.2.flatMap fun z => record.2.2.1.flatMap fun y => record.2.1.map fun x =>
    (record.1, (x, y, z))

variable (grouping : PairGrouping K V W) (a : List (K × V)) (b : List (K × W))

/-- The rows whose key is in both inputs. -/
def innerJoin : List (K × (V × W)) := (cogroup grouping a b).flatMap (expandPairs id id)

/-- Every left value at least once. -/
def leftJoin : List (K × (V × Option W)) := (cogroup grouping a b).flatMap (expandPairs id orAbsent)

/-- Every right value at least once. -/
def rightJoin : List (K × (Option V × W)) :=
  (cogroup grouping a b).flatMap (expandPairs orAbsent id)

/-- Every value of either side at least once. -/
def outerJoin : List (K × (Option V × Option W)) :=
  (cogroup grouping a b).flatMap (expandPairs orAbsent orAbsent)

/-- The rows whose key is in all three inputs. -/
def innerJoin3 (grouping : TripleGrouping K A B C) (a : List (K × A)) (b : List (K × B))
    (c : List (K × C)) : List (K × (A × B × C)) :=
  (cogroup3 grouping a b c).flatMap expandTriples

end Rows

end JoinPipeline
