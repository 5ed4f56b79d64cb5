import JoinPipeline.Proofs.Enumeration
import JoinPipeline.Proofs.Records
import Mathlib.Tactic.Ring

/-!
# How often rows occur

The rows that a join makes of a record are all pairs of what it reads on either side, so a row
occurs as often as the product of the counts of its values there. Joins read their records one by
one, and what they have under a key comes from the only record of this key: their counts are told
by the values of the key in the inputs, in whatever order the records are listed.
-/

namespace JoinPipeline

section Counting

variable {V W : Type}

/-- All pairs of two lists, with the second one in the outer loop. -/
def pairsOf (xs : List V) (ys : List W) : List (V × W) := ys.flatMap fun y => xs.map fun x => (x, y)

variable [BEq V] [BEq W]

theorem count_map_pair (xs : List V) (x : V) (y y' : W) :
    (xs.map fun x' => (x', y')).count (x, y) = if y' == y then xs.count x else 0 := by
  have hpair : ((· == (x, y)) ∘ fun x' => (x', y')) = fun x' => x' == x && y' == y := rfl
  rw [List.count, List.countP_map, hpair]
  by_cases hy : (y' == y) = true
  · simp [hy, List.count]
  · simp [hy]

theorem count_pairsOf (xs : List V) (ys : List W) (x : V) (y : W) :
    (pairsOf xs ys).count (x, y) = xs.count x * ys.count y := by
  induction ys with
  | nil => rfl
  | cons y' ys ih =>
    unfold pairsOf at ih ⊢
    rw [List.flatMap_cons, List.count_append, ih, count_map_pair, List.count_cons]
    split <;> ring

theorem count_some_orNone (xs : List V) (x : V) : (orNone xs).count (some x) = xs.count x := by
  unfold orNone
  split
  next h =>
    rw [List.isEmpty_iff.1 h]
    rfl
  next =>
    rw [List.count, List.countP_map]
    rfl

/-- The single absent value is there exactly if there are no values. -/
theorem count_none_orNone (xs : List V) :
    (orNone xs).count none = if xs.isEmpty then 1 else 0 := by
  unfold orNone
  split
  next => rfl
  next =>
    rw [List.count, List.countP_map, List.countP_eq_zero]
    intro x _ hx
    cases hx

end Counting

section Spreading

variable {K V W V' W' A B C : Type}

/-- The rows of the records of two sides, read through `left` and `right`. -/
def pairsThrough (left : List V → List V') (right : List W → List W')
    (sides : List V × List W) : List (V' × W') :=
  pairsOf (left sides.1) (right sides.2)

/-- The rows of the records of three sides. -/
def triplesOf (sides : List A × List B × List C) : List (A × B × C) :=
  pairsOf sides.1 (pairsOf sides.2.1 sides.2.2)

theorem keyRows_eq_map (left : List V → List V') (right : List W → List W') (k : K) (vs : List V)
    (ws : List W) :
    keyRows left right k vs ws = (pairsThrough left right (vs, ws)).map fun row => (k, row) := by
  simp [keyRows, pairsThrough, pairsOf, List.map_flatMap, Function.comp_def]

theorem keyTriples_eq_map (k : K) (xs : List A) (ys : List B) (zs : List C) :
    keyTriples k xs ys zs = (triplesOf (xs, ys, zs)).map fun row => (k, row) := by
  simp [keyTriples, triplesOf, pairsOf, List.map_flatMap, List.flatMap_assoc, List.flatMap_map,
    Function.comp_def]

theorem flatMap_keyRows (left : List V → List V') (right : List W → List W')
    (entries : List (K × (List V × List W))) :
    (entries.flatMap fun g => keyRows left right g.1 g.2.1 g.2.2) =
      spread (pairsThrough left right) entries := by
  simp only [keyRows_eq_map]
  rfl

theorem flatMap_keyTriples (entries : List (K × (List A × List B × List C))) :
    (entries.flatMap fun g => keyTriples g.1 g.2.1 g.2.2.1 g.2.2.2) =
      spread triplesOf entries := by
  simp only [keyTriples_eq_map]
  rfl

variable (grouping : PairGrouping K V W) (a : List (K × V)) (b : List (K × W))

theorem innerJoin_eq_spread :
    innerJoin grouping a b = spread (pairsThrough id id) (cogroup grouping a b) :=
  (innerJoin_eq grouping a b).trans (flatMap_keyRows _ _ _)

theorem leftJoin_eq_spread :
    leftJoin grouping a b = spread (pairsThrough id orNone) (cogroup grouping a b) :=
  (leftJoin_eq grouping a b).trans (flatMap_keyRows _ _ _)

theorem rightJoin_eq_spread :
    rightJoin grouping a b = spread (pairsThrough orNone id) (cogroup grouping a b) :=
  (rightJoin_eq grouping a b).trans (flatMap_keyRows _ _ _)

theorem outerJoin_eq_spread :
    outerJoin grouping a b = spread (pairsThrough orNone orNone) (cogroup grouping a b) :=
  (outerJoin_eq grouping a b).trans (flatMap_keyRows _ _ _)

theorem innerJoin3_eq_spread (grouping : TripleGrouping K A B C) (a : List (K × A))
    (b : List (K × B)) (c : List (K × C)) :
    innerJoin3 grouping a b c = spread triplesOf (cogroup3 grouping a b c) :=
  (innerJoin3_eq grouping a b c).trans (flatMap_keyTriples _)

end Spreading

section Records

variable {K V W A B C : Type} [BEq K]

/-- Exactly one record per key of either input, with the values of both sides. -/
def EnumeratesPairs (a : List (K × V)) (b : List (K × W))
    (entries : List (K × (List V × List W))) : Prop :=
  Enumerates (fun k => isKeyOf k a = true ∨ isKeyOf k b = true)
    (fun k => (valuesOf k a, valuesOf k b)) entries

/-- Exactly one record per key of any of three inputs, with the values of all sides. -/
def EnumeratesTriples (a : List (K × A)) (b : List (K × B)) (c : List (K × C))
    (entries : List (K × (List A × List B × List C))) : Prop :=
  Enumerates (fun k => isKeyOf k a = true ∨ isKeyOf k b = true ∨ isKeyOf k c = true)
    (fun k => (valuesOf k a, valuesOf k b, valuesOf k c)) entries

variable [EquivBEq K]

theorem sides_congr (a : List (K × V)) (b : List (K × W)) {k k' : K} (h : (k == k') = true) :
    (valuesOf k a, valuesOf k b) = (valuesOf k' a, valuesOf k' b) := by
  rw [valuesOf_congr h a, valuesOf_congr h b]

theorem sides3_congr (a : List (K × A)) (b : List (K × B)) (c : List (K × C)) {k k' : K}
    (h : (k == k') = true) :
    (valuesOf k a, valuesOf k b, valuesOf k c) =
      (valuesOf k' a, valuesOf k' b, valuesOf k' c) := by
  rw [valuesOf_congr h a, valuesOf_congr h b, valuesOf_congr h c]

theorem EnumeratesPairs.same {a : List (K × V)} {b : List (K × W)}
    {entries entries' : List (K × (List V × List W))} (h : EnumeratesPairs a b entries)
    (h' : EnumeratesPairs a b entries') : SameUpToKeys entries entries' :=
  Enumerates.same (fun _ _ => sides_congr a b) h h'

theorem EnumeratesTriples.same {a : List (K × A)} {b : List (K × B)} {c : List (K × C)}
    {entries entries' : List (K × (List A × List B × List C))} (h : EnumeratesTriples a b c entries)
    (h' : EnumeratesTriples a b c entries') : SameUpToKeys entries entries' :=
  Enumerates.same (fun _ _ => sides3_congr a b c) h h'

section Counts

variable {V' W' : Type} [BEq V'] [BEq W'] {left : List V → List V'} {right : List W → List W'}
  {a : List (K × V)} {b : List (K × W)} {entries : List (K × (List V × List W))} {k : K}

theorem occurrences_of_key (h : EnumeratesPairs a b entries)
    (hk : isKeyOf k a = true ∨ isKeyOf k b = true) (v : V') (w : W') :
    occurrences k (v, w) (spread (pairsThrough left right) entries) =
      (left (valuesOf k a)).count v * (right (valuesOf k b)).count w := by
  have hvalues : valuesOf k entries = [(valuesOf k a, valuesOf k b)] :=
    Enumerates.valuesOf_of_isKey (fun _ _ => sides_congr a b) h hk
  rw [occurrences_eq_count, valuesOf_spread, hvalues, List.flatMap_singleton, pairsThrough,
    count_pairsOf]

/-- There are no rows under a key of neither side. -/
theorem occurrences_of_not_key (h : EnumeratesPairs a b entries)
    (hk : ¬ (isKeyOf k a = true ∨ isKeyOf k b = true)) (v : V') (w : W') :
    occurrences k (v, w) (spread (pairsThrough left right) entries) = 0 := by
  rw [occurrences_eq_count, valuesOf_spread, Enumerates.valuesOf_of_not_isKey h hk]
  rfl

/-- How often a row occurs that is not made of two empty sides. Only the row of two absent values
is, which an outer join would give for a key of neither side. -/
theorem occurrences_pairsThrough (h : EnumeratesPairs a b entries) {v : V'} {w : W'}
    (hempty : (left []).count v * (right []).count w = 0) (k : K) :
    occurrences k (v, w) (spread (pairsThrough left right) entries) =
      (left (valuesOf k a)).count v * (right (valuesOf k b)).count w := by
  by_cases hk : isKeyOf k a = true ∨ isKeyOf k b = true
  · exact occurrences_of_key h hk v w
  · have hsides := not_or.1 hk
    rw [occurrences_of_not_key h hk, valuesOf_of_isKeyOf_false hsides.1,
      valuesOf_of_isKeyOf_false hsides.2, hempty]

theorem occurrences_triplesOf {A B C : Type} [BEq A] [BEq B] [BEq C] {x : List (K × A)}
    {y : List (K × B)} {z : List (K × C)} {entries : List (K × (List A × List B × List C))}
    (h : EnumeratesTriples x y z entries) (k : K) (p : A) (q : B) (r : C) :
    occurrences k (p, q, r) (spread triplesOf entries) =
      occurrences k p x * occurrences k q y * occurrences k r z := by
  rw [occurrences_eq_count, valuesOf_spread]
  by_cases hk : isKeyOf k x = true ∨ isKeyOf k y = true ∨ isKeyOf k z = true
  · have hvalues : valuesOf k entries = [(valuesOf k x, valuesOf k y, valuesOf k z)] :=
      Enumerates.valuesOf_of_isKey (fun _ _ => sides3_congr x y z) h hk
    rw [hvalues, List.flatMap_singleton, triplesOf, count_pairsOf, count_pairsOf,
      ← occurrences_eq_count, ← occurrences_eq_count, ← occurrences_eq_count, Nat.mul_assoc]
  · rw [Enumerates.valuesOf_of_not_isKey h hk, occurrences_eq_zero (not_or.1 hk).1, Nat.zero_mul,
      Nat.zero_mul]
    rfl

end Counts

end Records

section Joins

section Counts

variable {K V W : Type} [BEq K] [BEq V] [BEq W] (a : List (K × V)) (b : List (K × W))

/-- How often every row of an inner join occurs. -/
structure InnerCounts (rows : List (K × (V × W))) : Prop where
  matched : ∀ k v w, occurrences k (v, w) rows = occurrences k v a * occurrences k w b

/-- How often every row of a left join occurs: those without an absent value as often as in the
inner join. -/
structure LeftCounts (rows : List (K × (V × Option W))) : Prop where
  matched : ∀ k v w, occurrences k (v, some w) rows = occurrences k v a * occurrences k w b
  unmatched : ∀ k v, occurrences k (v, none) rows = if isKeyOf k b then 0 else occurrences k v a

structure RightCounts (rows : List (K × (Option V × W))) : Prop where
  matched : ∀ k v w, occurrences k (some v, w) rows = occurrences k v a * occurrences k w b
  unmatched : ∀ k w, occurrences k (none, w) rows = if isKeyOf k a then 0 else occurrences k w b

/-- How often every row of an outer join occurs: as often as in the inner join, or as the unmatched
ones do in the left join and in the right join. -/
structure OuterCounts (rows : List (K × (Option V × Option W))) : Prop where
  matched : ∀ k v w, occurrences k (some v, some w) rows = occurrences k v a * occurrences k w b
  left : ∀ k v, occurrences k (some v, none) rows =
    if isKeyOf k b then 0 else occurrences k v a
  right : ∀ k w, occurrences k (none, some w) rows =
    if isKeyOf k a then 0 else occurrences k w b
  absent : ∀ k, occurrences k (none, none) rows = 0

/-- How often every row occurs in the joins of two inputs. -/
structure PairCounts (grouping : PairGrouping K V W) : Prop where
  inner : InnerCounts a b (innerJoin grouping a b)
  left : LeftCounts a b (leftJoin grouping a b)
  right : RightCounts a b (rightJoin grouping a b)
  outer : OuterCounts a b (outerJoin grouping a b)

end Counts

variable {K V W : Type} [BEq K] [BEq V] [BEq W]

/-- The absent value stands for a side without this key. -/
theorem count_none_of_key (k : K) (rows : List (K × V)) :
    (orNone (valuesOf k rows)).count none = if isKeyOf k rows then 0 else 1 := by
  rw [count_none_orNone]
  by_cases hk : isKeyOf k rows = true
  · rw [if_neg fun hempty => valuesOf_ne_nil hk (List.isEmpty_iff.1 hempty), if_pos hk]
  · rw [valuesOf_of_isKeyOf_false hk, if_neg hk]
    rfl

theorem count_mul_none_of_key (k : K) (v : V) (a : List (K × V)) (b : List (K × W)) :
    (valuesOf k a).count v * (orNone (valuesOf k b)).count none =
      if isKeyOf k b then 0 else occurrences k v a := by
  rw [count_none_of_key, occurrences_eq_count]
  split
  · exact Nat.mul_zero _
  · exact Nat.mul_one _

namespace EnumeratesPairs

variable [EquivBEq K] {grouping : PairGrouping K V W} {a : List (K × V)} {b : List (K × W)}

theorem innerCounts (h : EnumeratesPairs a b (cogroup grouping a b)) :
    InnerCounts a b (innerJoin grouping a b) where
  matched k v w := by
    rw [innerJoin_eq_spread, occurrences_pairsThrough h rfl, occurrences_eq_count,
      occurrences_eq_count]
    rfl

theorem leftCounts (h : EnumeratesPairs a b (cogroup grouping a b)) :
    LeftCounts a b (leftJoin grouping a b) where
  matched k v w := by
    rw [leftJoin_eq_spread, occurrences_pairsThrough h rfl, count_some_orNone,
      occurrences_eq_count, occurrences_eq_count]
    rfl
  unmatched k v := by
    rw [leftJoin_eq_spread, occurrences_pairsThrough h (Nat.zero_mul _)]
    exact count_mul_none_of_key k v a b

theorem rightCounts (h : EnumeratesPairs a b (cogroup grouping a b)) :
    RightCounts a b (rightJoin grouping a b) where
  matched k v w := by
    rw [rightJoin_eq_spread, occurrences_pairsThrough h rfl, count_some_orNone,
      occurrences_eq_count, occurrences_eq_count]
    rfl
  unmatched k w := by
    rw [rightJoin_eq_spread, occurrences_pairsThrough h (Nat.mul_zero _), Nat.mul_comm]
    exact count_mul_none_of_key k w b a

theorem outerCounts (h : EnumeratesPairs a b (cogroup grouping a b)) :
    OuterCounts a b (outerJoin grouping a b) where
  matched k v w := by
    rw [outerJoin_eq_spread, occurrences_pairsThrough h rfl, count_some_orNone,
      count_some_orNone, occurrences_eq_count, occurrences_eq_count]
  left k v := by
    rw [outerJoin_eq_spread, occurrences_pairsThrough h rfl, count_some_orNone]
    exact count_mul_none_of_key k v a b
  right k w := by
    rw [outerJoin_eq_spread, occurrences_pairsThrough h rfl, count_some_orNone, Nat.mul_comm]
    exact count_mul_none_of_key k w b a
  absent k := by
    rw [outerJoin_eq_spread]
    by_cases hk : isKeyOf k a = true ∨ isKeyOf k b = true
    · rw [occurrences_of_key h hk, count_none_of_key, count_none_of_key]
      rcases hk with hk | hk
      · rw [if_pos hk, Nat.zero_mul]
      · rw [if_pos hk, Nat.mul_zero]
    · exact occurrences_of_not_key h hk none none

theorem counts (h : EnumeratesPairs a b (cogroup grouping a b)) : PairCounts a b grouping :=
  ⟨h.innerCounts, h.leftCounts, h.rightCounts, h.outerCounts⟩

end EnumeratesPairs

section Triples

variable {A B C : Type} [BEq A] [BEq B] [BEq C]

/-- How often every row of an inner join of three inputs occurs. -/
structure InnerCounts3 (a : List (K × A)) (b : List (K × B)) (c : List (K × C))
    (rows : List (K × (A × B × C))) : Prop where
  matched : ∀ k x y z, occurrences k (x, y, z) rows =
    occurrences k x a * occurrences k y b * occurrences k z c

theorem EnumeratesTriples.innerCounts3 [EquivBEq K] {grouping : TripleGrouping K A B C}
    {a : List (K × A)} {b : List (K × B)} {c : List (K × C)}
    (h : EnumeratesTriples a b c (cogroup3 grouping a b c)) :
    InnerCounts3 a b c (innerJoin3 grouping a b c) where
  matched k x y z := by
    rw [innerJoin3_eq_spread]
    exact occurrences_triplesOf h k x y z

end Triples

end Joins

section Kinds

variable {β : Type} [Basis β] {k v w a b c : ElementType β}

/-- What the rows of a join have to be apart from their order: one record per key in a co-group,
and every row so many times in the other joins, however its values are compared. -/
def PairJoin.AreRows (kind : PairJoin) (x : List (k.Carrier × v.Carrier))
    (y : List (k.Carrier × w.Carrier)) (rows : List (k.Carrier × (kind.payload v w).Carrier)) :
    Prop :=
  match kind with
  | .cogroup => EnumeratesPairs x y rows
  | .inner => ∀ (_ : BEq v.Carrier) (_ : BEq w.Carrier), InnerCounts x y rows
  | .left => ∀ (_ : BEq v.Carrier) (_ : BEq w.Carrier), LeftCounts x y rows
  | .right => ∀ (_ : BEq v.Carrier) (_ : BEq w.Carrier), RightCounts x y rows
  | .outer => ∀ (_ : BEq v.Carrier) (_ : BEq w.Carrier), OuterCounts x y rows

def TripleJoin.AreRows (kind : TripleJoin) (x : List (k.Carrier × a.Carrier))
    (y : List (k.Carrier × b.Carrier)) (z : List (k.Carrier × c.Carrier))
    (rows : List (k.Carrier × (kind.payload a b c).Carrier)) : Prop :=
  match kind with
  | .cogroup3 => EnumeratesTriples x y z rows
  | .inner3 => ∀ (_ : BEq a.Carrier) (_ : BEq b.Carrier) (_ : BEq c.Carrier),
    InnerCounts3 x y z rows

theorem PairJoin.areRows (kind : PairJoin)
    {grouping : PairGrouping k.Carrier v.Carrier w.Carrier} {x : List (k.Carrier × v.Carrier)}
    {y : List (k.Carrier × w.Carrier)}
    (h : EnumeratesPairs x y (JoinPipeline.cogroup grouping x y)) :
    kind.AreRows x y (kind.rows grouping x y) := by
  cases kind with
  | cogroup => exact h
  | inner => exact fun _ _ => h.innerCounts
  | left => exact fun _ _ => h.leftCounts
  | right => exact fun _ _ => h.rightCounts
  | outer => exact fun _ _ => h.outerCounts

theorem TripleJoin.areRows (kind : TripleJoin)
    {grouping : TripleGrouping k.Carrier a.Carrier b.Carrier c.Carrier}
    {x : List (k.Carrier × a.Carrier)} {y : List (k.Carrier × b.Carrier)}
    {z : List (k.Carrier × c.Carrier)}
    (h : EnumeratesTriples x y z (JoinPipeline.cogroup3 grouping x y z)) :
    kind.AreRows x y z (kind.rows grouping x y z) := by
  cases kind with
  | cogroup3 => exact h
  | inner3 => exact fun _ _ _ => h.innerCounts3

end Kinds

end JoinPipeline
