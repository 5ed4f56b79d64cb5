import JoinPipeline.Join
import JoinPipeline.Proofs.Buckets

/-!
# Records and rows of joins

What a join has to give, on plain lists: for every distinct key of any input, in the order in which
the keys are first met, the values of the key on every side, and the rows that are made of them.
A join whose groups are those of its inputs gives exactly these records and rows; one whose groups
come in another order gives them key by key in that order.
-/

namespace JoinPipeline

section Specification

variable {K V W V' W' A B C : Type}

/-- The values of a side that need not have any: a single absent value if there are none. -/
def orNone (values : List V) : List (Option V) :=
  if values.isEmpty then [none] else values.map some

/-- The rows of one key: the right side is in the outer loop and the left side in the inner one. -/
def keyRows (left : List V → List V') (right : List W → List W') (k : K) (vs : List V)
    (ws : List W) : List (K × (V' × W')) :=
  (right ws).flatMap fun w => (left vs).map fun v => (k, (v, w))

/-- The rows of one key of three inputs, the last of which is in the outermost loop. -/
def keyTriples (k : K) (xs : List A) (ys : List B) (zs : List C) : List (K × (A × B × C)) :=
  zs.flatMap fun z => ys.flatMap fun y => xs.map fun x => (k, (x, y, z))

variable [BEq K]

/-- The distinct keys of two inputs with the values on either side. -/
def records (a : List (K × V)) (b : List (K × W)) : List (K × (List V × List W)) :=
  (a.map Prod.fst ++ b.map Prod.fst).eraseDups.map fun k => (k, (valuesOf k a, valuesOf k b))

/-- The distinct keys of three inputs with the values on every side. -/
def records3 (a : List (K × A)) (b : List (K × B)) (c : List (K × C)) :
    List (K × (List A × List B × List C)) :=
  (a.map Prod.fst ++ (b.map Prod.fst ++ c.map Prod.fst)).eraseDups.map fun k =>
    (k, (valuesOf k a, valuesOf k b, valuesOf k c))

/-- The rows of all keys of two inputs. -/
def pairRows (left : List V → List V') (right : List W → List W') (a : List (K × V))
    (b : List (K × W)) : List (K × (V' × W')) :=
  (a.map Prod.fst ++ b.map Prod.fst).eraseDups.flatMap fun k =>
    keyRows left right k (valuesOf k a) (valuesOf k b)

/-- The rows of all keys of three inputs. -/
def tripleRows (a : List (K × A)) (b : List (K × B)) (c : List (K × C)) :
    List (K × (A × B × C)) :=
  (a.map Prod.fst ++ (b.map Prod.fst ++ c.map Prod.fst)).eraseDups.flatMap fun k =>
    keyTriples k (valuesOf k a) (valuesOf k b) (valuesOf k c)

end Specification

section Untagging

variable {V W : Type}

@[simp] theorem filterMap_getLeft_inl (vs : List V) :
    (vs.map (.inl : V → V ⊕ W)).filterMap Sum.getLeft? = vs := by
  induction vs with
  | nil => rfl
  | cons v vs ih => simpa using ih

@[simp] theorem filterMap_getLeft_inr (ws : List W) :
    (ws.map (.inr : W → V ⊕ W)).filterMap Sum.getLeft? = [] := by
  simp

@[simp] theorem filterMap_getRight_inl (vs : List V) :
    (vs.map (.inl : V → V ⊕ W)).filterMap Sum.getRight? = [] := by
  simp

@[simp] theorem filterMap_getRight_inr (ws : List W) :
    (ws.map (.inr : W → V ⊕ W)).filterMap Sum.getRight? = ws := by
  induction ws with
  | nil => rfl
  | cons w ws ih => simpa using ih

@[simp] theorem lefts_nil : lefts ([] : List (List (V ⊕ W))) = [] := rfl

@[simp] theorem rights_nil : rights ([] : List (List (V ⊕ W))) = [] := rfl

@[simp] theorem lefts_cons (slot : List (V ⊕ W)) (slots : List (List (V ⊕ W))) :
    lefts (slot :: slots) = slot.filterMap Sum.getLeft? ++ lefts slots := by
  simp [lefts]

@[simp] theorem rights_cons (slot : List (V ⊕ W)) (slots : List (List (V ⊕ W))) :
    rights (slot :: slots) = slot.filterMap Sum.getRight? ++ rights slots := by
  simp [rights]

end Untagging

section Tags

variable {K V W : Type}

theorem keys_tagLeft (a : List (K × V)) :
    (tagLeft a : List (K × (V ⊕ W))).map Prod.fst = a.map Prod.fst := by
  simp [tagLeft]

theorem keys_tagRight (b : List (K × W)) :
    (tagRight b : List (K × (V ⊕ W))).map Prod.fst = b.map Prod.fst := by
  simp [tagRight]

variable [BEq K]

theorem valuesOf_tagLeft (k : K) (a : List (K × V)) :
    valuesOf k (tagLeft a : List (K × (V ⊕ W))) = (valuesOf k a).map .inl :=
  valuesOf_map_snd k _ a

theorem valuesOf_tagRight (k : K) (b : List (K × W)) :
    valuesOf k (tagRight b : List (K × (V ⊕ W))) = (valuesOf k b).map .inr :=
  valuesOf_map_snd k _ b

end Tags

section Groups

variable {K V W A B C : Type} [BEq K]

/-- The slots of a key of two tagged inputs, untagged. -/
theorem untag_slots (k : K) (a : List (K × V)) (b : List (K × W)) :
    (lefts ([tagLeft a, tagRight b].map (valuesOf k)),
      rights ([tagLeft a, tagRight b].map (valuesOf k))) = (valuesOf k a, valuesOf k b) := by
  simp only [List.map_cons, List.map_nil, valuesOf_tagLeft, valuesOf_tagRight, lefts_cons,
    lefts_nil, rights_cons, rights_nil, filterMap_getLeft_inl, filterMap_getLeft_inr,
    filterMap_getRight_inl, filterMap_getRight_inr, List.nil_append, List.append_nil]

/-- The slots of a key of three tagged inputs, untagged. -/
theorem untag_slots3 (k : K) (a : List (K × A)) (b : List (K × B)) (c : List (K × C)) :
    (lefts ([tagLeft a, tagRight (tagLeft b), tagRight (tagRight c)].map (valuesOf k)),
      lefts [rights ([tagLeft a, tagRight (tagLeft b), tagRight (tagRight c)].map (valuesOf k))],
      rights [rights ([tagLeft a, tagRight (tagLeft b), tagRight (tagRight c)].map
        (valuesOf k))]) = (valuesOf k a, valuesOf k b, valuesOf k c) := by
  simp only [List.map_cons, List.map_nil, valuesOf_tagLeft, valuesOf_tagRight, lefts_cons,
    lefts_nil, rights_cons, rights_nil, filterMap_getLeft_inl, filterMap_getLeft_inr,
    filterMap_getRight_inl, filterMap_getRight_inr, List.filterMap_append, List.nil_append,
    List.append_nil]

/-- The groups of two tagged inputs, untagged. -/
theorem untag_groupsOf (a : List (K × V)) (b : List (K × W)) :
    ((groupsOf [tagLeft a, tagRight b]).map fun g => (g.1, (lefts g.2, rights g.2))) =
      records a b := by
  unfold groupsOf records
  simp only [List.flatten_cons, List.flatten_nil, List.append_nil, List.map_append, keys_tagLeft,
    keys_tagRight, List.map_map]
  exact List.map_congr_left fun k _ => congrArg (Prod.mk k) (untag_slots k a b)

/-- The groups of three tagged inputs, untagged. -/
theorem untag_groupsOf3 (a : List (K × A)) (b : List (K × B)) (c : List (K × C)) :
    ((groupsOf [tagLeft a, tagRight (tagLeft b), tagRight (tagRight c)]).map fun g =>
      (g.1, (lefts g.2, lefts [rights g.2], rights [rights g.2]))) = records3 a b c := by
  unfold groupsOf records3
  simp only [List.flatten_cons, List.flatten_nil, List.append_nil, List.map_append, keys_tagLeft,
    keys_tagRight, List.map_map]
  exact List.map_congr_left fun k _ => congrArg (Prod.mk k) (untag_slots3 k a b c)

/-- Groups of the inputs in whatever order give the records in that order. -/
theorem cogroup_perm {grouping : PairGrouping K V W} {a : List (K × V)} {b : List (K × W)}
    (h : (grouping [tagLeft a, tagRight b]).Perm (groupsOf [tagLeft a, tagRight b])) :
    (cogroup grouping a b).Perm (records a b) := by
  rw [← untag_groupsOf]
  exact h.map _

theorem cogroup_eq {grouping : PairGrouping K V W} {a : List (K × V)} {b : List (K × W)}
    (h : grouping [tagLeft a, tagRight b] = groupsOf [tagLeft a, tagRight b]) :
    cogroup grouping a b = records a b := by
  rw [← untag_groupsOf, ← h]
  rfl

theorem cogroup3_perm {grouping : TripleGrouping K A B C} {a : List (K × A)} {b : List (K × B)}
    {c : List (K × C)}
    (h : (grouping [tagLeft a, tagRight (tagLeft b), tagRight (tagRight c)]).Perm
      (groupsOf [tagLeft a, tagRight (tagLeft b), tagRight (tagRight c)])) :
    (cogroup3 grouping a b c).Perm (records3 a b c) := by
  rw [← untag_groupsOf3]
  exact h.map _

theorem cogroup3_eq {grouping : TripleGrouping K A B C} {a : List (K × A)} {b : List (K × B)}
    {c : List (K × C)}
    (h : grouping [tagLeft a, tagRight (tagLeft b), tagRight (tagRight c)] =
      groupsOf [tagLeft a, tagRight (tagLeft b), tagRight (tagRight c)]) :
    cogroup3 grouping a b c = records3 a b c := by
  rw [← untag_groupsOf3, ← h]
  rfl

end Groups

section Buckets

variable {K V W : Type} [BEq K] [EquivBEq K] [Hashable K] [LawfulHashable K] {hash : K → Nat}

/-- Buckets list the records of their keys one bucket after another. -/
theorem cogroup_groupBucketed (hhash : ∀ x y, (x == y) = true → hash x = hash y) (buckets : Nat)
    (a : List (K × V)) (b : List (K × W)) :
    cogroup (groupBucketed hash buckets) a b = (List.range buckets).flatMap fun bucket =>
      (records a b).filter fun record => hash record.1 % buckets = bucket := by
  unfold cogroup
  rw [groupBucketed_eq hhash, ← untag_groupsOf, List.map_flatMap]
  refine List.flatMap_congr fun bucket _ => ?_
  rw [List.filter_map]
  rfl

end Buckets

section Rows

variable {K V W A B C : Type}

/-- The optional side of a join reads its values through a feed that is never empty. -/
theorem orAbsent_eq_orNone : @orAbsent V = orNone := by
  funext values
  exact orAbsent_eq values

variable (grouping : PairGrouping K V W) (a : List (K × V)) (b : List (K × W))

theorem innerJoin_eq : innerJoin grouping a b =
    (cogroup grouping a b).flatMap fun g => keyRows id id g.1 g.2.1 g.2.2 := rfl

theorem leftJoin_eq : leftJoin grouping a b =
    (cogroup grouping a b).flatMap fun g => keyRows id orNone g.1 g.2.1 g.2.2 := by
  unfold leftJoin
  rw [orAbsent_eq_orNone]
  rfl

theorem rightJoin_eq : rightJoin grouping a b =
    (cogroup grouping a b).flatMap fun g => keyRows orNone id g.1 g.2.1 g.2.2 := by
  unfold rightJoin
  rw [orAbsent_eq_orNone]
  rfl

theorem outerJoin_eq : outerJoin grouping a b =
    (cogroup grouping a b).flatMap fun g => keyRows orNone orNone g.1 g.2.1 g.2.2 := by
  unfold outerJoin
  rw [orAbsent_eq_orNone, orAbsent_eq_orNone]
  rfl

theorem innerJoin3_eq (grouping : TripleGrouping K A B C) (a : List (K × A)) (b : List (K × B))
    (c : List (K × C)) : innerJoin3 grouping a b c =
      (cogroup3 grouping a b c).flatMap fun g => keyTriples g.1 g.2.1 g.2.2.1 g.2.2.2 := rfl

end Rows

section Expansion

variable {K V W V' W' A B C : Type} [BEq K]

theorem flatMap_records (left : List V → List V') (right : List W → List W') (a : List (K × V))
    (b : List (K × W)) :
    ((records a b).flatMap fun g => keyRows left right g.1 g.2.1 g.2.2) =
      pairRows left right a b := by
  unfold records pairRows
  rw [List.flatMap_map]

theorem flatMap_records3 (a : List (K × A)) (b : List (K × B)) (c : List (K × C)) :
    ((records3 a b c).flatMap fun g => keyTriples g.1 g.2.1 g.2.2.1 g.2.2.2) =
      tripleRows a b c := by
  unfold records3 tripleRows
  rw [List.flatMap_map]

end Expansion

section Kinds

variable {β : Type} [Basis β] {k v w a b c : ElementType β}

/-- The rows a join makes of the record of a key. -/
def PairJoin.expand (kind : PairJoin)
    (record : k.Carrier × (List v.Carrier × List w.Carrier)) :
    List (k.Carrier × (kind.payload v w).Carrier) :=
  match kind with
  | .cogroup => [record]
  | .inner => keyRows id id record.1 record.2.1 record.2.2
  | .left => keyRows id orNone record.1 record.2.1 record.2.2
  | .right => keyRows orNone id record.1 record.2.1 record.2.2
  | .outer => keyRows orNone orNone record.1 record.2.1 record.2.2

def TripleJoin.expand (kind : TripleJoin)
    (record : k.Carrier × (List a.Carrier × List b.Carrier × List c.Carrier)) :
    List (k.Carrier × (kind.payload a b c).Carrier) :=
  match kind with
  | .cogroup3 => [record]
  | .inner3 => keyTriples record.1 record.2.1 record.2.2.1 record.2.2.2

/-- A join expands the records of its co-group one after another. -/
theorem PairJoin.rows_eq (kind : PairJoin)
    (grouping : PairGrouping k.Carrier v.Carrier w.Carrier) (x : List (k.Carrier × v.Carrier))
    (y : List (k.Carrier × w.Carrier)) :
    kind.rows grouping x y = (JoinPipeline.cogroup grouping x y).flatMap kind.expand := by
  cases kind with
  | cogroup => exact (List.flatMap_singleton' _).symm
  | inner => exact innerJoin_eq grouping x y
  | left => exact leftJoin_eq grouping x y
  | right => exact rightJoin_eq grouping x y
  | outer => exact outerJoin_eq grouping x y

theorem TripleJoin.rows_eq (kind : TripleJoin)
    (grouping : TripleGrouping k.Carrier a.Carrier b.Carrier c.Carrier)
    (x : List (k.Carrier × a.Carrier)) (y : List (k.Carrier × b.Carrier))
    (z : List (k.Carrier × c.Carrier)) :
    kind.rows grouping x y z = (JoinPipeline.cogroup3 grouping x y z).flatMap kind.expand := by
  cases kind with
  | cogroup3 => exact (List.flatMap_singleton' _).symm
  | inner3 => exact innerJoin3_eq grouping x y z

end Kinds

end JoinPipeline
