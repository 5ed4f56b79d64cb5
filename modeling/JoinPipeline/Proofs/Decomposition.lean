import JoinPipeline.Proofs.FirstMet

/-!
# Joins made up of one another

The joins of two inputs differ only in what they do about keys that one side lacks. Without the
rows that have an absent side, a one-sided or outer join is the inner join, however its groups are
listed. An outer join is the left join and behind it what the right join has without a left value:
keys that only the right input has come after all keys of the left one, so that nothing has to be
moved. Keys may be compared by any equivalence that hashes agree with.
-/

namespace JoinPipeline

section Unwrapping

variable {K V W V' W' : Type}

/-- The row with its left value marked as present. -/
def someLeft (row : K × (V × W)) : K × (Option V × W) := (row.1, (some row.2.1, row.2.2))

/-- The row with its right value marked as present. -/
def someRight (row : K × (V × W)) : K × (V × Option W) := (row.1, (row.2.1, some row.2.2))

/-- The row with both of its sides unwrapped, if neither of them is absent. -/
def unwrap (left : V' → Option V) (right : W' → Option W) (row : K × (V' × W')) :
    Option (K × (V × W)) :=
  (left row.2.1).bind fun v => (right row.2.2).map fun w => (row.1, (v, w))

/-- Whether the row has no left value. -/
def lacksLeft (row : K × (Option V × W)) : Bool := row.2.1.isNone

/-- Unwrapping all pairs of two lists gives all pairs of what is present in them. -/
theorem filterMap_unwrap_pairs (f : V' → Option V) (g : W' → Option W) (k : K) (vs : List V')
    (ws : List W') :
    (keyRows id id k vs ws).filterMap (unwrap f g) =
      keyRows id id k (vs.filterMap f) (ws.filterMap g) := by
  simp only [keyRows, id_eq]
  induction ws with
  | nil => rfl
  | cons w ws ih =>
    rw [List.flatMap_cons, List.filterMap_append, ih, List.filterMap_map]
    cases hw : g w with
    | none => simp [unwrap, hw, Function.comp_def]
    | some w' =>
      have hrow : ∀ v, unwrap f g (k, (v, w)) = (f v).map fun v' => (k, (v', w')) := by
        intro v
        cases hv : f v with
        | none => simp [unwrap, hv]
        | some v' => simp [unwrap, hw, hv]
      have hfirst : vs.filterMap (unwrap f g ∘ fun v => (k, (v, w))) =
          (vs.filterMap f).map fun v' => (k, (v', w')) := by
        rw [List.map_filterMap]
        exact List.filterMap_congr fun v _ => hrow v
      rw [hfirst, List.filterMap_cons_some hw, List.flatMap_cons]

/-- Where unwrapping undoes how the sides of a join are read, it leaves the rows of the inner
join. -/
theorem filterMap_unwrap_records {left : List V → List V'} {right : List W → List W'}
    {f : V' → Option V} {g : W' → Option W} (hleft : ∀ vs, (left vs).filterMap f = vs)
    (hright : ∀ ws, (right ws).filterMap g = ws) (entries : List (K × (List V × List W))) :
    (entries.flatMap fun e => keyRows left right e.1 e.2.1 e.2.2).filterMap (unwrap f g) =
      entries.flatMap fun e => keyRows id id e.1 e.2.1 e.2.2 := by
  rw [List.filterMap_flatMap]
  refine List.flatMap_congr fun e _ => ?_
  have hpairs := filterMap_unwrap_pairs f g e.1 (left e.2.1) (right e.2.2)
  rw [hleft, hright] at hpairs
  exact hpairs

theorem filterMap_orNone (values : List V) : (orNone values).filterMap id = values := by
  unfold orNone
  split
  next h => simp [List.isEmpty_iff.1 h]
  next => simp

variable (grouping : PairGrouping K V W) (a : List (K × V)) (b : List (K × W))

theorem leftJoin_unwrap :
    (leftJoin grouping a b).filterMap (unwrap some id) = innerJoin grouping a b := by
  rw [leftJoin_eq, innerJoin_eq]
  exact filterMap_unwrap_records (fun _ => List.filterMap_some) filterMap_orNone _

theorem rightJoin_unwrap :
    (rightJoin grouping a b).filterMap (unwrap id some) = innerJoin grouping a b := by
  rw [rightJoin_eq, innerJoin_eq]
  exact filterMap_unwrap_records filterMap_orNone (fun _ => List.filterMap_some) _

theorem outerJoin_unwrap :
    (outerJoin grouping a b).filterMap (unwrap id id) = innerJoin grouping a b := by
  rw [outerJoin_eq, innerJoin_eq]
  exact filterMap_unwrap_records filterMap_orNone filterMap_orNone _

end Unwrapping

section Sides

variable {K V W V' W' : Type}

theorem orNone_of_ne_nil {values : List V} (h : values ≠ []) : orNone values = values.map some := by
  simp [orNone, h]

/-- A key that the left input has gives no row without a left value. -/
theorem keyRows_someLeft (right : List W → List W') (k : K) {vs : List V} (h : vs ≠ [])
    (ws : List W) :
    keyRows orNone right k vs ws = (keyRows id right k vs ws).map someLeft := by
  simp [keyRows, orNone_of_ne_nil h, List.map_flatMap, Function.comp_def, someLeft]

theorem filter_lacksLeft_someLeft (rows : List (K × (V × W))) :
    (rows.map someLeft).filter lacksLeft = [] := by
  refine List.filter_eq_nil_iff.2 fun row hrow => ?_
  obtain ⟨_, _, rfl⟩ := List.mem_map.1 hrow
  simp [lacksLeft, someLeft]

/-- A key that the left input lacks gives rows without a left value only. -/
theorem filter_lacksLeft_keyRows_nil (right : List W → List W') (k : K) (ws : List W) :
    (keyRows (orNone : List V → _) right k [] ws).filter lacksLeft =
      keyRows orNone right k [] ws := by
  refine List.filter_eq_self.2 fun row hrow => ?_
  obtain ⟨w, _, hmem⟩ := List.mem_flatMap.1 hrow
  obtain ⟨v, hv, rfl⟩ := List.mem_map.1 hmem
  have hnone : v = none := by simpa [orNone] using hv
  rw [hnone]
  rfl

theorem keyRows_someRight (left : List V → List V') (k : K) (vs : List V) {ws : List W}
    (h : ws ≠ []) :
    keyRows left orNone k vs ws = (keyRows left id k vs ws).map someRight := by
  simp [keyRows, orNone_of_ne_nil h, List.map_flatMap, List.flatMap_map, Function.comp_def,
    someRight]

variable [BEq K] [EquivBEq K]

theorem valuesOf_ne_nil_of_mem {a : List (K × V)} {k : K} (hk : k ∈ a.map Prod.fst) :
    valuesOf k a ≠ [] := by
  intro hnil
  have hnone := List.any_eq_false.1 ((valuesOf_eq_nil_iff k a).1 hnil) k hk
  exact hnone BEq.rfl

/-- The rows of a join: those of the keys of the left input, and behind them those of the keys
that only the right input has. -/
theorem pairRows_eq_append (left : List V → List V') (right : List W → List W')
    (a : List (K × V)) (b : List (K × W)) :
    pairRows left right a b =
      ((a.map Prod.fst).eraseDups.flatMap fun k =>
        keyRows left right k (valuesOf k a) (valuesOf k b)) ++
      ((b.map Prod.fst).eraseDups.filter fun k => !(a.map Prod.fst).any (· == k)).flatMap fun k =>
        keyRows left right k [] (valuesOf k b) := by
  rw [pairRows, eraseDups_append, List.flatMap_append]
  congr 1
  refine List.flatMap_congr fun k hk => ?_
  have hnew : valuesOf k a = [] := by
    rw [valuesOf_eq_nil_iff]
    simpa using (List.mem_filter.1 hk).2
  rw [hnew]

/-- The rows of an outer join are those of the left join, followed by the rows of the right join
that lack a left value. -/
theorem pairRows_outer_eq (a : List (K × V)) (b : List (K × W)) :
    pairRows orNone orNone a b =
      (pairRows id orNone a b).map someLeft ++
        ((pairRows orNone id a b).filter lacksLeft).map someRight := by
  let keys : List K := (a.map Prod.fst).eraseDups
  let newKeys : List K :=
    (b.map Prod.fst).eraseDups.filter fun k => !(a.map Prod.fst).any (· == k)
  -- A key of the left input gives no row without a left value; a key that only the right input has
  -- gives no other rows. So each of the two lists keeps its part of the rows and nothing else.
  have hvalues : ∀ k ∈ keys, valuesOf k a ≠ [] := fun k hk =>
    valuesOf_ne_nil_of_mem (eraseDups_subset _ hk)
  have hnewValues : ∀ k ∈ newKeys, valuesOf k b ≠ [] := fun k hk =>
    valuesOf_ne_nil_of_mem (eraseDups_subset _ (List.mem_filter.1 hk).1)
  have hleft : (pairRows id orNone a b).map someLeft =
      keys.flatMap fun k => keyRows orNone orNone k (valuesOf k a) (valuesOf k b) := by
    have hnone : (newKeys.flatMap fun k =>
        keyRows (id : List V → _) orNone k [] (valuesOf k b)) = [] :=
      List.flatMap_eq_nil_iff.2 fun k _ => by simp [keyRows]
    rw [pairRows_eq_append, hnone, List.append_nil, List.map_flatMap]
    exact List.flatMap_congr fun k hk => (keyRows_someLeft _ k (hvalues k hk) _).symm
  have hright : ((pairRows orNone id a b).filter lacksLeft).map someRight =
      newKeys.flatMap fun k => keyRows orNone orNone k [] (valuesOf k b) := by
    have hnone : (keys.flatMap fun k =>
        (keyRows orNone id k (valuesOf k a) (valuesOf k b)).filter lacksLeft) = [] := by
      refine List.flatMap_eq_nil_iff.2 fun k hk => ?_
      rw [keyRows_someLeft _ k (hvalues k hk), filter_lacksLeft_someLeft]
    rw [pairRows_eq_append, List.filter_append, List.filter_flatMap, List.filter_flatMap, hnone,
      List.nil_append, List.map_flatMap]
    refine List.flatMap_congr fun k hk => ?_
    rw [filter_lacksLeft_keyRows_nil, keyRows_someRight _ k _ (hnewValues k hk)]
  rw [hleft, hright]
  exact pairRows_eq_append orNone orNone a b

end Sides

/-- Four joins of the same inputs that make up one another, row for row. -/
structure Decomposes {K V W : Type} (inner : List (K × (V × W))) (left : List (K × (V × Option W)))
    (right : List (K × (Option V × W))) (outer : List (K × (Option V × Option W))) : Prop where
  outer_eq : outer = left.map someLeft ++ (right.filter lacksLeft).map someRight
  left_unwrap : left.filterMap (unwrap some id) = inner
  right_unwrap : right.filterMap (unwrap id some) = inner
  outer_unwrap : outer.filterMap (unwrap id id) = inner

/-- Where keys come as they are first met, the joins of two inputs make up one another, and so do
the rows of the co-groups that make them. -/
theorem joins_decompose :
    (∀ {K V W : Type} [BEq K] [Hashable K] [EquivBEq K] [LawfulHashable K] (a : List (K × V))
      (b : List (K × W)),
      Decomposes (innerJoin groupTagged a b) (leftJoin groupTagged a b) (rightJoin groupTagged a b)
        (outerJoin groupTagged a b)) ∧
    ∀ {β : Type} [Basis β] (k v w : ElementType β) (name : PairJoin → String)
      (scheme : PairJoin → HashScheme β) (a : List (k.Carrier × v.Carrier))
      (b : List (k.Carrier × w.Carrier)),
      ∃ inner left right outer, Decomposes inner left right outer ∧
        (Grouper.firstMet.pairStep (name .inner) .inner k v w).exec (scheme .inner)
            [⟨.pair k v, a⟩, ⟨.pair k w, b⟩] = .ok ⟨.pair k (.pair v w), inner⟩ ∧
        (Grouper.firstMet.pairStep (name .left) .left k v w).exec (scheme .left)
            [⟨.pair k v, a⟩, ⟨.pair k w, b⟩] = .ok ⟨.pair k (.pair v (.option w)), left⟩ ∧
        (Grouper.firstMet.pairStep (name .right) .right k v w).exec (scheme .right)
            [⟨.pair k v, a⟩, ⟨.pair k w, b⟩] = .ok ⟨.pair k (.pair (.option v) w), right⟩ ∧
        (Grouper.firstMet.pairStep (name .outer) .outer k v w).exec (scheme .outer)
            [⟨.pair k v, a⟩, ⟨.pair k w, b⟩] =
          .ok ⟨.pair k (.pair (.option v) (.option w)), outer⟩ := by
  have hrows : ∀ {K V W : Type} [BEq K] [Hashable K] [EquivBEq K] [LawfulHashable K]
      (a : List (K × V)) (b : List (K × W)),
      Decomposes (innerJoin groupTagged a b) (leftJoin groupTagged a b) (rightJoin groupTagged a b)
        (outerJoin groupTagged a b) := by
    intro K V W _ _ _ _ a b
    constructor
    · rw [outerJoin_groupTagged, leftJoin_groupTagged, rightJoin_groupTagged]
      exact pairRows_outer_eq a b
    · exact leftJoin_unwrap groupTagged a b
    · exact rightJoin_unwrap groupTagged a b
    · exact outerJoin_unwrap groupTagged a b
  refine ⟨hrows, ?_⟩
  intro β _ k v w name scheme a b
  have hexec := fun kind =>
    Grouper.firstMet.pairStep_exec (name kind) kind (scheme kind) (k := k) (v := v) (w := w) a b
  exact ⟨_, _, _, _, hrows a b, hexec .inner, hexec .left, hexec .right, hexec .outer⟩

theorem joins_decompose_sample :
    outerJoin groupTagged [(2, "a"), (1, "b")] [(3, true), (2, false), (2, true)] =
      [(2, some "a", some false), (2, some "a", some true), (1, some "b", none)] ++
        [(3, none, some true)] ∧
    (outerJoin groupTagged [(2, "a"), (1, "b")] [(3, true), (2, false), (2, true)]).filterMap
      (unwrap id id) = [(2, "a", false), (2, "a", true)] := by
  have hsample := joins_decompose.1 [(2, "a"), (1, "b")] [(3, true), (2, false), (2, true)]
  constructor
  · rw [hsample.outer_eq, leftJoin_groupTagged, rightJoin_groupTagged]
    rfl
  · rw [hsample.outer_unwrap, innerJoin_groupTagged]
    rfl

end JoinPipeline
