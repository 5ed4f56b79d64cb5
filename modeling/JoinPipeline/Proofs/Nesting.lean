import JoinPipeline.Proofs.Contract
import JoinPipeline.Proofs.FirstMet

/-!
# Joins of three inputs and nested joins

A join of three inputs groups once, and the join of a join groups twice: the second grouping sees
the records or rows of the first one as its left input. Both list the same rows in the same order.
The first grouping has put its keys in the order in which they are first met, so that meeting them
once more does not move them, and what it has put under a key is all that is needed of the two
inputs it has seen. Keys may be compared by any equivalence that hashes agree with.
-/

namespace JoinPipeline

section Distinct

variable {K : Type} [BEq K] [EquivBEq K]

/-- Distinct keys are their own distinct keys. -/
theorem eraseDups_eq_self {ks : List K} (h : ks.Pairwise fun a b => (a == b) = false) :
    ks.eraseDups = ks := by
  induction ks using List.reverseRecOn with
  | nil => rfl
  | append_singleton ks k ih =>
    obtain ⟨hks, _, hlast⟩ := List.pairwise_append.1 h
    have hnew : ks.any (· == k) = false := by
      refine List.any_eq_false.2 fun a ha => ?_
      rw [hlast a ha k List.mem_cons_self]
      exact Bool.false_ne_true
    rw [eraseDups_concat, hnew, if_neg Bool.false_ne_true, ih hks]

/-- It makes no difference whether keys in front have been made distinct before. -/
theorem eraseDups_eraseDups_append (ks more : List K) :
    (ks.eraseDups ++ more).eraseDups = (ks ++ more).eraseDups := by
  rw [eraseDups_append, eraseDups_append, eraseDups_eq_self (pairwise_eraseDups ks)]
  simp only [any_eraseDups]

/-- Any number of copies of a new key, behind other keys, counts once. -/
theorem eraseDups_append_replicate {ks : List K} {k : K} (h : ks.any (· == k) = false) (n : Nat) :
    (ks ++ List.replicate n k).eraseDups = ks.eraseDups ++ if n = 0 then [] else [k] := by
  induction n with
  | zero => simp
  | succ n ih =>
    rw [List.replicate_succ', ← List.append_assoc, eraseDups_concat, ih, List.any_append, h,
      Bool.false_or]
    cases n with
    | zero => simp
    | succ n => simp

/-- Of a class of keys only those in front matter that are in the class. -/
theorem filter_eraseDups_append {p : K → Bool} (hp : ∀ a b, (a == b) = true → p a = p b)
    {ks ks' : List K} (h : ks.eraseDups.filter p = ks'.eraseDups.filter p) (more : List K) :
    (ks ++ more).eraseDups.filter p = (ks' ++ more).eraseDups.filter p := by
  have hfront : ∀ l : List K, (l ++ more).eraseDups.filter p =
      (l.eraseDups.filter p ++ more.filter p).eraseDups := by
    intro l
    rw [← eraseDups_filter hp, ← eraseDups_filter hp, List.filter_append,
      eraseDups_eraseDups_append]
  rw [hfront, hfront, h]

end Distinct

section Rows

variable {K T R A B C : Type}

theorem keys_spread_concat (rows : T → List R) (entries : List (K × T)) (last : K × T) :
    (spread rows (entries ++ [last])).map Prod.fst =
      (spread rows entries).map Prod.fst ++ List.replicate (rows last.2).length last.1 := by
  unfold spread
  rw [List.flatMap_append, List.flatMap_singleton, List.map_append, List.map_map]
  congr 1
  exact List.map_const'

/-- Elements that give nothing may be left out. -/
theorem flatMap_filter_of_nil {f : T → List R} {p : T → Bool} (l : List T)
    (h : ∀ a, p a = false → f a = []) : (l.filter p).flatMap f = l.flatMap f := by
  induction l with
  | nil => rfl
  | cons a l ih =>
    rw [List.filter_cons, List.flatMap_cons]
    cases hp : p a with
    | true => rw [if_pos rfl, List.flatMap_cons, ih]
    | false => rw [if_neg Bool.false_ne_true, h a hp, List.nil_append, ih]

/-- A record whose left side holds the record of two inputs, or nothing if its key is in neither of
them, as a record of three sides. -/
def flattenRecord (record : K × (List (List A × List B) × List C)) :
    K × (List A × List B × List C) :=
  match record.2.1 with
  | [] => (record.1, ([], [], record.2.2))
  | sides :: _ => (record.1, (sides.1, sides.2, record.2.2))

/-- A row whose left value is a row of two inputs, as a row of three. -/
def reassociate (row : K × ((A × B) × C)) : K × (A × B × C) :=
  (row.1, (row.2.1.1, row.2.1.2, row.2.2))

theorem map_reassociate_keyRows (k : K) (xs : List A) (ys : List B) (zs : List C) :
    (keyRows id id k (pairsOf xs ys) zs).map reassociate = keyTriples k xs ys zs := by
  simp [keyRows, keyTriples, pairsOf, List.map_flatMap, Function.comp_def, reassociate]

variable [BEq K]

theorem keys_records (a : List (K × A)) (b : List (K × B)) :
    (records a b).map Prod.fst = (a.map Prod.fst ++ b.map Prod.fst).eraseDups := by
  unfold records
  rw [List.map_map]
  exact List.map_id _

theorem pairRows_eq_spread (a : List (K × A)) (b : List (K × B)) :
    pairRows id id a b = spread (pairsThrough id id) (records a b) := by
  rw [← flatMap_records, flatMap_keyRows]

end Rows

section Nested

variable {K A B C : Type} [BEq K] [EquivBEq K]

/-- The distinct keys of the rows made of entries are the keys of the entries that have rows. -/
theorem eraseDups_keys_spread {T R : Type} (rows : T → List R) {entries : List (K × T)}
    (h : entries.Pairwise fun x y => (x.1 == y.1) = false) :
    ((spread rows entries).map Prod.fst).eraseDups =
      (entries.filter fun entry => !(rows entry.2).isEmpty).map Prod.fst := by
  induction entries using List.reverseRecOn with
  | nil => rfl
  | append_singleton entries last ih =>
    obtain ⟨hentries, _, hlast⟩ := List.pairwise_append.1 h
    have hnew : ((spread rows entries).map Prod.fst).any (· == last.1) = false := by
      rw [List.any_map, List.any_eq_false]
      intro row hrow
      obtain ⟨entry, hentry, hmem⟩ := List.mem_flatMap.1 hrow
      obtain ⟨value, _, heq⟩ := List.mem_map.1 hmem
      rw [← heq, Function.comp_apply, hlast entry hentry last List.mem_cons_self]
      exact Bool.false_ne_true
    rw [keys_spread_concat, eraseDups_append_replicate hnew, ih hentries, List.filter_append,
      List.map_append]
    congr 1
    cases hrows : rows last.2 with
    | nil => simp [hrows]
    | cons row others => simp [hrows]

/-- What the records of two inputs have under a key: its record, or nothing. -/
theorem valuesOf_records (a : List (K × A)) (b : List (K × B)) (k : K) :
    valuesOf k (records a b) = [(valuesOf k a, valuesOf k b)] ∨
      valuesOf k (records a b) = [] ∧ valuesOf k a = [] ∧ valuesOf k b = [] := by
  by_cases hk : isKeyOf k a = true ∨ isKeyOf k b = true
  · exact .inl (Enumerates.valuesOf_of_isKey (fun _ _ => sides_congr a b)
      (enumerates_records a b) hk)
  · obtain ⟨ha, hb⟩ := not_or.1 hk
    exact .inr ⟨Enumerates.valuesOf_of_not_isKey (enumerates_records a b) hk,
      valuesOf_of_isKeyOf_false ha, valuesOf_of_isKeyOf_false hb⟩

/-- The records of three inputs are those of the third one and of the records of the others. -/
theorem records3_eq_nested (a : List (K × A)) (b : List (K × B)) (c : List (K × C)) :
    records3 a b c = (records (records a b) c).map flattenRecord := by
  have hkeys : ((records a b).map Prod.fst ++ c.map Prod.fst).eraseDups =
      (a.map Prod.fst ++ (b.map Prod.fst ++ c.map Prod.fst)).eraseDups := by
    rw [keys_records, eraseDups_eraseDups_append, List.append_assoc]
  rw [records3, records.eq_def (records a b) c, hkeys, List.map_map]
  refine List.map_congr_left fun k _ => ?_
  rw [Function.comp_apply, flattenRecord]
  rcases valuesOf_records a b k with hrecord | ⟨hnone, ha, hb⟩
  · rw [hrecord]
  · rw [hnone, ha, hb]

/-- The left side of such a record holds one record at most. -/
theorem length_left_le_one (a : List (K × A)) (b : List (K × B)) (c : List (K × C)) :
    ∀ record ∈ records (records a b) c, record.2.1.length ≤ 1 := by
  intro record hrecord
  obtain ⟨k, _, heq⟩ := List.mem_map.1 hrecord
  rw [← heq]
  show (valuesOf k (records a b)).length ≤ 1
  rcases valuesOf_records a b k with hsides | ⟨hnone, _⟩
  · rw [hsides]
    exact Nat.le_refl 1
  · rw [hnone]
    exact Nat.zero_le 1

/-- The rows of a join have all pairs of values under a key. -/
theorem valuesOf_pairRows (a : List (K × A)) (b : List (K × B)) (k : K) :
    valuesOf k (pairRows id id a b) = pairsOf (valuesOf k a) (valuesOf k b) := by
  rw [pairRows_eq_spread, valuesOf_spread]
  rcases valuesOf_records a b k with hrecord | ⟨hnone, ha, hb⟩
  · rw [hrecord, List.flatMap_singleton]
    rfl
  · rw [hnone, ha, hb]
    rfl

/-- The distinct keys of the rows of a join are the distinct keys of its inputs that have rows. -/
theorem eraseDups_keys_pairRows (a : List (K × A)) (b : List (K × B)) :
    ((pairRows id id a b).map Prod.fst).eraseDups =
      (a.map Prod.fst ++ b.map Prod.fst).eraseDups.filter fun k =>
        !(pairsOf (valuesOf k a) (valuesOf k b)).isEmpty := by
  rw [pairRows_eq_spread, eraseDups_keys_spread _ (enumerates_records a b).distinct, records,
    List.filter_map, List.map_map]
  exact List.map_id _

/-- The rows of three inputs are those of the third one and of the rows of the others. -/
theorem tripleRows_eq_nested (a : List (K × A)) (b : List (K × B)) (c : List (K × C)) :
    tripleRows a b c = (pairRows id id (pairRows id id a b) c).map reassociate := by
  -- The nested join does not meet the keys of `a` and `b` that have no rows in the inner one. They
  -- have none among the triples either, so only the other keys are compared.
  let p : K → Bool := fun k => !(pairsOf (valuesOf k a) (valuesOf k b)).isEmpty
  let f : K → List (K × (A × B × C)) := fun k =>
    keyTriples k (valuesOf k a) (valuesOf k b) (valuesOf k c)
  have hp : ∀ k k', (k == k') = true → p k = p k' := by
    intro k k' hk
    show (!(pairsOf (valuesOf k a) (valuesOf k b)).isEmpty) = _
    rw [valuesOf_congr hk a, valuesOf_congr hk b]
  have hnil : ∀ k, p k = false → f k = [] := by
    intro k hk
    have hempty : pairsOf (valuesOf k a) (valuesOf k b) = [] := by simpa [p] using hk
    show keyTriples k _ _ _ = []
    rw [← map_reassociate_keyRows, hempty]
    simp [keyRows]
  have hfront : (a.map Prod.fst ++ b.map Prod.fst).eraseDups.filter p =
      ((pairRows id id a b).map Prod.fst).eraseDups.filter p := by
    rw [eraseDups_keys_pairRows, List.filter_filter]
    simp only [Bool.and_self, p]
  have hkeys := filter_eraseDups_append hp hfront (c.map Prod.fst)
  rw [List.append_assoc] at hkeys
  have hrows : ∀ k, f k = (keyRows id id k (valuesOf k (pairRows id id a b))
      (valuesOf k c)).map reassociate := by
    intro k
    rw [valuesOf_pairRows, map_reassociate_keyRows]
  calc tripleRows a b c
      = (a.map Prod.fst ++ (b.map Prod.fst ++ c.map Prod.fst)).eraseDups.flatMap f := rfl
    _ = ((pairRows id id a b).map Prod.fst ++ c.map Prod.fst).eraseDups.flatMap f := by
      rw [← flatMap_filter_of_nil _ hnil, hkeys, flatMap_filter_of_nil _ hnil]
    _ = (pairRows id id (pairRows id id a b) c).map reassociate := by
      rw [pairRows.eq_def id id (pairRows id id a b), List.map_flatMap]
      exact List.flatMap_congr fun k _ => hrows k

end Nested

/-- Where keys come as they are first met, the joins of three inputs give what nested joins of two
give, row for row; and so do the co-groups that make them. -/
theorem joins3_eq_nested :
    (∀ {K A B C : Type} [BEq K] [Hashable K] [EquivBEq K] [LawfulHashable K] (a : List (K × A))
      (b : List (K × B)) (c : List (K × C)),
      innerJoin3 groupTagged a b c =
        (innerJoin groupTagged (innerJoin groupTagged a b) c).map reassociate ∧
      cogroup3 groupTagged a b c =
        (cogroup groupTagged (cogroup groupTagged a b) c).map flattenRecord ∧
      ∀ record ∈ cogroup groupTagged (cogroup groupTagged a b) c, record.2.1.length ≤ 1) ∧
    (∀ {β : Type} [Basis β] (k t u v : ElementType β) (name first second : String)
      (scheme scheme₁ scheme₂ : HashScheme β) (a : List (k.Carrier × t.Carrier))
      (b : List (k.Carrier × u.Carrier)) (c : List (k.Carrier × v.Carrier)),
      ∃ mid nested,
        (Grouper.firstMet.pairStep first .inner k t u).exec scheme₁
            [⟨.pair k t, a⟩, ⟨.pair k u, b⟩] = .ok ⟨.pair k (.pair t u), mid⟩ ∧
        (Grouper.firstMet.pairStep second .inner k (.pair t u) v).exec scheme₂
            [⟨.pair k (.pair t u), mid⟩, ⟨.pair k v, c⟩] =
          .ok ⟨.pair k (.pair (.pair t u) v), nested⟩ ∧
        (Grouper.firstMet.tripleStep name .inner3 k t u v).exec scheme
            [⟨.pair k t, a⟩, ⟨.pair k u, b⟩, ⟨.pair k v, c⟩] =
          .ok ⟨.pair k (.triple t u v), nested.map reassociate⟩) ∧
    ∀ {β : Type} [Basis β] (k t u v : ElementType β) (name first second : String)
      (scheme scheme₁ scheme₂ : HashScheme β) (a : List (k.Carrier × t.Carrier))
      (b : List (k.Carrier × u.Carrier)) (c : List (k.Carrier × v.Carrier)),
      ∃ mid nested,
        (Grouper.firstMet.pairStep first .cogroup k t u).exec scheme₁
            [⟨.pair k t, a⟩, ⟨.pair k u, b⟩] =
          .ok ⟨.pair k (.pair (.vector t) (.vector u)), mid⟩ ∧
        (Grouper.firstMet.pairStep second .cogroup k (.pair (.vector t) (.vector u)) v).exec scheme₂
            [⟨.pair k (.pair (.vector t) (.vector u)), mid⟩, ⟨.pair k v, c⟩] =
          .ok ⟨.pair k (.pair (.vector (.pair (.vector t) (.vector u))) (.vector v)), nested⟩ ∧
        (Grouper.firstMet.tripleStep name .cogroup3 k t u v).exec scheme
            [⟨.pair k t, a⟩, ⟨.pair k u, b⟩, ⟨.pair k v, c⟩] =
          .ok ⟨.pair k (.triple (.vector t) (.vector u) (.vector v)),
            nested.map flattenRecord⟩ := by
  have hinner : ∀ {K A B C : Type} [BEq K] [Hashable K] [EquivBEq K] [LawfulHashable K]
      (a : List (K × A)) (b : List (K × B)) (c : List (K × C)), innerJoin3 groupTagged a b c =
        (innerJoin groupTagged (innerJoin groupTagged a b) c).map reassociate := by
    intro K A B C _ _ _ _ a b c
    rw [innerJoin3_groupTagged, innerJoin_groupTagged, innerJoin_groupTagged,
      tripleRows_eq_nested]
  have hcogroup : ∀ {K A B C : Type} [BEq K] [Hashable K] [EquivBEq K] [LawfulHashable K]
      (a : List (K × A)) (b : List (K × B)) (c : List (K × C)), cogroup3 groupTagged a b c =
        (cogroup groupTagged (cogroup groupTagged a b) c).map flattenRecord := by
    intro K A B C _ _ _ _ a b c
    rw [cogroup3_groupTagged, cogroup_groupTagged, cogroup_groupTagged, records3_eq_nested]
  refine ⟨?_, ?_, ?_⟩
  · intro K A B C _ _ _ _ a b c
    refine ⟨hinner a b c, hcogroup a b c, ?_⟩
    rw [cogroup_groupTagged, cogroup_groupTagged]
    exact length_left_le_one a b c
  · intro β _ k t u v name first second scheme scheme₁ scheme₂ a b c
    refine ⟨_, _, Grouper.firstMet.pairStep_exec first .inner scheme₁ a b,
      Grouper.firstMet.pairStep_exec second .inner scheme₂ _ c, ?_⟩
    rw [Grouper.tripleStep_exec]
    exact congrArg (fun rows => Except.ok (Partition.mk (.pair k (.triple t u v)) rows))
      (hinner a b c)
  · intro β _ k t u v name first second scheme scheme₁ scheme₂ a b c
    refine ⟨_, _, Grouper.firstMet.pairStep_exec first .cogroup scheme₁ a b,
      Grouper.firstMet.pairStep_exec second .cogroup scheme₂ _ c, ?_⟩
    rw [Grouper.tripleStep_exec]
    exact congrArg (fun rows => Except.ok (Partition.mk
      (.pair k (.triple (.vector t) (.vector u) (.vector v))) rows)) (hcogroup a b c)

theorem joins3_sample :
    innerJoin3 groupTagged [(2, "a"), (1, "b"), (2, "c")] [(3, true), (2, false), (2, true)]
        [(2, 'x'), (3, 'y'), (2, 'z')] =
      [(2, "a", false, 'x'), (2, "c", false, 'x'), (2, "a", true, 'x'), (2, "c", true, 'x'),
        (2, "a", false, 'z'), (2, "c", false, 'z'), (2, "a", true, 'z'), (2, "c", true, 'z')] ∧
    cogroup3 groupTagged [(2, "a"), (1, "b")] [(3, true), (2, false)] [(4, 'x'), (2, 'y')] =
      [(2, ["a"], [false], ['y']), (1, ["b"], [], []), (3, [], [true], []),
        (4, [], [], ['x'])] := by
  constructor
  · have hnested := (joins3_eq_nested.1 [(2, "a"), (1, "b"), (2, "c")]
      [(3, true), (2, false), (2, true)] [(2, 'x'), (3, 'y'), (2, 'z')]).1
    rw [hnested, innerJoin_groupTagged, innerJoin_groupTagged]
    rfl
  · have hnested := (joins3_eq_nested.1 [(2, "a"), (1, "b")] [(3, true), (2, false)]
      [(4, 'x'), (2, 'y')]).2.1
    rw [hnested, cogroup_groupTagged, cogroup_groupTagged]
    rfl

end JoinPipeline
