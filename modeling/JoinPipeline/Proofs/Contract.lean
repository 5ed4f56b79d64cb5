import JoinPipeline.Proofs.Denotation
import JoinPipeline.Proofs.Multiplicity
import JoinPipeline.Value

/-!
# What joins rely on

A way of grouping honours its contract if it gives exactly one entry per distinct key of any
input, with one slot per tag that holds the values of the key in that input, in their order. It
may list the entries in any order. Nothing else is needed to say what joins give: the records of
the co-groups, and how often every row occurs in the other joins. So two ways of grouping that
honour the contract give the same rows up to their order.
-/

namespace JoinPipeline

section Contract

variable {K T V W A B C : Type} [BEq K]

/-- One entry per distinct key of any input, with one slot per tag. -/
def HonoursContract (grouping : List (List (K × T)) → List (Group K T)) : Prop :=
  ∀ inputs, Enumerates (fun k => ∃ rows ∈ inputs, isKeyOf k rows = true)
    (fun k => inputs.map (valuesOf k)) (grouping inputs)

theorem slots_congr [EquivBEq K] (inputs : List (List (K × T))) {k k' : K}
    (h : (k == k') = true) : inputs.map (valuesOf k) = inputs.map (valuesOf k') :=
  List.map_congr_left fun rows _ => valuesOf_congr h rows

theorem isKeyOf_flatten (k : K) (inputs : List (List (K × T))) :
    isKeyOf k inputs.flatten = true ↔ ∃ rows ∈ inputs, isKeyOf k rows = true := by
  rw [isKeyOf, List.any_flatten, List.any_eq_true]
  rfl

theorem enumerates_groupsOf [EquivBEq K] (inputs : List (List (K × T))) :
    Enumerates (fun k => ∃ rows ∈ inputs, isKeyOf k rows = true)
      (fun k => inputs.map (valuesOf k)) (groupsOf inputs) := by
  refine (enumerates_eraseDups (inputs.flatten.map Prod.fst) fun k =>
    inputs.map (valuesOf k)).congr ?_ fun _ => rfl
  intro k
  rw [← isKeyOf_flatten, List.any_map]
  rfl

/-- The groups in the order in which their keys are first met honour the contract. -/
theorem honoursContract_groupsOf [EquivBEq K] :
    HonoursContract (groupsOf : List (List (K × T)) → List (Group K T)) :=
  enumerates_groupsOf

theorem honoursContract_of_perm [EquivBEq K] {grouping : List (List (K × T)) → List (Group K T)}
    (h : ∀ inputs, (grouping inputs).Perm (groupsOf inputs)) : HonoursContract grouping :=
  fun inputs => (enumerates_groupsOf inputs).perm (h inputs).symm

theorem honoursContract_groupTagged [Hashable K] [EquivBEq K] [LawfulHashable K] :
    HonoursContract (groupTagged : List (List (K × T)) → List (Group K T)) :=
  honoursContract_of_perm fun inputs => .of_eq (groupTagged_eq inputs)

/-- Up to order and to equal keys there is one way to honour the contract. -/
theorem HonoursContract.same [EquivBEq K]
    {grouping grouping' : List (List (K × T)) → List (Group K T)} (h : HonoursContract grouping)
    (h' : HonoursContract grouping') (inputs : List (List (K × T))) :
    SameUpToKeys (grouping inputs) (grouping' inputs) :=
  (h inputs).same (fun _ _ => slots_congr inputs) (h' inputs)

theorem isKeyOf_tagLeft (k : K) (a : List (K × V)) :
    isKeyOf k (tagLeft a : List (K × (V ⊕ W))) = isKeyOf k a := by
  simp [isKeyOf, tagLeft, Function.comp_def]

theorem isKeyOf_tagRight (k : K) (b : List (K × W)) :
    isKeyOf k (tagRight b : List (K × (V ⊕ W))) = isKeyOf k b := by
  simp [isKeyOf, tagRight, Function.comp_def]

theorem HonoursContract.cogroup {grouping : PairGrouping K V W} (h : HonoursContract grouping)
    (a : List (K × V)) (b : List (K × W)) :
    EnumeratesPairs a b (JoinPipeline.cogroup grouping a b) := by
  refine ((h [tagLeft a, tagRight b]).map fun slots => (lefts slots, rights slots)).congr ?_ ?_
  · intro k
    simp [isKeyOf_tagLeft, isKeyOf_tagRight]
  · intro k
    exact untag_slots k a b

theorem enumerates_records [EquivBEq K] (a : List (K × A)) (b : List (K × B)) :
    EnumeratesPairs a b (records a b) := by
  refine (enumerates_eraseDups (a.map Prod.fst ++ b.map Prod.fst) fun k =>
    (valuesOf k a, valuesOf k b)).congr ?_ fun _ => rfl
  intro k
  rw [List.any_append, Bool.or_eq_true, List.any_map, List.any_map]
  rfl

theorem HonoursContract.cogroup3 {grouping : TripleGrouping K A B C}
    (h : HonoursContract grouping) (a : List (K × A)) (b : List (K × B)) (c : List (K × C)) :
    EnumeratesTriples a b c (JoinPipeline.cogroup3 grouping a b c) := by
  refine ((h [tagLeft a, tagRight (tagLeft b), tagRight (tagRight c)]).map fun slots =>
    (lefts slots, lefts [rights slots], rights [rights slots])).congr ?_ ?_
  · intro k
    simp [isKeyOf_tagLeft, isKeyOf_tagRight]
  · intro k
    exact untag_slots3 k a b c

/-- Two ways of grouping give the same rows in every join of two inputs. -/
structure SamePairs (grouping grouping' : PairGrouping K V W) (a : List (K × V))
    (b : List (K × W)) : Prop where
  cogroup : SameUpToKeys (cogroup grouping a b) (cogroup grouping' a b)
  inner : SameUpToKeys (innerJoin grouping a b) (innerJoin grouping' a b)
  left : SameUpToKeys (leftJoin grouping a b) (leftJoin grouping' a b)
  right : SameUpToKeys (rightJoin grouping a b) (rightJoin grouping' a b)
  outer : SameUpToKeys (outerJoin grouping a b) (outerJoin grouping' a b)

/-- Joins of two inputs make their rows of the records alone. -/
theorem samePairs_of_cogroup {grouping grouping' : PairGrouping K V W} {a : List (K × V)}
    {b : List (K × W)}
    (h : SameUpToKeys (cogroup grouping a b) (cogroup grouping' a b)) :
    SamePairs grouping grouping' a b where
  cogroup := h
  inner := by
    rw [innerJoin_eq_spread, innerJoin_eq_spread]
    exact sameUpToKeys_spread h _
  left := by
    rw [leftJoin_eq_spread, leftJoin_eq_spread]
    exact sameUpToKeys_spread h _
  right := by
    rw [rightJoin_eq_spread, rightJoin_eq_spread]
    exact sameUpToKeys_spread h _
  outer := by
    rw [outerJoin_eq_spread, outerJoin_eq_spread]
    exact sameUpToKeys_spread h _

/-- Two ways of grouping give the same rows in every join of three inputs. -/
structure SameTriples (grouping grouping' : TripleGrouping K A B C) (a : List (K × A))
    (b : List (K × B)) (c : List (K × C)) : Prop where
  cogroup3 : SameUpToKeys (cogroup3 grouping a b c) (cogroup3 grouping' a b c)
  inner3 : SameUpToKeys (innerJoin3 grouping a b c) (innerJoin3 grouping' a b c)

theorem sameTriples_of_cogroup3 {grouping grouping' : TripleGrouping K A B C} {a : List (K × A)}
    {b : List (K × B)} {c : List (K × C)}
    (h : SameUpToKeys (cogroup3 grouping a b c) (cogroup3 grouping' a b c)) :
    SameTriples grouping grouping' a b c where
  cogroup3 := h
  inner3 := by
    rw [innerJoin3_eq_spread, innerJoin3_eq_spread]
    exact sameUpToKeys_spread h _

end Contract

namespace Grouper

variable {β : Type} [Basis β] {g g' : Grouper β}

/-- A grouper honours the contract for every type of keys and values, whatever it is free to
choose. -/
def HonoursContract (g : Grouper β) : Prop :=
  ∀ scheme k {τ : Type}, JoinPipeline.HonoursContract fun inputs : List (List (k.Carrier × τ)) =>
    g.group scheme k inputs

theorem IsFaithful.honoursContract (h : g.IsFaithful) : g.HonoursContract := by
  intro scheme k τ
  exact honoursContract_of_perm (h scheme k)

theorem firstMet_honoursContract : (firstMet : Grouper β).HonoursContract :=
  firstMet_keepsOrder.isFaithful.honoursContract

theorem bucketed_honoursContract (n : Nat) : (bucketed n : Grouper β).HonoursContract :=
  (bucketed_isFaithful n).honoursContract

end Grouper

section Kinds

variable {β : Type} [Basis β] {k v w a b c : ElementType β}

theorem SamePairs.rows {grouping grouping' : PairGrouping k.Carrier v.Carrier w.Carrier}
    {x : List (k.Carrier × v.Carrier)} {y : List (k.Carrier × w.Carrier)}
    (h : SamePairs grouping grouping' x y) (kind : PairJoin) :
    SameUpToKeys (kind.rows grouping x y) (kind.rows grouping' x y) := by
  cases kind with
  | cogroup => exact h.cogroup
  | inner => exact h.inner
  | left => exact h.left
  | right => exact h.right
  | outer => exact h.outer

theorem SameTriples.rows
    {grouping grouping' : TripleGrouping k.Carrier a.Carrier b.Carrier c.Carrier}
    {x : List (k.Carrier × a.Carrier)} {y : List (k.Carrier × b.Carrier)}
    {z : List (k.Carrier × c.Carrier)} (h : SameTriples grouping grouping' x y z)
    (kind : TripleJoin) :
    SameUpToKeys (kind.rows grouping x y z) (kind.rows grouping' x y z) := by
  cases kind with
  | cogroup3 => exact h.cogroup3
  | inner3 => exact h.inner3

end Kinds

/-- What every join gives under any way of grouping that honours its contract: the records of the
co-groups and the counts of all other rows, and so the same rows under any other such way, where
keys that compare equal are the same. The first two parts are about the joins on plain lists, the
other two about what the steps of all joins make of their inputs. -/
theorem joins_of_contract :
    (∀ {K V W : Type} [BEq K] [EquivBEq K] {grouping : PairGrouping K V W},
      HonoursContract grouping → ∀ (a : List (K × V)) (b : List (K × W)),
        EnumeratesPairs a b (cogroup grouping a b) ∧
        (∀ [BEq V] [BEq W], PairCounts a b grouping) ∧
        ∀ {grouping' : PairGrouping K V W}, HonoursContract grouping' →
          SamePairs grouping grouping' a b) ∧
    (∀ {K A B C : Type} [BEq K] [EquivBEq K] {grouping : TripleGrouping K A B C},
      HonoursContract grouping → ∀ (a : List (K × A)) (b : List (K × B)) (c : List (K × C)),
        EnumeratesTriples a b c (cogroup3 grouping a b c) ∧
        (∀ [BEq A] [BEq B] [BEq C], InnerCounts3 a b c (innerJoin3 grouping a b c)) ∧
        ∀ {grouping' : TripleGrouping K A B C}, HonoursContract grouping' →
          SameTriples grouping grouping' a b c) ∧
    (∀ {β : Type} [Basis β] {g : Grouper β}, g.HonoursContract →
      ∀ (k v w : ElementType β) (name : String) (kind : PairJoin) (scheme : HashScheme β)
        (a : List (k.Carrier × v.Carrier)) (b : List (k.Carrier × w.Carrier)),
        ∃ rows, (g.pairStep name kind k v w).exec scheme [⟨.pair k v, a⟩, ⟨.pair k w, b⟩] =
            .ok ⟨.pair k (kind.payload v w), rows⟩ ∧
          kind.AreRows a b rows ∧
          ∀ {g' : Grouper β}, g'.HonoursContract → ∀ (name' : String) (scheme' : HashScheme β),
            ∃ rows',
              (g'.pairStep name' kind k v w).exec scheme' [⟨.pair k v, a⟩, ⟨.pair k w, b⟩] =
                .ok ⟨.pair k (kind.payload v w), rows'⟩ ∧
              SameUpToKeys rows rows' ∧ (LawfulBEq k.Carrier → rows.Perm rows')) ∧
    ∀ {β : Type} [Basis β] {g : Grouper β}, g.HonoursContract →
      ∀ (k t u v : ElementType β) (name : String) (kind : TripleJoin) (scheme : HashScheme β)
        (a : List (k.Carrier × t.Carrier)) (b : List (k.Carrier × u.Carrier))
        (c : List (k.Carrier × v.Carrier)),
        ∃ rows, (g.tripleStep name kind k t u v).exec scheme
              [⟨.pair k t, a⟩, ⟨.pair k u, b⟩, ⟨.pair k v, c⟩] =
            .ok ⟨.pair k (kind.payload t u v), rows⟩ ∧
          kind.AreRows a b c rows ∧
          ∀ {g' : Grouper β}, g'.HonoursContract → ∀ (name' : String) (scheme' : HashScheme β),
            ∃ rows', (g'.tripleStep name' kind k t u v).exec scheme'
                  [⟨.pair k t, a⟩, ⟨.pair k u, b⟩, ⟨.pair k v, c⟩] =
                .ok ⟨.pair k (kind.payload t u v), rows'⟩ ∧
              SameUpToKeys rows rows' ∧ (LawfulBEq k.Carrier → rows.Perm rows') := by
  refine ⟨?_, ?_, ?_, ?_⟩
  · intro K V W _ _ grouping h a b
    have hrecords := h.cogroup a b
    refine ⟨hrecords, hrecords.counts, fun h' => ?_⟩
    exact samePairs_of_cogroup (hrecords.same (h'.cogroup a b))
  · intro K A B C _ _ grouping h a b c
    have hrecords := h.cogroup3 a b c
    refine ⟨hrecords, hrecords.innerCounts3, fun h' => ?_⟩
    exact sameTriples_of_cogroup3 (hrecords.same (h'.cogroup3 a b c))
  · intro β _ g h k v w name kind scheme a b
    have hrecords := (h scheme k).cogroup a b
    refine ⟨_, g.pairStep_exec name kind scheme a b, kind.areRows hrecords, ?_⟩
    intro g' h' name' scheme'
    have hsame := (samePairs_of_cogroup (hrecords.same ((h' scheme' k).cogroup a b))).rows kind
    exact ⟨_, g'.pairStep_exec name' kind scheme' a b, hsame, fun _ => hsame.perm⟩
  · intro β _ g h k t u v name kind scheme a b c
    have hrecords := (h scheme k).cogroup3 a b c
    refine ⟨_, g.tripleStep_exec name kind scheme a b c, kind.areRows hrecords, ?_⟩
    intro g' h' name' scheme'
    have hsame :=
      (sameTriples_of_cogroup3 (hrecords.same ((h' scheme' k).cogroup3 a b c))).rows kind
    exact ⟨_, g'.tripleStep_exec name' kind scheme' a b c, hsame, fun _ => hsame.perm⟩

section Sample

def numberRows (rows : List (Int64 × Int64)) : Partition Atom :=
  ⟨.pair (.base .int64) (.base .int64), rows⟩

def leftNumbers : List (Int64 × Int64) := [(2, 10), (1, 20), (1, 20), (2, 10)]

def rightNumbers : List (Int64 × Int64) := [(3, 30), (2, 40), (2, 50), (2, 40)]

def outerNumbers (g : Grouper Atom) : CoGroupStep Atom :=
  g.pairStep "outer" .outer (.base .int64) (.base .int64) (.base .int64)

def inner3Numbers (g : Grouper Atom) : CoGroupStep Atom :=
  g.tripleStep "inner3" .inner3 (.base .int64) (.base .int64) (.base .int64) (.base .int64)

theorem joins_of_contract_sample :
    (∃ rows rows' : List (Int64 × (Option Int64 × Option Int64)),
      (outerNumbers .firstMet).exec {} [numberRows leftNumbers, numberRows rightNumbers] =
        .ok ⟨.pair (.base .int64) (.pair (.option (.base .int64)) (.option (.base .int64))),
          rows⟩ ∧
      occurrences 1 (some 20, none) rows = 2 ∧ occurrences 2 (some 10, some 40) rows = 4 ∧
      occurrences 2 (some 10, none) rows = 0 ∧ occurrences 3 (none, some 30) rows = 1 ∧
      (outerNumbers (.bucketed 4)).exec {} [numberRows leftNumbers, numberRows rightNumbers] =
        .ok ⟨.pair (.base .int64) (.pair (.option (.base .int64)) (.option (.base .int64))),
          rows'⟩ ∧
      rows.Perm rows') ∧
    ∃ rows : List (Int64 × (Int64 × Int64 × Int64)),
      (inner3Numbers (.bucketed 4)).exec {}
          [numberRows leftNumbers, numberRows rightNumbers, numberRows leftNumbers] =
        .ok ⟨.pair (.base .int64) (.triple (.base .int64) (.base .int64) (.base .int64)),
          rows⟩ ∧
      occurrences 2 (10, 40, 10) rows = 8 := by
  obtain ⟨_, _, hpairs, htriples⟩ := joins_of_contract
  have hbuckets : (Grouper.bucketed 4 : Grouper Atom).HonoursContract :=
    Grouper.bucketed_honoursContract 4
  constructor
  · obtain ⟨rows, hrun, hrows, hother⟩ := hpairs Grouper.firstMet_honoursContract
      (.base Atom.int64) (.base .int64) (.base .int64) "outer" .outer {} leftNumbers rightNumbers
    obtain ⟨rows', hrun', _, hperm⟩ := hother hbuckets "outer" {}
    have hcounts : OuterCounts leftNumbers rightNumbers rows := hrows _ _
    exact ⟨rows, rows', hrun, hcounts.left 1 20, hcounts.matched 2 10 40, hcounts.left 2 10,
      hcounts.right 3 30, hrun', hperm inferInstance⟩
  · obtain ⟨rows, hrun, hrows, _⟩ := htriples hbuckets (.base Atom.int64) (.base .int64)
      (.base .int64) (.base .int64) "inner3" .inner3 {} leftNumbers rightNumbers leftNumbers
    have hcounts : InnerCounts3 leftNumbers rightNumbers leftNumbers rows := hrows _ _ _
    exact ⟨rows, hrun, hcounts.matched 2 10 40 10⟩

end Sample

end JoinPipeline
