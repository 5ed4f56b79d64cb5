import JoinPipeline.Proofs.Contract
import JoinPipeline.Proofs.FirstMet
import Mathlib.Data.Multiset.Bind

/-!
# Joins with their inputs exchanged

Exchanging the inputs of a join exchanges the sides of its rows and puts the rows in another order:
keys are met in another order, and of the two loops over the values of a key the outer one becomes
the inner one. The vectors in the records of a co-group keep their order. This holds for any two
ways of grouping that honour their contract, so a grouper need not make the same free choices in
both joins. Keys may be compared by any equivalence, and the rows then agree up to equal keys.
-/

namespace JoinPipeline

section Rows

variable {K V W V' W' T R : Type}

/-- The row with its two sides exchanged. -/
def swapSides (row : K × (V × W)) : K × (W × V) := (row.1, row.2.swap)

/-- Exchanging the two loops puts the pairs of two lists in another order. -/
theorem pairsOf_swap_perm (xs : List V) (ys : List W) :
    (pairsOf xs ys).Perm ((pairsOf ys xs).map Prod.swap) := by
  have hpairs : pairsOf xs ys = (ys.product xs).map Prod.swap := by
    simp [pairsOf, List.product, List.map_flatMap, Function.comp_def]
  have hswapped : (pairsOf ys xs).map Prod.swap = xs.product ys := by
    simp [pairsOf, List.product, List.map_flatMap, Function.comp_def]
  rw [hpairs, hswapped]
  have hproduct := Multiset.map_swap_product (ys : Multiset W) (xs : Multiset V)
  rw [Multiset.coe_product, Multiset.coe_product, Multiset.map_coe] at hproduct
  exact Multiset.coe_eq_coe.1 hproduct

theorem pairsThrough_swap_perm (left : List V → List V') (right : List W → List W')
    (sides : List V × List W) :
    (pairsThrough left right sides).Perm ((pairsThrough right left sides.swap).map Prod.swap) :=
  pairsOf_swap_perm (left sides.1) (right sides.2)

theorem spread_perm {rows rows' : T → List R} (h : ∀ sides, (rows sides).Perm (rows' sides))
    (entries : List (K × T)) : (spread rows entries).Perm (spread rows' entries) :=
  List.Perm.flatMap_left entries fun entry _ => (h entry.2).map _

/-- The rows of entries with their sides exchanged are those of the exchanged entries. -/
theorem map_swapSides_spread (rows : List W × List V → List (W' × V'))
    (entries : List (K × (List W × List V))) :
    (spread rows entries).map swapSides =
      spread (fun sides => (rows sides.swap).map Prod.swap) (entries.map swapSides) := by
  simp [spread, List.map_flatMap, List.flatMap_map, Function.comp_def, swapSides]

variable [BEq K]

theorem SameUpToKeys.of_perm {l l' l'' : List (K × R)} (h : l.Perm l')
    (h' : SameUpToKeys l' l'') : SameUpToKeys l l'' := by
  obtain ⟨mid, hmid, hsame⟩ := h'
  exact ⟨mid, h.trans hmid, hsame⟩

/-- Rows made of records mirror those made of the mirrored records. -/
theorem sameUpToKeys_spread_swapSides {entries : List (K × (List V × List W))}
    {entries' : List (K × (List W × List V))}
    (h : SameUpToKeys entries (entries'.map swapSides)) (left : List V → List V')
    (right : List W → List W') :
    SameUpToKeys (spread (pairsThrough left right) entries)
      ((spread (pairsThrough right left) entries').map swapSides) := by
  rw [map_swapSides_spread]
  have hperm := spread_perm (pairsThrough_swap_perm left right) entries
  exact .of_perm hperm (sameUpToKeys_spread h _)

/-- The records of exchanged inputs, exchanged. -/
theorem EnumeratesPairs.swapSides {a : List (K × V)} {b : List (K × W)}
    {entries : List (K × (List W × List V))} (h : EnumeratesPairs b a entries) :
    EnumeratesPairs a b (entries.map swapSides) := by
  have hswapped := Enumerates.map h Prod.swap
  exact hswapped.congr (fun _ => or_comm) fun _ => rfl

end Rows

/-- What two ways of grouping give for two inputs and for the exchanged inputs. -/
structure Mirrors {K V W : Type} [BEq K] (grouping : PairGrouping K V W)
    (grouping' : PairGrouping K W V) (a : List (K × V)) (b : List (K × W)) : Prop where
  cogroup : SameUpToKeys (cogroup grouping a b) ((cogroup grouping' b a).map swapSides)
  inner : SameUpToKeys (innerJoin grouping a b) ((innerJoin grouping' b a).map swapSides)
  left : SameUpToKeys (leftJoin grouping a b) ((rightJoin grouping' b a).map swapSides)
  right : SameUpToKeys (rightJoin grouping a b) ((leftJoin grouping' b a).map swapSides)
  outer : SameUpToKeys (outerJoin grouping a b) ((outerJoin grouping' b a).map swapSides)

section Groups

variable {K V W : Type} [BEq K] {grouping : PairGrouping K V W} {grouping' : PairGrouping K W V}

/-- Joins make their rows of the records alone, so it is enough to compare these. -/
theorem mirrors_of_cogroup {a : List (K × V)} {b : List (K × W)}
    (h : SameUpToKeys (cogroup grouping a b) ((cogroup grouping' b a).map swapSides)) :
    Mirrors grouping grouping' a b where
  cogroup := h
  inner := by
    rw [innerJoin_eq_spread, innerJoin_eq_spread]
    exact sameUpToKeys_spread_swapSides h id id
  left := by
    rw [leftJoin_eq_spread, rightJoin_eq_spread]
    exact sameUpToKeys_spread_swapSides h id orNone
  right := by
    rw [rightJoin_eq_spread, leftJoin_eq_spread]
    exact sameUpToKeys_spread_swapSides h orNone id
  outer := by
    rw [outerJoin_eq_spread, outerJoin_eq_spread]
    exact sameUpToKeys_spread_swapSides h orNone orNone

theorem HonoursContract.mirrors [EquivBEq K] (h : HonoursContract grouping)
    (h' : HonoursContract grouping') (a : List (K × V)) (b : List (K × W)) :
    Mirrors grouping grouping' a b := by
  have hrecords := h.cogroup a b
  have hmirrored := (h'.cogroup b a).swapSides
  exact mirrors_of_cogroup (hrecords.same hmirrored)

end Groups

namespace PairJoin

variable {β : Type} [Basis β] {k v w : ElementType β}

/-- The join that gives the same rows for exchanged inputs. -/
def mirror : PairJoin → PairJoin
  | cogroup => cogroup
  | inner => inner
  | left => right
  | right => left
  | outer => outer

/-- A row of the mirrored join of exchanged inputs as a row of the join. -/
def unmirror (kind : PairJoin) (row : k.Carrier × (kind.mirror.payload w v).Carrier) :
    k.Carrier × (kind.payload v w).Carrier :=
  match kind with
  | cogroup => swapSides row
  | inner => swapSides row
  | left => swapSides row
  | right => swapSides row
  | outer => swapSides row

theorem mirrors_rows (kind : PairJoin)
    {grouping : PairGrouping k.Carrier v.Carrier w.Carrier}
    {grouping' : PairGrouping k.Carrier w.Carrier v.Carrier}
    {a : List (k.Carrier × v.Carrier)} {b : List (k.Carrier × w.Carrier)}
    (h : Mirrors grouping grouping' a b) :
    SameUpToKeys (kind.rows grouping a b)
      ((kind.mirror.rows grouping' b a).map kind.unmirror) := by
  cases kind with
  | cogroup => exact h.cogroup
  | inner => exact h.inner
  | left => exact h.left
  | right => exact h.right
  | outer => exact h.outer

end PairJoin

/-- Every join of two inputs gives the rows of the mirrored join of the exchanged inputs with their
sides exchanged: for all ways of grouping that honour their contract, thus where keys come as they
are first met and where they are dealt out to buckets, whatever hash either join uses; and so do
the rows of the co-groups that make them. If equal keys are the same, only the order of these rows
is left open. -/
theorem joins_mirror :
    (∀ {K V W : Type} [BEq K] [EquivBEq K] {grouping : PairGrouping K V W}
      {grouping' : PairGrouping K W V}, HonoursContract grouping → HonoursContract grouping' →
      ∀ (a : List (K × V)) (b : List (K × W)), Mirrors grouping grouping' a b) ∧
    (∀ {K V W : Type} [BEq K] [Hashable K] [EquivBEq K] [LawfulHashable K] (a : List (K × V))
      (b : List (K × W)),
      Mirrors groupTagged groupTagged a b ∧
      ∀ (requested : Nat) (hash hash' : K → Nat), (∀ x y, (x == y) = true → hash x = hash y) →
        (∀ x y, (x == y) = true → hash' x = hash' y) →
        Mirrors (groupBucketed hash (bucketCount requested))
          (groupBucketed hash' (bucketCount requested)) a b) ∧
    ∀ {β : Type} [Basis β] (g : Grouper β), (g = .firstMet ∨ ∃ requested, g = .bucketed requested) →
      ∀ (k v w : ElementType β) (name name' : String) (kind : PairJoin)
        (scheme scheme' : HashScheme β) (a : List (k.Carrier × v.Carrier))
        (b : List (k.Carrier × w.Carrier)),
        ∃ rows mirrored,
          (g.pairStep name kind k v w).exec scheme [⟨.pair k v, a⟩, ⟨.pair k w, b⟩] =
            .ok ⟨.pair k (kind.payload v w), rows⟩ ∧
          (g.pairStep name' kind.mirror k w v).exec scheme' [⟨.pair k w, b⟩, ⟨.pair k v, a⟩] =
            .ok ⟨.pair k (kind.mirror.payload w v), mirrored⟩ ∧
          SameUpToKeys rows (mirrored.map kind.unmirror) ∧
          (LawfulBEq k.Carrier → rows.Perm (mirrored.map kind.unmirror)) := by
  refine ⟨?_, ?_, ?_⟩
  · intro K V W _ _ grouping grouping' h h' a b
    exact h.mirrors h' a b
  · intro K V W _ _ _ _ a b
    refine ⟨honoursContract_groupTagged.mirrors honoursContract_groupTagged a b, ?_⟩
    intro requested hash hash' hhash hhash'
    have hpos := bucketCount_pos requested
    have hbuckets : HonoursContract (groupBucketed hash (bucketCount requested) :
        PairGrouping K V W) := honoursContract_of_perm (groupBucketed_perm hhash hpos)
    have hbuckets' : HonoursContract (groupBucketed hash' (bucketCount requested) :
        PairGrouping K W V) := honoursContract_of_perm (groupBucketed_perm hhash' hpos)
    exact hbuckets.mirrors hbuckets' a b
  · intro β _ g hg k v w name name' kind scheme scheme' a b
    have hcontract : g.HonoursContract := by
      rcases hg with hfirst | hbuckets
      · rw [hfirst]
        exact Grouper.firstMet_honoursContract
      · obtain ⟨requested, hbuckets⟩ := hbuckets
        rw [hbuckets]
        exact Grouper.bucketed_honoursContract requested
    have hsame := kind.mirrors_rows ((hcontract scheme k).mirrors (hcontract scheme' k) a b)
    exact ⟨_, _, g.pairStep_exec name kind scheme a b,
      g.pairStep_exec name' kind.mirror scheme' b a, hsame, fun _ => hsame.perm⟩

theorem joins_mirror_sample :
    [(2, some "a", false), (2, some "c", false), (3, none, true)].Perm
      ([(3, true, none), (2, false, some "a"), (2, false, some "c")].map swapSides) ∧
    (outerJoin (groupBucketed id (bucketCount 4)) [(2, "a"), (1, "b")] [(3, true), (2, false)]).Perm
      ((outerJoin (groupBucketed (fun k => 7 * k) (bucketCount 4)) [(3, true), (2, false)]
        [(2, "a"), (1, "b")]).map swapSides) ∧
    ∃ rows mirrored : List (Int64 × (List Int64 × List Int64)),
      ((Grouper.bucketed 3).pairStep "cogroup" .cogroup (.base .int64) (.base .int64)
          (.base .int64)).exec {} [numberRows [(2, 10), (2, 20)], numberRows [(1, 30)]] =
        .ok ⟨.pair (.base .int64) (.pair (.vector (.base .int64)) (.vector (.base .int64))),
          rows⟩ ∧
      ((Grouper.bucketed 3).pairStep "mirrored" .cogroup (.base .int64) (.base .int64)
          (.base .int64)).exec {} [numberRows [(1, 30)], numberRows [(2, 10), (2, 20)]] =
        .ok ⟨.pair (.base .int64) (.pair (.vector (.base .int64)) (.vector (.base .int64))),
          mirrored⟩ ∧
      rows.Perm (mirrored.map swapSides) := by
  obtain ⟨_, hpairs, hsteps⟩ := joins_mirror
  refine ⟨?_, ?_, ?_⟩
  · have hperm := (hpairs [(2, "a"), (1, "b"), (2, "c")] [(3, true), (2, false)]).1.right.perm
    rw [rightJoin_groupTagged, leftJoin_groupTagged] at hperm
    exact hperm
  · have hbuckets := (hpairs [(2, "a"), (1, "b")] [(3, true), (2, false)]).2 4 id (fun k => 7 * k)
      (fun x y h => eq_of_beq h) fun x y h => by rw [eq_of_beq h]
    exact hbuckets.outer.perm
  · obtain ⟨rows, mirrored, hrows, hmirrored, _, hperm⟩ := hsteps (.bucketed 3)
      (.inr ⟨3, rfl⟩) (.base Atom.int64) (.base .int64) (.base .int64) "cogroup" "mirrored"
      .cogroup {} {} _ _
    exact ⟨rows, mirrored, hrows, hmirrored, hperm inferInstance⟩

end JoinPipeline
