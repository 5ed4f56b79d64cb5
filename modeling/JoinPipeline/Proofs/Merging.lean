import JoinPipeline.Proofs.Construction
import JoinPipeline.Proofs.Stages

/-!
# Grouping by key forgets the cuts

A group-by-key step fills one table for every partition and then merges the tables. The order of
the keys is lost twice on this way, in the listing of each table and in that of the merged one, but
the values of a key are taken up in the order of the rows. So the records are those of the rows as
a whole, and another cut of the same rows, or another number of partitions, changes their order at
most.
-/

namespace JoinPipeline

variable {β : Type} [Basis β]

namespace KeyTable

variable {K V : Type} [BEq K] [EquivBEq K] [Hashable K] [LawfulHashable K]
  {pieces pieces' : List (List (K × V))} {out out' : List (K × List V)}

/-- Tables of two cuts of the same rows are merged to the same records. -/
theorem MergesTo.same (h : MergesTo pieces out) (h' : MergesTo pieces' out')
    (hrows : pieces.flatten = pieces'.flatten) : SameUpToKeys out out' := by
  have hrecords := enumeratesValues_of_perm h.perm_recordsByKey
  rw [hrows] at hrecords
  exact hrecords.same (enumeratesValues_of_perm h'.perm_recordsByKey)

end KeyTable

/-- What a source of keyed rows and a group-by-key step behind it give. -/
theorem Run.gives_grouped_source (ctx : RunContext β) (k v : ElementType β)
    (rows : List (k.Carrier × v.Carrier)) :
    ∃ out : List (k.Carrier × List v.Carrier), out.Perm (recordsByKey rows) ∧
      Gives ctx [.source (.pair k v) ⟨.pair k v, rows⟩, .groupByKey (.byKey k v)]
        (.pair k (.vector v)) out :=
  (gives_source ctx (.pair k v) rows).groupByKey

/-- Tables of consecutive pieces, each of them listed in an order of its own, are merged to exactly
one record for every key, with all of its values in the order of the rows; so cuts of the same rows
agree up to the order of the records. A group-by-key step succeeds on all pieces of rows, none and
empty ones included, and merges their tables in this way, and so does a run of it behind a source,
whatever the number of partitions. -/
theorem merging_forgets_cuts :
    (∀ {K V : Type} [BEq K] [EquivBEq K] [Hashable K] [LawfulHashable K]
      (pieces : List (List (K × V))) (out : List (K × List V)), KeyTable.MergesTo pieces out →
        EnumeratesValues pieces.flatten out ∧
        ∀ pieces' out', KeyTable.MergesTo pieces' out' → pieces.flatten = pieces'.flatten →
          SameUpToKeys out out') ∧
    ∀ (k v : ElementType β) (rows : List (k.Carrier × v.Carrier)),
      (∀ (pieces : List (List (k.Carrier × v.Carrier))) (scheme : HashScheme β), ∃ out,
        KeyTable.MergesTo pieces out ∧
        ((pieces.map (Partition.mk (.pair k v))).mapM (GroupStep.byKey k v).tabulate >>=
          (GroupStep.byKey k v).merge scheme) = .ok ⟨.pair k (.vector v), out⟩) ∧
      (∀ (pieces : List (List (k.Carrier × v.Carrier))) (out : List (k.Carrier × List v.Carrier)),
        pieces.flatten = rows → KeyTable.MergesTo pieces out → out.Perm (recordsByKey rows)) ∧
      ∀ ctx : RunContext β, ∃ out : List (k.Carrier × List v.Carrier),
        out.Perm (recordsByKey rows) ∧
        Run.Gives ctx [.source (.pair k v) ⟨.pair k v, rows⟩, .groupByKey (.byKey k v)]
          (.pair k (.vector v)) out := by
  refine ⟨fun pieces out hout => ?_, fun k v rows => ?_⟩
  · have hrecords := enumeratesValues_of_perm hout.perm_recordsByKey
    exact ⟨hrecords, fun pieces' out' => hout.same⟩
  · refine ⟨fun pieces scheme => merge_tabulated scheme pieces, fun pieces out hrows hout => ?_,
      fun ctx => Run.gives_grouped_source ctx k v rows⟩
    rw [← hrows]
    exact hout.perm_recordsByKey

section Sample

open Construction (sampleList)

/-- What grouping by key makes of pieces of rows. -/
def groupedPieces (scheme : HashScheme Atom) (pieces : List (List (Int64 × Int64))) :
    Except (RunError Atom) (Partition Atom) :=
  let step : GroupStep Atom := .byKey (.base .int64) (.base .int64)
  (pieces.map (Partition.mk (.pair (.base .int64) (.base .int64)))).mapM step.tabulate >>=
    step.merge scheme

/-- Every table is listed the other way round. -/
def reversing : HashScheme Atom where
  listing _ _ entries := entries.reverse
  listing_perm _ _ entries := entries.reverse_perm

/-- The rows of the sample in three pieces. -/
def samplePieces : List (List (Int64 × Int64)) := [[(2, 10)], [], [(1, 20), (2, 30)]]

theorem merging_forgets_cuts_sample :
    ∃ out out' : List (Int64 × List Int64),
      groupedPieces {} samplePieces =
        .ok ⟨.pair (.base .int64) (.vector (.base .int64)), out⟩ ∧
      groupedPieces reversing [sampleList] =
        .ok ⟨.pair (.base .int64) (.vector (.base .int64)), out'⟩ ∧
      out.Perm [(2, [10, 30]), (1, [20])] ∧ out'.Perm out := by
  obtain ⟨_, htyped⟩ := @merging_forgets_cuts Atom _
  obtain ⟨hmerge, hrecords, _⟩ := htyped (.base .int64) (.base .int64) sampleList
  obtain ⟨out, hmerges, hout⟩ := hmerge samplePieces {}
  obtain ⟨out', hmerges', hout'⟩ := hmerge [sampleList] reversing
  have hfirst := hrecords samplePieces out rfl hmerges
  have hsecond := hrecords [sampleList] out' rfl hmerges'
  exact ⟨out, out', hout, hout', hfirst, hsecond.trans hfirst.symm⟩

end Sample

end JoinPipeline
