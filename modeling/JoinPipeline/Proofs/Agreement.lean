import JoinPipeline.Proofs.Collecting
import JoinPipeline.Proofs.Contract

/-!
# Grouping by key and co-groups agree

Grouping by key fills tables and merges them; a co-group fills one list of groups with slots for
its inputs. Neither knows of the other, but both give exactly one record for every key, and the
values in it are those of the key in the order of the rows. So the two sides of a record of a
co-group are the vectors that grouping either input by itself gives the same key.
-/

namespace JoinPipeline

section Lists

variable {K V W : Type} [BEq K]

/-- The vector of a key in records; it is empty if the key has no record. -/
def vectorOf (k : K) (records : List (K × List V)) : List V := (records.lookup k).getD []

theorem lookup_eq_head?_valuesOf [PartialEquivBEq K] (k : K) (entries : List (K × V)) :
    entries.lookup k = (valuesOf k entries).head? := by
  induction entries with
  | nil => rfl
  | cons entry entries ih =>
    rw [valuesOf_cons, List.lookup_cons, BEq.comm]
    by_cases hk : (entry.1 == k) = true
    · simp [hk]
    · simp [hk, ih]

variable [EquivBEq K] {rows a : List (K × V)} {b : List (K × W)} {left : List (K × List V)}
  {right : List (K × List W)} {records : List (K × (List V × List W))}

/-- The vector of a key holds its values in the rows. -/
theorem EnumeratesValues.vectorOf_eq {entries : List (K × List V)}
    (h : EnumeratesValues rows entries) (k : K) : vectorOf k entries = valuesOf k rows := by
  rw [vectorOf, lookup_eq_head?_valuesOf]
  by_cases hk : isKeyOf k rows = true
  · rw [Enumerates.valuesOf_of_isKey (fun _ _ hk => valuesOf_congr hk rows) h hk]
    rfl
  · rw [Enumerates.valuesOf_of_not_isKey h hk, valuesOf_of_isKeyOf_false hk]
    rfl

omit [EquivBEq K] in
theorem EnumeratesValues.isKeyOf_iff {entries : List (K × List V)}
    (h : EnumeratesValues rows entries) (k : K) :
    isKeyOf k entries = true ↔ isKeyOf k rows = true := by
  rw [← h.keys k, isKeyOf, List.any_eq_true]

/-- Records of a co-group agree with those of grouping either input by key. On both sides no key
has two records, and the co-group has exactly one record for every key of either side, with the
vectors of the key there. -/
structure Agree (left : List (K × List V)) (right : List (K × List W))
    (records : List (K × (List V × List W))) : Prop where
  left_distinct : left.Pairwise fun x y => (x.1 == y.1) = false
  right_distinct : right.Pairwise fun x y => (x.1 == y.1) = false
  enumerates : Enumerates (fun k => isKeyOf k left = true ∨ isKeyOf k right = true)
    (fun k => (vectorOf k left, vectorOf k right)) records

/-- What groups the same rows agrees. -/
theorem EnumeratesPairs.agree (h : EnumeratesPairs a b records) (ha : EnumeratesValues a left)
    (hb : EnumeratesValues b right) : Agree left right records where
  left_distinct := ha.distinct
  right_distinct := hb.distinct
  enumerates := by
    refine Enumerates.congr h ?_ ?_
    · intro k
      rw [ha.isKeyOf_iff, hb.isKeyOf_iff]
    · intro k
      rw [ha.vectorOf_eq, hb.vectorOf_eq]

end Lists

variable {β : Type} [Basis β]

namespace Lineage

variable {t k v w : ElementType β}

/-- The rows of a collection are these and in this order, however it is run. -/
structure Yields (e : Lineage β t) (rows : List t.Carrier) : Prop where
  faithful : ∀ g ∈ e.groupers, g.IsFaithful
  denotes : ∀ out, e.Denotes out → out = rows

theorem yields_source (t : ElementType β) (rows : List t.Carrier) :
    (Lineage.source t rows).Yields rows where
  faithful := List.forall_mem_nil _
  denotes _ h := h

/-- What grouping by key denotes are the records of the rows. -/
theorem Yields.perm_recordsByKey {x : Lineage β (.pair k v)} {a : List (k.Carrier × v.Carrier)}
    (h : x.Yields a) {out : List (k.Carrier × List v.Carrier)} (hout : x.groupByKey.Denotes out) :
    out.Perm (recordsByKey a) := by
  obtain ⟨rows, hrows, hperm⟩ := hout
  rwa [h.denotes rows hrows] at hperm

/-- What a co-group denotes are the records of both inputs. -/
theorem Yields.enumeratesPairs {x : Lineage β (.pair k v)} {y : Lineage β (.pair k w)}
    {a : List (k.Carrier × v.Carrier)} {b : List (k.Carrier × w.Carrier)} (hx : x.Yields a)
    (hy : y.Yields b) {g : Grouper β} {name : String}
    {out : List (k.Carrier × (List v.Carrier × List w.Carrier))}
    (hout : (joinTwo g name .cogroup x y).Denotes out) : EnumeratesPairs a b out := by
  obtain ⟨rows, rows', listed, hrows, hrows', hlisted, heq⟩ := hout
  have hsame : out = listed := heq.trans (List.flatMap_singleton' listed)
  have hperm := hlisted.1
  rw [hx.denotes rows hrows, hy.denotes rows' hrows'] at hperm
  rw [hsame]
  exact (enumerates_records a b).perm hperm.symm

end Lineage

namespace Construction

/-- Grouping by key and co-grouping agree. For tables of any cuts of two inputs, each listed in any
order, and for groups of both inputs as they are first met: the records of the co-group agree with
the records by key of its inputs. So do the rows of collections of a construction that group two
inputs by key and co-group them, in whatever ways and with whatever numbers of partitions the three
are run, as long as each input has the same rows in every run, as a source has; and any two lists
can be put into a construction in this way. -/
theorem cogroup_agrees :
    (∀ {K V W : Type} [BEq K] [EquivBEq K] [Hashable K] [LawfulHashable K]
      (pieces : List (List (K × V))) (pieces' : List (List (K × W))) (left : List (K × List V))
      (right : List (K × List W)), KeyTable.MergesTo pieces left → KeyTable.MergesTo pieces' right →
        Agree left right (cogroup groupTagged pieces.flatten pieces'.flatten)) ∧
    (∀ {s : Construction β}, Leads {} s → ∀ {k v w : ElementType β} {x : Lineage β (.pair k v)}
      {y : Lineage β (.pair k w)} {a : List (k.Carrier × v.Carrier)}
      {b : List (k.Carrier × w.Carrier)}, x.Yields a → y.Yields b →
      ∀ {g : Grouper β} {name : String}, g.IsBuiltIn →
      ∀ {cx : Collection β (.pair k (.vector v))} {cy : Collection β (.pair k (.vector w))}
        {c : Collection β (.pair k (.pair (.vector v) (.vector w)))},
        ⟨_, cx, x.groupByKey⟩ ∈ s.issued → ⟨_, cy, y.groupByKey⟩ ∈ s.issued →
        ⟨_, c, .joinTwo g name .cogroup x y⟩ ∈ s.issued →
        ∀ first second third : RunSettings β, ∃ left right records,
          (cx.collect first s.workspace).result = .ok left ∧
          (cy.collect second s.workspace).result = .ok right ∧
          (c.collect third s.workspace).result = .ok records ∧
          left.Perm (recordsByKey a) ∧ right.Perm (recordsByKey b) ∧
          Agree left right records) ∧
    ∀ {k v w : ElementType β} (a : List (k.Carrier × v.Carrier)) (b : List (k.Carrier × w.Carrier))
      (g : Grouper β) (name : String), ∃ s : Construction β, Leads {} s ∧
      ∃ (cx : Collection β (.pair k (.vector v))) (cy : Collection β (.pair k (.vector w)))
        (c : Collection β (.pair k (.pair (.vector v) (.vector w)))),
        ⟨_, cx, (Lineage.source (.pair k v) a).groupByKey⟩ ∈ s.issued ∧
        ⟨_, cy, (Lineage.source (.pair k w) b).groupByKey⟩ ∈ s.issued ∧
        ⟨_, c, .joinTwo g name .cogroup (.source (.pair k v) a) (.source (.pair k w) b)⟩ ∈
          s.issued := by
  refine ⟨?_, ?_, ?_⟩
  · intro K V W _ _ _ _ pieces pieces' left right hleft hright
    have hpairs := honoursContract_groupTagged.cogroup pieces.flatten pieces'.flatten
    exact hpairs.agree (enumeratesValues_of_perm hleft.perm_recordsByKey)
      (enumeratesValues_of_perm hright.perm_recordsByKey)
  · intro s hreach k v w x y a b hx hy g name hg cx cy c hcx hcy hc first second third
    have hjoin : ∀ g' ∈ (Lineage.joinTwo g name .cogroup x y).groupers, g'.IsFaithful :=
      List.forall_mem_cons.2 ⟨hg.isFaithful, List.forall_mem_append.2 ⟨hx.faithful, hy.faithful⟩⟩
    obtain ⟨left, hleft, hdenotesx⟩ := hreach.collect_denoted (.refl s) hcx hx.faithful first
    obtain ⟨right, hright, hdenotesy⟩ := hreach.collect_denoted (.refl s) hcy hy.faithful second
    obtain ⟨records, hrecords, hdenotes⟩ := hreach.collect_denoted (.refl s) hc hjoin third
    have ha := hx.perm_recordsByKey hdenotesx
    have hb := hy.perm_recordsByKey hdenotesy
    have hpairs := hx.enumeratesPairs hy hdenotes
    exact ⟨left, right, records, hleft, hright, hrecords, ha, hb,
      hpairs.agree (enumeratesValues_of_perm ha) (enumeratesValues_of_perm hb)⟩
  · intro k v w a b g name
    obtain ⟨s₁, h₁, hlenient₁, cx, hcx⟩ := isLenient_fresh.exists_issued isSound_fresh
      (Lineage.source (.pair k v) a).groupByKey
    obtain ⟨s₂, h₂, hlenient₂, cy, hcy⟩ := hlenient₁.exists_issued (h₁.isSound isSound_fresh)
      (Lineage.source (.pair k w) b).groupByKey
    obtain ⟨s₃, h₃, _, c, hc⟩ := hlenient₂.exists_issued ((h₁.trans h₂).isSound isSound_fresh)
      (Lineage.joinTwo g name .cogroup (.source (.pair k v) a) (.source (.pair k w) b))
    exact ⟨s₃, leads_fresh.trans (h₁.trans (h₂.trans h₃)), cx, cy, c,
      (h₂.trans h₃).mem hcx, h₃.mem hcy, hc⟩

/-- Rows with a key of the sample and one that it does not have. -/
def otherList : List (Int64 × Int64) := [(3, 40), (2, 50)]

theorem cogroup_agrees_sample :
    ∃ (s : Construction Atom)
      (cx cy : Collection Atom (.pair (.base .int64) (.vector (.base .int64))))
      (c : Collection Atom (.pair (.base .int64)
        (.pair (.vector (.base .int64)) (.vector (.base .int64)))))
      (left right : List (Int64 × List Int64))
      (records : List (Int64 × (List Int64 × List Int64))),
      (cx.collect ⟨.sequential, 16, fun _ => {}⟩ s.workspace).result = .ok left ∧
      (cy.collect ⟨.parallel none (some 2), 16, fun _ => {}⟩ s.workspace).result = .ok right ∧
      (c.collect ⟨.parallel (some 4) (some 3), 16, fun _ => {}⟩ s.workspace).result =
        .ok records ∧
      left.Perm [(2, [10, 30]), (1, [20])] ∧ right.Perm [(3, [40]), (2, [50])] ∧
      Agree left right records := by
  obtain ⟨_, hruns, hexists⟩ := @cogroup_agrees Atom _
  obtain ⟨s, hreach, cx, cy, c, hcx, hcy, hc⟩ :=
    @hexists (.base .int64) (.base .int64) (.base .int64) sampleList otherList .firstMet "both"
  obtain ⟨left, right, records, hleft, hright, hrecords, ha, hb, hagree⟩ :=
    hruns hreach (Lineage.yields_source _ _) (Lineage.yields_source _ _)
      (.inl rfl : Grouper.firstMet.IsBuiltIn) hcx hcy hc ⟨.sequential, 16, fun _ => {}⟩
      ⟨.parallel none (some 2), 16, fun _ => {}⟩ ⟨.parallel (some 4) (some 3), 16, fun _ => {}⟩
  exact ⟨s, cx, cy, c, left, right, records, hleft, hright, hrecords, ha, hb, hagree⟩

end Construction

end JoinPipeline
