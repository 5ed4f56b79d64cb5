import JoinPipeline.Proofs.Construction
import JoinPipeline.Proofs.Denotation
import JoinPipeline.Proofs.Order

/-!
# Collecting

Whoever has been given a collection can collect it at every later point, in every mode: the run
succeeds with rows that the lineage of the collection denotes. From this follows what a sequential
run gives, when a parallel run gives the same rows in the same order, and when two runs give the
same rows in some order. For the last it is needed that equal keys are the same: of keys that are
equal but can be told apart, the one that is met first stands for the others, and which one this is
may depend on a hash.
-/

namespace JoinPipeline

variable {β : Type} [Basis β]

/-- Planning and running a chain that has been found. -/
theorem Graph.Reaches.collect {g : Graph β} {terminal : NodeId} {chain : Chain β}
    (h : g.Reaches terminal chain) {settings : RunSettings β} {t : ElementType β}
    {rows : List t.Carrier} (hgives : Run.Gives settings.context chain t rows) :
    (g.collect settings terminal t).result = .ok rows := by
  obtain ⟨parts, hrun, hcut⟩ := hgives.fuse
  rw [Graph.collect, Log.Traced.result_bind, Log.Traced.result_mapError, Graph.buildPlan_result,
    h.plan]
  refine bind_eq_ok.2 ⟨_, rfl, ?_⟩
  rw [Log.Traced.result_bind]
  refine bind_eq_ok.2 ⟨(), rfl, ?_⟩
  rw [Log.Traced.result_bind, Log.Traced.result_elsewhereIf, hrun]
  exact Run.gather_of_isCut hcut

theorem Collection.collectSorted_eq_ok {t : ElementType β} {c : Collection β t}
    {settings : RunSettings β} {w : Workspace β} {rows : List t.Carrier}
    (h : (c.collect settings w).result = .ok rows) :
    (c.collectSorted settings w).result = .ok (t.sort rows) := by
  refine (Log.Traced.result_bind (c.collect settings w) _).trans ?_
  rw [h]
  rfl

namespace Construction

variable {s s' : Construction β}

/-- A collection that has been given out can be collected at every later point. -/
theorem Leads.collect_denoted (hreach : Leads {} s) (hlater : Leads s s') {i : Issued β}
    (hi : i ∈ s.issued) (hg : ∀ g ∈ i.lineage.groupers, g.IsFaithful)
    (settings : RunSettings β) :
    ∃ rows, (i.handle.collect settings s'.workspace).result = .ok rows ∧
      i.lineage.Denotes rows := by
  have hsound := hlater.isSound (hreach.isSound isSound_empty)
  obtain ⟨rows, hgives, hdenotes⟩ := i.lineage.gives_denoted hg settings.context
  exact ⟨rows, (hsound.reaches i (hlater.mem hi)).collect hgives, hdenotes⟩

/-- A sequential run of a collection whose joins list their keys as they are first met. -/
theorem collect_sequential_denotes (hreach : Leads {} s) (hlater : Leads s s') {i : Issued β}
    (hi : i ∈ s.issued) (hg : ∀ g ∈ i.lineage.groupers, g = .firstMet) (default : Nat)
    (schemes : List Nat → HashScheme β) :
    ∃ rows, (i.handle.collect ⟨.sequential, default, schemes⟩ s'.workspace).result = .ok rows ∧
      i.lineage.Denotes rows := by
  refine hreach.collect_denoted hlater hi (fun g hmem => ?_) _
  rw [hg g hmem]
  exact Grouper.firstMet_keepsOrder.isFaithful

/-- The rows of the sample joined with itself. -/
def selfJoinedList : List (Int64 × (Int64 × Int64)) :=
  [(2, 10, 10), (2, 30, 10), (2, 10, 30), (2, 30, 30), (1, 20, 20)]

theorem collect_sequential_selfJoined :
    ∃ c : Collection Atom (.pair (.base .int64) (.pair (.base .int64) (.base .int64))),
      (c.collect ⟨.sequential, 16, fun _ => {}⟩ (selfJoined .firstMet).workspace).result =
        .ok selfJoinedList := by
  obtain ⟨c, hc⟩ := issued_selfJoined .firstMet
  have hg : ∀ g ∈ (Lineage.joinTwo .firstMet "inner" .inner sampleRows.lineage
      sampleRows.lineage).groupers, g = .firstMet := fun g hmem => List.mem_singleton.1 hmem
  obtain ⟨rows, hrun, a, b, listed, ha, hb, hlisted, hrows⟩ :=
    collect_sequential_denotes (leads_selfJoined .firstMet) (.refl _) hc hg 16 fun _ => {}
  have hkeyed := (Grouper.firstMet_keepsOrder.lists_iff _ _).1 hlisted
  subst ha hb hkeyed hrows
  exact ⟨c, hrun⟩

/-- Without grouping by key, and with one table per join, a parallel run gives the rows of a
sequential run in their order, whatever the numbers of threads and partitions. -/
theorem collect_parallel_eq_sequential {s₁ s₂ : Construction β} (hreach : Leads {} s)
    (hfirst : Leads s s₁) (hsecond : Leads s s₂) {i : Issued β} (hi : i ∈ s.issued)
    (hkeys : i.lineage.groupsByKey = false) (hg : ∀ g ∈ i.lineage.groupers, g.HasOneTable)
    (threads partitions : Option Nat) (default default' : Nat)
    (schemes schemes' : List Nat → HashScheme β) :
    ∃ rows,
      (i.handle.collect ⟨.parallel threads partitions, default, schemes⟩ s₁.workspace).result =
        .ok rows ∧
      (i.handle.collect ⟨.sequential, default', schemes'⟩ s₂.workspace).result = .ok rows := by
  have hkeeps : ∀ g ∈ i.lineage.groupers, g.KeepsOrder := fun g hmem => (hg g hmem).keepsOrder
  have hfaithful : ∀ g ∈ i.lineage.groupers, g.IsFaithful := fun g hmem =>
    (hkeeps g hmem).isFaithful
  obtain ⟨rows, hrun, hdenotes⟩ := hreach.collect_denoted hfirst hi hfaithful
    ⟨.parallel threads partitions, default, schemes⟩
  obtain ⟨rows', hrun', hdenotes'⟩ := hreach.collect_denoted hsecond hi hfaithful
    ⟨.sequential, default', schemes'⟩
  have heq := Lineage.Denotes.unique hkeys hkeeps hdenotes hdenotes'
  exact ⟨rows, hrun, heq ▸ hrun'⟩

theorem collect_parallel_selfJoined : ∃ c rows,
    (Collection.collect (t := .pair (.base .int64) (.pair (.base .int64) (.base .int64))) c
      ⟨.parallel (some 4) (some 3), 16, fun _ => {}⟩ (selfJoined (.bucketed 1)).workspace).result =
        .ok rows ∧
      (c.collect ⟨.sequential, 16, fun _ => {}⟩ (selfJoined (.bucketed 1)).workspace).result =
        .ok rows := by
  obtain ⟨c, hc⟩ := issued_selfJoined (.bucketed 1)
  have hg : ∀ g ∈ (Lineage.joinTwo (.bucketed 1) "inner" .inner sampleRows.lineage
      sampleRows.lineage).groupers, g.HasOneTable := by
    intro g hmem
    exact .inr ⟨1, rfl, List.mem_singleton.1 hmem⟩
  obtain ⟨rows, hparallel, hsequential⟩ :=
    collect_parallel_eq_sequential (leads_selfJoined (.bucketed 1)) (.refl _) (.refl _) hc rfl hg
      (some 4) (some 3) 16 16 (fun _ => {}) fun _ => {}
  exact ⟨c, rows, hparallel, hsequential⟩

/-- Any two runs of an order-safe collection that tells keys apart give the same rows in some order.
Where the order of the elements is total, the sorted rows are equal if it ties equal elements alone,
and the same if it ties no two elements. -/
theorem collect_perm_of_isOrderSafe {s₁ s₂ : Construction β} (hreach : Leads {} s)
    (hfirst : Leads s s₁) (hsecond : Leads s s₂) {i : Issued β} (hi : i ∈ s.issued)
    (hg : ∀ g ∈ i.lineage.groupers, g.IsBuiltIn) (hsafe : i.lineage.IsOrderSafe)
    (hkeys : i.lineage.TellsKeysApart) (first second : RunSettings β) :
    ∃ rows rows', (i.handle.collect first s₁.workspace).result = .ok rows ∧
      (i.handle.collect second s₂.workspace).result = .ok rows' ∧ rows.Perm rows' ∧
      ∃ sorted sorted', (i.handle.collectSorted first s₁.workspace).result = .ok sorted ∧
        (i.handle.collectSorted second s₂.workspace).result = .ok sorted' ∧
        (Std.TransCmp i.element.compare → Std.LawfulBEqCmp i.element.compare →
          (sorted == sorted') = true) ∧
        (Std.TransCmp i.element.compare → Std.LawfulEqCmp i.element.compare →
          sorted = sorted') := by
  have hfaithful : ∀ g ∈ i.lineage.groupers, g.IsFaithful := fun g hmem =>
    (hg g hmem).isFaithful
  obtain ⟨rows, hrun, hdenotes⟩ := hreach.collect_denoted hfirst hi hfaithful first
  obtain ⟨rows', hrun', hdenotes'⟩ := hreach.collect_denoted hsecond hi hfaithful second
  have hperm := Lineage.Denotes.perm hg hsafe hkeys hdenotes hdenotes'
  refine ⟨rows, rows', hrun, hrun', hperm, i.element.sort rows, i.element.sort rows',
    Collection.collectSorted_eq_ok hrun, Collection.collectSorted_eq_ok hrun', ?_, ?_⟩
  · intro htrans hlawful
    exact ElementType.sort_beq_of_perm hperm
  · intro htrans hlawful
    exact ElementType.sort_eq_of_perm hperm

/-- Keys that all fall into one bucket. -/
def oneBucket : HashScheme β where
  bucket _ _ := 0
  bucket_congr _ _ _ _ := rfl

/-- The rows of the sample joined with themselves in buckets, and then with these rows. -/
def joinedAgain : Lineage Atom (.pair (.base .int64)
    (.pair (.pair (.base .int64) (.base .int64)) (.base .int64))) :=
  .joinTwo .firstMet "again" .inner
    (.joinTwo (.bucketed 4) "inner" .inner sampleRows.lineage sampleRows.lineage)
    sampleRows.lineage

theorem collect_perm_joinedAgain :
    ∃ (s : Construction Atom) (c : Collection Atom _) (rows rows' sorted : List _),
      ⟨_, c, joinedAgain⟩ ∈ s.issued ∧
      (c.collect ⟨.sequential, 16, fun _ => {}⟩ s.workspace).result = .ok rows ∧
      (c.collect ⟨.parallel none (some 2), 16, fun _ => oneBucket⟩ s.workspace).result =
        .ok rows' ∧ rows.Perm rows' ∧
      (c.collectSorted ⟨.sequential, 16, fun _ => {}⟩ s.workspace).result = .ok sorted ∧
      (c.collectSorted ⟨.parallel none (some 2), 16, fun _ => oneBucket⟩ s.workspace).result =
        .ok sorted := by
  obtain ⟨s, hreach, c, hc⟩ := exists_issued joinedAgain
  have hg : ∀ g ∈ joinedAgain.groupers, g.IsBuiltIn := by
    refine List.forall_mem_cons.2 ⟨.inl rfl, List.forall_mem_singleton.2 (.inr ⟨4, rfl⟩)⟩
  have hsafe : joinedAgain.IsOrderSafe := ⟨nofun, ⟨nofun, trivial, trivial⟩, trivial⟩
  have hkeys : joinedAgain.TellsKeysApart :=
    ⟨fun _ => inferInstance, ⟨fun _ => inferInstance, trivial, trivial⟩, trivial⟩
  obtain ⟨rows, rows', hrun, hrun', hperm, sorted, sorted', hsorted, hsorted', _, hsame⟩ :=
    collect_perm_of_isOrderSafe hreach (.refl _) (.refl _) hc hg hsafe hkeys
      ⟨.sequential, 16, fun _ => {}⟩ ⟨.parallel none (some 2), 16, fun _ => oneBucket⟩
  have htrans : Std.TransCmp (ElementType.base Atom.int64).compare :=
    Value.orderOf_transCmp (α := Int64)
  have hlawful : Std.LawfulEqCmp (ElementType.base Atom.int64).compare :=
    Value.orderOf_lawfulEqCmp (α := Int64)
  have heq := hsame
    (ElementType.transCmp_pair htrans (ElementType.transCmp_pair
      (ElementType.transCmp_pair htrans htrans) htrans))
    (ElementType.lawfulEqCmp_pair hlawful (ElementType.lawfulEqCmp_pair
      (ElementType.lawfulEqCmp_pair hlawful hlawful) hlawful))
  exact ⟨s, c, rows, rows', sorted, hc, hrun, hrun', hperm, hsorted, heq ▸ hsorted'⟩

section Dials

/-- An hour of a dial. Numbers that differ by a multiple of twelve stand for the same hour. -/
structure Hour where
  number : Nat

instance : BEq Hour := ⟨fun x y => x.number % 12 == y.number % 12⟩

instance : EquivBEq Hour where
  rfl {x} := BEq.rfl (a := x.number % 12)
  symm h := BEq.symm (α := Nat) h
  trans h h' := BEq.trans (α := Nat) h h'

/-- Numbers and hours. -/
inductive Dial where
  | number
  | hour
  deriving DecidableEq

@[reducible] def Dial.Carrier : Dial → Type
  | number => Nat
  | hour => Hour

instance : Basis Dial where
  Carrier := Dial.Carrier
  name
    | .number => "u64"
    | .hour => "Hour"
  decEqBase := inferInstance
  beqCarrier
    | .number => inferInstanceAs (BEq Nat)
    | .hour => inferInstanceAs (BEq Hour)
  equivBEq
    | .number => inferInstanceAs (EquivBEq Nat)
    | .hour => inferInstanceAs (EquivBEq Hour)
  compare
    | .number => fun m n => compare m n
    | .hour => fun x y => compare (x.number % 12) (y.number % 12)
  hash
    | .number => Nat.toUInt64
    | .hour => fun x => (x.number % 12).toUInt64
  hash_eq
    | .number, _, _, h => congrArg Nat.toUInt64 (eq_of_beq (α := Nat) h)
    | .hour, _, _, h => congrArg Nat.toUInt64 (eq_of_beq (α := Nat) h)

abbrev number : ElementType Dial := .base .number

abbrev hour : ElementType Dial := .base .hour

/-- The same hour twice, under different numbers. -/
def numberedHours : List (Nat × Hour) := [(1, ⟨1⟩), (2, ⟨13⟩)]

/-- Joined with themselves in two buckets; then the hour becomes the key. -/
def hours : Lineage Dial (.pair hour number) :=
  (Lineage.joinTwo (v := hour) (w := hour) (.bucketed 2) "inner" .inner
      (.source (.pair number hour) numberedHours) (.source (.pair number hour) numberedHours)).each
    (.map (t := .pair hour number) fun (row : Nat × (Hour × Hour)) => (row.2.1, row.1))

/-- Joined with themselves by the hour, of which the number is then read. -/
def metHours : Lineage Dial number :=
  (Lineage.joinTwo (v := number) (w := number) .firstMet "met" .inner hours hours).each
    (.map (t := number) fun (row : Hour × (Nat × Nat)) => row.1.number)

/-- A sequential run all tables of which make the same choices. -/
def alike (scheme : HashScheme Dial) : RunSettings Dial := ⟨.sequential, 1, fun _ => scheme⟩

theorem gives_metHours {scheme : HashScheme Dial} {rows : List (Hour × Nat)} {numbers : List Nat}
    (hrows : (((List.range 2).flatMap fun bucket =>
      (records (K := number.Carrier) numberedHours numberedHours).filter fun record =>
        scheme.bucket number record.1 % 2 = bucket).flatMap
          (PairJoin.inner.expand (v := hour) (w := hour))).map
            (fun (row : Nat × (Hour × Hour)) => (row.2.1, row.1)) = rows)
    (hnumbers : ((records (K := hour.Carrier) rows rows).flatMap
      (PairJoin.inner.expand (v := number) (w := number))).map
        (fun (row : Hour × (Nat × Nat)) => row.1.number) = numbers) :
    Run.Gives (alike scheme).context metHours.chain number numbers := by
  subst hrows hnumbers
  have hsource := Run.gives_source (alike scheme).context (.pair number hour) numberedHours
  have hjoin := Run.gives_bucketed (alike scheme).context 2 "inner" .inner hsource.fuse hsource.fuse
  have hhours := hjoin.each
    (.map (t := .pair hour number) fun (row : Nat × (Hour × Hour)) => (row.2.1, row.1))
  have hmet := Run.gives_firstMet (alike scheme).context "met" .inner hhours.fuse hhours.fuse
  exact hmet.each (.map (t := number) fun (row : Hour × (Nat × Nat)) => row.1.number)

/-- Where equal keys can be told apart, two runs of an order-safe collection may differ in more than
the order of their rows: the numbers read are those of the hour that was met first. -/
theorem collect_not_perm_metHours :
    ∃ (s : Construction Dial) (c : Collection Dial number),
      Leads {} s ∧ ⟨number, c, metHours⟩ ∈ s.issued ∧
      (∀ g ∈ metHours.groupers, g.IsBuiltIn) ∧ metHours.IsOrderSafe ∧
      ∃ rows rows' : List Nat,
        (c.collect (alike {}) s.workspace).result = .ok rows ∧
        (c.collect (alike oneBucket) s.workspace).result = .ok rows' ∧
        rows = [13, 13, 13, 13] ∧ rows' = [1, 1, 1, 1] ∧ ¬ rows.Perm rows' := by
  obtain ⟨s, hreach, c, hc⟩ := exists_issued metHours
  have hreaches := (hreach.isSound isSound_empty).reaches _ hc
  have hbuckets : Grouper.IsBuiltIn (.bucketed 2 : Grouper Dial) := .inr ⟨2, rfl⟩
  have hg : ∀ g ∈ metHours.groupers, g.IsBuiltIn :=
    List.forall_mem_cons.2 ⟨.inl rfl,
      List.forall_mem_cons.2 ⟨hbuckets, List.forall_mem_singleton.2 hbuckets⟩⟩
  have hhours : hours.IsOrderSafe := ⟨nofun, trivial, trivial⟩
  exact ⟨s, c, hreach, hc, hg, ⟨nofun, hhours, hhours⟩, _, _,
    hreaches.collect (gives_metHours rfl rfl), hreaches.collect (gives_metHours rfl rfl), rfl, rfl,
    by decide⟩

end Dials

end Construction

end JoinPipeline
