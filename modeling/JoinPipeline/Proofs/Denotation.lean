import JoinPipeline.Proofs.Reordering
import JoinPipeline.Proofs.Stages

/-!
# What chains of lineages give

Running the chain of a lineage succeeds and gives rows that the lineage denotes, whatever the
number of partitions and whatever the tables choose. How far these rows are determined depends on
the steps behind them: without a step that lists records in an order of its own there is only one
list of rows, and if no such step is followed by one that puts values into vectors, any two lists
of rows differ in their order alone.
-/

namespace JoinPipeline

variable {β : Type} [Basis β]

namespace Grouper

/-- The groupers that are given. -/
def IsBuiltIn (g : Grouper β) : Prop := g = firstMet ∨ ∃ n, g = bucketed n

/-- The groupers whose keys all fall into one table. -/
def HasOneTable (g : Grouper β) : Prop := g = firstMet ∨ ∃ n, bucketCount n = 1 ∧ g = bucketed n

/-- The groupers that list the records by the hashes of their keys. -/
def Scrambles (g : Grouper β) : Prop := ∃ n, 2 ≤ bucketCount n ∧ g = bucketed n

theorem firstMet_keepsOrder : (firstMet : Grouper β).KeepsOrder := by
  intro scheme k τ inputs
  exact groupTagged_eq inputs

theorem KeepsOrder.isFaithful {g : Grouper β} (h : g.KeepsOrder) : g.IsFaithful := by
  intro scheme k τ inputs
  rw [h scheme k inputs]

theorem bucketed_isFaithful (n : Nat) : (bucketed n : Grouper β).IsFaithful := by
  intro scheme k τ inputs
  exact groupBucketed_perm (scheme.bucket_congr k) (bucketCount_pos n) inputs

theorem bucketed_keepsOrder {n : Nat} (hn : bucketCount n = 1) :
    (bucketed n : Grouper β).KeepsOrder := by
  intro scheme k τ inputs
  show groupBucketed (scheme.bucket k) (bucketCount n) inputs = _
  rw [hn]
  exact groupBucketed_one (scheme.bucket_congr k) inputs

theorem HasOneTable.keepsOrder {g : Grouper β} (h : g.HasOneTable) : g.KeepsOrder := by
  rcases h with h | ⟨n, hn, h⟩
  · rw [h]
    exact firstMet_keepsOrder
  · rw [h]
    exact bucketed_keepsOrder hn

theorem IsBuiltIn.isFaithful {g : Grouper β} (h : g.IsBuiltIn) : g.IsFaithful := by
  rcases h with h | ⟨n, h⟩
  · rw [h]
    exact firstMet_keepsOrder.isFaithful
  · rw [h]
    exact bucketed_isFaithful n

theorem IsBuiltIn.hasOneTable {g : Grouper β} (h : g.IsBuiltIn) (hg : ¬ g.Scrambles) :
    g.HasOneTable := by
  rcases h with h | ⟨n, h⟩
  · exact .inl h
  · refine .inr ⟨n, ?_, h⟩
    have hpos := bucketCount_pos n
    by_contra hn
    exact hg ⟨n, by omega, h⟩

section Lists

variable {g : Grouper β} {k v w a b c : ElementType β}

theorem KeepsOrder.lists_iff (h : g.KeepsOrder) {α : Type} (records listed : List α) :
    g.Lists records listed ↔ listed = records := by
  constructor
  · intro hlists
    exact hlists.2 h
  · intro heq
    exact ⟨heq ▸ .refl _, fun _ => heq⟩

/-- What the records of two co-groups expand to, when they may be listed in any order. -/
theorem Lists.flatMap_perm {α γ : Type} {records records' listed listed' : List α}
    (h : g.Lists records listed) (h' : g.Lists records' listed') (f : α → List γ)
    (hrows : (records.flatMap f).Perm (records'.flatMap f)) :
    (listed.flatMap f).Perm (listed'.flatMap f) := by
  have hlisted := h.1.flatMap_right f
  have hlisted' := h'.1.flatMap_right f
  exact hlisted.trans (hrows.trans hlisted'.symm)

theorem IsFaithful.lists_cogroup (h : g.IsFaithful) (scheme : HashScheme β)
    (x : List (k.Carrier × v.Carrier)) (y : List (k.Carrier × w.Carrier)) :
    g.Lists (records x y) (JoinPipeline.cogroup (g.group scheme k) x y) :=
  ⟨cogroup_perm (h scheme k _), fun hkeeps => cogroup_eq (hkeeps scheme k _)⟩

theorem IsFaithful.lists_cogroup3 (h : g.IsFaithful) (scheme : HashScheme β)
    (x : List (k.Carrier × a.Carrier)) (y : List (k.Carrier × b.Carrier))
    (z : List (k.Carrier × c.Carrier)) :
    g.Lists (records3 x y z) (JoinPipeline.cogroup3 (g.group scheme k) x y z) :=
  ⟨cogroup3_perm (h scheme k _), fun hkeeps => cogroup3_eq (hkeeps scheme k _)⟩

end Lists

end Grouper

section Orders

variable {k v w : ElementType β} (ctx : RunContext β) {left right : Chain β}
  {x : List (k.Carrier × v.Carrier)} {y : List (k.Carrier × w.Carrier)}

/-- What a join gives whose keys come as they are first met. -/
theorem Run.gives_firstMet (name : String) (kind : PairJoin)
    (hx : Gives (ctx.below 1) left (.pair k v) x) (hy : Gives (ctx.below 2) right (.pair k w) y) :
    Gives ctx [.coGroup (Grouper.firstMet.pairStep name kind k v w) [left, right]]
      (.pair k (kind.payload v w)) ((records x y).flatMap kind.expand) := by
  have hrows := gives_joinTwo .firstMet name kind hx hy
  rw [kind.rows_eq, cogroup_eq (Grouper.firstMet_keepsOrder _ k _)] at hrows
  exact hrows

/-- What a join gives whose keys are dealt out to buckets. -/
theorem Run.gives_bucketed (n : Nat) (name : String) (kind : PairJoin)
    (hx : Gives (ctx.below 1) left (.pair k v) x) (hy : Gives (ctx.below 2) right (.pair k w) y) :
    Gives ctx [.coGroup ((Grouper.bucketed n).pairStep name kind k v w) [left, right]]
      (.pair k (kind.payload v w)) (((List.range (bucketCount n)).flatMap fun bucket =>
        (records x y).filter fun record =>
          ctx.scheme.bucket k record.1 % bucketCount n = bucket).flatMap kind.expand) := by
  rw [← cogroup_groupBucketed (ctx.scheme.bucket_congr k), ← kind.rows_eq]
  exact gives_joinTwo (.bucketed n) name kind hx hy

end Orders

namespace Lineage

variable {t : ElementType β}

/-- The chain of a lineage gives rows that the lineage denotes, in every context. -/
theorem gives_denoted (e : Lineage β t) (h : ∀ g ∈ e.groupers, g.IsFaithful)
    (ctx : RunContext β) : ∃ rows, Run.Gives ctx e.chain t rows ∧ e.Denotes rows := by
  induction e generalizing ctx with
  | source t rows => exact ⟨rows, Run.gives_source ctx t rows, rfl⟩
  | each input e ih =>
    obtain ⟨rows, hgives, hdenotes⟩ := ih h ctx
    exact ⟨e.rows rows, hgives.each e, rows, hdenotes, rfl⟩
  | groupByKey input ih =>
    obtain ⟨rows, hgives, hdenotes⟩ := ih h ctx
    obtain ⟨out, hout, hgives'⟩ := hgives.groupByKey
    exact ⟨out, hgives', rows, hdenotes, hout⟩
  | joinTwo g name kind x y ihx ihy =>
    obtain ⟨hg, hinputs⟩ := List.forall_mem_cons.1 h
    obtain ⟨hx, hy⟩ := List.forall_mem_append.1 hinputs
    obtain ⟨a, hgivesx, ha⟩ := ihx hx (ctx.below 1)
    obtain ⟨b, hgivesy, hb⟩ := ihy hy (ctx.below 2)
    have hlists := hg.lists_cogroup ctx.scheme a b
    exact ⟨_, Run.gives_joinTwo g name kind hgivesx.fuse hgivesy.fuse, a, b, _, ha, hb, hlists,
      kind.rows_eq _ a b⟩
  | joinThree g name kind x y z ihx ihy ihz =>
    obtain ⟨hg, hinputs⟩ := List.forall_mem_cons.1 h
    obtain ⟨hx, hrest⟩ := List.forall_mem_append.1 hinputs
    obtain ⟨hy, hz⟩ := List.forall_mem_append.1 hrest
    obtain ⟨a, hgivesx, ha⟩ := ihx hx (ctx.below 1)
    obtain ⟨b, hgivesy, hb⟩ := ihy hy (ctx.below 2)
    obtain ⟨c, hgivesz, hc⟩ := ihz hz (ctx.below 3)
    have hlists := hg.lists_cogroup3 ctx.scheme a b c
    exact ⟨_, Run.gives_joinThree g name kind hgivesx.fuse hgivesy.fuse hgivesz.fuse, a, b, c, _,
      ha, hb, hc, hlists, kind.rows_eq _ a b c⟩

/-- Without a step that lists records in an order of its own there is one list of rows. -/
theorem Denotes.unique {e : Lineage β t} (hkeys : e.groupsByKey = false)
    (hg : ∀ g ∈ e.groupers, g.KeepsOrder) {l l' : List t.Carrier} (h : e.Denotes l)
    (h' : e.Denotes l') : l = l' := by
  induction e with
  | source t rows => exact h.trans h'.symm
  | each input e ih =>
    obtain ⟨rows, hrows, hl⟩ := h
    obtain ⟨rows', hrows', hl'⟩ := h'
    rw [hl, hl', ih hkeys hg hrows hrows']
  | groupByKey input ih => cases hkeys
  | joinTwo g name kind x y ihx ihy =>
    obtain ⟨hkeep, hinputs⟩ := List.forall_mem_cons.1 hg
    obtain ⟨hgx, hgy⟩ := List.forall_mem_append.1 hinputs
    obtain ⟨hkx, hky⟩ := Bool.or_eq_false_iff.1 hkeys
    obtain ⟨a, b, listed, ha, hb, hlisted, hl⟩ := h
    obtain ⟨a', b', listed', ha', hb', hlisted', hl'⟩ := h'
    rw [hkeep.lists_iff] at hlisted hlisted'
    rw [hl, hl', hlisted, hlisted', ihx hkx hgx ha ha', ihy hky hgy hb hb']
  | joinThree g name kind x y z ihx ihy ihz =>
    obtain ⟨hkeep, hinputs⟩ := List.forall_mem_cons.1 hg
    obtain ⟨hgx, hrest⟩ := List.forall_mem_append.1 hinputs
    obtain ⟨hgy, hgz⟩ := List.forall_mem_append.1 hrest
    obtain ⟨hkx, hkrest⟩ := Bool.or_eq_false_iff.1 hkeys
    obtain ⟨hky, hkz⟩ := Bool.or_eq_false_iff.1 hkrest
    obtain ⟨a, b, c, listed, ha, hb, hc, hlisted, hl⟩ := h
    obtain ⟨a', b', c', listed', ha', hb', hc', hlisted', hl'⟩ := h'
    rw [hkeep.lists_iff] at hlisted hlisted'
    rw [hl, hl', hlisted, hlisted', ihx hkx hgx ha ha', ihy hky hgy hb hb', ihz hkz hgz hc hc']

/-- Whether some step that leads to a collection lists records in an order of its own. -/
def IsScrambled (e : Lineage β t) : Prop :=
  e.groupsByKey = true ∨ ∃ g ∈ e.groupers, g.Scrambles

/-- No step that puts values into vectors lies behind one that lists records in an order of its
own. -/
def IsOrderSafe : {t : ElementType β} → Lineage β t → Prop
  | _, source _ _ => True
  | _, each input _ => input.IsOrderSafe
  | _, groupByKey input => ¬ input.IsScrambled ∧ input.IsOrderSafe
  | _, joinTwo _ _ kind x y =>
    (kind.exposesOrder = true → ¬ x.IsScrambled ∧ ¬ y.IsScrambled) ∧
      x.IsOrderSafe ∧ y.IsOrderSafe
  | _, joinThree _ _ kind x y z =>
    (kind.exposesOrder = true → ¬ x.IsScrambled ∧ ¬ y.IsScrambled ∧ ¬ z.IsScrambled) ∧
      x.IsOrderSafe ∧ y.IsOrderSafe ∧ z.IsOrderSafe

theorem Denotes.unique_of_not_isScrambled {e : Lineage β t}
    (hg : ∀ g ∈ e.groupers, g.IsBuiltIn) (hordered : ¬ e.IsScrambled) {l l' : List t.Carrier}
    (h : e.Denotes l) (h' : e.Denotes l') : l = l' := by
  have hkeys : e.groupsByKey = false := by
    by_contra hkeys
    exact hordered (.inl (Bool.not_eq_false _ ▸ hkeys))
  refine Denotes.unique hkeys (fun g hmem => ?_) h h'
  have hone := (hg g hmem).hasOneTable fun hscrambles => hordered (.inr ⟨g, hmem, hscrambles⟩)
  exact hone.keepsOrder

/-- Equal keys are the same wherever a join takes in rows that a step has listed in an order of its
own, so that it makes no difference which of them is met first. -/
def TellsKeysApart : {t : ElementType β} → Lineage β t → Prop
  | _, source _ _ => True
  | _, each input _ => input.TellsKeysApart
  | _, groupByKey input => input.TellsKeysApart
  | _, joinTwo (k := k) _ _ _ x y =>
    (x.IsScrambled ∨ y.IsScrambled → LawfulBEq k.Carrier) ∧ x.TellsKeysApart ∧ y.TellsKeysApart
  | _, joinThree (k := k) _ _ _ x y z =>
    (x.IsScrambled ∨ y.IsScrambled ∨ z.IsScrambled → LawfulBEq k.Carrier) ∧
      x.TellsKeysApart ∧ y.TellsKeysApart ∧ z.TellsKeysApart

/-- Any two lists of rows of an order-safe lineage that tells keys apart differ in their order
alone. -/
theorem Denotes.perm {e : Lineage β t} (hg : ∀ g ∈ e.groupers, g.IsBuiltIn)
    (hsafe : e.IsOrderSafe) (hkeys : e.TellsKeysApart) {l l' : List t.Carrier} (h : e.Denotes l)
    (h' : e.Denotes l') : l.Perm l' := by
  induction e with
  | source t rows => rw [h.trans h'.symm]
  | each input e ih =>
    obtain ⟨rows, hrows, hl⟩ := h
    obtain ⟨rows', hrows', hl'⟩ := h'
    rw [hl, hl']
    exact e.rows_perm (ih hg hsafe hkeys hrows hrows')
  | groupByKey input ih =>
    obtain ⟨rows, hrows, hl⟩ := h
    obtain ⟨rows', hrows', hl'⟩ := h'
    have heq := unique_of_not_isScrambled (e := input) hg hsafe.1 hrows hrows'
    subst heq
    exact hl.trans hl'.symm
  | joinTwo g name kind x y ihx ihy =>
    obtain ⟨_, hinputs⟩ := List.forall_mem_cons.1 hg
    obtain ⟨hgx, hgy⟩ := List.forall_mem_append.1 hinputs
    obtain ⟨hexposed, hsx, hsy⟩ := hsafe
    obtain ⟨hsame, hkx, hky⟩ := hkeys
    obtain ⟨a, b, listed, ha, hb, hlisted, hl⟩ := h
    obtain ⟨a', b', listed', ha', hb', hlisted', hl'⟩ := h'
    rw [hl, hl']
    refine hlisted.flatMap_perm hlisted' kind.expand ?_
    -- Unscrambled inputs are the same in both lists. Of others the records are no vectors, and
    -- their keys cannot be told from each other.
    by_cases hscrambled : x.IsScrambled ∨ y.IsScrambled
    · have := hsame hscrambled
      have hkind : kind.exposesOrder = false := by
        by_contra hkind
        have hordered := hexposed (Bool.not_eq_false _ ▸ hkind)
        exact hscrambled.elim hordered.1 hordered.2
      exact PairJoin.expand_records_perm hkind (ihx hgx hsx hkx ha ha') (ihy hgy hsy hky hb hb')
    · obtain ⟨hx, hy⟩ := not_or.1 hscrambled
      rw [unique_of_not_isScrambled hgx hx ha ha', unique_of_not_isScrambled hgy hy hb hb']
  | joinThree g name kind x y z ihx ihy ihz =>
    obtain ⟨_, hinputs⟩ := List.forall_mem_cons.1 hg
    obtain ⟨hgx, hrest⟩ := List.forall_mem_append.1 hinputs
    obtain ⟨hgy, hgz⟩ := List.forall_mem_append.1 hrest
    obtain ⟨hexposed, hsx, hsy, hsz⟩ := hsafe
    obtain ⟨hsame, hkx, hky, hkz⟩ := hkeys
    obtain ⟨a, b, c, listed, ha, hb, hc, hlisted, hl⟩ := h
    obtain ⟨a', b', c', listed', ha', hb', hc', hlisted', hl'⟩ := h'
    rw [hl, hl']
    refine hlisted.flatMap_perm hlisted' kind.expand ?_
    by_cases hscrambled : x.IsScrambled ∨ y.IsScrambled ∨ z.IsScrambled
    · have := hsame hscrambled
      have hkind : kind.exposesOrder = false := by
        by_contra hkind
        have hordered := hexposed (Bool.not_eq_false _ ▸ hkind)
        exact hscrambled.elim hordered.1 fun hrest => hrest.elim hordered.2.1 hordered.2.2
      exact TripleJoin.expand_records_perm hkind (ihx hgx hsx hkx ha ha')
        (ihy hgy hsy hky hb hb') (ihz hgz hsz hkz hc hc')
    · obtain ⟨hx, hrest⟩ := not_or.1 hscrambled
      obtain ⟨hy, hz⟩ := not_or.1 hrest
      rw [unique_of_not_isScrambled hgx hx ha ha', unique_of_not_isScrambled hgy hy hb hb',
        unique_of_not_isScrambled hgz hz hc hc']

end Lineage

end JoinPipeline
