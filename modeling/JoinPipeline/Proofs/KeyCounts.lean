import JoinPipeline.Proofs.RowCounts
import Mathlib.Algebra.GroupWithZero.Nat

/-!
# Keys counted

The table of the keys is ascending and counts every key of the rows; the scan for a repeated key
stops at the first row whose key has occurred before. Both go through the rows once, and what one
of them says of the rows behind it is what the other one has gathered: the scan gets to the end
exactly if every count is one.
-/

namespace JoinPipeline.RowCheck

section Tables

variable {κ ν : Type} {compare : κ → κ → Ordering} [Std.TransCmp compare]

/-- The keys of a table come in ascending order. -/
def IsAscending (compare : κ → κ → Ordering) (table : List (κ × Nat)) : Prop :=
  table.Pairwise fun x y => compare x.1 y.1 = .lt

/-- What counting one more key does to a table: there is a new entry before the first greater one,
or the entry with this key counts one more. -/
theorem countKey_cases (compare : κ → κ → Ordering) [Std.TransCmp compare] (key : κ)
    (table : List (κ × Nat)) :
    (∃ before after, table = before ++ after ∧
      countKey compare key table = before ++ (key, 1) :: after ∧
      (∀ entry ∈ before, compare entry.1 key = .lt) ∧
      (IsAscending compare table → ∀ entry ∈ after, compare key entry.1 = .lt)) ∨
    ∃ before entry after, table = before ++ entry :: after ∧ compare key entry.1 = .eq ∧
      countKey compare key table = before ++ (entry.1, entry.2 + 1) :: after := by
  induction table with
  | nil => exact .inl ⟨[], [], rfl, rfl, by simp, by simp⟩
  | cons first table ih =>
    cases hfirst : compare key first.1 with
    | lt =>
      refine .inl ⟨[], first :: table, rfl, by simp [countKey, hfirst], by simp, ?_⟩
      intro hascending
      refine List.forall_mem_cons.2 ⟨hfirst, fun entry hentry => ?_⟩
      exact Std.TransCmp.lt_trans hfirst (List.rel_of_pairwise_cons hascending hentry)
    | eq => exact .inr ⟨[], first, table, rfl, hfirst, by simp [countKey, hfirst]⟩
    | gt =>
      rcases ih with ⟨before, after, htable, hcount, hbefore, hafter⟩ |
        ⟨before, entry, after, htable, hentry, hcount⟩
      · refine .inl ⟨first :: before, after, by simp [htable], by simp [countKey, hfirst, hcount],
          List.forall_mem_cons.2 ⟨Std.OrientedCmp.gt_iff_lt.1 hfirst, hbefore⟩, ?_⟩
        intro hascending
        exact hafter hascending.of_cons
      · exact .inr ⟨first :: before, entry, after, by simp [htable], hentry,
          by simp [countKey, hfirst, hcount]⟩

theorem sum_countKey (key : κ) (table : List (κ × Nat)) :
    ((countKey compare key table).map Prod.snd).sum = (table.map Prod.snd).sum + 1 := by
  rcases countKey_cases compare key table with ⟨before, after, htable, hcount, _⟩ |
    ⟨before, entry, after, htable, _, hcount⟩
  · rw [hcount, htable]
    simp
    omega
  · rw [hcount, htable]
    simp
    omega

omit [Std.TransCmp compare] in
theorem rowsPerKey_concat (rows : List (κ × ν)) (row : κ × ν) :
    rowsPerKey compare (rows ++ [row]) = countKey compare row.1 (rowsPerKey compare rows) := by
  rw [rowsPerKey, List.foldl_concat]
  rfl

theorem sum_rowsPerKey (rows : List (κ × ν)) :
    ((rowsPerKey compare rows).map Prod.snd).sum = rows.length := by
  induction rows using List.reverseRecOn with
  | nil => rfl
  | append_singleton rows row ih =>
    rw [rowsPerKey_concat, sum_countKey, ih, List.length_append, List.length_singleton]

theorem IsAscending.countKey {table : List (κ × Nat)} (h : IsAscending compare table) (key : κ) :
    IsAscending compare (countKey compare key table) := by
  rcases countKey_cases compare key table with ⟨before, after, htable, hcount, hbefore, hafter⟩ |
    ⟨before, entry, after, htable, _, hcount⟩
  · have hgreater := hafter h
    rw [htable, IsAscending, List.pairwise_append] at h
    rw [hcount, IsAscending, List.pairwise_append, List.pairwise_cons]
    refine ⟨h.1, ⟨hgreater, h.2.1⟩, fun x hx => ?_⟩
    exact List.forall_mem_cons.2 ⟨hbefore x hx, h.2.2 x hx⟩
  · rw [htable, IsAscending, List.pairwise_append, List.pairwise_cons] at h
    rw [hcount, IsAscending, List.pairwise_append, List.pairwise_cons]
    refine ⟨h.1, h.2.1, fun x hx => ?_⟩
    have hx' := List.forall_mem_cons.1 (h.2.2 x hx)
    exact List.forall_mem_cons.2 hx'

variable [BEq κ] [EquivBEq κ] [Std.LawfulBEqCmp compare]

omit [Std.TransCmp compare] [EquivBEq κ] in
theorem beq_eq_false_of_lt {x y : κ} (h : compare x y = .lt) : (x == y) = false := by
  have heq : compare x y = .eq ↔ (x == y) = true := Std.LawfulBEqCmp.compare_eq_iff_beq
  rw [← Bool.not_eq_true, ← heq, h]
  simp

theorem exists_key_countKey (key k : κ) (table : List (κ × Nat)) :
    (∃ entry ∈ countKey compare key table, (entry.1 == k) = true) ↔
      (key == k) = true ∨ ∃ entry ∈ table, (entry.1 == k) = true := by
  rcases countKey_cases compare key table with ⟨before, after, htable, hcount, _⟩ |
    ⟨before, entry, after, htable, hentry, hcount⟩
  · rw [hcount, htable]
    simp only [List.mem_append, List.mem_cons, or_and_right, exists_or, exists_eq_left]
    exact or_left_comm
  · have hsame : (key == k) = (entry.1 == k) :=
      BEq.congr_left (Std.LawfulBEqCmp.compare_eq_iff_beq.1 hentry)
    rw [hcount, htable, hsame]
    simp only [List.mem_append, List.mem_cons, or_and_right, exists_or, exists_eq_left]
    exact (or_iff_right_of_imp fun h => .inr (.inl h)).symm

/-- An entry of the table before, or one with this key that counts one more than before. -/
theorem mem_countKey {table : List (κ × Nat)} (h : IsAscending compare table) {key : κ}
    {entry : κ × Nat} (hentry : entry ∈ countKey compare key table) :
    (key == entry.1) = false ∧ entry ∈ table ∨
    (key == entry.1) = true ∧ (entry.2 = 1 ∧ (∀ old ∈ table, (old.1 == key) = false) ∨
      ∃ old ∈ table, (old.1 == key) = true ∧ entry.2 = old.2 + 1) := by
  rcases countKey_cases compare key table with ⟨before, after, htable, hcount, hbefore, hafter⟩ |
    ⟨before, raised, after, htable, hraised, hcount⟩
  · have hless : ∀ old ∈ before, (old.1 == key) = false := fun old hold =>
      beq_eq_false_of_lt (hbefore old hold)
    have hgreater : ∀ old ∈ after, (old.1 == key) = false := fun old hold =>
      BEq.symm_false (beq_eq_false_of_lt (hafter h old hold))
    have hnone : ∀ old ∈ table, (old.1 == key) = false := by
      rw [htable]
      exact List.forall_mem_append.2 ⟨hless, hgreater⟩
    rw [hcount, List.mem_append, List.mem_cons, or_left_comm, ← List.mem_append, ← htable] at hentry
    rcases hentry with hnew | hold
    · rw [hnew]
      exact .inr ⟨BEq.rfl, .inl ⟨rfl, hnone⟩⟩
    · exact .inl ⟨BEq.symm_false (hnone entry hold), hold⟩
  · have hsame : (key == raised.1) = true := Std.LawfulBEqCmp.compare_eq_iff_beq.1 hraised
    have hothers : ∀ old ∈ before ++ after, (key == old.1) = false := by
      rw [htable, IsAscending, List.pairwise_append, List.pairwise_cons] at h
      intro old hold
      rw [BEq.congr_left hsame]
      rcases List.mem_append.1 hold with hbefore | hafter
      · exact BEq.symm_false (beq_eq_false_of_lt (h.2.2 old hbefore raised List.mem_cons_self))
      · exact beq_eq_false_of_lt (h.2.1.1 old hafter)
    rw [hcount, List.mem_append, List.mem_cons, or_left_comm, ← List.mem_append] at hentry
    rcases hentry with hnew | hold
    · rw [hnew]
      exact .inr ⟨hsame, .inr ⟨raised, by simp [htable], BEq.symm hsame, rfl⟩⟩
    · refine .inl ⟨hothers entry hold, ?_⟩
      rw [htable, List.mem_append, List.mem_cons, or_left_comm, ← List.mem_append]
      exact .inr hold

/-- One entry for every key, in ascending order, with the number of times the key occurs. -/
structure CountsKeys (compare : κ → κ → Ordering) (keys : List κ) (table : List (κ × Nat)) :
    Prop where
  ascending : IsAscending compare table
  enumerates : Enumerates (fun k => 0 < keys.count k) (fun k => keys.count k) table

omit [EquivBEq κ] in
theorem IsAscending.of_same {table other : List (κ × Nat)} (h : IsAscending compare other)
    (hsame : List.Forall₂ (fun x y => (x.1 == y.1) = true ∧ x.2 = y.2) table other) :
    IsAscending compare table := by
  obtain ⟨hlength, hget⟩ := List.forall₂_iff_get.1 hsame
  rw [IsAscending, List.pairwise_iff_getElem] at h ⊢
  intro i j hi hj hij
  have hi' : i < other.length := hlength ▸ hi
  have hj' : j < other.length := hlength ▸ hj
  have hfirst : compare table[i].1 other[i].1 = .eq :=
    Std.LawfulBEqCmp.compare_eq_iff_beq.2 (hget i hi hi').1
  have hsecond : compare table[j].1 other[j].1 = .eq :=
    Std.LawfulBEqCmp.compare_eq_iff_beq.2 (hget j hj hj').1
  rw [Std.TransCmp.congr_left hfirst, Std.TransCmp.congr_right hsecond]
  exact h i j hi' hj' hij

omit [Std.TransCmp compare] [EquivBEq κ] in
theorem IsAscending.distinct {table : List (κ × Nat)} (h : IsAscending compare table) :
    table.Pairwise fun x y => (x.1 == y.1) = false :=
  h.imp beq_eq_false_of_lt

theorem CountsKeys.countKey {keys : List κ} {table : List (κ × Nat)}
    (h : CountsKeys compare keys table) (key : κ) :
    CountsKeys compare (keys ++ [key]) (countKey compare key table) where
  ascending := h.ascending.countKey key
  enumerates :=
    { distinct := (h.ascending.countKey key).distinct
      keys := by
        intro k
        rw [exists_key_countKey, h.enumerates.keys, List.count_append, List.count_singleton]
        by_cases hk : (key == k) = true <;> simp [hk]
      contents := by
        intro entry hentry
        rw [List.count_append, List.count_singleton]
        rcases mem_countKey h.ascending hentry with ⟨hother, hold⟩ |
          ⟨hsame, ⟨hone, hnone⟩ | ⟨old, hold, hkey, hmore⟩⟩
        · rw [h.enumerates.contents entry hold, hother]
          rfl
        · have hzero : keys.count entry.1 = 0 := by
            by_contra hne
            obtain ⟨old, hold, hkey⟩ := (h.enumerates.keys entry.1).2 (Nat.pos_of_ne_zero hne)
            rw [← BEq.congr_right hsame, hnone old hold] at hkey
            cases hkey
          rw [hone, hzero, hsame]
          rfl
        · rw [hmore, h.enumerates.contents old hold, count_congr (BEq.trans hkey hsame), hsame]
          rfl }

theorem countsKeys_rowsPerKey (compare : κ → κ → Ordering) [Std.TransCmp compare]
    [Std.LawfulBEqCmp compare] (rows : List (κ × ν)) :
    CountsKeys compare (rows.map Prod.fst) (rowsPerKey compare rows) := by
  induction rows using List.reverseRecOn with
  | nil => exact ⟨.nil, .nil, by simp [rowsPerKey], by simp [rowsPerKey]⟩
  | append_singleton rows row ih =>
    rw [rowsPerKey_concat, List.map_append]
    exact ih.countKey row.1

end Tables

section Scan

variable {κ ν : Type} [BEq κ]

def HasDistinctKeys (rows : List (κ × ν)) : Prop := rows.Pairwise fun x y => (x.1 == y.1) = false

/-- The key of the first row whose key has occurred in an earlier one. -/
def IsFirstRepeated (rows : List (κ × ν)) (key : κ) : Prop :=
  ∃ before row after, rows = before ++ row :: after ∧ row.1 = key ∧
    isKeyOf row.1 before = true ∧ HasDistinctKeys before

/-- What the outcome of the scan says about the rows. -/
def Finds (rows : List (κ × ν)) : Except (RepeatedKey κ) Unit → Prop
  | .ok () => HasDistinctKeys rows
  | .error error => IsFirstRepeated rows error.key

/-- A row behind others that have distinct keys. -/
theorem hasDistinctKeys_concat_iff {rows : List (κ × ν)} (h : HasDistinctKeys rows) (row : κ × ν) :
    HasDistinctKeys (rows ++ [row]) ↔ isKeyOf row.1 rows = false := by
  rw [HasDistinctKeys, List.pairwise_append, isKeyOf, List.any_eq_false]
  constructor
  · rintro ⟨_, _, hrow⟩ x hx
    simp [hrow x hx row (List.mem_singleton_self row)]
  · intro hrow
    refine ⟨h, List.pairwise_singleton _ _, fun x hx y hy => ?_⟩
    rw [List.mem_singleton.1 hy]
    exact Bool.not_eq_true _ ▸ hrow x hx

theorem IsFirstRepeated.not_hasDistinctKeys {rows : List (κ × ν)} {key : κ}
    (h : IsFirstRepeated rows key) : ¬ HasDistinctKeys rows := by
  obtain ⟨before, row, after, hrows, _, hknown, hbefore⟩ := h
  intro hdistinct
  rw [hrows, ← List.singleton_append, ← List.append_assoc] at hdistinct
  rw [(hasDistinctKeys_concat_iff hbefore row).1 (List.pairwise_append.1 hdistinct).1] at hknown
  cases hknown

variable [EquivBEq κ]

theorem hasDistinctKeys_iff_count_le_one (rows : List (κ × ν)) :
    HasDistinctKeys rows ↔ ∀ k, (rows.map Prod.fst).count k ≤ 1 := by
  induction rows with
  | nil => simp [HasDistinctKeys]
  | cons row rows ih =>
    have hcons : HasDistinctKeys (row :: rows) ↔
        (rows.map Prod.fst).count row.1 = 0 ∧ HasDistinctKeys rows := by
      rw [HasDistinctKeys, List.pairwise_cons, List.count, List.countP_eq_zero]
      simp [BEq.comm, HasDistinctKeys]
    rw [hcons, ih]
    simp only [List.map_cons, List.count_cons]
    constructor
    · rintro ⟨hzero, hone⟩ k
      by_cases hk : (row.1 == k) = true
      · rw [count_congr hk] at hzero
        rw [if_pos hk]
        omega
      · rw [if_neg hk]
        exact hone k
    · intro hone
      have hrow := hone row.1
      rw [if_pos BEq.rfl] at hrow
      exact ⟨by omega, fun k => Nat.le_of_add_right_le (hone k)⟩

variable [Hashable κ] [LawfulHashable κ]

/-- The keys seen are those of the rows that the scan has passed. -/
theorem finds_uniqueKeysFrom {passed : List (κ × ν)} (hpassed : HasDistinctKeys passed)
    {seen : Std.HashSet κ} (hseen : ∀ k, seen.contains k = isKeyOf k passed)
    (rows : List (κ × ν)) : Finds (passed ++ rows) (uniqueKeysFrom seen rows) := by
  induction rows generalizing passed seen with
  | nil => rwa [List.append_nil]
  | cons row rows ih =>
    unfold uniqueKeysFrom
    split
    next hknown =>
      rw [hseen] at hknown
      exact ⟨passed, row, rows, rfl, rfl, hknown, hpassed⟩
    next hnew =>
      rw [hseen, Bool.not_eq_true] at hnew
      have hnext : ∀ k, (seen.insert row.1).contains k = isKeyOf k (passed ++ [row]) := by
        intro k
        rw [Std.HashSet.contains_insert, hseen, Bool.or_comm]
        simp [isKeyOf]
      have hrest := ih ((hasDistinctKeys_concat_iff hpassed row).2 hnew) hnext
      rwa [List.append_assoc] at hrest

theorem finds_uniqueKeys (rows : List (κ × ν)) : Finds rows (uniqueKeys rows) :=
  finds_uniqueKeysFrom .nil (by simp [isKeyOf]) rows

theorem uniqueKeys_eq_ok_iff (rows : List (κ × ν)) :
    uniqueKeys rows = .ok () ↔ HasDistinctKeys rows := by
  have hfinds := finds_uniqueKeys rows
  cases hscan : uniqueKeys rows with
  | ok =>
    rw [hscan] at hfinds
    exact iff_of_true rfl hfinds
  | error error =>
    rw [hscan] at hfinds
    exact iff_of_false (by simp) hfinds.not_hasDistinctKeys

end Scan

section Agreement

variable {κ ν : Type} [BEq κ] [EquivBEq κ] [Hashable κ] [LawfulHashable κ]
  (compare : κ → κ → Ordering) [Std.TransCmp compare] [Std.LawfulBEqCmp compare]

theorem uniqueKeys_eq_ok_iff_rowsPerKey (rows : List (κ × ν)) :
    uniqueKeys rows = .ok () ↔ ∀ entry ∈ rowsPerKey compare rows, entry.2 = 1 := by
  have hcounts := (countsKeys_rowsPerKey compare rows).enumerates
  rw [uniqueKeys_eq_ok_iff, hasDistinctKeys_iff_count_le_one]
  constructor
  · intro hle entry hentry
    have hpos := (hcounts.keys entry.1).1 ⟨entry, hentry, BEq.rfl⟩
    have hone := hle entry.1
    rw [hcounts.contents entry hentry]
    omega
  · intro hone k
    by_cases hpos : 0 < (rows.map Prod.fst).count k
    · obtain ⟨entry, hentry, hsame⟩ := (hcounts.keys k).2 hpos
      have hentry' := hone entry hentry
      rw [hcounts.contents entry hentry, count_congr hsame] at hentry'
      omega
    · omega

omit [Hashable κ] [LawfulHashable κ] in
/-- Equal keys may be represented by different ones of them. -/
theorem rowsPerKey_perm {rows other : List (κ × ν)} (h : rows.Perm other) :
    List.Forall₂ (fun x y => (x.1 == y.1) = true ∧ x.2 = y.2) (rowsPerKey compare rows)
      (rowsPerKey compare other) := by
  have hother := countsKeys_rowsPerKey compare other
  have hcount : ∀ k, (rows.map Prod.fst).count k = (other.map Prod.fst).count k :=
    (h.map Prod.fst).count_eq
  have hrows := countsKeys_rowsPerKey compare rows
  obtain ⟨mid, hperm, hsame⟩ := Enumerates.same (fun _ _ hk => count_congr hk (other.map Prod.fst))
    (hrows.enumerates.congr (fun k => by rw [hcount k]) hcount) hother.enumerates
  have hmid : rowsPerKey compare rows = mid := by
    refine hperm.eq_of_pairwise ?_ hrows.ascending (hother.ascending.of_same hsame)
    intro x y _ _ hxy hyx
    have hswap : compare x.1 y.1 = (compare y.1 x.1).swap := Std.OrientedCmp.eq_swap
    rw [hswap, hyx] at hxy
    cases hxy
  rwa [hmid]

omit [Hashable κ] [LawfulHashable κ] in
theorem enumerates_rowsPerKey (rows : List (κ × ν)) :
    Enumerates (fun k => isKeyOf k rows = true) (fun k => rows.countP fun row => row.1 == k)
      (rowsPerKey compare rows) := by
  have hcount : ∀ k, (rows.map Prod.fst).count k = rows.countP fun row => row.1 == k := fun k =>
    List.countP_map
  refine (countsKeys_rowsPerKey compare rows).enumerates.congr (fun k => ?_) hcount
  rw [hcount, List.countP_pos_iff, isKeyOf, List.any_eq_true]

/-- The table counts the rows of every key, one entry for each key in ascending order, and the scan
for a repeated key passes exactly on tables of ones. A scan that fails has found the first row with
a key that has occurred before. Neither the table nor the verdict depends on the order of the
rows. -/
theorem uniqueKeys_agrees_rowsPerKey (rows : List (κ × ν)) :
    IsAscending compare (rowsPerKey compare rows) ∧
    Enumerates (fun k => isKeyOf k rows = true) (fun k => rows.countP fun row => row.1 == k)
      (rowsPerKey compare rows) ∧
    ((rowsPerKey compare rows).map Prod.snd).sum = rows.length ∧
    (uniqueKeys rows = .ok () ↔ ∀ entry ∈ rowsPerKey compare rows, entry.2 = 1) ∧
    ((∃ entry ∈ rowsPerKey compare rows, entry.2 ≠ 1) →
      ∃ key, uniqueKeys rows = .error ⟨key⟩ ∧ IsFirstRepeated rows key) ∧
    ∀ other, rows.Perm other →
      List.Forall₂ (fun x y => (x.1 == y.1) = true ∧ x.2 = y.2) (rowsPerKey compare rows)
        (rowsPerKey compare other) ∧
      ((∀ x y : κ, (x == y) = true → x = y) →
        rowsPerKey compare rows = rowsPerKey compare other) ∧
      (uniqueKeys rows = .ok () ↔ uniqueKeys other = .ok ()) := by
  have hpasses := uniqueKeys_eq_ok_iff_rowsPerKey compare rows
  refine ⟨(countsKeys_rowsPerKey compare rows).ascending, enumerates_rowsPerKey compare rows,
    sum_rowsPerKey rows, hpasses, ?_, ?_⟩
  · rintro ⟨entry, hentry, hne⟩
    have hfinds := finds_uniqueKeys rows
    cases hscan : uniqueKeys rows with
    | ok => exact absurd (hpasses.1 hscan entry hentry) hne
    | error error =>
      rw [hscan] at hfinds
      exact ⟨error.key, rfl, hfinds⟩
  · intro other hperm
    have hsame := rowsPerKey_perm compare hperm
    refine ⟨hsame, fun heq => ?_, ?_⟩
    · refine List.forall₂_eq_eq_eq ▸ hsame.imp fun x y hxy => ?_
      exact Prod.ext (heq _ _ hxy.1) hxy.2
    · rw [uniqueKeys_eq_ok_iff, uniqueKeys_eq_ok_iff]
      exact hperm.pairwise_iff fun h => BEq.symm_false h

end Agreement

/-- Rows with a repeated key, in two orders. -/
theorem uniqueKeys_agrees_rowsPerKey_sample :
    rowsPerKey compare [(2, 'a'), (1, 'b'), (2, 'c')] =
      rowsPerKey compare [(2, 'c'), (2, 'a'), (1, 'b')] ∧
    ∃ key, uniqueKeys [(2, 'a'), (1, 'b'), (2, 'c')] = .error ⟨key⟩ ∧
      IsFirstRepeated [(2, 'a'), (1, 'b'), (2, 'c')] key := by
  obtain ⟨_, _, _, _, hfound, hperm⟩ :=
    uniqueKeys_agrees_rowsPerKey compare [(2, 'a'), (1, 'b'), (2, 'c')]
  obtain ⟨_, hsame, _⟩ := hperm [(2, 'c'), (2, 'a'), (1, 'b')] (by decide)
  refine ⟨hsame fun _ _ h => eq_of_beq h, hfound ⟨(2, 2), ?_, by decide⟩⟩
  decide

end JoinPipeline.RowCheck
