import JoinPipeline.RowCheck
import JoinPipeline.Proofs.Enumeration
import Mathlib.Data.List.Count
import Mathlib.Data.List.Perm.Basic

/-!
# Rows counted

Two lists are compared by counting their rows. The tables of the counts are equal exactly if one
list is a rearrangement of the other; if they are not although the lists are equally long, some row
occurs too often on one side and some other row on the other, so that each side has something to
blame. Rows are compared by an equivalence that need not be equality.
-/

namespace JoinPipeline.RowCheck

section Counting

variable {α : Type} [BEq α]

/-- The same rows in some order, where rows that compare equal are the same. -/
def IsRearranged (actual expected : List α) : Prop :=
  ∃ mid, List.Forall₂ (fun x y => (x == y) = true) actual mid ∧ mid.Perm expected

theorem isRearranged_iff_perm [LawfulBEq α] (actual expected : List α) :
    IsRearranged actual expected ↔ actual.Perm expected := by
  constructor
  · rintro ⟨mid, hsame, hperm⟩
    have heq : actual = mid := by
      rw [← List.forall₂_eq_eq_eq]
      exact hsame.imp fun _ _ h => eq_of_beq h
    rwa [heq]
  · intro h
    exact ⟨actual, List.forall₂_same.2 fun _ _ => BEq.rfl, h⟩

theorem IsRearranged.length_eq {actual expected : List α} (h : IsRearranged actual expected) :
    actual.length = expected.length := by
  obtain ⟨mid, hsame, hperm⟩ := h
  rw [hsame.length_eq, hperm.length_eq]

variable [EquivBEq α]

theorem count_congr {x y : α} (h : (x == y) = true) (rows : List α) :
    rows.count x = rows.count y := by
  unfold List.count
  congr 1
  funext row
  exact BEq.congr_right h

omit [EquivBEq α] in
theorem count_pos_iff {row : α} {rows : List α} :
    0 < rows.count row ↔ ∃ r ∈ rows, (r == row) = true :=
  List.countP_pos_iff

theorem count_pos_of_mem {row : α} {rows : List α} (h : row ∈ rows) : 0 < rows.count row :=
  count_pos_iff.2 ⟨row, h, BEq.rfl⟩

theorem IsRearranged.count_eq {actual expected : List α} (h : IsRearranged actual expected)
    (row : α) : actual.count row = expected.count row := by
  obtain ⟨mid, hsame, hperm⟩ := h
  rw [← hperm.count_eq]
  clear hperm
  induction hsame with
  | nil => rfl
  | cons hxy _ ih => rw [List.count_cons, List.count_cons, ih, BEq.congr_left hxy]

/-- A list whose rows occur in another one often enough can be filled up to it. -/
theorem exists_isRearranged_append {actual expected : List α}
    (h : ∀ row, actual.count row ≤ expected.count row) :
    ∃ more, IsRearranged (actual ++ more) expected := by
  induction actual generalizing expected with
  | nil => exact ⟨expected, expected, List.forall₂_same.2 fun _ _ => BEq.rfl, .refl _⟩
  | cons x actual ih =>
    have hx := h x
    rw [List.count_cons, if_pos BEq.rfl] at hx
    obtain ⟨y, hy, hyx⟩ := count_pos_iff.1 (Nat.lt_of_lt_of_le (Nat.succ_pos _) hx)
    obtain ⟨before, after, hsplit⟩ := List.append_of_mem hy
    have hperm : (y :: (before ++ after)).Perm expected := by
      rw [hsplit]
      exact List.perm_middle.symm
    -- The row and its counterpart are taken away on both sides.
    have hrest : ∀ row, actual.count row ≤ (before ++ after).count row := by
      intro row
      have hrow := h row
      rw [← hperm.count_eq, List.count_cons, List.count_cons, BEq.congr_left hyx] at hrow
      omega
    obtain ⟨more, mid, hsame, hmid⟩ := ih hrest
    exact ⟨more, y :: mid, .cons (BEq.symm hyx) hsame, (hmid.cons y).trans hperm⟩

theorem isRearranged_of_count_le {actual expected : List α}
    (hlength : actual.length = expected.length)
    (h : ∀ row, actual.count row ≤ expected.count row) : IsRearranged actual expected := by
  obtain ⟨more, hmore⟩ := exists_isRearranged_append h
  have hall := hmore.length_eq
  have hnil : more = [] := by
    rw [List.length_append] at hall
    exact List.eq_nil_of_length_eq_zero (by omega)
  rwa [hnil, List.append_nil] at hmore

theorem IsRearranged.symm {actual expected : List α} (h : IsRearranged actual expected) :
    IsRearranged expected actual :=
  isRearranged_of_count_le h.length_eq.symm fun row => Nat.le_of_eq (h.count_eq row).symm

/-- The rows of a list that another list has more or less often, each of them once. -/
structure Blames (rows other blamed : List α) : Prop where
  distinct : blamed.Pairwise fun x y => (x == y) = false
  subset : blamed ⊆ rows
  iff_count_ne : ∀ row ∈ rows, (∃ r ∈ blamed, (r == row) = true) ↔ rows.count row ≠ other.count row

/-- Of two lists of one length that are no rearrangements, each has a row to blame. -/
theorem Blames.ne_nil {rows other blamed : List α} (h : Blames rows other blamed)
    (hlength : rows.length = other.length) (hother : ¬ IsRearranged rows other) : blamed ≠ [] := by
  rintro rfl
  refine hother (isRearranged_of_count_le hlength fun row => ?_)
  by_cases hpos : 0 < rows.count row
  · obtain ⟨r, hr, hsame⟩ := count_pos_iff.1 hpos
    have heq : rows.count r = other.count r := by
      by_contra hne
      obtain ⟨_, hnone, _⟩ := (h.iff_count_ne r hr).2 hne
      cases hnone
    rw [count_congr hsame, count_congr hsame] at heq
    exact Nat.le_of_eq heq
  · omega

end Counting

section Tables

variable {α : Type} [BEq α] [EquivBEq α] [Hashable α] [LawfulHashable α]

omit [EquivBEq α] [LawfulHashable α] in
theorem counts_concat (rows : List α) (row : α) :
    counts (rows ++ [row]) = (counts rows).insert ((counts rows).getKeyD row row)
      ((counts rows).getD row 0 + 1) := by
  rw [counts, List.foldl_concat]
  rfl

/-- The first one of equal rows stands for them in the table. -/
theorem getKey?_counts (rows : List α) (row : α) :
    (counts rows).getKey? row = rows.find? (· == row) := by
  induction rows using List.reverseRecOn generalizing row with
  | nil => simp [counts]
  | append_singleton rows last ih =>
    rw [counts_concat, Std.HashMap.getKey?_insert, BEq.congr_left (getKeyD_self_beq _ last),
      Std.HashMap.getKeyD_eq_getD_getKey?, ih, ih, List.find?_append]
    by_cases hlast : (last == row) = true
    · have hsame : rows.find? (· == last) = rows.find? (· == row) := by
        congr 1
        funext r
        exact BEq.congr_right hlast
      rw [if_pos hlast, hsame]
      cases rows.find? (· == row) <;> simp [hlast]
    · simp [hlast]

theorem getElem?_counts (rows : List α) (row : α) :
    (counts rows)[row]? = if rows.count row = 0 then none else some (rows.count row) := by
  induction rows using List.reverseRecOn generalizing row with
  | nil => simp [counts]
  | append_singleton rows last ih =>
    rw [counts_concat, Std.HashMap.getElem?_insert, BEq.congr_left (getKeyD_self_beq _ last),
      Std.HashMap.getD_eq_getD_getElem?, ih, ih, List.count_append, List.count_singleton]
    by_cases hlast : (last == row) = true
    · rw [if_pos hlast, count_congr hlast]
      by_cases hnone : rows.count row = 0 <;> simp [hlast, hnone]
    · simp [hlast]

theorem getElem?_counts_eq_some_iff {rows : List α} {row : α} {n : Nat} :
    (counts rows)[row]? = some n ↔ rows.count row = n ∧ 0 < n := by
  rw [getElem?_counts]
  by_cases hnone : rows.count row = 0
  · simp only [hnone]
    simp
    omega
  · simp [hnone]
    omega

/-- The entries of the table: every row that occurs, once, with the number of its occurrences. -/
theorem enumerates_counts (rows : List α) :
    Enumerates (fun row => 0 < rows.count row) (fun row => rows.count row)
      (counts rows).toList where
  distinct := Std.HashMap.distinct_keys_toList
  keys := by
    intro row
    constructor
    · rintro ⟨entry, hentry, hsame⟩
      have hfound := (Std.HashMap.mem_toList_iff_getKey?_eq_some_and_getElem?_eq_some.1 hentry).2
      rw [Std.HashMap.getElem?_congr hsame, getElem?_counts_eq_some_iff] at hfound
      omega
    · intro hpos
      have hfound : (counts rows)[row]? = some (rows.count row) :=
        getElem?_counts_eq_some_iff.2 ⟨rfl, hpos⟩
      obtain ⟨key, hsame, hentry⟩ :=
        Std.HashMap.getElem?_eq_some_iff_exists_beq_and_mem_toList.1 hfound
      exact ⟨_, hentry, BEq.symm hsame⟩
  contents := by
    intro entry hentry
    have hfound := (Std.HashMap.mem_toList_iff_getKey?_eq_some_and_getElem?_eq_some.1 hentry).2
    exact (getElem?_counts_eq_some_iff.1 hfound).1.symm

theorem size_counts_eq {actual expected : List α} (h : IsRearranged actual expected) :
    (counts actual).size = (counts expected).size := by
  have hcounts := (enumerates_counts actual).congr
    (fun row => by rw [h.count_eq row]) (fun row => h.count_eq row)
  obtain ⟨mid, hperm, hsame⟩ :=
    Enumerates.same (fun _ _ hk => count_congr hk expected) hcounts (enumerates_counts expected)
  rw [← Std.HashMap.length_toList, ← Std.HashMap.length_toList, hperm.length_eq, hsame.length_eq]

/-- For lists of one length, the tables count alike exactly if the lists are rearrangements. -/
theorem countAlike_counts_iff {actual expected : List α}
    (hlength : actual.length = expected.length) :
    countAlike (counts actual) (counts expected) = true ↔ IsRearranged actual expected := by
  rw [countAlike, Bool.and_eq_true, beq_iff_eq, List.all_eq_true]
  constructor
  · rintro ⟨_, hall⟩
    refine isRearranged_of_count_le hlength fun row => ?_
    by_cases hpos : 0 < actual.count row
    · obtain ⟨entry, hentry, hsame⟩ := ((enumerates_counts actual).keys row).2 hpos
      have hfound := hall entry hentry
      rw [beq_iff_eq, getElem?_counts_eq_some_iff, (enumerates_counts actual).contents entry hentry,
        count_congr hsame, count_congr hsame] at hfound
      exact Nat.le_of_eq hfound.1.symm
    · omega
  · intro h
    refine ⟨size_counts_eq h, fun entry hentry => ?_⟩
    have hpos := ((enumerates_counts actual).keys entry.1).1 ⟨entry, hentry, BEq.rfl⟩
    rw [beq_iff_eq, getElem?_counts_eq_some_iff, (enumerates_counts actual).contents entry hentry,
      h.count_eq]
    rw [h.count_eq] at hpos
    exact ⟨rfl, hpos⟩

theorem mem_differing_counts {rows other : List α} {row : α} :
    row ∈ differing (counts rows) (counts other) ↔
      (row, rows.count row) ∈ (counts rows).toList ∧ rows.count row ≠ other.count row := by
  have hentries := enumerates_counts rows
  have hother : ∀ entry ∈ (counts rows).toList,
      (((counts other)[entry.1]? != some entry.2) = true ↔
        rows.count entry.1 ≠ other.count entry.1) := by
    intro entry hentry
    have hpos := (hentries.keys entry.1).1 ⟨entry, hentry, BEq.rfl⟩
    rw [bne_iff_ne, Ne, getElem?_counts_eq_some_iff, hentries.contents entry hentry]
    omega
  constructor
  · intro hrow
    obtain ⟨entry, hentry, rfl⟩ := List.mem_map.1 hrow
    obtain ⟨hmem, hne⟩ := List.mem_filter.1 hentry
    refine ⟨?_, (hother entry hmem).1 hne⟩
    rwa [← hentries.contents entry hmem]
  · rintro ⟨hmem, hne⟩
    exact List.mem_map.2 ⟨_, List.mem_filter.2 ⟨hmem, (hother _ hmem).2 hne⟩, rfl⟩

theorem blames_differing (rows other : List α) :
    Blames rows other (differing (counts rows) (counts other)) where
  distinct := List.pairwise_map.2 (Std.HashMap.distinct_keys_toList.filter _)
  subset := by
    intro row hrow
    have hentry := (mem_differing_counts.1 hrow).1
    have hkey := (Std.HashMap.mem_toList_iff_getKey?_eq_some_and_getElem?_eq_some.1 hentry).1
    rw [getKey?_counts] at hkey
    exact List.mem_of_find?_eq_some hkey
  iff_count_ne := by
    intro row hrow
    constructor
    · rintro ⟨r, hr, hsame⟩
      rw [← count_congr hsame, ← count_congr hsame]
      exact (mem_differing_counts.1 hr).2
    · intro hne
      obtain ⟨entry, hentry, hsame⟩ :=
        ((enumerates_counts rows).keys row).2 (count_pos_of_mem hrow)
      have hcontent := (enumerates_counts rows).contents entry hentry
      refine ⟨entry.1, mem_differing_counts.2 ⟨?_, ?_⟩, hsame⟩
      · rwa [← hcontent]
      · rwa [count_congr hsame, count_congr hsame]

/-- The check passes exactly on rearrangements and complains about the number of rows exactly if the
numbers differ. Otherwise it blames on each side the rows that the other side has more or less
often, each of them once, and there are such rows on both sides. -/
theorem sameRows_decides (actual expected : List α) :
    (sameRows actual expected = .ok () ↔ IsRearranged actual expected) ∧
    (sameRows actual expected = .error (.count expected actual) ↔
      actual.length ≠ expected.length) ∧
    (actual.length = expected.length → ¬ IsRearranged actual expected →
      ∃ expectedSide actualSide,
        sameRows actual expected = .error (.content expectedSide actualSide) ∧
        Blames expected actual expectedSide ∧ Blames actual expected actualSide ∧
        expectedSide ≠ [] ∧ actualSide ≠ []) ∧
    ((∀ x y : α, (x == y) = true → x = y) →
      (sameRows actual expected = .ok () ↔ actual.Perm expected)) := by
  have hok : sameRows actual expected = .ok () ↔ IsRearranged actual expected := by
    unfold sameRows
    split
    next hlength => exact iff_of_false (by simp) fun h => hlength h.length_eq
    next hlength =>
      rw [← countAlike_counts_iff (not_not.1 hlength)]
      split
      next halike => simp [halike]
      next halike => simp [halike]
  refine ⟨hok, ?_, ?_, ?_⟩
  · unfold sameRows
    split
    next hlength => simp [hlength]
    next hlength => split <;> simp [not_not.1 hlength]
  · intro hlength hother
    refine ⟨differing (counts expected) (counts actual),
      differing (counts actual) (counts expected), ?_, blames_differing expected actual,
      blames_differing actual expected, ?_, ?_⟩
    · rw [sameRows, if_neg (not_not.2 hlength), if_neg]
      rwa [countAlike_counts_iff hlength]
    · exact (blames_differing expected actual).ne_nil hlength.symm fun h => hother h.symm
    · exact (blames_differing actual expected).ne_nil hlength hother
  · intro heq
    have : LawfulBEq α := { eq_of_beq := fun h => heq _ _ h }
    rw [hok, isRearranged_iff_perm]

end Tables

/-- Rows that were dealt out again, and lists of one length with other counts. -/
theorem sameRows_decides_sample :
    sameRows ["b", "a", "b"] ["a", "b", "b"] = .ok () ∧
    ∃ expectedSide actualSide,
      sameRows ["a", "a", "b", "c"] ["a", "b", "b", "c"] =
        .error (.content expectedSide actualSide) ∧
      Blames ["a", "b", "b", "c"] ["a", "a", "b", "c"] expectedSide ∧
      Blames ["a", "a", "b", "c"] ["a", "b", "b", "c"] actualSide ∧
      expectedSide ≠ [] ∧ actualSide ≠ [] := by
  obtain ⟨_, _, _, hperm⟩ := sameRows_decides ["b", "a", "b"] ["a", "b", "b"]
  obtain ⟨_, _, hcontent, _⟩ := sameRows_decides ["a", "a", "b", "c"] ["a", "b", "b", "c"]
  refine ⟨(hperm fun _ _ h => eq_of_beq h).2 (by decide), hcontent rfl ?_⟩
  rw [isRearranged_iff_perm]
  decide

end JoinPipeline.RowCheck
