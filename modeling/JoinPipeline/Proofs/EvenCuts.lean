import JoinPipeline.Proofs.Cuts

/-!
# Cuts of one size

The size of the pieces is the number of rows divided by the number of pieces, rounded up, so the
pieces can be fewer than were asked for but never more. Cutting refuses partitions of another type
and nothing else; putting together refuses as soon as one of the partitions is of another type,
wherever it stands, and undoes every cut.
-/

namespace JoinPipeline

section Chunks

variable {α : Type} {size : Nat}

/-- The number of pieces is a quotient rounded up, too. -/
theorem length_chunks (hsize : 0 < size) (rows : List α) :
    (chunks size rows).length = (rows.length + size - 1) / size := by
  fun_induction chunks size rows with
  | case1 =>
    simp only [List.length_nil, Nat.zero_add]
    exact (Nat.div_eq_of_lt (by omega)).symm
  | case2 a rows ih =>
    rw [List.length_cons, ih, List.length_drop, List.length_cons]
    by_cases hmany : size ≤ rows.length
    · have hsplit : rows.length + 1 + size - 1 = rows.length - (size - 1) + size - 1 + size := by
        omega
      rw [hsplit, Nat.add_div_right _ hsize]
    · have hnone : rows.length - (size - 1) + size - 1 < size := by omega
      have hone : rows.length + 1 + size - 1 = rows.length + size := by omega
      rw [Nat.div_eq_of_lt hnone, hone, Nat.add_div_right _ hsize,
        Nat.div_eq_of_lt (by omega)]

theorem length_le_of_mem_chunks (hsize : 0 < size) {rows piece : List α}
    (h : piece ∈ chunks size rows) : piece.length ≤ size := by
  fun_induction chunks size rows with
  | case1 => simp at h
  | case2 a rows ih =>
    rcases List.mem_cons.1 h with hfirst | hrest
    · rw [hfirst, List.length_cons, List.length_take]
      omega
    · exact ih hrest

/-- Only the last piece can be shorter: where another one follows, there were rows enough. -/
theorem length_of_mem_dropLast_chunks (hsize : 0 < size) {rows piece : List α}
    (h : piece ∈ (chunks size rows).dropLast) : piece.length = size := by
  fun_induction chunks size rows with
  | case1 => simp at h
  | case2 a rows ih =>
    cases hrest : rows.drop (size - 1) with
    | nil => simp [hrest, chunks] at h
    | cons b more =>
      have hlength := congrArg List.length hrest
      rw [List.length_drop, List.length_cons] at hlength
      have hne : chunks size (rows.drop (size - 1)) ≠ [] := by simp [hrest, chunks]
      rw [List.dropLast_cons_of_ne_nil hne] at h
      rcases List.mem_cons.1 h with hfirst | hlater
      · rw [hfirst, List.length_cons, List.length_take]
        omega
      · exact ih hlater

theorem nil_notMem_chunks (rows : List α) : [] ∉ chunks size rows := by
  fun_induction chunks size rows with
  | case1 => simp
  | case2 a rows ih => simp [ih]

end Chunks

/-- At least one piece and at most as many as are asked for, all of one size except that the last
may be shorter, and none of them empty unless there are no rows. -/
structure IsEvenCut {α : Type} (most : Nat) (rows : List α) (pieces : List (List α)) : Prop where
  flatten_eq : pieces.flatten = rows
  ne_nil : pieces ≠ []
  length_le : pieces.length ≤ max most 1
  even : ∃ size, (∀ piece ∈ pieces.dropLast, piece.length = size) ∧
    ∀ piece ∈ pieces, piece.length ≤ size
  nil_notMem : rows ≠ [] → [] ∉ pieces

theorem isEvenCut_cut {α : Type} (n : Nat) (rows : List α) : IsEvenCut n rows (cut n rows) := by
  unfold cut
  split
  next hfew =>
    exact
      { flatten_eq := by simp
        ne_nil := by simp
        length_le := by simp only [List.length_singleton]; omega
        even := ⟨rows.length, by simp, by simp⟩
        nil_notMem := by simp }
  next hmany =>
    have hn : 0 < n := by omega
    have hsize : 0 < (rows.length + n - 1) / n := Nat.div_pos (by omega) hn
    -- The pieces would hold all rows even if there were `n` of them.
    have hroom : rows.length + n - 1 < n * ((rows.length + n - 1) / n + 1) :=
      Nat.lt_mul_div_succ _ hn
    generalize hs : (rows.length + n - 1) / n = size at hsize hroom
    exact
      { flatten_eq := flatten_chunks size rows
        ne_nil := by
          intro hnil
          have hrows := flatten_chunks size rows
          rw [hnil] at hrows
          simp [← hrows] at hmany
        length_le := by
          rw [length_chunks hsize]
          have hcount : (rows.length + size - 1) / size < n + 1 := by
            rw [Nat.div_lt_iff_lt_mul hsize]
            rw [Nat.mul_succ] at hroom
            rw [Nat.succ_mul]
            omega
          omega
        even := ⟨size, fun piece h => length_of_mem_dropLast_chunks hsize h,
          fun piece h => length_le_of_mem_chunks hsize h⟩
        nil_notMem := fun _ => nil_notMem_chunks rows }

/-- Four pieces were asked for, but pieces of two are enough. -/
example : cut 4 [1, 2, 3, 4, 5] = [[1, 2], [3, 4], [5]] := by cbv

namespace ElementType

variable {β : Type} [Basis β] (t : ElementType β)

theorem split?_eq_none_iff (n : Nat) (p : Partition β) :
    t.split? n p = none ↔ p.element ≠ t := by
  rw [split?, Option.map_eq_none_iff, Partition.as?_eq_none_iff]

theorem mapM_as?_eq_none_iff (parts : List (Partition β)) :
    parts.mapM (Partition.as? t) = none ↔ ∃ p ∈ parts, p.element ≠ t := by
  induction parts with
  | nil => simp
  | cons p parts ih =>
    simp only [List.mapM_cons, List.mem_cons, exists_eq_or_imp]
    rw [← ih, ← Partition.as?_eq_none_iff]
    cases p.as? t <;> cases parts.mapM (Partition.as? t) <;> simp

theorem concat?_eq_none_iff (parts : List (Partition β)) :
    t.concat? parts = none ↔ ∃ p ∈ parts, p.element ≠ t := by
  rw [concat?, Option.map_eq_none_iff, mapM_as?_eq_none_iff]

/-- Cutting and putting together, of partitions of any type and in any number. Cutting fails
exactly on partitions of another type and otherwise gives an even cut, which is undone by putting
together. Putting together fails exactly if one of the partitions is of another type and otherwise
gives their rows in order. -/
theorem split_concat :
    (∀ n p, t.split? n p = none ↔ p.element ≠ t) ∧
    (∀ n rows, ∃ pieces, t.split? n ⟨t, rows⟩ = some (pieces.map (Partition.mk t)) ∧
      IsEvenCut n rows pieces ∧ t.concat? (pieces.map (Partition.mk t)) = some ⟨t, rows⟩) ∧
    (∀ parts, t.concat? parts = none ↔ ∃ p ∈ parts, p.element ≠ t) ∧
    ∀ pieces : List (List t.Carrier),
      t.concat? (pieces.map (Partition.mk t)) = some ⟨t, pieces.flatten⟩ := by
  refine ⟨t.split?_eq_none_iff, ?_, t.concat?_eq_none_iff, ?_⟩
  · intro n rows
    exact ⟨cut n rows, split?_self n rows, isEvenCut_cut n rows, (isCut_cut n rows).concat?⟩
  · intro pieces
    exact IsCut.concat? ⟨pieces, rfl, rfl⟩

end ElementType

end JoinPipeline
