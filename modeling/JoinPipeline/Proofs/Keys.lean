import JoinPipeline.Grouping
import Mathlib.Data.List.Induction

/-!
# Keys and their values

What grouping has to make of keyed rows, on plain lists: the distinct keys in the order in which
they are first met, and for every key its values in the order of the rows. Keys are compared by an
equivalence that need not be equality; a key is then represented by the first one met.
-/

namespace JoinPipeline

section Distinct

variable {K : Type} [BEq K]

theorem eraseDups_concat [EquivBEq K] (ks : List K) (k : K) :
    (ks ++ [k]).eraseDups = if ks.any (· == k) then ks.eraseDups else ks.eraseDups ++ [k] := by
  match ks with
  | [] => rfl
  | a :: ks =>
    have hlt : (ks.filter fun b => !b == a).length < (a :: ks).length :=
      Nat.lt_succ_of_le (List.length_filter_le _ _)
    rw [List.cons_append, List.eraseDups_cons, List.eraseDups_cons, List.filter_append,
      List.any_cons]
    by_cases h : k == a
    · simp [h, BEq.symm h]
    · have hne : (a == k) = false := by
        rw [BEq.comm]
        simpa using h
      have hany : (ks.filter fun b => !b == a).any (· == k) = ks.any (· == k) := by
        rw [List.any_filter]
        congr 1
        funext b
        by_cases hb : b == k
        · simp [hb, BEq.congr_left hb, h]
        · simp [hb]
      have hk : List.filter (fun b => !b == a) [k] = [k] := by simp [h]
      rw [hk, eraseDups_concat, hany, hne, Bool.false_or]
      split <;> rfl
termination_by ks.length
decreasing_by exact hlt

theorem eraseDups_subset [EquivBEq K] (ks : List K) : ks.eraseDups ⊆ ks := by
  induction ks using List.reverseRecOn with
  | nil => simp
  | append_singleton ks k ih =>
    rw [eraseDups_concat]
    split
    · exact List.Subset.trans ih (List.subset_append_left _ _)
    · exact List.append_subset.2
        ⟨List.Subset.trans ih (List.subset_append_left _ _), List.subset_append_right _ _⟩

theorem any_eraseDups [EquivBEq K] (ks : List K) (k : K) :
    ks.eraseDups.any (· == k) = ks.any (· == k) := by
  induction ks using List.reverseRecOn with
  | nil => rfl
  | append_singleton ks a ih =>
    rw [eraseDups_concat]
    split
    next h =>
      rw [ih, List.any_append]
      by_cases hk : a == k
      · have hks : ks.any (· == k) = ks.any (· == a) := by
          congr 1
          funext b
          exact BEq.congr_right (BEq.symm hk)
        simp [hks, h]
      · simp [hk]
    next => rw [List.any_append, List.any_append, ih]

/-- No two of the distinct keys are the same. -/
theorem pairwise_eraseDups [EquivBEq K] (ks : List K) :
    ks.eraseDups.Pairwise fun a b => (a == b) = false := by
  induction ks using List.reverseRecOn with
  | nil => exact .nil
  | append_singleton ks k ih =>
    rw [eraseDups_concat]
    split
    · exact ih
    next h =>
      refine List.pairwise_append.2 ⟨ih, List.pairwise_singleton _ _, ?_⟩
      intro a ha b hb
      rw [List.mem_singleton.1 hb]
      have hnone : ∀ x ∈ ks, ¬(x == k) = true := by simpa using h
      exact Bool.eq_false_iff.2 (hnone a (eraseDups_subset ks ha))

/-- Keys behind others count only if they are new, and they stay behind them. -/
theorem eraseDups_append [EquivBEq K] (ks more : List K) :
    (ks ++ more).eraseDups =
      ks.eraseDups ++ more.eraseDups.filter fun k => !ks.any (· == k) := by
  induction more using List.reverseRecOn with
  | nil => simp
  | append_singleton more k ih =>
    rw [← List.append_assoc, eraseDups_concat, eraseDups_concat, List.any_append, ih]
    by_cases hmore : more.any (· == k) = true
    · simp only [hmore, Bool.or_true, if_true]
    · by_cases hks : ks.any (· == k) = true
      · have hold : [k].filter (fun k => !ks.any (· == k)) = [] := by simp [hks]
        rw [hks, Bool.true_or, if_pos rfl, if_neg hmore, List.filter_append, hold,
          List.append_nil]
      · have hnew : [k].filter (fun k => !ks.any (· == k)) = [k] := by simp [hks]
        have hnone : ¬ (ks.any (· == k) || more.any (· == k)) = true := by
          rw [Bool.or_eq_true]
          exact not_or.2 ⟨hks, hmore⟩
        rw [if_neg hnone, if_neg hmore, List.filter_append, hnew, List.append_assoc]

theorem nodup_eraseDups [LawfulBEq K] (ks : List K) : ks.eraseDups.Nodup :=
  (pairwise_eraseDups ks).imp fun {a b} h hab => by simp [hab] at h

/-- The first key that is the same as a key is kept. -/
theorem find?_eraseDups [EquivBEq K] (ks : List K) (k : K) :
    ks.eraseDups.find? (· == k) = ks.find? (· == k) := by
  induction ks using List.reverseRecOn with
  | nil => rfl
  | append_singleton ks a ih =>
    rw [eraseDups_concat]
    split
    next h =>
      rw [ih, List.find?_append]
      by_cases hk : (a == k) = true
      · obtain ⟨b, hb, hba⟩ := List.any_eq_true.1 h
        have hfound : (ks.find? (· == k)).isSome = true :=
          List.find?_isSome.2 ⟨b, hb, BEq.trans hba hk⟩
        rw [Option.or_of_isSome hfound]
      · rw [List.find?_cons_of_neg (p := (· == k)) hk]
        exact Option.or_none.symm
    next => rw [List.find?_append, List.find?_append, ih]

theorem mem_iff_find?_eq_some [EquivBEq K] {ks : List K}
    (hdistinct : ks.Pairwise fun a b => (a == b) = false) (k : K) :
    k ∈ ks ↔ ks.find? (· == k) = some k := by
  refine ⟨fun hk => ?_, List.mem_of_find?_eq_some⟩
  induction ks with
  | nil => cases hk
  | cons a ks ih =>
    obtain ⟨hfirst, hrest⟩ := List.pairwise_cons.1 hdistinct
    rcases List.mem_cons.1 hk with hnew | hold
    · rw [← hnew]
      exact List.find?_cons_of_pos (p := (· == k)) BEq.rfl
    · rw [List.find?_cons_of_neg (p := (· == k)) (Bool.eq_false_iff.1 (hfirst k hold))]
      exact ih hrest hold

/-- Which of distinct keys is the same as a key does not depend on their order. -/
theorem find?_perm [EquivBEq K] {ks ks' : List K} (h : ks.Perm ks')
    (hdistinct : ks.Pairwise fun a b => (a == b) = false) (k : K) :
    ks.find? (· == k) = ks'.find? (· == k) := by
  induction h with
  | nil => rfl
  | cons a _ ih => rw [List.find?_cons, List.find?_cons, ih (List.pairwise_cons.1 hdistinct).2]
  | swap a b ks =>
    have hne := (List.pairwise_cons.1 hdistinct).1 a List.mem_cons_self
    rw [List.find?_cons, List.find?_cons, List.find?_cons, List.find?_cons]
    by_cases ha : (a == k) = true
    · rw [ha, ← BEq.congr_right ha, hne]
    · rw [Bool.eq_false_iff.2 ha]
  | trans hfirst _ ihfirst ihrest =>
    have hmiddle := hfirst.pairwise hdistinct fun hab => BEq.comm.trans hab
    exact (ihfirst hdistinct).trans (ihrest hmiddle)

/-- The key under which a table would put a key is the same one. -/
theorem getKeyD_self_beq {α : Type} [EquivBEq K] [Hashable K] [LawfulHashable K]
    (table : Std.HashMap K α) (k : K) : (table.getKeyD k k == k) = true := by
  by_cases h : k ∈ table
  · rw [Std.HashMap.getKeyD_eq_getD_getKey?, Std.HashMap.getKey?_eq_some_getKey h]
    exact Std.HashMap.getKey_beq h
  · rw [Std.HashMap.getKeyD_eq_fallback h]
    exact BEq.rfl

end Distinct

section Values

variable {K V W : Type} [BEq K]

/-- The values of a key, in the order of the rows. -/
def valuesOf (k : K) (rows : List (K × V)) : List V :=
  (rows.filter fun row => row.1 == k).map Prod.snd

@[simp] theorem valuesOf_nil (k : K) : valuesOf k ([] : List (K × V)) = [] := rfl

theorem valuesOf_cons (k : K) (row : K × V) (rows : List (K × V)) :
    valuesOf k (row :: rows) =
      if row.1 == k then row.2 :: valuesOf k rows else valuesOf k rows := by
  unfold valuesOf
  rw [List.filter_cons]
  split <;> rfl

@[simp] theorem valuesOf_append (k : K) (a b : List (K × V)) :
    valuesOf k (a ++ b) = valuesOf k a ++ valuesOf k b := by
  simp [valuesOf]

theorem valuesOf_keyed [ReflBEq K] (k key : K) (values : List V) :
    valuesOf k (values.map fun v => (key, v)) = if key == k then values else [] := by
  induction values with
  | nil => simp
  | cons v values ih =>
    rw [List.map_cons, valuesOf_cons, ih]
    split <;> rfl

/-- A key has values exactly if it is the key of a row. -/
theorem valuesOf_eq_nil_iff (k : K) (rows : List (K × V)) :
    valuesOf k rows = [] ↔ (rows.map Prod.fst).any (· == k) = false := by
  simp [valuesOf, List.filter_eq_nil_iff]

theorem valuesOf_map_snd (k : K) (f : V → W) (rows : List (K × V)) :
    valuesOf k (rows.map fun row => (row.1, f row.2)) = (valuesOf k rows).map f := by
  induction rows with
  | nil => rfl
  | cons row rows ih =>
    rw [List.map_cons, valuesOf_cons, valuesOf_cons, ih]
    split <;> rfl

theorem valuesOf_perm {a b : List (K × V)} (h : a.Perm b) (k : K) :
    (valuesOf k a).Perm (valuesOf k b) :=
  (h.filter _).map _

/-- What grouping has to make of its inputs: one group per key of any input, in the order in which
the keys are first met, with the values of the key in every input. -/
def groupsOf (inputs : List (List (K × V))) : List (Group K V) :=
  (inputs.flatten.map Prod.fst).eraseDups.map fun k => (k, inputs.map (valuesOf k))

theorem keys_groupsOf (inputs : List (List (K × V))) :
    (groupsOf inputs).map Prod.fst = (inputs.flatten.map Prod.fst).eraseDups := by
  simp [groupsOf, Function.comp_def]

/-- The first key of rows that is the same as a key; it stands for all of them. -/
def keyOf? (k : K) (rows : List (K × V)) : Option K := (rows.map Prod.fst).find? (· == k)

theorem keyOf?_append (k : K) (a b : List (K × V)) :
    keyOf? k (a ++ b) = (keyOf? k a).or (keyOf? k b) := by
  simp [keyOf?, List.find?_append]

theorem keyOf?_cons (k : K) (row : K × V) (rows : List (K × V)) :
    keyOf? k (row :: rows) = if row.1 == k then some row.1 else keyOf? k rows := by
  unfold keyOf?
  rw [List.map_cons, List.find?_cons]
  split <;> simp [*]

theorem keyOf?_keyed (k key : K) {values : List V} (h : values ≠ []) :
    keyOf? k (values.map fun v => (key, v)) = if key == k then some key else none := by
  obtain ⟨v, others, rfl⟩ := List.exists_cons_of_ne_nil h
  by_cases hk : (key == k) = true
  · simp [keyOf?, hk]
  · simp [keyOf?, hk]

/-- What grouping one list of rows has to make: a record per key, with all of its values. -/
def recordsByKey (rows : List (K × V)) : List (K × List V) :=
  (rows.map Prod.fst).eraseDups.map fun k => (k, valuesOf k rows)

theorem keys_recordsByKey (rows : List (K × V)) :
    (recordsByKey rows).map Prod.fst = (rows.map Prod.fst).eraseDups := by
  simp [recordsByKey, Function.comp_def]

theorem mem_recordsByKey_iff [EquivBEq K] (rows : List (K × V)) (entry : K × List V) :
    entry ∈ recordsByKey rows ↔
      keyOf? entry.1 rows = some entry.1 ∧ entry.2 = valuesOf entry.1 rows := by
  unfold recordsByKey keyOf?
  rw [← find?_eraseDups, ← mem_iff_find?_eq_some (pairwise_eraseDups _), List.mem_map]
  constructor
  · rintro ⟨k, hk, rfl⟩
    exact ⟨hk, rfl⟩
  · rintro ⟨hk, hvalues⟩
    exact ⟨entry.1, hk, Prod.ext rfl hvalues.symm⟩

end Values

end JoinPipeline
