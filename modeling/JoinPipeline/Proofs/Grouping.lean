import JoinPipeline.Proofs.Keys
import Std.Data.HashMap.Lemmas

/-!
# Grouping through an index

The groups that are filled row by row through an index are those that plain lists give: after any
number of rows the index tells for every key where its group stands, and the groups are those of
the rows taken in so far.
-/

namespace JoinPipeline

variable {K V : Type}

theorem map_modify {α γ : Type} (f : α → γ) (g : α → α) (g' : γ → γ)
    (h : ∀ a, f (g a) = g' (f a)) (i : Nat) (l : List α) :
    (l.modify i g).map f = (l.map f).modify i g' := by
  induction l generalizing i with
  | nil => simp
  | cons a l ih =>
    cases i with
    | zero => simp [h]
    | succ i => simp [ih]

/-- Where at most one element is meant, changing the first one found changes all of them. -/
theorem modify_of_findIdx? {α : Type} {p : α → Bool} (f : α → α) {l : List α} {i : Nat}
    (hone : l.Pairwise fun a b => p a = true → p b = false) (hi : l.findIdx? p = some i) :
    l.modify i f = l.map fun a => if p a then f a else a := by
  induction l generalizing i with
  | nil => simp at hi
  | cons a l ih =>
    rw [List.pairwise_cons] at hone
    rw [List.findIdx?_cons] at hi
    by_cases ha : p a = true
    · have hrest : ∀ b ∈ l, (if p b then f b else b) = b := fun b hb => by
        simp [hone.1 b hb ha]
      have hzero : 0 = i := by simpa [ha] using hi
      rw [← hzero, List.modify_zero_cons, List.map_cons, if_pos ha, List.map_congr_left hrest,
        List.map_id']
    · simp only [ha, Bool.false_eq_true, if_false, Option.map_eq_some_iff] at hi
      obtain ⟨j, hj, rfl⟩ := hi
      rw [List.modify_succ_cons, List.map_cons, if_neg ha, ih hone.2 hj]

/-- A group with one more value in the slot of a tag. -/
def putValue (tag : Nat) (value : V) (group : Group K V) : Group K V :=
  (group.1, group.2.modify tag (· ++ [value]))

namespace GroupTable

variable [BEq K] [Hashable K]

/-- A row of a key that the index knows. -/
theorem toList_add_known {table : GroupTable K V} {row : K × V} {place : Nat} (tag : Nat)
    (h : table.index[row.1]? = some place) :
    (table.add tag row).toList = table.toList.modify place (putValue tag row.2) := by
  unfold add toList
  simp only [h, Array.toList_modify]
  refine map_modify _ _ _ (fun group => ?_) _ _
  simp only [putValue, Array.toList_modify, Prod.mk.injEq, true_and]
  exact map_modify _ _ _ (fun slot => Array.toList_push) _ _

/-- A row of a key that the index does not know. -/
theorem toList_add_new {table : GroupTable K V} {row : K × V} (tag : Nat)
    (h : table.index[row.1]? = none) :
    (table.add tag row).toList =
      table.toList ++ [putValue tag row.2 (row.1, List.replicate table.tags [])] := by
  unfold add toList
  simp only [h, Array.toList_push, List.map_append, List.map_cons, List.map_nil, putValue,
    Array.toList_modify, Array.toList_replicate]
  congr 3
  rw [map_modify Array.toList _ (· ++ [row.2]) (fun slot => Array.toList_push)]
  simp

/-- The table has taken in these rows: the index tells for every key where it stands among the
distinct keys, and the groups are those of the rows. -/
structure Holds (table : GroupTable K V) (inputs : List (List (K × V))) : Prop where
  tags : table.tags = inputs.length
  index : ∀ k, table.index[k]? = (inputs.flatten.map Prod.fst).eraseDups.findIdx? (· == k)
  groups : table.toList = groupsOf inputs

end GroupTable

section Passes

variable {α γ : Type}

/-- The rows of some inputs, those of one input so far, and inputs without any rows yet. -/
def partialInputs (before : List (List α)) (part : List α) (n : Nat) : List (List α) :=
  before ++ part :: List.replicate n []

theorem length_partialInputs (before : List (List α)) (part part' : List α) (n : Nat) :
    (partialInputs before part n).length = (partialInputs before part' n).length := by
  simp [partialInputs]

/-- What is read off every input, where one input gets one more row. -/
theorem map_partialInputs (f : List α → List γ) (hf : ∀ a b, f (a ++ b) = f a ++ f b)
    (before : List (List α)) (part : List α) (n : Nat) (row : α) :
    (partialInputs before (part ++ [row]) n).map f =
      ((partialInputs before part n).map f).modify before.length (· ++ f [row]) := by
  rw [List.modify_eq_take_drop]
  simp [partialInputs, hf]

variable {σ : Type} {P : σ → List (List α) → Prop} (step : Nat → σ → α → σ)

/-- What every row keeps is kept by the rows of one input. -/
theorem invariant_of_rows
    (hstep : ∀ s before part n row, P s (partialInputs before part n) →
      P (step before.length s row) (partialInputs before (part ++ [row]) n))
    (rows : List α) (before : List (List α)) (part : List α) {n : Nat} {s : σ}
    (h : P s (partialInputs before part n)) :
    P (rows.foldl (step before.length) s) (partialInputs before (part ++ rows) n) := by
  induction rows generalizing part s with
  | nil => rwa [List.append_nil]
  | cons row rows ih =>
    have hnext := ih (part ++ [row]) (hstep s before part n row h)
    rwa [List.append_assoc] at hnext

/-- What every row keeps is kept by the next inputs. The inputs still to come are empty until it is
their turn. -/
theorem invariant_of_inputs
    (hstep : ∀ s before part n row, P s (partialInputs before part n) →
      P (step before.length s row) (partialInputs before (part ++ [row]) n))
    (inputs before : List (List α)) (n : Nat) {s : σ}
    (h : P s (before ++ List.replicate (inputs.length + n) [])) :
    P ((inputs.zipIdx before.length).foldl
      (fun s input => input.1.foldl (step input.2) s) s)
        (before ++ inputs ++ List.replicate n []) := by
  induction inputs generalizing before s with
  | nil => simpa using h
  | cons rows inputs ih =>
    have hstart : P s (partialInputs before [] (inputs.length + n)) := by
      simpa [partialInputs, Nat.add_right_comm, List.replicate_succ] using h
    have hfirst := invariant_of_rows step hstep rows before [] hstart
    have hrest := ih (before ++ [rows]) (by simpa [partialInputs] using hfirst)
    simpa using hrest

/-- An invariant that every row keeps holds behind a pass over all inputs. -/
theorem invariant_of_pass (P : σ → List (List α) → Prop) (step : Nat → σ → α → σ)
    (hstep : ∀ s before part n row, P s (partialInputs before part n) →
      P (step before.length s row) (partialInputs before (part ++ [row]) n))
    (inputs : List (List α)) (s : σ) (h : P s (List.replicate inputs.length [])) :
    P (inputs.zipIdx.foldl (fun s input => input.1.foldl (step input.2) s) s) inputs := by
  have hpass := invariant_of_inputs step hstep inputs [] 0 h
  simpa using hpass

end Passes

/-- At most one group has a given key. -/
theorem pairwise_groupsOf [BEq K] [EquivBEq K] (inputs : List (List (K × V))) (k : K) :
    (groupsOf inputs).Pairwise fun a b => (a.1 == k) = true → (b.1 == k) = false := by
  have hkeys := pairwise_eraseDups (inputs.flatten.map Prod.fst)
  refine List.pairwise_map.2 (hkeys.imp ?_)
  intro a b hab ha
  rw [← hab, BEq.comm]
  exact BEq.congr_left (BEq.symm ha)

section OneMore

variable [BEq K] [EquivBEq K]
variable (before : List (List (K × V))) (part : List (K × V)) (n : Nat) (row : K × V)

omit [BEq K] [EquivBEq K] in
theorem keys_partialInputs :
    (partialInputs before (part ++ [row]) n).flatten.map Prod.fst =
      (partialInputs before part n).flatten.map Prod.fst ++ [row.1] := by
  simp [partialInputs]

theorem slots_partialInputs (k : K) :
    (partialInputs before (part ++ [row]) n).map (valuesOf k) =
      if k == row.1 then
        ((partialInputs before part n).map (valuesOf k)).modify before.length (· ++ [row.2])
      else (partialInputs before part n).map (valuesOf k) := by
  rw [map_partialInputs _ (valuesOf_append k), valuesOf_cons, BEq.comm]
  split
  · rfl
  · rw [valuesOf_nil]
    simp only [List.append_nil]
    exact List.modify_id _ _

theorem groupsOf_known
    (h : ((partialInputs before part n).flatten.map Prod.fst).any (· == row.1) = true) :
    groupsOf (partialInputs before (part ++ [row]) n) =
      (groupsOf (partialInputs before part n)).map fun group =>
        if group.1 == row.1 then putValue before.length row.2 group else group := by
  unfold groupsOf
  rw [keys_partialInputs, eraseDups_concat, if_pos h, List.map_map]
  refine List.map_congr_left fun k _ => ?_
  rw [slots_partialInputs, Function.comp_apply]
  split <;> rfl

theorem groupsOf_new
    (h : ((partialInputs before part n).flatten.map Prod.fst).any (· == row.1) = false) :
    groupsOf (partialInputs before (part ++ [row]) n) =
      groupsOf (partialInputs before part n) ++
        [putValue before.length row.2
          (row.1, List.replicate (partialInputs before part n).length [])] := by
  have hold : ∀ k ∈ ((partialInputs before part n).flatten.map Prod.fst).eraseDups,
      (k == row.1) = false := by
    intro k hk
    have hall := List.any_eq_false.1 h k (eraseDups_subset _ hk)
    simpa using hall
  have hnone : (partialInputs before part n).map (valuesOf row.1) =
      List.replicate (partialInputs before part n).length [] := by
    rw [List.map_eq_replicate_iff]
    intro input hinput
    rw [valuesOf_eq_nil_iff, List.any_eq_false]
    intro key hkey
    obtain ⟨r, hr, rfl⟩ := List.mem_map.1 hkey
    exact List.any_eq_false.1 h r.1 (List.mem_map_of_mem (List.mem_flatten_of_mem hinput hr))
  unfold groupsOf
  rw [keys_partialInputs, eraseDups_concat, if_neg (Bool.eq_false_iff.1 h), List.map_append,
    List.map_cons, List.map_nil]
  congr 1
  · refine List.map_congr_left fun k hk => ?_
    rw [slots_partialInputs, if_neg (by simp [hold k hk])]
  · rw [slots_partialInputs, if_pos BEq.rfl, hnone]
    rfl

end OneMore

namespace GroupTable

variable [BEq K] [Hashable K] [EquivBEq K] [LawfulHashable K]

variable {table : GroupTable K V} {inputs : List (List (K × V))}

omit [EquivBEq K] [LawfulHashable K] in
theorem Holds.size_groups (h : table.Holds inputs) :
    table.groups.size = (inputs.flatten.map Prod.fst).eraseDups.length := by
  have hlength := congrArg List.length h.groups
  simpa [toList, groupsOf] using hlength

omit [LawfulHashable K] in
/-- The index knows the keys of the rows and no others. -/
theorem Holds.isSome_index (h : table.Holds inputs) (k : K) :
    (inputs.flatten.map Prod.fst).any (· == k) = table.index[k]?.isSome := by
  rw [h.index, List.findIdx?_isSome, any_eraseDups]

variable {before : List (List (K × V))} {part : List (K × V)} {n : Nat} {row : K × V}

omit [LawfulHashable K] in
theorem Holds.add_known {place : Nat} (h : table.Holds (partialInputs before part n))
    (hrow : table.index[row.1]? = some place) :
    (table.add before.length row).Holds (partialInputs before (part ++ [row]) n) := by
  have hany : ((partialInputs before part n).flatten.map Prod.fst).any (· == row.1) = true := by
    rw [h.isSome_index, hrow]
    rfl
  have hplace : (groupsOf (partialInputs before part n)).findIdx? (fun g => g.1 == row.1) =
      some place := by
    rw [groupsOf, List.findIdx?_map, ← hrow, h.index]
    rfl
  refine ⟨?_, ?_, ?_⟩
  · simp only [GroupTable.add, hrow]
    rw [length_partialInputs before (part ++ [row]) part n, h.tags]
  · intro k
    simp only [GroupTable.add, hrow]
    rw [keys_partialInputs, eraseDups_concat, if_pos hany, h.index]
  · rw [toList_add_known _ hrow, h.groups, groupsOf_known _ _ _ _ hany]
    exact modify_of_findIdx? _ (pairwise_groupsOf _ row.1) hplace

theorem Holds.add_new (h : table.Holds (partialInputs before part n))
    (hrow : table.index[row.1]? = none) :
    (table.add before.length row).Holds (partialInputs before (part ++ [row]) n) := by
  have hany : ((partialInputs before part n).flatten.map Prod.fst).any (· == row.1) = false := by
    rw [h.isSome_index, hrow]
    rfl
  have hindex := h.index row.1
  rw [hrow] at hindex
  refine ⟨?_, ?_, ?_⟩
  · simp only [GroupTable.add, hrow]
    rw [length_partialInputs before (part ++ [row]) part n, h.tags]
  · intro k
    simp only [GroupTable.add, hrow]
    rw [keys_partialInputs, eraseDups_concat, if_neg (Bool.eq_false_iff.1 hany),
      Std.HashMap.getElem?_insert, List.findIdx?_append, List.findIdx?_singleton, h.index,
      h.size_groups]
    by_cases hk : row.1 == k
    · have hsame : (fun x : K => x == k) = fun x => x == row.1 :=
        funext fun x => BEq.congr_right (BEq.symm hk)
      rw [if_pos hk, if_pos hk, hsame, ← hindex, Option.none_or, Option.map_some, Nat.zero_add]
    · simp [hk]
  · rw [toList_add_new _ hrow, h.groups, groupsOf_new _ _ _ _ hany, h.tags]

/-- Taking in a row keeps the invariant. -/
theorem Holds.add (h : table.Holds (partialInputs before part n)) (row : K × V) :
    (table.add before.length row).Holds (partialInputs before (part ++ [row]) n) := by
  cases hrow : table.index[row.1]? with
  | some place => exact h.add_known hrow
  | none => exact h.add_new hrow

/-- Before the first row nothing has been taken in. -/
theorem holds_empty (tags : Nat) :
    (⟨tags, {}, #[]⟩ : GroupTable K V).Holds (List.replicate tags []) where
  tags := by simp
  index k := by simp
  groups := by simp [GroupTable.toList, groupsOf]

end GroupTable

/-- Grouping in the order in which keys are first met gives exactly the groups of the inputs. -/
theorem groupTagged_eq [BEq K] [Hashable K] [EquivBEq K] [LawfulHashable K]
    (inputs : List (List (K × V))) :
    groupTagged inputs = groupsOf inputs :=
  (invariant_of_pass GroupTable.Holds (fun tag table row => table.add tag row)
    (fun _ _ _ _ row h => h.add row) inputs _ (GroupTable.holds_empty inputs.length)).groups

end JoinPipeline
