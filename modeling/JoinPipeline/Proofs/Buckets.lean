import JoinPipeline.Proofs.Grouping
import Mathlib.Data.List.Perm.Basic

/-!
# Grouping in buckets

Rows that are dealt out by a hash of their key keep their order inside a bucket, and a key is in
one bucket only. So bucketed grouping makes the same groups as grouping in one go, bucket by
bucket, and with one bucket in the same order.
-/

namespace JoinPipeline

variable {K V : Type}

/-- Elements sorted into numbered classes are all there, class by class. -/
theorem flatMap_filter_perm {α : Type} (classOf : α → Nat) (n : Nat) (l : List α)
    (hlt : ∀ a ∈ l, classOf a < n) :
    ((List.range n).flatMap fun i => l.filter fun a => classOf a = i).Perm l := by
  induction n generalizing l with
  | zero =>
    have hnil : l = [] := List.eq_nil_iff_forall_not_mem.2 fun a ha => Nat.not_lt_zero _ (hlt a ha)
    simp [hnil]
  | succ n ih =>
    have hlow : ((List.range n).flatMap fun i => l.filter fun a => classOf a = i) =
        (List.range n).flatMap fun i =>
          (l.filter fun a => classOf a < n).filter fun a => classOf a = i := by
      refine List.flatMap_congr fun i hi => ?_
      rw [List.filter_filter]
      refine List.filter_congr fun a _ => ?_
      have hin : i < n := List.mem_range.1 hi
      by_cases ha : classOf a = i
      · simp [ha, hin]
      · simp [ha]
    have hhigh : (l.filter fun a => classOf a = n) = l.filter fun a => !decide (classOf a < n) := by
      refine List.filter_congr fun a ha => ?_
      have hle := Nat.lt_succ_iff.1 (hlt a ha)
      by_cases heq : classOf a = n
      · simp [heq]
      · have hless : classOf a < n := by omega
        simp [heq, hless]
    rw [List.range_succ, List.flatMap_append, List.flatMap_singleton, hlow, hhigh]
    refine ((ih _ fun a ha => ?_).append_right _).trans (List.filter_append_perm _ _)
    simpa using (List.mem_filter.1 ha).2

/-- Inside a class, elements sorted into numbered classes keep their order. -/
theorem filter_flatMap_filter {α : Type} (classOf : α → Nat) (n : Nat) (l : List α) {i : Nat}
    (hlt : i < n) :
    ((List.range n).flatMap fun j => l.filter fun a => classOf a = j).filter
      (fun a => classOf a = i) = l.filter fun a => classOf a = i := by
  have hclass : ∀ j, ((l.filter fun a => classOf a = j).filter fun a => classOf a = i) =
      if j = i then l.filter fun a => classOf a = i else [] := by
    intro j
    rw [List.filter_filter]
    split
    next hj => simp [hj]
    next hj =>
      refine List.filter_eq_nil_iff.2 fun a _ hboth => ?_
      simp only [Bool.and_eq_true, decide_eq_true_eq] at hboth
      omega
  have hsingle : ∀ m, ((List.range m).flatMap fun j =>
      if j = i then l.filter fun a => classOf a = i else []) =
        if i < m then l.filter fun a => classOf a = i else [] := by
    intro m
    induction m with
    | zero => simp
    | succ m ih =>
      rw [List.range_succ, List.flatMap_append, List.flatMap_singleton, ih]
      rcases Nat.lt_trichotomy i m with hless | heq | hmore
      · simp [hless, Nat.lt_succ_of_lt hless, Nat.ne_of_gt hless]
      · simp [heq]
      · have hnot : ¬ i < m + 1 := by omega
        simp [hnot, Nat.lt_asymm hmore, Nat.ne_of_lt hmore]
  rw [List.filter_flatMap]
  simp only [hclass]
  rw [hsingle, if_pos hlt]

section Dealing

variable (hash : K → Nat) (buckets : Nat)

/-- The rows whose key falls into a bucket. -/
def inBucket (bucket : Nat) (rows : List (K × V)) : List (K × V) :=
  rows.filter fun row => hash row.1 % buckets = bucket

theorem modify_range {γ : Type} (f : Nat → γ) (g : γ → γ) (n i : Nat) :
    ((List.range n).map f).modify i g =
      (List.range n).map fun j => if i = j then g (f j) else f j := by
  refine List.ext_getElem (by simp) fun j hj hj' => ?_
  rw [List.getElem_modify]
  simp

/-- Dealing out rows leaves in every bucket the rows that belong there, in their order. -/
theorem shards_eq (inputs : List (List (K × V))) :
    shards hash buckets inputs =
      (List.range buckets).map fun b => inputs.map (inBucket hash buckets b) := by
  refine invariant_of_pass
    (fun (filled : Array (Array (Array (K × V)))) inputs =>
      filled.toList.map (fun shard => shard.toList.map Array.toList) =
        (List.range buckets).map fun b => inputs.map (inBucket hash buckets b))
    (fun tag filled row => filled.modify (hash row.1 % buckets) fun shard =>
      shard.modify tag fun rows => rows.push row) ?_ inputs
    (Array.replicate buckets (Array.replicate inputs.length #[])) ?_
  · intro filled before part n row h
    rw [Array.toList_modify,
      map_modify _ _ (fun shard => shard.modify before.length (· ++ [row])), h, modify_range]
    · refine List.map_congr_left fun b _ => ?_
      rw [map_partialInputs (inBucket hash buckets b) (fun _ _ => List.filter_append ..)]
      have hlast : inBucket hash buckets b [row] =
          if hash row.1 % buckets = b then [row] else [] := by
        simp [inBucket, List.filter_cons]
      rw [hlast]
      split
      · rfl
      · simp only [List.append_nil]
        exact (List.modify_id _ _).symm
    · intro shard
      rw [Array.toList_modify]
      exact map_modify _ _ _ (fun slot => Array.toList_push) _ _
  · simp [inBucket]

end Dealing

section Groups

variable [BEq K]

theorem valuesOf_filter {p : K → Bool} (hp : ∀ a b, (a == b) = true → p a = p b) {k : K}
    (hk : p k = true) (rows : List (K × V)) :
    valuesOf k (rows.filter fun row => p row.1) = valuesOf k rows := by
  unfold valuesOf
  rw [List.filter_filter]
  congr 1
  refine List.filter_congr fun row _ => ?_
  by_cases h : row.1 == k
  · simp [h, hp _ _ h, hk]
  · simp [h]

variable [EquivBEq K]

/-- Distinct keys of a class of keys. -/
theorem eraseDups_filter {p : K → Bool} (hp : ∀ a b, (a == b) = true → p a = p b) (ks : List K) :
    (ks.filter p).eraseDups = ks.eraseDups.filter p := by
  induction ks using List.reverseRecOn with
  | nil => rfl
  | append_singleton ks k ih =>
    rw [List.filter_append, eraseDups_concat]
    by_cases hk : p k = true
    · have hany : (ks.filter p).any (· == k) = ks.any (· == k) := by
        rw [List.any_filter]
        congr 1
        funext b
        by_cases hb : b == k
        · simp [hb, hp b k hb, hk]
        · simp [hb]
      have hlast : [k].filter p = [k] := by simp [hk]
      rw [hlast, eraseDups_concat, hany, ih]
      split
      · rfl
      · rw [List.filter_append, hlast]
    · have hlast : [k].filter p = [] := by simp [hk]
      rw [hlast, List.append_nil, ih]
      split
      · rfl
      · rw [List.filter_append, hlast, List.append_nil]

/-- The groups of the rows of a class of keys are the groups of these keys. -/
theorem groupsOf_filter {p : K → Bool} (hp : ∀ a b, (a == b) = true → p a = p b)
    (inputs : List (List (K × V))) :
    groupsOf (inputs.map fun rows => rows.filter fun row => p row.1) =
      (groupsOf inputs).filter fun group => p group.1 := by
  have hkeys : ((inputs.map fun rows => rows.filter fun row => p row.1).flatten.map Prod.fst) =
      (inputs.flatten.map Prod.fst).filter p := by
    rw [← List.filter_flatten, List.filter_map]
    rfl
  unfold groupsOf
  rw [hkeys, eraseDups_filter hp, List.filter_map]
  refine List.map_congr_left fun k hk => ?_
  rw [List.map_map]
  congr 1
  exact List.map_congr_left fun rows _ => valuesOf_filter hp (List.mem_filter.1 hk).2 rows

variable [Hashable K] [LawfulHashable K] {hash : K → Nat}

/-- Bucketed grouping makes the groups of every bucket, bucket by bucket. -/
theorem groupBucketed_eq (hhash : ∀ a b, (a == b) = true → hash a = hash b) (buckets : Nat)
    (inputs : List (List (K × V))) :
    groupBucketed hash buckets inputs =
      (List.range buckets).flatMap fun b =>
        (groupsOf inputs).filter fun group => hash group.1 % buckets = b := by
  unfold groupBucketed
  rw [shards_eq, List.flatMap_map]
  refine List.flatMap_congr fun b _ => ?_
  rw [groupTagged_eq]
  exact groupsOf_filter (p := fun k => hash k % buckets = b) (fun x y h => by rw [hhash x y h])
    inputs

theorem groupBucketed_perm (hhash : ∀ a b, (a == b) = true → hash a = hash b) {buckets : Nat}
    (hpos : 0 < buckets) (inputs : List (List (K × V))) :
    (groupBucketed hash buckets inputs).Perm (groupsOf inputs) := by
  rw [groupBucketed_eq hhash]
  exact flatMap_filter_perm (fun group : Group K V => hash group.1 % buckets) _ _
    fun _ _ => Nat.mod_lt _ hpos

/-- The groups of one bucket come in the same order as in grouping in one go. -/
theorem inBucket_groupBucketed (hhash : ∀ a b, (a == b) = true → hash a = hash b)
    {buckets : Nat} (inputs : List (List (K × V))) {bucket : Nat} (hlt : bucket < buckets) :
    inBucket hash buckets bucket (groupBucketed hash buckets inputs) =
      inBucket hash buckets bucket (groupsOf inputs) := by
  rw [groupBucketed_eq hhash]
  exact filter_flatMap_filter (fun group : Group K V => hash group.1 % buckets) _ _ hlt

theorem groupBucketed_one (hhash : ∀ a b, (a == b) = true → hash a = hash b)
    (inputs : List (List (K × V))) : groupBucketed hash 1 inputs = groupsOf inputs := by
  rw [groupBucketed_eq hhash]
  simp [Nat.mod_one]

omit [BEq K] [EquivBEq K] [Hashable K] [LawfulHashable K] in
theorem bucketCount_pos (requested : Nat) : 0 < bucketCount requested := Nat.le_max_right _ 1

/-- Bucketed grouping makes the groups of grouping in one go. No row is dealt out to a bucket that
is not there, the groups of a bucket keep the order in which their keys are first met, and with at
most one bucket asked for all of them do. -/
theorem groupBucketed_agrees (hhash : ∀ a b, (a == b) = true → hash a = hash b) (requested : Nat)
    (inputs : List (List (K × V))) :
    (∀ k, hash k % bucketCount requested < bucketCount requested) ∧
    shards hash (bucketCount requested) inputs =
      (List.range (bucketCount requested)).map (fun bucket =>
        inputs.map (inBucket hash (bucketCount requested) bucket)) ∧
    (groupBucketed hash (bucketCount requested) inputs).Perm (groupTagged inputs) ∧
    (∀ bucket < bucketCount requested,
      inBucket hash (bucketCount requested) bucket
          (groupBucketed hash (bucketCount requested) inputs) =
        inBucket hash (bucketCount requested) bucket (groupTagged inputs) ∧
      (inBucket hash (bucketCount requested) bucket
          (groupBucketed hash (bucketCount requested) inputs)).map Prod.fst =
        (inputs.flatten.map Prod.fst).eraseDups.filter fun k =>
          hash k % bucketCount requested = bucket) ∧
    (requested ≤ 1 → groupBucketed hash (bucketCount requested) inputs = groupTagged inputs) := by
  have hpos := bucketCount_pos requested
  rw [groupTagged_eq]
  refine ⟨fun k => Nat.mod_lt _ hpos, shards_eq _ _ _, groupBucketed_perm hhash hpos inputs,
    fun bucket hlt => ?_, fun hone => ?_⟩
  · have hsame := inBucket_groupBucketed hhash inputs hlt
    refine ⟨hsame, ?_⟩
    rw [hsame, ← keys_groupsOf, List.filter_map]
    rfl
  · have hcount : bucketCount requested = 1 := Nat.max_eq_right hone
    rw [hcount]
    exact groupBucketed_one hhash inputs

end Groups

section Sample

/-- Two inputs of numbered letters. -/
def lettersByNumber : List (List (Nat × Char)) :=
  [[(2, 'a'), (5, 'b'), (3, 'c'), (2, 'd')], [(1, 'x'), (5, 'y')]]

theorem groupBucketed_agrees_sample :
    (groupBucketed id (bucketCount 2) lettersByNumber).Perm (groupTagged lettersByNumber) ∧
    (inBucket id (bucketCount 2) 1 (groupBucketed id (bucketCount 2) lettersByNumber)).map
      Prod.fst = [5, 3, 1] ∧
    groupBucketed id (bucketCount 0) lettersByNumber = groupTagged lettersByNumber := by
  have hhash : ∀ a b : Nat, (a == b) = true → id a = id b := fun _ _ h => eq_of_beq h
  obtain ⟨_, _, hperm, horder, _⟩ := groupBucketed_agrees hhash 2 lettersByNumber
  obtain ⟨_, _, _, _, hone⟩ := groupBucketed_agrees hhash 0 lettersByNumber
  refine ⟨hperm, ?_, hone (by decide)⟩
  rw [(horder 1 (by decide)).2]
  decide

end Sample

end JoinPipeline
