import JoinPipeline.Proofs.Success

/-!
# Rows cut into partitions

Partitions of one type hold a list of rows if these are what the partitions hold, one behind
another. How many partitions there are and where the cuts are does not matter to anything below.
-/

namespace JoinPipeline

theorem flatten_chunks {α : Type} (size : Nat) (rows : List α) :
    (chunks size rows).flatten = rows := by
  fun_induction chunks size rows with
  | case1 => rfl
  | case2 a rows ih => rw [List.flatten_cons, ih, List.cons_append, List.take_append_drop]

theorem flatten_cut {α : Type} (n : Nat) (rows : List α) : (cut n rows).flatten = rows := by
  unfold cut
  split
  · simp
  · exact flatten_chunks _ _

variable {β : Type} [Basis β] {t : ElementType β} {rows : List t.Carrier}
  {parts : List (Partition β)}

/-- The partitions are pieces of the rows, in order. -/
def IsCut (t : ElementType β) (rows : List t.Carrier) (parts : List (Partition β)) : Prop :=
  ∃ pieces : List (List t.Carrier), pieces.flatten = rows ∧ parts = pieces.map (Partition.mk t)

theorem isCut_single (rows : List t.Carrier) : IsCut t rows [⟨t, rows⟩] :=
  ⟨[rows], by simp, rfl⟩

theorem count?_self (rows : List t.Carrier) : t.count? ⟨t, rows⟩ = some rows.length := by
  simp [ElementType.count?]

theorem split?_self (n : Nat) (rows : List t.Carrier) :
    t.split? n ⟨t, rows⟩ = some ((cut n rows).map (Partition.mk t)) := by
  simp [ElementType.split?]

theorem isCut_cut (n : Nat) (rows : List t.Carrier) :
    IsCut t rows ((cut n rows).map (Partition.mk t)) :=
  ⟨cut n rows, flatten_cut n rows, rfl⟩

theorem IsCut.concat? (h : IsCut t rows parts) : t.concat? parts = some ⟨t, rows⟩ := by
  obtain ⟨pieces, hrows, hparts⟩ := h
  subst hrows hparts
  have hall : (pieces.map (Partition.mk t)).mapM (Partition.as? t) = some pieces := by
    induction pieces with
    | nil => rfl
    | cons piece pieces ih => simp [ih]
  simp [ElementType.concat?, hall]

namespace Run

theorem gather_of_isCut (h : IsCut t rows parts) : gather t parts = .ok rows := by
  obtain ⟨pieces, hrows, hparts⟩ := h
  subst hrows hparts
  refine bind_eq_ok.2 ⟨pieces, ?_, rfl⟩
  rw [List.mapM_map, mapM_eq_ok_map (g := id), List.map_id]
  intro piece _
  rw [Function.comp_apply, Partition.as?_self]
  rfl

theorem source_self (ctx : RunContext β) (rows : List t.Carrier) :
    ∃ parts, source ctx t ⟨t, rows⟩ = .ok parts ∧ IsCut t rows parts := by
  refine ⟨_, ?_, isCut_cut (min ctx.partitions (max rows.length 1)) rows⟩
  simp only [source, count?_self, Option.getD_some, split?_self]

theorem isCut_cutOutcome (ctx : RunContext β) (rows : List t.Carrier) :
    IsCut t rows (cutOutcome ctx t ⟨t, rows⟩) := by
  unfold cutOutcome
  simp only [split?_self, Option.getD_some]
  split
  · exact isCut_cut _ _
  · exact isCut_single _

theorem coalesce_of_isCut (name : String) (h : IsCut t rows parts) :
    coalesce name t parts = .ok ⟨t, rows⟩ := by
  unfold coalesce
  rw [h.concat?]

end Run

end JoinPipeline
