import JoinPipeline.Proofs.Guards
import JoinPipeline.Proofs.Uniformity

/-!
# Numbers of partitions

A root gives at least one partition and at most as many as the run is asked for. Behind it an
element-wise stage keeps their number and a group-by-key stage leaves a single one, so the bounds
hold at every place of a chain, and of the chains inside its co-groups, whatever the rows are. A
run in one go has one partition everywhere.
-/

namespace JoinPipeline

theorem length_of_mapM_eq_ok {ε α γ : Type} {f : α → Except ε γ} {l : List α} {out : List γ}
    (h : l.mapM f = .ok out) : out.length = l.length := by
  induction l generalizing out with
  | nil =>
    cases h
    rfl
  | cons a l ih =>
    obtain ⟨b, rest, _, hrest, rfl⟩ := mapM_cons_eq_ok.1 h
    rw [List.length_cons, List.length_cons, ih hrest]

variable {β : Type} [Basis β] {ctx : RunContext β} {parts out : List (Partition β)}

theorem ElementType.length_of_split? {t : ElementType β} {n : Nat} {p : Partition β}
    (h : t.split? n p = some parts) : parts.length ≤ max n 1 := by
  obtain ⟨rows, _, rfl⟩ := Option.map_eq_some_iff.1 h
  rw [List.length_map]
  exact (isEvenCut_cut n rows).length_le

namespace Run

/-- The rows of a source bound the number of pieces that is asked for, but never raise it. -/
theorem length_of_source {element : ElementType β} {payload : Partition β}
    (h : source ctx element payload = .ok parts) : parts.length ≤ max 1 ctx.partitions := by
  dsimp only [source] at h
  split at h
  next pieces hsplit =>
    cases h
    have hlength := ElementType.length_of_split? hsplit
    omega
  next => cases h

theorem length_cutOutcome (ctx : RunContext β) (output : ElementType β) (outcome : Partition β) :
    (cutOutcome ctx output outcome).length ≤ max 1 ctx.partitions := by
  unfold cutOutcome
  dsimp only
  split
  · cases hsplit : output.split? (min ctx.partitions ((output.count? outcome).getD 0)) outcome with
    | none => exact Nat.le_max_left _ _
    | some pieces =>
      have hlength := ElementType.length_of_split? hsplit
      rw [Option.getD_some]
      omega
  · exact Nat.le_max_left _ _

theorem length_of_root {node : Node β} (h : (root ctx node).result = .ok parts) :
    parts.length ≤ max 1 ctx.partitions := by
  cases node with
  | source element payload => exact length_of_source h
  | coGroup step inputs =>
    rw [root, Log.Traced.result_bind] at h
    obtain ⟨ps, _, hgroup⟩ := bind_eq_ok.1 h
    rw [coGroup, Log.Traced.result_bind] at hgroup
    obtain ⟨outcome, _, hcut⟩ := bind_eq_ok.1 hgroup
    cases hcut
    exact length_cutOutcome _ _ _
  | stateless ops => cases h
  | groupByKey step => cases h

theorem length_of_stateless {ops : List (Op β)}
    (h : (stage ctx parts (.stateless ops)).result = .ok out) : out.length = parts.length := by
  rw [result_stage_stateless] at h
  exact length_of_mapM_eq_ok h

theorem eq_singleton_of_groupByKey {step : GroupStep β}
    (h : (stage ctx parts (.groupByKey step)).result = .ok out) : ∃ merged, out = [merged] := by
  rw [result_stage_groupByKey] at h
  obtain ⟨_, _, hmerge⟩ := bind_eq_ok.1 h
  obtain ⟨merged, _, hout⟩ := bind_eq_ok.1 hmerge
  cases hout
  exact ⟨merged, rfl⟩

/-- A stage never makes more partitions out of what is within a bound. -/
theorem length_of_stage {node : Node β} {most : Nat} (hmost : 1 ≤ most)
    (hparts : parts.length ≤ most) (h : (stage ctx parts node).result = .ok out) :
    out.length ≤ most := by
  cases node with
  | stateless ops => exact (length_of_stateless h).trans_le hparts
  | groupByKey step =>
    obtain ⟨merged, rfl⟩ := eq_singleton_of_groupByKey h
    exact hmost
  | source element payload => cases h
  | coGroup step inputs => cases h

theorem length_of_stages {nodes : List (Node β)} {most : Nat} (hmost : 1 ≤ most)
    (hparts : parts.length ≤ most) (h : (stages ctx parts nodes).result = .ok out) :
    out.length ≤ most := by
  induction nodes generalizing ctx parts with
  | nil =>
    cases h
    exact hparts
  | cons node rest ih =>
    rw [result_stages_cons] at h
    obtain ⟨mid, hstage, hrest⟩ := bind_eq_ok.1 h
    exact ih (length_of_stage hmost hparts hstage) hrest

theorem length_of_chain {chain : Chain β} (h : (Run.chain ctx chain).result = .ok parts) :
    parts.length ≤ max 1 ctx.partitions := by
  cases chain with
  | nil => cases h
  | cons node rest =>
    rw [result_chain_cons] at h
    obtain ⟨first, hroot, hstages⟩ := bind_eq_ok.1 h
    exact length_of_stages (Nat.le_max_left _ _) (length_of_root hroot) hstages

/-- A run through a stage is one up to it, and then the stage. -/
theorem exists_of_chain_at {before after : Chain β} {node : Node β} (hnode : node.isRoot = false)
    (h : (chain ctx (before ++ node :: after)).result = .ok parts) :
    ∃ (ctx' : RunContext β) (mid out : List (Partition β)),
      (chain ctx before).result = .ok mid ∧ (stage ctx' mid node).result = .ok out ∧
        (chain ctx (before ++ [node])).result = .ok out := by
  have hne : before ≠ [] := by
    rintro rfl
    rw [List.nil_append, result_chain_cons] at h
    obtain ⟨_, hroot, _⟩ := bind_eq_ok.1 h
    cases node with
    | source | coGroup => cases hnode
    | stateless | groupByKey => cases hroot
  obtain ⟨ctx', happend⟩ := result_chain_append ctx hne
  rw [happend] at h
  obtain ⟨mid, hmid, hstages⟩ := bind_eq_ok.1 h
  rw [result_stages_cons] at hstages
  obtain ⟨out, hout, _⟩ := bind_eq_ok.1 hstages
  refine ⟨ctx', mid, out, hmid, hout, ?_⟩
  rw [happend, hmid]
  exact (result_stages_singleton _ _ _).trans hout

end Run

theorem Chain.IsBuilt.areOf {chain : Chain β} (h : chain.IsBuilt)
    (hrun : (Run.chain ctx chain).result = .ok parts) : ∃ t, AreOf t parts := by
  have hsame := Run.chain_sameTypes h (fun node hnode => (h node hnode).isUniform) ctx ctx
  obtain ⟨_, _, t, hparts, _⟩ := hsame.of_ok hrun
  exact ⟨t, hparts⟩

/-- Builders make nothing but nodes of the known forms, whatever types they mismatch, and a plan is a
chain of these. Wherever a run of such a chain succeeds, it gives at least one partition and at most
as many as are asked for, all of one type; a run in one go gives exactly one. There is exactly one
partition right behind a group-by-key stage, and as many behind an element-wise stage as in front of
it. The chains inside co-groups, at any depth, are of the same kind. -/
theorem run_partitions :
    (∀ w : Workspace β, w.Arises → (∀ node, w.HasNode node → node.IsBuilt) ∧
      ∀ p terminal plan, (w.graph p).plan terminal = .ok plan → plan.IsBuilt) ∧
    (∀ settings : RunSettings β, settings.mode = .sequential → settings.context.partitions = 1) ∧
    ∀ chain : Chain β, chain.IsBuilt →
      (∀ step inputs, chain.Contains (.coGroup step inputs) →
        ∀ input ∈ inputs, Chain.IsBuilt input) ∧
      ∀ (ctx : RunContext β) (parts : List (Partition β)),
        (Run.chain ctx chain).result = .ok parts →
          (1 ≤ parts.length ∧ parts.length ≤ max 1 ctx.partitions) ∧
          (∃ t, ∀ p ∈ parts, p.element = t) ∧
          (ctx.partitions ≤ 1 → parts.length = 1) ∧
          (∀ before step after, chain = before ++ .groupByKey step :: after →
            ∃ merged, (Run.chain ctx (before ++ [.groupByKey step])).result = .ok [merged]) ∧
          ∀ before ops after, chain = before ++ .stateless ops :: after →
            ∃ mid out, (Run.chain ctx before).result = .ok mid ∧
              (Run.chain ctx (before ++ [.stateless ops])).result = .ok out ∧
              out.length = mid.length := by
  refine ⟨fun w hw => ⟨?_, fun p _ _ => (hw.isBuilt p).plan⟩, ?_, fun chain hchain => ⟨?_, ?_⟩⟩
  · rintro node ⟨p, id, hmem⟩
    exact hw.isBuilt p _ hmem
  · rintro ⟨_, _, _⟩ rfl
    rfl
  · intro step inputs hcontains
    cases hchain.of_contains hcontains with
    | coGroup _ hinputs => exact hinputs
  · intro ctx parts hrun
    obtain ⟨t, hparts⟩ := hchain.areOf hrun
    have hpos : 1 ≤ parts.length := List.length_pos_iff.2 hparts.ne_nil
    have hmost := Run.length_of_chain hrun
    refine ⟨⟨hpos, hmost⟩, ⟨t, hparts.element⟩, fun hone => by omega, ?_, ?_⟩
    · rintro before step after rfl
      obtain ⟨_, _, out, _, hstage, hout⟩ := Run.exists_of_chain_at rfl hrun
      obtain ⟨merged, rfl⟩ := Run.eq_singleton_of_groupByKey hstage
      exact ⟨merged, hout⟩
    · rintro before ops after rfl
      obtain ⟨_, mid, out, hmid, hstage, hout⟩ := Run.exists_of_chain_at rfl hrun
      exact ⟨mid, out, hmid, hout, Run.length_of_stateless hstage⟩

section Sample

open Construction (sampleList)

/-- The source of the sample, as a chain. -/
def sampleSource : Chain Atom :=
  let k : ElementType Atom := .base .int64
  [.source (.pair k k) ⟨.pair k k, sampleList⟩]

/-- A join of the sample with itself, joined with the sample once more. -/
def rejoined : Chain Atom :=
  let k : ElementType Atom := .base .int64
  [.coGroup (Grouper.firstMet.pairStep "left" .left k (.pair k k) k)
    [[.coGroup (Grouper.firstMet.pairStep "inner" .inner k k k) [sampleSource, sampleSource]],
      sampleSource]]

/-- A filter that keeps everything, and a grouping by key. -/
def regrouping : Chain Atom :=
  let k : ElementType Atom := .base .int64
  let joined : ElementType Atom := .pair (.pair k k) (.option k)
  [.stateless [.filter (.pair k joined) fun _ => true], .groupByKey (.byKey k joined)]

theorem isBuilt_sampleSource : sampleSource.IsBuilt :=
  List.forall_mem_singleton.2 (.source _ _)

theorem isBuilt_regrouped : (rejoined ++ regrouping).IsBuilt := by
  have hsources : ∀ input ∈ [sampleSource, sampleSource], Chain.IsBuilt input := by
    simp [isBuilt_sampleSource]
  have hinner : Node.IsBuilt (.coGroup (Grouper.firstMet.pairStep "inner" .inner (.base Atom.int64)
      (.base .int64) (.base .int64)) [sampleSource, sampleSource]) :=
    .coGroup (.joinTwo ..) hsources
  refine List.forall_mem_append.2 ⟨List.forall_mem_singleton.2 (.coGroup (.joinTwo ..) ?_), ?_⟩
  · exact List.forall_mem_cons.2 ⟨List.forall_mem_singleton.2 hinner,
      List.forall_mem_singleton.2 isBuilt_sampleSource⟩
  · exact List.forall_mem_cons.2 ⟨.stateless (List.forall_mem_singleton.2 (.filter _ _)),
      List.forall_mem_singleton.2 (.groupByKey (.byKey _ _))⟩

theorem exists_regrouped (ctx : RunContext Atom) :
    ∃ parts, (Run.chain ctx (rejoined ++ regrouping)).result = .ok parts := by
  have hsource : ∀ ctx' : RunContext Atom, Run.Gives ctx' sampleSource
      (.pair (.base .int64) (.base .int64)) sampleList := fun ctx' => Run.gives_source ctx' _ _
  have hinner := Run.gives_joinTwo .firstMet "inner" .inner (hsource ((ctx.below 1).below 1))
    (hsource ((ctx.below 1).below 2))
  have houter := Run.gives_joinTwo .firstMet "left" .left hinner (hsource (ctx.below 2))
  obtain ⟨_, _, parts, hparts, _⟩ := (houter.each (.filter fun _ => true)).groupByKey
  exact ⟨parts, hparts⟩

theorem run_partitions_regrouped :
    (∀ plan, ((misread [1, 2, 3]).graph ⟨0⟩).plan ⟨1⟩ = .ok plan → plan.IsBuilt) ∧
    ∃ joined filtered merged,
      (Run.chain { partitions := 3, isParallel := true } rejoined).result = .ok joined ∧
      (1 ≤ joined.length ∧ joined.length ≤ 3) ∧ filtered.length = joined.length ∧
      (Run.chain { partitions := 3, isParallel := true } (rejoined ++ regrouping.take 1)).result =
        .ok filtered ∧
      (Run.chain { partitions := 3, isParallel := true } (rejoined ++ regrouping)).result =
        .ok [merged] := by
  obtain ⟨hmade, _, hchains⟩ := @run_partitions Atom _
  obtain ⟨parts, hparts⟩ := exists_regrouped { partitions := 3, isParallel := true }
  obtain ⟨_, _, _, hmerged, hkept⟩ := (hchains _ isBuilt_regrouped).2 _ _ hparts
  obtain ⟨joined, filtered, hjoined, hfiltered, hlength⟩ := hkept rejoined _ _ rfl
  obtain ⟨merged, hgrouped⟩ := hmerged (rejoined ++ regrouping.take 1) _ [] rfl
  have hrejoined : Chain.IsBuilt rejoined := (List.forall_mem_append.1 isBuilt_regrouped).1
  obtain ⟨hbounds, _⟩ := (hchains _ hrejoined).2 _ _ hjoined
  exact ⟨(hmade _ (arises_misread [1, 2, 3])).2 ⟨0⟩ ⟨1⟩, joined, filtered, merged, hjoined, hbounds,
    hlength, hfiltered, hgrouped⟩

end Sample

end JoinPipeline
