import JoinPipeline.Proofs.Construction
import JoinPipeline.Proofs.Warnings

/-!
# Warnings turned off

A construction in which the warnings of some pipelines are turned off is the same construction: a
builder adds the same node under the same number and gives out the same collection, and what it
reports is the same but for the warnings. So a warning has no effect on anything that is built.
-/

namespace JoinPipeline

open Log (Event Traced)

variable {β : Type} [Basis β]

/-- The options of a pipeline with its warnings turned off, if it is one of those. -/
def Options.silenced (quiet : Bool) (options : Options) : Options :=
  if quiet = true ∧ options.chainCheck = .warning then { chainCheck := .off } else options

theorem Options.level_silenced (quiet : Bool) (options : Options) :
    (options.silenced quiet).chainCheck = .error ↔ options.chainCheck = .error := by
  unfold silenced
  split
  next h => simp [h.2]
  next => rfl

def Pipeline.silenced (quiet : Bool) (pipeline : Pipeline β) : Pipeline β :=
  { pipeline with options := pipeline.options.silenced quiet }

namespace Workspace

variable {α γ : Type} {off : PipelineId → Bool}

/-- The warnings of some pipelines are turned off. -/
def silenced (off : PipelineId → Bool) (w : Workspace β) : Workspace β where
  pipelines := w.pipelines.mapIdx fun place pipeline => pipeline.silenced (off ⟨place⟩)

theorem length_silenced (off : PipelineId → Bool) (w : Workspace β) :
    (w.silenced off).pipelines.length = w.pipelines.length :=
  List.length_mapIdx

theorem graph_silenced (off : PipelineId → Bool) (w : Workspace β) (p : PipelineId) :
    (w.silenced off).graph p = w.graph p := by
  unfold graph pipeline silenced
  rw [List.getD_eq_getElem?_getD, List.getD_eq_getElem?_getD, List.getElem?_mapIdx]
  cases w.pipelines[p.place]? <;> rfl

theorem level_silenced (off : PipelineId → Bool) (w : Workspace β) (p : PipelineId) :
    ((w.silenced off).options p).chainCheck = .error ↔ (w.options p).chainCheck = .error := by
  unfold options pipeline silenced
  rw [List.getD_eq_getElem?_getD, List.getD_eq_getElem?_getD, List.getElem?_mapIdx]
  cases w.pipelines[p.place]? with
  | none => rfl
  | some pipeline => exact pipeline.options.level_silenced _

/-- Where the warnings of a pipeline are turned off, its level is not to warn. -/
theorem level_silenced_ne {w : Workspace β} {p : PipelineId} (hp : p.place < w.pipelines.length)
    (hoff : off p = true) : ((w.silenced off).options p).chainCheck ≠ .warning := by
  have hoptions : (w.silenced off).options p = (w.options p).silenced true := by
    unfold options pipeline silenced
    simp [List.getD_eq_getElem?_getD, hp, hoff, Pipeline.silenced]
  rw [hoptions]
  unfold Options.silenced
  split
  next => simp
  next h => exact fun hlevel => h ⟨rfl, hlevel⟩

theorem setGraph_silenced (off : PipelineId → Bool) (w : Workspace β) (p : PipelineId)
    (g : Graph β) : (w.silenced off).setGraph p g = (w.setGraph p g).silenced off := by
  unfold setGraph silenced
  congr 1
  apply List.ext_getElem?
  intro place
  simp only [List.getElem?_modify, List.getElem?_mapIdx]
  cases w.pipelines[place]? with
  | none => rfl
  | some pipeline => by_cases hp : p.place = place <;> simp [hp, Pipeline.silenced]

theorem addPipeline_silenced (off : PipelineId → Bool) (options : Options) (w : Workspace β) :
    addPipeline (options.silenced (off ⟨w.pipelines.length⟩)) (w.silenced off) =
      ((addPipeline options w).1, (addPipeline options w).2.silenced off) := by
  unfold addPipeline silenced
  simp [Pipeline.silenced]

/-- A builder takes no notice of whether warnings are turned off. -/
def IsUnaware (off : PipelineId → Bool) (m : StateM (Workspace β) α) : Prop :=
  ∀ w, m (w.silenced off) = ((m w).1, (m w).2.silenced off)

theorem isUnaware_pure (a : α) : IsUnaware off (pure a : StateM (Workspace β) α) := by
  intro w
  rfl

theorem IsUnaware.bind {m : StateM (Workspace β) α} {f : α → StateM (Workspace β) γ}
    (hm : IsUnaware off m) (hf : ∀ a, IsUnaware off (f a)) : IsUnaware off (m >>= f) := by
  intro w
  show f (m (w.silenced off)).1 (m (w.silenced off)).2 =
    ((f (m w).1 (m w).2).1, (f (m w).1 (m w).2).2.silenced off)
  rw [hm w]
  exact hf (m w).1 (m w).2

theorem isUnaware_insertNode (p : PipelineId) (node : Node β) :
    IsUnaware off (insertNode p node) := by
  intro w
  show (((w.silenced off).graph p).insert node |>.1,
    (w.silenced off).setGraph p (((w.silenced off).graph p).insert node).2) = _
  rw [graph_silenced, setGraph_silenced]
  rfl

theorem isUnaware_connect (p : PipelineId) (start finish : NodeId) :
    IsUnaware off (connect p start finish : StateM (Workspace β) Unit) := by
  intro w
  show ((), (w.silenced off).setGraph p (((w.silenced off).graph p).connect start finish)) = _
  rw [graph_silenced, setGraph_silenced]
  rfl

end Workspace

open Workspace (IsUnaware isUnaware_pure isUnaware_insertNode isUnaware_connect)

namespace Collection

variable {s t : ElementType β} {off : PipelineId → Bool}

theorem isUnaware_andThen (c : Collection β s) (node : Node β) (isChained : Bool) :
    IsUnaware off (c.andThen node isChained : StateM (Workspace β) (Collection β t)) :=
  (isUnaware_insertNode _ node).bind fun id =>
    (isUnaware_connect c.pipeline c.node id).bind fun _ => isUnaware_pure _

theorem isUnaware_ofRows (p : PipelineId) (t : ElementType β) (rows : List t.Carrier) :
    IsUnaware off (ofRows p t rows) :=
  (isUnaware_insertNode p _).bind fun _ => isUnaware_pure _

theorem collect_silenced (c : Collection β t) (settings : RunSettings β) (w : Workspace β) :
    c.collect settings (w.silenced off) = c.collect settings w := by
  unfold collect
  rw [Workspace.graph_silenced]

end Collection

theorem JoinInput.capture_silenced (off : PipelineId → Bool) (transform : String)
    (w : Workspace β) (inputs : List (JoinInput β)) :
    capture transform (w.silenced off) inputs = capture transform w inputs := by
  induction inputs with
  | nil => rfl
  | cons input rest ih => rw [capture, capture, ih, Workspace.graph_silenced]

/-- Levels that refuse the same inputs let the same inputs pass. -/
theorem JoinInput.result_check_congr {level level' : ChainCheck}
    (h : level' = .error ↔ level = .error) (transform : String) (inputs : List (JoinInput β)) :
    (check transform level' inputs).result = (check transform level inputs).result := by
  by_cases hforbidden : AreForbidden level inputs
  · have hforbidden' : AreForbidden level' inputs := ⟨h.2 hforbidden.1, hforbidden.2⟩
    rw [result_check_of_forbidden hforbidden, result_check_of_forbidden hforbidden']
  · have hallowed' : ¬ AreForbidden level' inputs := fun hforbidden' =>
      hforbidden ⟨h.1 hforbidden'.1, hforbidden'.2⟩
    rw [result_check_of_allowed hforbidden, result_check_of_allowed hallowed']

/-- What is reported apart from warnings. -/
def Log.Traced.remarks {ε α : Type} (x : Traced ε α) : List Event :=
  x.events.filter fun e => !e.isWarning

namespace Workspace

variable (off : PipelineId → Bool) (first : PipelineId) (inputs : List (JoinInput β))
  (step : CoGroupStep β) (w : Workspace β)

theorem result_check_silenced (name : String) :
    (JoinInput.check name ((w.silenced off).options first).chainCheck inputs).result =
      (JoinInput.check name (w.options first).chainCheck inputs).result :=
  JoinInput.result_check_congr (level_silenced off w first) name inputs

theorem result_vet_silenced (name : String) :
    (vet first inputs name (w.silenced off)).result = (vet first inputs name w).result := by
  rw [vet, vet, Traced.result_bind, Traced.result_bind, result_check_silenced,
    JoinInput.capture_silenced]

theorem remarks_vet (name : String) :
    (vet first inputs name w).remarks =
      match (JoinInput.check name (w.options first).chainCheck inputs).result with
      | .ok _ => (JoinInput.capture name w inputs).remarks
      | .error _ => [] := by
  have hcheck : (JoinInput.check name (w.options first).chainCheck inputs).remarks = [] := by
    unfold Traced.remarks
    rw [← JoinInput.warnings_check]
    simp [Traced.warnings]
  unfold Traced.remarks at hcheck ⊢
  rw [vet, Log.Traced.events_bind, List.filter_append, hcheck, List.nil_append]
  cases (JoinInput.check name (w.options first).chainCheck inputs).result <;> rfl

theorem remarks_vet_silenced (name : String) :
    (vet first inputs name (w.silenced off)).remarks = (vet first inputs name w).remarks := by
  rw [remarks_vet, remarks_vet, result_check_silenced, JoinInput.capture_silenced]

/-- A join comes out the same, and adds the same, whether or not it warns. -/
theorem addCoGroup_silenced :
    (addCoGroup first inputs step (w.silenced off)).1.result =
        (addCoGroup first inputs step w).1.result ∧
      (addCoGroup first inputs step (w.silenced off)).2 =
        (addCoGroup first inputs step w).2.silenced off ∧
      (addCoGroup first inputs step (w.silenced off)).1.remarks =
        (addCoGroup first inputs step w).1.remarks := by
  have hresult := result_vet_silenced off first inputs w step.name
  have hremarks := remarks_vet_silenced off first inputs w step.name
  unfold Traced.remarks at hremarks ⊢
  cases hvet : (vet first inputs step.name w).result with
  | error cause =>
    have hvet' := hresult.trans hvet
    obtain ⟨hrefused, hsame⟩ := addCoGroup_refused hvet
    obtain ⟨hrefused', hsame'⟩ := addCoGroup_refused hvet'
    rw [events_addCoGroup_refused hvet, events_addCoGroup_refused hvet']
    exact ⟨hrefused'.trans hrefused.symm, by rw [hsame', hsame], hremarks⟩
  | ok chains =>
    have hvet' := hresult.trans hvet
    obtain ⟨haccepted, hadded⟩ := addCoGroup_accepted hvet
    obtain ⟨haccepted', hadded'⟩ := addCoGroup_accepted hvet'
    have hinsert : insertNode first (.coGroup step chains) (w.silenced off) = _ :=
      isUnaware_insertNode first (.coGroup step chains) w
    rw [events_addCoGroup_accepted hvet, events_addCoGroup_accepted hvet', List.filter_append,
      List.filter_append, hremarks, haccepted, haccepted', hadded, hadded', hinsert,
      graph_silenced]
    exact ⟨rfl, rfl, rfl⟩

end Workspace

namespace Construction

variable {s : Construction β} {t : ElementType β}

/-- The warnings of some pipelines are turned off. What has been given out is the same. -/
def silenced (off : PipelineId → Bool) (s : Construction β) : Construction β :=
  { s with workspace := s.workspace.silenced off }

def Given.silenced (off : PipelineId → Bool) (x : s.Given t) : (s.silenced off).Given t :=
  ⟨x.handle, x.lineage, x.mem⟩

/-- The same call where warnings are turned off, also those of a pipeline that it makes. -/
def Call.silenced (off : PipelineId → Bool) : s.Call → (s.silenced off).Call
  | .pipeline options => .pipeline (options.silenced (off ⟨s.workspace.pipelines.length⟩))
  | .source p known t rows =>
    .source p (Nat.lt_of_lt_of_eq known (s.workspace.length_silenced off).symm) t rows
  | .each x e => .each (x.silenced off) e
  | .groupByKey x => .groupByKey (x.silenced off)
  | .joinTwo g name kind x y => .joinTwo g name kind (x.silenced off) (y.silenced off)
  | .joinThree g name kind x y z =>
    .joinThree g name kind (x.silenced off) (y.silenced off) (z.silenced off)

theorem issue_silenced (off : PipelineId → Bool) (lineage : Lineage β t)
    {m : StateM (Workspace β) (Collection β t)} (hm : IsUnaware off m) :
    (s.silenced off).issue lineage (m (s.workspace.silenced off)) =
      (s.issue lineage (m s.workspace)).silenced off := by
  rw [hm]
  rfl

theorem issueJoin_silenced (off : PipelineId → Bool) (first : PipelineId)
    (inputs : List (JoinInput β)) (step : CoGroupStep β) (lineage : Lineage β step.output) :
    (s.silenced off).issueJoin lineage
        (Workspace.addCoGroup first inputs step (s.workspace.silenced off)) =
      (s.issueJoin lineage (Workspace.addCoGroup first inputs step s.workspace)).silenced off := by
  obtain ⟨hresult, hworkspace, _⟩ :=
    Workspace.addCoGroup_silenced off first inputs step s.workspace
  unfold issueJoin
  rw [hresult, hworkspace]
  cases (Workspace.addCoGroup first inputs step s.workspace).1.result <;> rfl

/-- A call leads to the same construction, whether or not warnings are turned off. -/
theorem perform_silenced (off : PipelineId → Bool) (c : s.Call) :
    (s.silenced off).perform (c.silenced off) = (s.perform c).silenced off := by
  cases c with
  | pipeline options =>
    show ({ s.silenced off with
      workspace := (Workspace.addPipeline _ (s.workspace.silenced off)).2 } : Construction β) = _
    rw [Workspace.addPipeline_silenced]
    rfl
  | source p known t rows => exact issue_silenced off _ (Collection.isUnaware_ofRows p t rows)
  | each x e =>
    refine issue_silenced off (x.lineage.each e) ?_
    rw [e.build_eq]
    exact x.handle.isUnaware_andThen _ _
  | groupByKey x => exact issue_silenced off _ (x.handle.isUnaware_andThen _ _)
  | joinTwo g name kind x y => exact issueJoin_silenced off _ _ (g.pairStep name kind _ _ _) _
  | joinThree g name kind x y z =>
    exact issueJoin_silenced off _ _ (g.tripleStep name kind _ _ _ _) _

end Construction

end JoinPipeline
