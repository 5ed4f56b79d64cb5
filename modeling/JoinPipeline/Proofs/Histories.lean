import JoinPipeline.Proofs.Chaining
import JoinPipeline.Proofs.Silence

/-!
# Histories

A history is any number of steps, each of them a call of a builder or a run, over any number of
pipelines with any options. What it warns of can be told from how collections were built: there is
one warning for every join that adds to a pipeline at the level of that name and has an input whose
last step that is not element-wise is a join. A join that is warned of builds what it would build
without the warning, and a history with warnings turned off is the same history.
-/

namespace JoinPipeline

open Log (Event Traced)

variable {β : Type} [Basis β]

def Issued.asInput (i : Issued β) : JoinInput β := i.handle.asInput

namespace Construction

variable {s s' : Construction β} {t : ElementType β}

def Given.toIssued (x : s.Given t) : Issued β := ⟨t, x.handle, x.lineage⟩

/-- A join among the calls: the co-group that it is to add, its first input and the others, and the
lineage of what it gives out. -/
structure JoinCall (β : Type) [Basis β] where
  step : CoGroupStep β
  first : Issued β
  others : List (Issued β)
  lineage : Lineage β step.output

def Call.join? : s.Call → Option (JoinCall β)
  | .joinTwo g name kind x y =>
    some ⟨g.pairStep name kind _ _ _, x.toIssued, [y.toIssued],
      .joinTwo g name kind x.lineage y.lineage⟩
  | .joinThree g name kind x y z =>
    some ⟨g.tripleStep name kind _ _ _ _, x.toIssued, [y.toIssued, z.toIssued],
      .joinThree g name kind x.lineage y.lineage z.lineage⟩
  | _ => none

namespace JoinCall

/-- A join adds to the pipeline of its first input. -/
def pipeline (j : JoinCall β) : PipelineId := j.first.handle.pipeline

def inputs (j : JoinCall β) : List (Issued β) := j.first :: j.others

/-- What the join gives, in a workspace. -/
def build (j : JoinCall β) : Joining β j.step.output :=
  Workspace.addCoGroup j.pipeline (j.inputs.map Issued.asInput) j.step

/-- The number of inputs whose last step that is not element-wise is a join. -/
def chainedInputs (j : JoinCall β) : Nat := j.inputs.countP fun i => i.lineage.comesOutOfCoGroup

/-- The join adds to a pipeline at the level that warns, and has such an input. -/
def IsWarnedOf (j : JoinCall β) (w : Workspace β) : Prop :=
  (w.options j.pipeline).chainCheck = .warning ∧
    ∃ i ∈ j.inputs, i.lineage.comesOutOfCoGroup = true

instance (j : JoinCall β) (w : Workspace β) : Decidable (j.IsWarnedOf w) :=
  inferInstanceAs (Decidable (_ ∧ _))

end JoinCall

/-- What a call reports. Builders other than joins report nothing. -/
def Call.events : s.Call → List Event
  | .joinTwo g name kind x y => (g.joinTwo name kind x.handle y.handle s.workspace).1.events
  | .joinThree g name kind x y z =>
    (g.joinThree name kind x.handle y.handle z.handle s.workspace).1.events
  | _ => []

/-- What is done next: a call of a builder, a run of what leads to a node of a pipeline, or a run
of what leads to a collection. -/
inductive Action (s : Construction β) : Type 1 where
  | call (c : s.Call)
  | run (p : PipelineId) (terminal : NodeId) (t : ElementType β) (settings : RunSettings β)
  | collect {t : ElementType β} (x : s.Given t) (settings : RunSettings β)
  | collectSorted {t : ElementType β} (x : s.Given t) (settings : RunSettings β)

namespace Action

/-- The construction behind an action. Runs leave it as it is. -/
def next : s.Action → Construction β
  | .call c => s.perform c
  | _ => s

def join? : s.Action → Option (JoinCall β)
  | .call c => c.join?
  | _ => none

/-- What an action reports, by whichever threads. -/
def events : s.Action → List Event
  | .call c => c.events
  | .run p terminal t settings => ((s.workspace.graph p).collect settings terminal t).events
  | .collect x settings => (x.handle.collect settings s.workspace).events
  | .collectSorted x settings => (x.handle.collectSorted settings s.workspace).events

/-- The action is a join to be warned of. -/
def isWarnedOf (a : s.Action) : Bool :=
  match a.join? with
  | some j => decide (j.IsWarnedOf s.workspace)
  | none => false

/-- The same action where warnings are turned off. -/
def silenced (off : PipelineId → Bool) : s.Action → (s.silenced off).Action
  | .call c => .call (c.silenced off)
  | .run p terminal t settings => .run p terminal t settings
  | .collect x settings => .collect (x.silenced off) settings
  | .collectSorted x settings => .collectSorted (x.silenced off) settings

end Action

/-- The steps that have led to a construction. -/
inductive History : Construction β → Type 1 where
  | start : History {}
  | step {s : Construction β} (before : History s) (a : s.Action) : History a.next

namespace History

/-- A history with a call of a builder behind it. -/
def call (h : History s) (c : s.Call) : History (s.perform c) := step h (.call c)

/-- The actions one after another, each with the construction it was taken in. -/
def steps {s : Construction β} : History s → List (Σ s : Construction β, s.Action)
  | start => []
  | step before a => before.steps ++ [⟨_, a⟩]

def events (h : History s) : List Event := h.steps.flatMap fun a => a.2.events

@[simp] theorem steps_step (h : History s) (a : s.Action) :
    (step h a).steps = h.steps ++ [⟨s, a⟩] := rfl

@[simp] theorem events_step (h : History s) (a : s.Action) :
    (step h a).events = h.events ++ a.events := by
  simp [events]

end History

section Reached

theorem Action.leads (h : Leads s s') (a : s'.Action) : Leads s a.next := by
  cases a with
  | call c => exact .call h c
  | run | collect | collectSorted => exact h

theorem History.leads (h : History s) : Leads {} s := by
  induction h with
  | start => exact .refl _
  | step before a ih => exact a.leads ih

/-- Every action was taken in a construction to which calls had led. -/
theorem History.leads_of_mem (h : History s) : ∀ a ∈ h.steps, Leads {} a.1 := by
  induction h with
  | start => simp [steps]
  | step before a ih =>
    intro b hb
    rcases List.mem_append.1 hb with hold | hnew
    · exact ih b hold
    · rw [List.mem_singleton.1 hnew]
      exact before.leads

end Reached

section Joins

variable {c : s.Call} {j : JoinCall β}

/-- A join is performed by building what it is to add. -/
theorem perform_of_join (hj : c.join? = some j) :
    s.perform c = s.issueJoin j.lineage (j.build s.workspace) := by
  cases c with
  | joinTwo => cases hj; rfl
  | joinThree => cases hj; rfl
  | pipeline | source | each | groupByKey => cases hj

theorem Call.events_of_join (hj : c.join? = some j) :
    c.events = (j.build s.workspace).1.events := by
  cases c with
  | joinTwo => cases hj; rfl
  | joinThree => cases hj; rfl
  | pipeline | source | each | groupByKey => cases hj

theorem Call.events_of_no_join (hj : c.join? = none) : c.events = [] := by
  cases c with
  | joinTwo | joinThree => cases hj
  | pipeline | source | each | groupByKey => rfl

/-- The inputs of a join have been given out. -/
theorem Call.issued_of_join (hj : c.join? = some j) : ∀ i ∈ j.inputs, i ∈ s.issued := by
  cases c with
  | joinTwo g name kind x y =>
    cases hj
    simpa [JoinCall.inputs, Given.toIssued] using ⟨x.mem, y.mem⟩
  | joinThree g name kind x y z =>
    cases hj
    simpa [JoinCall.inputs, Given.toIssued] using ⟨x.mem, y.mem, z.mem⟩
  | pipeline | source | each | groupByKey => cases hj

theorem areIssued_inputs (hj : c.join? = some j) :
    s.AreIssued (j.inputs.map Issued.asInput) := by
  intro input hinput
  obtain ⟨i, hi, rfl⟩ := List.mem_map.1 hinput
  exact ⟨i, Call.issued_of_join hj i hi, rfl⟩

/-- The marks of the inputs are told by their lineages. -/
theorem IsMarked.countP_inputs (hm : s.IsMarked) (hj : c.join? = some j) :
    (j.inputs.map Issued.asInput).countP JoinInput.isChained = j.chainedInputs := by
  rw [List.countP_map]
  refine List.countP_congr fun i hi => ?_
  have hmark := hm i (Call.issued_of_join hj i hi)
  exact iff_of_eq (congrArg (· = true) hmark)

theorem IsMarked.areWarnedOf_iff (hm : s.IsMarked) (hj : c.join? = some j) :
    JoinInput.AreWarnedOf (s.workspace.options j.pipeline).chainCheck
      (j.inputs.map Issued.asInput) ↔ j.IsWarnedOf s.workspace := by
  have hcount := hm.countP_inputs hj
  have hmarked : (∃ input ∈ j.inputs.map Issued.asInput, input.isChained = true) ↔
      ∃ i ∈ j.inputs, i.lineage.comesOutOfCoGroup = true := by
    rw [← List.countP_pos_iff, ← List.countP_pos_iff, hcount]
    rfl
  exact and_congr_right fun _ => hmarked

/-- A join that is to be warned of gives one warning, with its name and the number of inputs. -/
theorem IsMarked.warnings_of_warned (hm : s.IsMarked) (hj : c.join? = some j)
    (hwarned : j.IsWarnedOf s.workspace) :
    (j.build s.workspace).1.warnings = [.chained j.step.name j.chainedInputs] := by
  rw [JoinCall.build, Workspace.warnings_addCoGroup,
    JoinInput.events_check_of_warned ((hm.areWarnedOf_iff hj).2 hwarned), hm.countP_inputs hj]

theorem IsMarked.warnings_of_not_warned (hm : s.IsMarked) (hj : c.join? = some j)
    (hunwarned : ¬ j.IsWarnedOf s.workspace) : (j.build s.workspace).1.warnings = [] := by
  rw [JoinCall.build, Workspace.warnings_addCoGroup]
  exact JoinInput.events_check_of_not_warned (fun h => hunwarned ((hm.areWarnedOf_iff hj).1 h)) _

/-- A join that is warned of adds its co-group and gives out its collection all the same. -/
theorem Leads.builds_of_warned (h : Leads {} s) (hj : c.join? = some j)
    (hwarned : j.IsWarnedOf s.workspace) :
    (∃ chains, s.workspace.AddsNode j.pipeline (.coGroup j.step chains)
      (s.perform c).workspace) ∧
    (s.perform c).issued =
      ⟨j.step.output, ⟨j.pipeline, ⟨(s.workspace.graph j.pipeline).nextId⟩, true⟩, j.lineage⟩ ::
        s.issued := by
  have hsound := h.isSound isSound_empty
  have hallowed : ¬ JoinInput.AreForbidden (s.workspace.options j.pipeline).chainCheck
      (j.inputs.map Issued.asInput) := by
    intro hforbidden
    cases hwarned.1.symm.trans hforbidden.1
  have hknown := hsound.known j.first (Call.issued_of_join hj _ List.mem_cons_self)
  obtain ⟨chains, _, hvet⟩ := hsound.exists_vetted (h.isMarked isMarked_empty)
    (areIssued_inputs hj) hallowed j.step.name
  obtain ⟨hresult, hadded⟩ := Workspace.addCoGroup_accepted hvet
  rw [perform_of_join hj]
  refine ⟨⟨chains, ?_⟩, ?_⟩
  · rw [workspace_issueJoin, JoinCall.build, hadded]
    exact Workspace.addsNode_insertNode hknown _
  · unfold issueJoin JoinCall.build
    rw [hresult]
    rfl

end Joins

namespace Action

variable {j : JoinCall β}

theorem isWarnedOf_iff (a : s.Action) :
    a.isWarnedOf = true ↔ ∃ j, a.join? = some j ∧ j.IsWarnedOf s.workspace := by
  unfold isWarnedOf
  cases a.join? <;> simp

theorem issued_of_join {a : s.Action} (hj : a.join? = some j) : ∀ i ∈ j.inputs, i ∈ s.issued := by
  cases a with
  | call c => exact Call.issued_of_join hj
  | run | collect | collectSorted => cases hj

theorem warnings_of_warned (h : Leads {} s) {a : s.Action} (hj : a.join? = some j)
    (hwarned : j.IsWarnedOf s.workspace) :
    a.events.filter Event.isWarning = [.chained j.step.name j.chainedInputs] := by
  cases a with
  | call c =>
    show c.events.filter Event.isWarning = _
    rw [Call.events_of_join hj]
    exact (h.isMarked isMarked_empty).warnings_of_warned hj hwarned
  | run | collect | collectSorted => cases hj

/-- No other step warns of anything. -/
theorem warnings_of_not_warned (h : Leads {} s) {a : s.Action} (hunwarned : a.isWarnedOf = false) :
    a.events.filter Event.isWarning = [] := by
  cases a with
  | call c =>
    show c.events.filter Event.isWarning = _
    cases hj : c.join? with
    | none =>
      rw [Call.events_of_no_join hj]
      rfl
    | some j =>
      have hnot : ¬ j.IsWarnedOf s.workspace := by
        intro hwarned
        have htrue := (isWarnedOf_iff (.call c)).2 ⟨j, hj, hwarned⟩
        exact Bool.false_ne_true (hunwarned.symm.trans htrue)
      rw [Call.events_of_join hj]
      exact (h.isMarked isMarked_empty).warnings_of_not_warned hj hnot
  | run p terminal t settings => exact Graph.isQuiet_collect _ settings terminal t
  | collect x settings => exact x.handle.isQuiet_collect settings s.workspace
  | collectSorted x settings => exact x.handle.isQuiet_collectSorted settings s.workspace

/-- A step warns once if it is a join to be warned of, and not at all otherwise. -/
theorem countP_events (h : Leads {} s) (a : s.Action) :
    a.events.countP Event.isWarning = if a.isWarnedOf then 1 else 0 := by
  rw [List.countP_eq_length_filter]
  cases hwarned : a.isWarnedOf with
  | true =>
    obtain ⟨j, hj, hjoin⟩ := a.isWarnedOf_iff.1 hwarned
    rw [warnings_of_warned h hj hjoin]
    rfl
  | false =>
    rw [warnings_of_not_warned h hwarned]
    rfl

section Silenced

variable (off : PipelineId → Bool) (a : s.Action)

theorem join?_silenced : (a.silenced off).join? = a.join? := by
  cases a with
  | call c => cases c <;> rfl
  | run | collect | collectSorted => rfl

theorem next_silenced : (a.silenced off).next = a.next.silenced off := by
  cases a with
  | call c => exact perform_silenced off c
  | run | collect | collectSorted => rfl

/-- A step reports the same but for warnings, whether or not these are turned off. -/
theorem remarks_silenced :
    (a.silenced off).events.filter (fun e => !e.isWarning) =
      a.events.filter fun e => !e.isWarning := by
  cases a with
  | call c =>
    have hjoin : (c.silenced off).join? = c.join? := join?_silenced off (.call c)
    show (c.silenced off).events.filter _ = c.events.filter _
    cases hj : c.join? with
    | none => rw [Call.events_of_no_join hj, Call.events_of_no_join (hjoin.trans hj)]
    | some j =>
      rw [Call.events_of_join hj, Call.events_of_join (hjoin.trans hj)]
      exact (Workspace.addCoGroup_silenced off j.pipeline _ j.step s.workspace).2.2
  | run p terminal t settings =>
    have hsame : (s.workspace.silenced off).graph p = s.workspace.graph p :=
      s.workspace.graph_silenced off p
    exact congrArg (fun g => (Graph.collect g settings terminal t).events.filter _) hsame
  | @collect t x settings =>
    have hsame : x.handle.collect settings (s.workspace.silenced off) =
        x.handle.collect settings s.workspace := x.handle.collect_silenced settings s.workspace
    exact congrArg (fun run => (Traced.events run).filter _) hsame
  | @collectSorted t x settings =>
    have hsame : x.handle.collect settings (s.workspace.silenced off) =
        x.handle.collect settings s.workspace := x.handle.collect_silenced settings s.workspace
    exact congrArg (fun run => (Traced.events (t.sort <$> run)).filter _) hsame

/-- Where all warnings are turned off, no join is warned of. -/
theorem isWarnedOf_silenced (h : Leads {} s) (hoff : ∀ p, off p = true) :
    (a.silenced off).isWarnedOf = false := by
  by_contra hwarned
  rw [Bool.not_eq_false] at hwarned
  obtain ⟨j, hj, hlevel, _⟩ := (a.silenced off).isWarnedOf_iff.1 hwarned
  rw [join?_silenced] at hj
  have hknown := (h.isSound isSound_empty).known j.first (issued_of_join hj _ List.mem_cons_self)
  exact Workspace.level_silenced_ne hknown (hoff j.pipeline) hlevel

end Silenced

end Action

namespace History

/-- As many warnings as joins to be warned of. -/
theorem countP_events (h : History s) :
    h.events.countP Event.isWarning = h.steps.countP fun a => a.2.isWarnedOf := by
  induction h with
  | start => rfl
  | step before a ih =>
    have hstep := Action.countP_events before.leads a
    simp [List.countP_append, ih, hstep, List.countP_singleton]

/-- The same history with warnings turned off. -/
theorem exists_silenced (h : History s) (off : PipelineId → Bool) :
    ∃ h' : History (s.silenced off),
      h'.steps = h.steps.map fun a => ⟨a.1.silenced off, a.2.silenced off⟩ := by
  induction h with
  | start => exact ⟨.start, rfl⟩
  | step before a ih =>
    obtain ⟨before', hbefore⟩ := ih
    rw [← a.next_silenced off]
    exact ⟨.step before' (a.silenced off), by simp [hbefore]⟩

variable {off : PipelineId → Bool} {h : History s} {h' : History (s.silenced off)}

theorem remarks_of_silenced
    (hsame : h'.steps = h.steps.map fun a => ⟨a.1.silenced off, a.2.silenced off⟩) :
    h'.events.filter (fun e => !e.isWarning) = h.events.filter fun e => !e.isWarning := by
  unfold events
  rw [List.filter_flatMap, List.filter_flatMap, hsame, List.flatMap_map]
  exact congrArg (List.flatMap · h.steps) (funext fun a => a.2.remarks_silenced off)

theorem countP_events_of_silenced
    (hsame : h'.steps = h.steps.map fun a => ⟨a.1.silenced off, a.2.silenced off⟩)
    (hoff : ∀ p, off p = true) : h'.events.countP Event.isWarning = 0 := by
  rw [h'.countP_events, hsame, List.countP_map, List.countP_eq_zero]
  intro a ha
  have hunwarned := a.2.isWarnedOf_silenced off (h.leads_of_mem a ha) hoff
  simp [hunwarned]

end History

/-- A history warns as often as it joins what is to be warned of. Each of these joins warns once,
with its name and the number of inputs that come out of a co-group, and it adds its co-group and
gives out its collection all the same; no other step warns. The same history with the warnings of
any pipelines turned off reports the same otherwise, gives out the same collections, and runs of
these are the same. -/
theorem warnings_match_joins (h : History s) :
    h.events.countP Event.isWarning = h.steps.countP (fun a => a.2.isWarnedOf) ∧
    (∀ (s' : Construction β) (a : s'.Action), ⟨s', a⟩ ∈ h.steps →
      (a.isWarnedOf = false → a.events.filter Event.isWarning = []) ∧
      ∀ j, a.join? = some j → j.IsWarnedOf s'.workspace →
        a.events.filter Event.isWarning = [.chained j.step.name j.chainedInputs] ∧
        (∃ chains, s'.workspace.AddsNode j.pipeline (.coGroup j.step chains)
          a.next.workspace) ∧
        a.next.issued = ⟨j.step.output,
          ⟨j.pipeline, ⟨(s'.workspace.graph j.pipeline).nextId⟩, true⟩, j.lineage⟩ ::
            s'.issued) ∧
    ∀ off : PipelineId → Bool, ∃ h' : History (s.silenced off),
      h'.steps = h.steps.map (fun a => ⟨a.1.silenced off, a.2.silenced off⟩) ∧
      h'.events.filter (fun e => !e.isWarning) = h.events.filter (fun e => !e.isWarning) ∧
      ((∀ p, off p = true) → h'.events.countP Event.isWarning = 0) ∧
      (s.silenced off).issued = s.issued ∧
      ∀ i ∈ s.issued, ∀ settings, i.handle.collect settings (s.silenced off).workspace =
        i.handle.collect settings s.workspace := by
  refine ⟨h.countP_events, ?_, ?_⟩
  · intro s' a hmem
    have hreach : Leads {} s' := h.leads_of_mem _ hmem
    refine ⟨a.warnings_of_not_warned hreach, fun j hj hwarned => ?_⟩
    refine ⟨a.warnings_of_warned hreach hj hwarned, ?_⟩
    cases a with
    | call c => exact hreach.builds_of_warned hj hwarned
    | run | collect | collectSorted => cases hj
  · intro off
    obtain ⟨h', hsame⟩ := h.exists_silenced off
    refine ⟨h', hsame, History.remarks_of_silenced hsame,
      History.countP_events_of_silenced hsame, rfl, ?_⟩
    intro i _ settings
    exact i.handle.collect_silenced settings s.workspace

section Sample

def emptyHistory : History ({} : Construction Atom) := .start

def sampleHistory : History sample :=
  (emptyHistory.call (.pipeline {})).call
    (.source ⟨0⟩ Nat.zero_lt_one (.pair (.base .int64) (.base .int64)) sampleList)

def selfJoinedHistory : History (selfJoined .firstMet) :=
  sampleHistory.call (.joinTwo .firstMet "inner" .inner sampleRows sampleRows)

theorem level_selfJoined :
    ((selfJoined .firstMet).workspace.options ⟨0⟩).chainCheck = .warning := by
  have hjoin : (selfJoined .firstMet).workspace =
      (Workspace.addCoGroup ⟨0⟩ _ _ sample.workspace).2 := workspace_issueJoin _ _
  rw [hjoin, (Workspace.pipelines_addCoGroup ⟨0⟩ _ _ sample.workspace).2]
  rfl

/-- The join is joined with the source again: of the two joins, this one is warned of. -/
theorem warnings_joinedAgain : ∃ (again : (selfJoined .firstMet).Action) (h : History again.next),
    h.steps.length = 4 ∧ h.events.countP Event.isWarning = 1 ∧
      again.events.filter Event.isWarning = [.chained "again" 1] ∧
      ∃ i, again.next.issued = i :: (selfJoined .firstMet).issued := by
  obtain ⟨joined, hjoined⟩ := issued_selfJoined .firstMet
  have hrows := mem_perform sampleRows.mem
    (.joinTwo .firstMet "inner" .inner sampleRows sampleRows)
  let again : (selfJoined .firstMet).Action :=
    .call (.joinTwo .firstMet "again" .left ⟨_, _, hrows⟩ ⟨joined, _, hjoined⟩)
  obtain ⟨j, hj⟩ : ∃ j, again.join? = some j := ⟨_, rfl⟩
  have hwarned : j.IsWarnedOf (selfJoined .firstMet).workspace := by
    cases hj
    exact ⟨level_selfJoined, _, List.mem_cons_of_mem _ List.mem_cons_self, rfl⟩
  obtain ⟨hcount, hsteps, _⟩ := warnings_match_joins (.step selfJoinedHistory again)
  obtain ⟨_, hagain⟩ := hsteps _ again (List.mem_append_right _ List.mem_cons_self)
  obtain ⟨hwarning, _, hissued⟩ := hagain j hj hwarned
  refine ⟨again, .step selfJoinedHistory again, rfl, ?_, ?_, _, hissued⟩
  · have hlast : again.isWarnedOf = true := again.isWarnedOf_iff.2 ⟨j, hj, hwarned⟩
    have hfirst : selfJoinedHistory.steps.countP (fun a => a.2.isWarnedOf) = 0 := by
      decide
    rw [hcount, History.steps_step, List.countP_append, hfirst]
    simp [hlast]
  · rw [hwarning]
    cases hj
    rfl

end Sample

end Construction

end JoinPipeline
