import JoinPipeline.Proofs.Acceptance

/-!
# What is warned of

Planning and running report what they do, but they never warn. The one warning is that of a join:
it is given at the level of that name only, once for all inputs that are marked, and before
anything else that the join reports.
-/

namespace JoinPipeline

variable {β : Type} [Basis β]

namespace Log

namespace Event

def isWarning (e : Event) : Bool := e.level = .warn

theorem isWarning_iff (e : Event) :
    e.isWarning = true ↔ ∃ transform inputs, e = .chained transform inputs := by
  cases e <;> simp [isWarning, level]

end Event

namespace Traced

variable {ε δ α γ : Type} {x : Traced ε α} {f : α → Traced ε γ}

theorem events_bind (x : Traced ε α) (f : α → Traced ε γ) :
    (x >>= f).events = x.events ++
      match x.result with
      | .ok a => (f a).events
      | .error _ => [] := by
  show (andThen x f).events = _
  unfold andThen
  cases x.result <;> simp [events]

@[simp] theorem events_mapError (g : ε → δ) (x : Traced ε α) :
    (x.mapError g).events = x.events := rfl

@[simp] theorem events_elsewhereIf (away : Bool) (x : Traced ε α) :
    (x.elsewhereIf away).events = x.events := by
  cases away <;> simp [elsewhereIf, elsewhere, events]

/-- The warnings among the events, in order. -/
def warnings (x : Traced ε α) : List Event := x.events.filter Event.isWarning

theorem warnings_bind (x : Traced ε α) (f : α → Traced ε γ) :
    (x >>= f).warnings = x.warnings ++
      match x.result with
      | .ok a => (f a).warnings
      | .error _ => [] := by
  unfold warnings
  rw [events_bind, List.filter_append]
  cases x.result <;> rfl

/-- Nothing is warned of. -/
def IsQuiet (x : Traced ε α) : Prop := x.warnings = []

theorem isQuiet_pure (a : α) : (pure a : Traced ε α).IsQuiet := rfl

theorem isQuiet_fail (e : ε) : (fail e : Traced ε α).IsQuiet := rfl

theorem isQuiet_ofExcept (x : Except ε α) : (ofExcept x).IsQuiet := rfl

theorem isQuiet_report {e : Event} (h : e.isWarning = false) :
    (report e : Traced ε Unit).IsQuiet := by
  simp [IsQuiet, warnings, events, report, h]

theorem IsQuiet.bind (hx : x.IsQuiet) (hf : ∀ a, (f a).IsQuiet) : (x >>= f).IsQuiet := by
  unfold IsQuiet at hx ⊢
  rw [warnings_bind, hx, List.nil_append]
  cases x.result with
  | ok a => exact hf a
  | error e => rfl

theorem IsQuiet.mapError (h : x.IsQuiet) (g : ε → δ) : (x.mapError g).IsQuiet := h

theorem IsQuiet.elsewhereIf (h : x.IsQuiet) (away : Bool) : (x.elsewhereIf away).IsQuiet := by
  unfold IsQuiet warnings at h ⊢
  rwa [events_elsewhereIf]

end Traced

end Log

open Log (Event Traced)
open Log.Traced

theorem Graph.isQuiet_buildPlan (g : Graph β) (terminal : NodeId) :
    (g.buildPlan terminal).IsQuiet :=
  (isQuiet_ofExcept _).bind fun _ => (isQuiet_report rfl).bind fun _ => isQuiet_pure _

namespace Run

theorem isQuiet_stage (ctx : RunContext β) (parts : List (Partition β)) (node : Node β) :
    (stage ctx parts node).IsQuiet := by
  cases node with
  | stateless ops => exact (isQuiet_report rfl).bind fun _ => isQuiet_ofExcept _
  | groupByKey step => exact isQuiet_ofExcept _
  | source element payload => exact isQuiet_fail _
  | coGroup step inputs => exact isQuiet_fail _

theorem isQuiet_stages (ctx : RunContext β) (parts : List (Partition β)) (nodes : List (Node β)) :
    (stages ctx parts nodes).IsQuiet := by
  induction nodes generalizing ctx parts with
  | nil => exact isQuiet_pure _
  | cons node rest ih => exact (isQuiet_stage ctx parts node).bind fun out => ih _ out

theorem isQuiet_coGroup (ctx : RunContext β) (step : CoGroupStep β) (inputCount : Nat)
    (inputs : List (Partition β)) : (coGroup ctx step inputCount inputs).IsQuiet :=
  (isQuiet_ofExcept _).bind fun _ => (isQuiet_report rfl).bind fun _ => isQuiet_pure _

mutual

theorem isQuiet_root (ctx : RunContext β) (node : Node β) : (root ctx node).IsQuiet := by
  cases node with
  | source element payload => exact isQuiet_ofExcept _
  | coGroup step inputs =>
    rw [root]
    have hinputs := isQuiet_runInputs ctx 1 step.name step.inputElements inputs
    exact (hinputs.elsewhereIf _).bind fun parts => isQuiet_coGroup ctx step _ parts
  | stateless ops => exact isQuiet_fail _
  | groupByKey step => exact isQuiet_fail _

theorem isQuiet_chain (ctx : RunContext β) (nodes : List (Node β)) : (chain ctx nodes).IsQuiet := by
  cases nodes with
  | nil => exact isQuiet_fail _
  | cons node rest =>
    rw [chain]
    exact (isQuiet_root ctx node).bind fun parts => isQuiet_stages ctx parts rest

theorem isQuiet_runInputs (ctx : RunContext β) (place : Nat) (name : String)
    (elements : List (ElementType β)) (inputs : List (List (Node β))) :
    (runInputs ctx place name elements inputs).IsQuiet := by
  cases inputs with
  | nil => exact isQuiet_pure _
  | cons input rest =>
    cases elements with
    | nil => exact isQuiet_pure _
    | cons element elements =>
      rw [runInputs]
      have hrest := isQuiet_runInputs ctx (place + 1) name elements rest
      exact (isQuiet_chain (ctx.below place) input).bind fun _ =>
        (isQuiet_ofExcept _).bind fun _ => hrest.bind fun _ => isQuiet_pure _

end

end Run

/-- A run warns of nothing, whatever graph it runs on and however it comes out. -/
theorem Graph.isQuiet_collect (g : Graph β) (settings : RunSettings β) (terminal : NodeId)
    (t : ElementType β) : (g.collect settings terminal t).IsQuiet := by
  have hplan : ((g.buildPlan terminal).mapError fun cause => (.walk cause : RunError β)).IsQuiet :=
    (g.isQuiet_buildPlan terminal).mapError _
  exact hplan.bind fun chain => (isQuiet_report rfl).bind fun _ =>
    ((Run.isQuiet_chain settings.context chain).elsewhereIf _).bind fun _ => isQuiet_ofExcept _

namespace Collection

variable {t : ElementType β} (c : Collection β t) (settings : RunSettings β) (w : Workspace β)

theorem isQuiet_collect : (c.collect settings w).IsQuiet :=
  Graph.isQuiet_collect _ settings c.node t

theorem isQuiet_collectSorted : (c.collectSorted settings w).IsQuiet :=
  (c.isQuiet_collect settings w).bind fun _ => isQuiet_pure _

end Collection

namespace JoinInput

variable {level : ChainCheck} {inputs : List (JoinInput β)}

theorem isQuiet_capture (transform : String) (w : Workspace β) (inputs : List (JoinInput β)) :
    (capture transform w inputs).IsQuiet := by
  induction inputs with
  | nil => exact isQuiet_pure _
  | cons input rest ih =>
    have hplan := (Graph.isQuiet_buildPlan (w.graph input.pipeline) input.node).mapError
      (JoinError.plan transform)
    exact hplan.bind fun _ => ih.bind fun _ => isQuiet_pure _

/-- A level is to warn of inputs that are marked. -/
def AreWarnedOf (level : ChainCheck) (inputs : List (JoinInput β)) : Prop :=
  level = .warning ∧ ∃ input ∈ inputs, input.isChained = true

theorem events_check_of_warned (h : AreWarnedOf level inputs) (transform : String) :
    (check transform level inputs).events = [.chained transform (inputs.countP isChained)] := by
  obtain ⟨rfl, hmarked⟩ := h
  have hpos : 0 < inputs.countP isChained := List.countP_pos_iff.2 hmarked
  unfold check
  cases hcount : inputs.countP isChained with
  | zero => omega
  | succ marked => rfl

theorem events_check_of_not_warned (h : ¬ AreWarnedOf level inputs) (transform : String) :
    (check transform level inputs).events = [] := by
  unfold check
  cases hcount : inputs.countP isChained with
  | zero => cases level <;> rfl
  | succ marked =>
    have hmarked : ∃ input ∈ inputs, input.isChained = true := by
      apply List.countP_pos_iff.1
      omega
    cases level with
    | warning => exact (h ⟨rfl, hmarked⟩).elim
    | off => rfl
    | error => rfl

/-- Whatever the check of marks reports is a warning. -/
theorem warnings_check (transform : String) (level : ChainCheck) (inputs : List (JoinInput β)) :
    (check transform level inputs).warnings = (check transform level inputs).events := by
  unfold Traced.warnings
  by_cases h : AreWarnedOf level inputs
  · rw [events_check_of_warned h]
    rfl
  · rw [events_check_of_not_warned h]
    rfl

end JoinInput

namespace Workspace

variable {first : PipelineId} {inputs : List (JoinInput β)} {step : CoGroupStep β}
  {w : Workspace β}

theorem warnings_vet (first : PipelineId) (inputs : List (JoinInput β)) (name : String)
    (w : Workspace β) :
    (vet first inputs name w).warnings =
      (JoinInput.check name (w.options first).chainCheck inputs).events := by
  rw [vet, warnings_bind, JoinInput.warnings_check]
  cases (JoinInput.check name (w.options first).chainCheck inputs).result with
  | ok _ =>
    show _ ++ (JoinInput.capture name w inputs).warnings = _
    rw [JoinInput.isQuiet_capture, List.append_nil]
  | error _ => exact List.append_nil _

/-- What a join reports when it is refused: what it reports while it is vetted. -/
theorem events_addCoGroup_refused {cause : JoinError}
    (h : (vet first inputs step.name w).result = .error cause) :
    (addCoGroup first inputs step w).1.events = (vet first inputs step.name w).events := by
  unfold vet at h ⊢
  unfold addCoGroup
  simp only [h]
  rfl

/-- A join that is accepted reports the new node behind that. -/
theorem events_addCoGroup_accepted {chains : List (Chain β)}
    (h : (vet first inputs step.name w).result = .ok chains) :
    (addCoGroup first inputs step w).1.events =
      (vet first inputs step.name w).events ++
        [.addedCoGroup step.name (w.graph first).nextId] := by
  have hvet := h
  unfold vet at hvet
  unfold addCoGroup
  simp only [hvet]
  refine (events_bind (vet first inputs step.name w) _).trans ?_
  rw [h]
  rfl

/-- A join warns of what the check of marks reports, and of nothing else. -/
theorem warnings_addCoGroup (first : PipelineId) (inputs : List (JoinInput β))
    (step : CoGroupStep β) (w : Workspace β) :
    (addCoGroup first inputs step w).1.warnings =
      (JoinInput.check step.name (w.options first).chainCheck inputs).events := by
  rw [← warnings_vet]
  unfold Traced.warnings
  cases hvet : (vet first inputs step.name w).result with
  | error cause => rw [events_addCoGroup_refused hvet]
  | ok chains =>
    rw [events_addCoGroup_accepted hvet, List.filter_append]
    exact List.append_nil _

end Workspace

end JoinPipeline
