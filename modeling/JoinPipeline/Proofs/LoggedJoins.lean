import JoinPipeline.Proofs.WarningLines

/-!
# The log of a join

A join is built by the thread that asks for it, so a capture sees all that is reported. What the
capture counts as warnings are the warnings of the join, and one more if the join is accepted under
a name that has the mark in it.
-/

namespace JoinPipeline

namespace Log

namespace Traced

variable {ε δ α γ : Type} {x : Traced ε α} {f : α → Traced ε γ} {P : Event → Prop}

/-- All that is reported comes from the calling thread and has a property. -/
def Reports (P : Event → Prop) (x : Traced ε α) : Prop :=
  ∀ o ∈ x.occurrences, o.onCaller = true ∧ P o.event

theorem reports_pure (a : α) : (pure a : Traced ε α).Reports P := List.forall_mem_nil _

theorem reports_fail (e : ε) : (fail e : Traced ε α).Reports P := List.forall_mem_nil _

theorem reports_ofExcept (y : Except ε α) : (ofExcept y).Reports P := List.forall_mem_nil _

theorem reports_report {e : Event} (h : P e) : (report e : Traced ε Unit).Reports P :=
  List.forall_mem_singleton.2 ⟨rfl, h⟩

theorem Reports.bind (hx : x.Reports P) (hf : ∀ a, (f a).Reports P) : (x >>= f).Reports P := by
  show (andThen x f).Reports P
  unfold andThen
  split
  next => exact hx
  next a _ => exact List.forall_mem_append.2 ⟨hx, hf a⟩

theorem Reports.mapError (h : x.Reports P) (g : ε → δ) : (x.mapError g).Reports P := h

theorem Reports.imp {Q : Event → Prop} (h : x.Reports P) (himp : ∀ e, P e → Q e) : x.Reports Q :=
  fun o ho => ⟨(h o ho).1, himp _ (h o ho).2⟩

theorem Reports.events (h : x.Reports P) : ∀ e ∈ x.events, P e :=
  List.forall_mem_map.2 fun o ho => (h o ho).2

end Traced

namespace Capture

variable {stamp : String}

/-- Every event that is reported by the calling thread is written as a piece. -/
theorem record_eq_foldl (c : Capture) (stamp : String) (occurrences : List Occurrence) :
    c.record stamp occurrences =
      ((occurrences.filter Occurrence.onCaller).map fun o => (o.event.line stamp).toUTF8).foldl
        write c := by
  rw [List.foldl_map, List.foldl_filter]
  rfl

theorem holds_lines (stamp : String) (events : List Event) :
    Holds (events.map fun e => (e.line stamp).toUTF8) (events.map (Event.entry stamp)) := by
  simp only [Holds, List.flatMap_map, Event.line_eq]

/-- What a capture counts of events that are reported while a pipeline is built. -/
theorem warnings_record (hblank : ' ' ∉ stamp.toList) (hbreak : '\n' ∉ stamp.toList)
    {ε α : Type} {x : Traced ε α} (h : x.Reports fun e => e.isOfBuilding = true) :
    (record {} stamp x.occurrences).warnings =
      x.events.countP fun e => e.isWarning || e.isMisleading := by
  have hall : x.occurrences.filter Occurrence.onCaller = x.occurrences :=
    List.filter_eq_self.2 fun o ho => (h o ho).1
  have hplain : ∀ e ∈ x.events.map (Event.entry stamp), e.IsPlain :=
    List.forall_mem_map.2 fun e he => Event.isPlain_entry hblank hbreak (h.events e he)
  have hrecord : record {} stamp x.occurrences =
      (x.events.map fun e => (e.line stamp).toUTF8).foldl write {} := by
    rw [record_eq_foldl, hall, Traced.events, List.map_map]
    rfl
  rw [hrecord, warnings_of_holds hplain (holds_lines stamp x.events), List.countP_map]
  refine List.countP_congr fun e he => ?_
  rw [Function.comp_apply, Event.isWarning_entry]
  cases hlevel : e.isWarning with
  | true => simp
  | false => rw [Event.holdsMark_entry stamp (h.events e he) hlevel]

end Capture

end Log

open Log (Capture Event Traced)
open Log.Traced

variable {β : Type} [Basis β]

/-- What is reported before a join is accepted. -/
def Log.Event.IsOfVetting (e : Event) : Prop := e.isOfBuilding = true ∧ e.isMisleading = false

theorem Graph.reports_buildPlan (g : Graph β) (terminal : NodeId) :
    (g.buildPlan terminal).Reports Event.IsOfVetting :=
  (reports_ofExcept _).bind fun _ => (reports_report ⟨rfl, rfl⟩).bind fun _ => reports_pure _

namespace JoinInput

theorem reports_capture (transform : String) (w : Workspace β) (inputs : List (JoinInput β)) :
    (capture transform w inputs).Reports Event.IsOfVetting := by
  induction inputs with
  | nil => exact reports_pure _
  | cons input rest ih =>
    have hplan := (Graph.reports_buildPlan (w.graph input.pipeline) input.node).mapError
      (JoinError.plan transform)
    exact hplan.bind fun _ => ih.bind fun _ => reports_pure _

theorem reports_check (transform : String) (level : ChainCheck) (inputs : List (JoinInput β)) :
    (check transform level inputs).Reports Event.IsOfVetting := by
  unfold check
  split
  · exact reports_pure _
  · exact reports_pure _
  · exact reports_report ⟨rfl, rfl⟩
  · exact reports_fail _

end JoinInput

namespace Workspace

section

variable (first : PipelineId) (inputs : List (JoinInput β)) (step : CoGroupStep β)
  (w : Workspace β)

theorem reports_vet (name : String) : (vet first inputs name w).Reports Event.IsOfVetting :=
  (JoinInput.reports_check _ _ _).bind fun _ => JoinInput.reports_capture _ _ _

theorem reports_addCoGroup :
    (addCoGroup first inputs step w).1.Reports fun e => e.isOfBuilding = true := by
  have hvet : (vet first inputs step.name w).Reports fun e => e.isOfBuilding = true :=
    (reports_vet first inputs w step.name).imp fun _ => And.left
  cases hresult : (vet first inputs step.name w).result with
  | error cause =>
    unfold vet at hvet hresult
    unfold addCoGroup
    simp only [hresult]
    exact hvet
  | ok chains =>
    have hnode : (report (.addedCoGroup step.name (w.graph first).nextId) :
        Traced JoinError Unit).Reports fun e => e.isOfBuilding = true := reports_report rfl
    have hadded := hvet.bind fun _ => hnode.bind fun _ =>
      reports_pure (⟨first, ⟨(w.graph first).nextId⟩, true⟩ : Collection β step.output)
    unfold vet at hadded hresult
    unfold addCoGroup
    simp only [hresult]
    exact hadded

end

/-- A capture of what a join reports counts its warnings, and the line of the new node as well if
the join is accepted under a name that has the mark in it. -/
theorem warnings_logged {stamp : String} (hblank : ' ' ∉ stamp.toList)
    (hbreak : '\n' ∉ stamp.toList) (first : PipelineId) (inputs : List (JoinInput β))
    (step : CoGroupStep β) (w : Workspace β) :
    (Capture.record {} stamp (addCoGroup first inputs step w).1.occurrences).warnings =
      (addCoGroup first inputs step w).1.warnings.length +
        if (addCoGroup first inputs step w).1.result.isOk ∧
          Text.occursIn Capture.warningMark.toList step.name.toList = true then 1 else 0 := by
  have hvet : (vet first inputs step.name w).events.countP (fun e => e.isWarning || e.isMisleading)
      = (vet first inputs step.name w).events.countP Event.isWarning := by
    refine List.countP_congr fun e he => ?_
    rw [((reports_vet first inputs w step.name).events e he).2, Bool.or_false]
  rw [Capture.warnings_record hblank hbreak (reports_addCoGroup first inputs step w), warnings,
    ← List.countP_eq_length_filter]
  cases hresult : (vet first inputs step.name w).result with
  | error cause =>
    rw [events_addCoGroup_refused hresult, hvet, (addCoGroup_refused hresult).1]
    rfl
  | ok chains =>
    have hwarning : Event.isWarning (.addedCoGroup step.name (w.graph first).nextId) = false := rfl
    rw [events_addCoGroup_accepted hresult, (addCoGroup_accepted hresult).1, List.countP_append,
      List.countP_append, hvet, List.countP_singleton, List.countP_singleton, hwarning]
    simp [Event.isMisleading, Except.isOk, Except.toBool]

end Workspace

end JoinPipeline
