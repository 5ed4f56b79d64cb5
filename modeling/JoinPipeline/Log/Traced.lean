import JoinPipeline.Log.Event

/-!
# Results with their events

A traced result is a value or a failure together with the events on the way to it, in order. The
result of a sequence of traced steps is the result of the sequence of their results: what is
reported has no bearing on what comes out.
-/

namespace JoinPipeline.Log

structure Traced (ε α : Type) where
  result : Except ε α
  occurrences : List Occurrence := []

namespace Traced

variable {ε δ α γ : Type}

def done (a : α) : Traced ε α := ⟨.ok a, []⟩

def fail (e : ε) : Traced ε α := ⟨.error e, []⟩

def ofExcept (x : Except ε α) : Traced ε α := ⟨x, []⟩

def report (e : Event) : Traced ε Unit := ⟨.ok (), [⟨e, true⟩]⟩

/-- Goes on behind a success; a failure ends the sequence. -/
def andThen (x : Traced ε α) (f : α → Traced ε γ) : Traced ε γ :=
  match x.result with
  | .error e => ⟨.error e, x.occurrences⟩
  | .ok a => ⟨(f a).result, x.occurrences ++ (f a).occurrences⟩

instance : Monad (Traced ε) where
  pure := done
  bind := andThen

/-- Restates a failure. -/
def mapError (f : ε → δ) (x : Traced ε α) : Traced δ α :=
  ⟨x.result.mapError f, x.occurrences⟩

/-- Work done by other threads than the calling one. -/
def elsewhere (x : Traced ε α) : Traced ε α :=
  { x with occurrences := x.occurrences.map fun o => { o with onCaller := false } }

/-- Work that is done elsewhere if the condition holds. -/
def elsewhereIf (away : Bool) (x : Traced ε α) : Traced ε α :=
  if away then x.elsewhere else x

def events (x : Traced ε α) : List Event := x.occurrences.map Occurrence.event

@[simp] theorem result_pure (a : α) : (pure a : Traced ε α).result = .ok a := rfl

@[simp] theorem result_bind (x : Traced ε α) (f : α → Traced ε γ) :
    (x >>= f).result = x.result >>= fun a => (f a).result := by
  show (andThen x f).result = x.result.bind fun a => (f a).result
  unfold andThen Except.bind
  cases x.result <;> rfl

@[simp] theorem result_ofExcept (x : Except ε α) : (ofExcept x).result = x := rfl

@[simp] theorem result_report (e : Event) : (report e : Traced ε Unit).result = .ok () := rfl

@[simp] theorem result_mapError (f : ε → δ) (x : Traced ε α) :
    (x.mapError f).result = x.result.mapError f := rfl

@[simp] theorem result_elsewhereIf (away : Bool) (x : Traced ε α) :
    (x.elsewhereIf away).result = x.result := by
  cases away <;> rfl

end Traced

end JoinPipeline.Log
