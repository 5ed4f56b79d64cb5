/-!
# A feed that is never empty

A feed is asked for one item after another; it may give none and an item again later. `OrAbsent`
passes the items of a feed on and stops for good at its first none, but a feed that has given
nothing until then is replaced by a single absent marker. This is what the optional side of a
join is read through. The feed is not asked again after its first none.
-/

namespace JoinPipeline

/-- How many items are still to come: at least `low`, and at most `high` if it is known. -/
structure SizeHint where
  low : Nat
  high : Option Nat
  deriving DecidableEq, Repr

/-- Items of type `α` given one at a time by states of type `σ`. -/
structure Feed (σ α : Type) where
  next : σ → Option α × σ
  hint : σ → SizeHint

/-- A state of a feed, whether it has given an item, and whether it has come to its end. -/
structure OrAbsent (σ : Type) where
  inner : σ
  seenAny : Bool := false
  done : Bool := false
  deriving DecidableEq, Repr

namespace OrAbsent

variable {σ α : Type} (feed : Feed σ α)

/-- The next item; the inner `none` is the absent marker and the outer one the end. -/
def next (s : OrAbsent σ) : Option (Option α) × OrAbsent σ :=
  if s.done then (none, s)
  else match feed.next s.inner with
    | (some a, inner) => (some (some a), { s with inner := inner, seenAny := true })
    | (none, inner) =>
      (if s.seenAny then none else some none, { s with inner := inner, done := true })

/-- As long as nothing has been seen the marker makes the number of items at least one. -/
def sizeHint (s : OrAbsent σ) : SizeHint :=
  if s.done then ⟨0, some 0⟩
  else
    let h := feed.hint s.inner
    if s.seenAny then h else ⟨max h.low 1, h.high.map (max · 1)⟩

/-- The items of at most `n` calls of `next`, up to the first end, and the state behind them. -/
def take : Nat → OrAbsent σ → List (Option α) × OrAbsent σ
  | 0, s => ([], s)
  | n + 1, s =>
    match next feed s with
    | (none, t) => ([], t)
    | (some a, t) =>
      let (rest, u) := take n t
      (a :: rest, u)

theorem next_of_done (s : OrAbsent σ) (h : s.done = true) : next feed s = (none, s) := by
  rw [next, if_pos h]

end OrAbsent

/-- A feed played off a list of answers: an answer `none` is a call that gives no item, and after
the last answer every call gives none. Its hint is fixed, or the number of answers left. -/
def Feed.tape {α : Type} (fixed : Option SizeHint) : Feed (List (Option α)) α where
  next
    | [] => (none, [])
    | answer :: rest => (answer, rest)
  hint rest := fixed.getD ⟨rest.length, some rest.length⟩

/-- All items a tape still gives through `OrAbsent`. A tape of `n` answers is at its end after
`n + 1` calls, and one call more sees it. -/
def OrAbsent.drainTape {α : Type} (s : OrAbsent (List (Option α))) :
    List (Option α) × OrAbsent (List (Option α)) :=
  take (Feed.tape none) (s.inner.length + 2) s

/-- The items of a list, or the absent marker alone. -/
def orAbsent {α : Type} (rows : List α) : List (Option α) :=
  (OrAbsent.drainTape ⟨rows.map some, false, false⟩).1

theorem OrAbsent.take_tape {α : Type} (rows : List α) (seenAny : Bool) :
    (take (Feed.tape none) (rows.length + 2) ⟨rows.map some, seenAny, false⟩).1 =
      rows.map some ++ if seenAny || !rows.isEmpty then [] else [none] := by
  induction rows generalizing seenAny with
  | nil => cases seenAny <;> rfl
  | cons a rows ih =>
    have step : next (Feed.tape none) ⟨(a :: rows).map some, seenAny, false⟩ =
        (some (some a), ⟨rows.map some, true, false⟩) := rfl
    rw [List.length_cons, take, step]
    simp only [List.map_cons, List.cons_append]
    rw [ih]
    simp

theorem orAbsent_eq {α : Type} (rows : List α) :
    orAbsent rows = if rows.isEmpty then [none] else rows.map some := by
  rw [orAbsent, OrAbsent.drainTape]
  simp only [List.length_map]
  rw [OrAbsent.take_tape]
  cases rows with
  | nil => rfl
  | cons a rows => simp

end JoinPipeline
