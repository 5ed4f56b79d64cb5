import JoinPipeline.Proofs.Absence
import Mathlib.Data.List.TakeWhile

/-!
# Hints of what is still to come

A hint is right if it bounds the number of items up to the next none, and exact if it tells this
number. Around a feed whose hints are right in every state it comes to, the hints of a feed that is
never empty are right in every state too, and exact ones stay exact. Only the state in which nothing
has been seen needs care: there the absent marker makes the number of items at least one, whether
or not the inner feed turns out to be empty, and the hint is raised in the same way.
-/

namespace JoinPipeline

namespace SizeHint

/-- The number of items is within the hint. -/
structure Bounds (hint : SizeHint) (r : ℕ∞) : Prop where
  low_le : (hint.low : ℕ∞) ≤ r
  le_high : ∀ high, hint.high = some high → r ≤ (high : ℕ∞)

/-- Both ends of the hint are the number of items. -/
structure IsExact (hint : SizeHint) (r : ℕ∞) : Prop where
  low_eq : (hint.low : ℕ∞) = r
  high_eq : hint.high = some hint.low

/-- The hint for at least one item. -/
def atLeastOne (hint : SizeHint) : SizeHint := ⟨max hint.low 1, hint.high.map (max · 1)⟩

theorem bounds_end : Bounds ⟨0, some 0⟩ 0 where
  low_le := le_refl 0
  le_high := fun _ _ => zero_le

theorem isExact_end : IsExact ⟨0, some 0⟩ 0 := ⟨rfl, rfl⟩

theorem natCast_max_one (n : ℕ) : ((max n 1 : ℕ) : ℕ∞) = max (n : ℕ∞) 1 := by
  have hmax : ((max n 1 : ℕ) : ℕ∞) = max (n : ℕ∞) (1 : ℕ) :=
    (Nat.mono_cast : Monotone (Nat.cast : ℕ → ℕ∞)).map_max
  rw [hmax, Nat.cast_one]

theorem Bounds.atLeastOne {hint : SizeHint} {r : ℕ∞} (h : hint.Bounds r) :
    hint.atLeastOne.Bounds (max r 1) where
  low_le := by
    rw [SizeHint.atLeastOne, natCast_max_one]
    exact max_le_max h.low_le (le_refl 1)
  le_high := by
    intro high hhigh
    obtain ⟨inner, hinner, hmax⟩ := Option.map_eq_some_iff.1 hhigh
    rw [← hmax, natCast_max_one]
    exact max_le_max (h.le_high inner hinner) (le_refl 1)

theorem IsExact.atLeastOne {hint : SizeHint} {r : ℕ∞} (h : hint.IsExact r) :
    hint.atLeastOne.IsExact (max r 1) where
  low_eq := by rw [SizeHint.atLeastOne, natCast_max_one, h.low_eq]
  high_eq := by simp [SizeHint.atLeastOne, h.high_eq]

end SizeHint

namespace Feed

variable {σ α : Type}

/-- In every state that the feed comes to from here, hint and length are in the relation. -/
def HintsAre (fits : SizeHint → ℕ∞ → Prop) (feed : Feed σ α) (s : σ) : Prop :=
  ∀ n, fits (feed.hint (feed.after n s)) (feed.length (feed.after n s))

theorem after_tape (fixed : Option SizeHint) (tape : List (Option α)) (n : ℕ) :
    (Feed.tape fixed).after n tape = tape.drop n := by
  induction n generalizing tape with
  | zero => rfl
  | succ n ih =>
    cases tape with
    | nil => exact (ih []).trans (by simp)
    | cons answer rest => exact ih rest

/-- The hints of a tape of items are exact. -/
theorem hintsAre_exact_tape (items : List α) :
    (Feed.tape none).HintsAre SizeHint.IsExact (items.map some) := by
  intro n
  have hitems : ((items.map some).drop n).takeWhile Option.isSome = (items.map some).drop n := by
    refine List.takeWhile_eq_self_iff.2 fun answer hanswer => ?_
    obtain ⟨a, _, rfl⟩ := List.mem_map.1 (List.mem_of_mem_drop hanswer)
    rfl
  rw [after_tape]
  constructor
  · rw [length_tape, hitems]
    rfl
  · rfl

end Feed

namespace OrAbsent

variable {σ α : Type} {feed : Feed σ α}

theorem length_of_done {x : OrAbsent σ} (h : x.done = true) : feed.orAbsent.length x = 0 :=
  Feed.length_of_none (answer_of_done 0 h)

/-- Once something has been seen, what is left is what the inner feed still has. -/
theorem length_of_seen (s : σ) : feed.orAbsent.length ⟨s, true, false⟩ = feed.length s := by
  refine Feed.length_eq_of fun n => ?_
  rcases lt_or_ge (n : ℕ∞) (feed.length s) with hlt | hle
  · obtain ⟨a, ha⟩ := Feed.exists_answer_of_lt hlt
    simp [answer_of_lt hlt, ha, hlt]
  · simp [answer_of_le hle, hle]

/-- Before that there is one item at least, the absent marker counted. -/
theorem length_of_unseen (s : σ) :
    feed.orAbsent.length ⟨s, false, false⟩ = max (feed.length s) 1 := by
  refine Feed.length_eq_of fun n => ?_
  rcases lt_or_ge (n : ℕ∞) (feed.length s) with hlt | hle
  · obtain ⟨a, ha⟩ := Feed.exists_answer_of_lt hlt
    simp [answer_of_lt hlt, ha, hlt]
  · have hnot : ¬ (n : ℕ∞) < feed.length s := not_lt.2 hle
    simp [answer_of_le hle, hnot]

section Relation

variable {fits : SizeHint → ℕ∞ → Prop} (hend : fits ⟨0, some 0⟩ 0)
  (hmarker : ∀ hint r, fits hint r → fits hint.atLeastOne (max r 1))

include hend hmarker

/-- A relation that allows for the end and for the absent marker passes from the inner feed on, in
every state. -/
theorem fits_of_inner (x : OrAbsent σ) (h : fits (feed.hint x.inner) (feed.length x.inner)) :
    fits (feed.orAbsent.hint x) (feed.orAbsent.length x) := by
  obtain ⟨s, seen, done⟩ := x
  cases done with
  | true =>
    rw [length_of_done rfl]
    exact hend
  | false =>
    cases seen with
    | true =>
      rw [length_of_seen]
      exact h
    | false =>
      rw [length_of_unseen]
      exact hmarker _ _ h

/-- The inner feed never leaves the states that it comes to by itself. -/
theorem hintsAre_fresh {s : σ} (h : feed.HintsAre fits s) :
    feed.orAbsent.HintsAre fits (fresh s) := by
  intro n
  obtain ⟨m, _, hinner⟩ : ∃ m : ℕ, _ ∧ (feed.orAbsent.after n (fresh s)).inner = feed.after m s :=
    exists_inner_after false n
  have hfits := h m
  rw [← hinner] at hfits
  exact fits_of_inner hend hmarker _ hfits

end Relation

/-- After any number of calls, hints that bound the number of items still to come do so with the
absent marker counted, and exact hints stay exact. -/
theorem hints_of_fresh (feed : Feed σ α) (s : σ) :
    ((∀ n, (feed.hint (feed.after n s)).Bounds (feed.length (feed.after n s))) →
      ∀ n, (sizeHint feed (feed.orAbsent.after n (fresh s))).Bounds
        (feed.orAbsent.length (feed.orAbsent.after n (fresh s)))) ∧
    ((∀ n, (feed.hint (feed.after n s)).IsExact (feed.length (feed.after n s))) →
      ∀ n, (sizeHint feed (feed.orAbsent.after n (fresh s))).IsExact
        (feed.orAbsent.length (feed.orAbsent.after n (fresh s)))) := by
  constructor
  · intro h
    exact hintsAre_fresh SizeHint.bounds_end (fun _ _ hbounds => hbounds.atLeastOne) h
  · intro h
    exact hintsAre_fresh SizeHint.isExact_end (fun _ _ hexact => hexact.atLeastOne) h

/-- A tape of two items with exact hints, and one with a gap and loose hints. -/
theorem hints_of_fresh_tapes :
    (∀ n, (sizeHint (Feed.tape none)
        ((Feed.tape none).orAbsent.after n (fresh [some 4, some 5]))).IsExact
      ((Feed.tape none).orAbsent.length
        ((Feed.tape none).orAbsent.after n (fresh [some 4, some 5])))) ∧
    ∀ n, (sizeHint (Feed.tape (some ⟨0, some 2⟩))
        ((Feed.tape (some ⟨0, some 2⟩)).orAbsent.after n (fresh [none, some 7]))).Bounds
      ((Feed.tape (some ⟨0, some 2⟩)).orAbsent.length
        ((Feed.tape (some ⟨0, some 2⟩)).orAbsent.after n (fresh [none, some 7]))) := by
  constructor
  · exact (hints_of_fresh (Feed.tape none) [some 4, some 5]).2 (Feed.hintsAre_exact_tape [4, 5])
  · refine (hints_of_fresh (Feed.tape (some ⟨0, some 2⟩)) [none, some 7]).1 fun n => ?_
    have hshort : (([none, some 7].drop n).takeWhile Option.isSome).length ≤ 2 :=
      ((List.takeWhile_sublist _).trans (List.drop_sublist _ _)).length_le
    rw [Feed.after_tape, Feed.length_tape]
    constructor
    · exact zero_le
    · intro high hhigh
      cases hhigh
      exact_mod_cast hshort

end OrAbsent

end JoinPipeline
