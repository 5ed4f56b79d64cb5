import JoinPipeline.OrAbsent
import Mathlib.Data.ENat.Lattice

/-!
# Feeds asked again and again

What a feed gives, call after call. A feed may go on for ever, and one that has given none may give
items again later. Its length is the number of items before its first none, so it is infinite
exactly if there is no such none. A feed can be made to note down its answers, which tells how often
somebody else has asked it.
-/

namespace JoinPipeline

namespace Feed

variable {σ α : Type} (feed : Feed σ α)

section Calls

/-- The state behind a number of calls. -/
def after : ℕ → σ → σ
  | 0, s => s
  | n + 1, s => after n (feed.next s).2

/-- What is given by the call that follows a number of calls. -/
def answer (n : ℕ) (s : σ) : Option α := (feed.next (feed.after n s)).1

/-- What a number of calls give, one after another. -/
def answers (n : ℕ) (s : σ) : List (Option α) := (List.range n).map fun i => feed.answer i s

@[simp] theorem after_zero (s : σ) : feed.after 0 s = s := rfl

@[simp] theorem after_succ (n : ℕ) (s : σ) :
    feed.after (n + 1) s = feed.after n (feed.next s).2 := rfl

@[simp] theorem answer_zero (s : σ) : feed.answer 0 s = (feed.next s).1 := rfl

@[simp] theorem answer_succ (n : ℕ) (s : σ) :
    feed.answer (n + 1) s = feed.answer n (feed.next s).2 := rfl

theorem answers_succ (n : ℕ) (s : σ) :
    feed.answers (n + 1) s = (feed.next s).1 :: feed.answers n (feed.next s).2 := by
  simp [answers, List.range_succ_eq_map, Function.comp_def]

end Calls

section Length

/-- The number of items before the first none. -/
noncomputable def length (s : σ) : ℕ∞ :=
  ⨅ n : {n : ℕ // feed.answer n s = none}, (n.val : ℕ∞)

variable {feed} {s : σ} {n : ℕ}

theorem natCast_le_length_iff : (n : ℕ∞) ≤ feed.length s ↔ ∀ i < n, feed.answer i s ≠ none := by
  unfold length
  rw [le_iInf_iff]
  constructor
  · intro h i hi hnone
    have hle : (n : ℕ∞) ≤ i := h ⟨i, hnone⟩
    have hni : n ≤ i := by exact_mod_cast hle
    omega
  · intro h i
    have hni : n ≤ i.val := by
      by_contra hlt
      exact h i.val (by omega) i.property
    exact_mod_cast hni

theorem natCast_lt_length_iff : (n : ℕ∞) < feed.length s ↔ ∀ i ≤ n, feed.answer i s ≠ none := by
  have hle : ((n + 1 : ℕ) : ℕ∞) ≤ feed.length s ↔ ∀ i < n + 1, feed.answer i s ≠ none :=
    natCast_le_length_iff
  rw [Nat.cast_add, Nat.cast_one, ENat.natCast_add_one_le_iff] at hle
  simp only [hle, Nat.lt_succ_iff]

/-- The length is the only number below which all calls give items and at which none does. -/
theorem length_eq_of {r : ℕ∞} (h : ∀ n : ℕ, feed.answer n s ≠ none ↔ (n : ℕ∞) < r) :
    feed.length s = r := by
  refine ENat.eq_of_forall_natCast_le_iff fun n => ?_
  rw [natCast_le_length_iff]
  constructor
  · intro hall
    cases n with
    | zero => simp
    | succ n =>
      have hlast := (h n).1 (hall n (by omega))
      simpa [ENat.natCast_add_one_le_iff] using hlast
  · intro hle i hi
    have hin : (i : ℕ∞) < n := by exact_mod_cast hi
    exact (h i).2 (lt_of_lt_of_le hin hle)

theorem exists_answer_of_lt (h : (n : ℕ∞) < feed.length s) : ∃ a, feed.answer n s = some a :=
  Option.ne_none_iff_exists'.1 (natCast_lt_length_iff.1 h n (Nat.le_refl n))

theorem length_of_none (h : (feed.next s).1 = none) : feed.length s = 0 := by
  by_contra hne
  have hpos : ((0 : ℕ) : ℕ∞) < feed.length s := by simpa [pos_iff_ne_zero] using hne
  exact natCast_lt_length_iff.1 hpos 0 (Nat.le_refl 0) h

theorem length_of_some {a : α} (h : (feed.next s).1 = some a) :
    feed.length s = feed.length (feed.next s).2 + 1 := by
  refine ENat.eq_of_forall_natCast_le_iff fun n => ?_
  cases n with
  | zero => simp
  | succ n =>
    have hrest : ((n + 1 : ℕ) : ℕ∞) ≤ feed.length (feed.next s).2 + 1 ↔
        (n : ℕ∞) ≤ feed.length (feed.next s).2 := by
      rw [Nat.cast_add, Nat.cast_one]
      exact ENat.add_le_add_iff_right ENat.one_ne_top
    rw [hrest, natCast_le_length_iff, natCast_le_length_iff]
    constructor
    · intro hall i hi
      exact hall (i + 1) (by omega)
    · intro hall i hi
      cases i with
      | zero => simp [h]
      | succ i => exact hall i (by omega)

/-- The length depends on the answers only. -/
theorem length_congr {τ : Type} {other : Feed τ α} {t : τ}
    (h : ∀ n, feed.answer n s = other.answer n t) : feed.length s = other.length t := by
  refine ENat.eq_of_forall_natCast_le_iff fun n => ?_
  simp only [natCast_le_length_iff, h]

end Length

section Logged

/-- The feed with a list of all answers that it has given. -/
def logged : Feed (σ × List (Option α)) α where
  next s := ((feed.next s.1).1, (feed.next s.1).2, s.2 ++ [(feed.next s.1).1])
  hint s := feed.hint s.1

theorem after_logged (n : ℕ) (s : σ) (log : List (Option α)) :
    feed.logged.after n (s, log) = (feed.after n s, log ++ feed.answers n s) := by
  induction n generalizing s log with
  | zero => simp [answers]
  | succ n ih =>
    rw [after_succ, answers_succ]
    exact (ih _ _).trans (by simp)

theorem answer_logged (n : ℕ) (s : σ) (log : List (Option α)) :
    feed.logged.answer n (s, log) = feed.answer n s := by
  unfold answer
  rw [after_logged]
  rfl

theorem length_logged (s : σ) (log : List (Option α)) :
    feed.logged.length (s, log) = feed.length s :=
  length_congr fun n => feed.answer_logged n s log

end Logged

section Tape

/-- A tape has the items in front of its first answer that is none, or all of them. -/
theorem length_tape (fixed : Option SizeHint) (tape : List (Option α)) :
    (Feed.tape fixed).length tape = (tape.takeWhile Option.isSome).length := by
  induction tape with
  | nil => exact length_of_none rfl
  | cons answer rest ih =>
    cases answer with
    | none => exact length_of_none rfl
    | some a =>
      have hnext : ((Feed.tape fixed).next (some a :: rest)).1 = some a := rfl
      have hrest : (Feed.tape fixed).length ((Feed.tape fixed).next (some a :: rest)).2 = _ := ih
      rw [length_of_some hnext, hrest]
      simp

end Tape

end Feed

end JoinPipeline
