import JoinPipeline.Proofs.Feeds

/-!
# What a feed gives that is never empty

Call after call, the items of the inner feed up to its first none are passed on; then there is
nothing more for ever, but if there was no item the absent marker comes first, once. The inner feed
is not asked again after its first none, so it does not matter what it would go on with. A copy that
is taken on the way goes on where the original was, and neither of them notices calls on the other.
-/

namespace JoinPipeline

variable {σ α : Type} (feed : Feed σ α)

/-- The items of a feed with the absent marker, as a feed. -/
def Feed.orAbsent : Feed (OrAbsent σ) (Option α) := ⟨OrAbsent.next feed, OrAbsent.sizeHint feed⟩

namespace OrAbsent

/-- Before the first call. -/
def fresh (s : σ) : OrAbsent σ := { inner := s }

section Steps

variable {feed} {s : σ}

theorem next_of_some {a : α} (h : (feed.next s).1 = some a) (seen : Bool) :
    next feed ⟨s, seen, false⟩ = (some (some a), ⟨(feed.next s).2, true, false⟩) := by
  cases hnext : feed.next s with
  | mk answer t =>
    rw [hnext] at h
    have hanswer : answer = some a := h
    simp [next, hnext, hanswer]

theorem next_of_none (h : (feed.next s).1 = none) (seen : Bool) :
    next feed ⟨s, seen, false⟩ =
      (if seen then none else some none, ⟨(feed.next s).2, seen, true⟩) := by
  cases hnext : feed.next s with
  | mk answer t =>
    rw [hnext] at h
    have hanswer : answer = none := h
    simp [next, hnext, hanswer]

end Steps

section Calls

variable {feed} {s : σ}

theorem after_of_done (n : ℕ) {x : OrAbsent σ} (h : x.done = true) :
    feed.orAbsent.after n x = x := by
  induction n with
  | zero => rfl
  | succ n ih =>
    have hnext : feed.orAbsent.next x = (none, x) := next_of_done feed x h
    rw [Feed.after_succ, hnext, ih]

theorem answer_of_done (n : ℕ) {x : OrAbsent σ} (h : x.done = true) :
    feed.orAbsent.answer n x = none := by
  have hnext : feed.orAbsent.next x = (none, x) := next_of_done feed x h
  rw [Feed.answer, after_of_done n h, hnext]

/-- Before its first none the items of the inner feed are passed on. -/
theorem answer_of_lt {n : ℕ} (h : (n : ℕ∞) < feed.length s) (seen : Bool) :
    feed.orAbsent.answer n ⟨s, seen, false⟩ = (feed.answer n s).map some := by
  induction n generalizing s seen with
  | zero =>
    obtain ⟨a, ha⟩ := Feed.exists_answer_of_lt h
    have hnext : feed.orAbsent.next ⟨s, seen, false⟩ = _ := next_of_some ha seen
    rw [Feed.answer_zero, hnext, ha]
    rfl
  | succ n ih =>
    have hall := Feed.natCast_lt_length_iff.1 h
    obtain ⟨a, ha⟩ := Option.ne_none_iff_exists'.1 (hall 0 (by omega))
    have hnext : feed.orAbsent.next ⟨s, seen, false⟩ = _ := next_of_some ha seen
    have hrest : (n : ℕ∞) < feed.length (feed.next s).2 := by
      refine Feed.natCast_lt_length_iff.2 fun i hi => ?_
      exact hall (i + 1) (by omega)
    rw [Feed.answer_succ, Feed.answer_succ, hnext]
    exact ih hrest true

/-- From then on nothing is given, except for the absent marker if nothing has been seen. -/
theorem answer_of_le {n : ℕ} (h : feed.length s ≤ n) (seen : Bool) :
    feed.orAbsent.answer n ⟨s, seen, false⟩ =
      if n = 0 ∧ seen = false then some none else none := by
  induction n generalizing s seen with
  | zero =>
    have hnone : (feed.next s).1 = none := by
      cases hnext : (feed.next s).1 with
      | none => rfl
      | some a =>
        rw [Feed.length_of_some hnext] at h
        simp at h
    have hnext : feed.orAbsent.next ⟨s, seen, false⟩ = _ := next_of_none hnone seen
    rw [Feed.answer_zero, hnext]
    cases seen <;> rfl
  | succ n ih =>
    cases hanswer : (feed.next s).1 with
    | none =>
      have hnext : feed.orAbsent.next ⟨s, seen, false⟩ = _ := next_of_none hanswer seen
      rw [Feed.answer_succ, hnext, answer_of_done n rfl]
      simp
    | some a =>
      have hnext : feed.orAbsent.next ⟨s, seen, false⟩ = _ := next_of_some hanswer seen
      have hrest : feed.length (feed.next s).2 ≤ n := by
        rw [Feed.length_of_some hanswer, Nat.cast_add, Nat.cast_one] at h
        exact (ENat.add_le_add_iff_right ENat.one_ne_top).1 h
      rw [Feed.answer_succ, hnext, ih hrest true]
      simp

/-- The inner feed is asked once for every call until its first none, and not again. -/
theorem exists_inner_after (seen : Bool) (n : ℕ) :
    ∃ m : ℕ, (m : ℕ∞) = min (n : ℕ∞) (feed.length s + 1) ∧
      (feed.orAbsent.after n ⟨s, seen, false⟩).inner = feed.after m s := by
  induction n generalizing s seen with
  | zero => exact ⟨0, by simp, rfl⟩
  | succ n ih =>
    cases hanswer : (feed.next s).1 with
    | none =>
      -- The call that finds the first none is still made, and it is the last one.
      have hnext : feed.orAbsent.next ⟨s, seen, false⟩ = _ := next_of_none hanswer seen
      refine ⟨1, ?_, ?_⟩
      · rw [Feed.length_of_none hanswer]
        simp
      · rw [Feed.after_succ, hnext, after_of_done n rfl]
        rfl
    | some a =>
      have hnext : feed.orAbsent.next ⟨s, seen, false⟩ = _ := next_of_some hanswer seen
      obtain ⟨m, hm, hinner⟩ := ih (s := (feed.next s).2) true
      refine ⟨m + 1, ?_, ?_⟩
      · rw [Feed.length_of_some hanswer, Nat.cast_add, Nat.cast_one, hm, Nat.cast_add, Nat.cast_one]
        exact (min_add_add_right (n : ℕ∞) (feed.length (feed.next s).2 + 1) 1).symm
      · rw [Feed.after_succ, hnext, hinner]
        rfl

end Calls

section Copies

/-- A copy: the inner feed is copied, and what has been seen of it is kept. -/
def clone (copy : σ → σ) (x : OrAbsent σ) : OrAbsent σ := { x with inner := copy x.inner }

/-- A copy that is in use, with the number of calls behind it. Those that were made on its original
before it was taken count too. -/
structure InUse (σ : Type) where
  state : OrAbsent σ
  calls : ℕ

/-- What one original can have come to when copies of it, and copies of copies, are called in any
order. -/
inductive Copies (copy : σ → σ) (s : σ) : List (InUse σ) → Prop where
  | fresh : Copies copy s [⟨fresh s, 0⟩]
  | call {copies : List (InUse σ)} {x : InUse σ} (place : ℕ) : Copies copy s copies →
      copies[place]? = some x →
      Copies copy s (copies.set place ⟨(next feed x.state).2, x.calls + 1⟩)
  | clone {copies : List (InUse σ)} {x : InUse σ} : Copies copy s copies → x ∈ copies →
      Copies copy s (copies ++ [⟨x.state.clone copy, x.calls⟩])

variable {feed}

/-- Inner feeds that give the same items are passed on alike. -/
theorem answer_congr {τ : Type} {other : Feed τ α} {s : σ} {t : τ}
    (h : ∀ n, feed.answer n s = other.answer n t) (seen done : Bool) (n : ℕ) :
    feed.orAbsent.answer n ⟨s, seen, done⟩ = other.orAbsent.answer n ⟨t, seen, done⟩ := by
  have hlength := Feed.length_congr h
  cases done with
  | true => rw [answer_of_done n rfl, answer_of_done n rfl]
  | false =>
    rcases lt_or_ge (n : ℕ∞) (feed.length s) with hlt | hle
    · have hlt' : (n : ℕ∞) < other.length t := hlength ▸ hlt
      rw [answer_of_lt hlt, answer_of_lt hlt', h n]
    · have hle' : other.length t ≤ n := hlength ▸ hle
      rw [answer_of_le hle, answer_of_le hle']

/-- Every copy goes on with what is left of the calls of the original. -/
theorem Copies.answer_eq {copy : σ → σ} (hcopy : ∀ t n, feed.answer n (copy t) = feed.answer n t)
    {s : σ} {copies : List (InUse σ)} (h : Copies feed copy s copies) :
    ∀ x ∈ copies, ∀ n,
      feed.orAbsent.answer n x.state = feed.orAbsent.answer (x.calls + n) (OrAbsent.fresh s) := by
  induction h with
  | fresh =>
    intro x hx n
    rw [List.mem_singleton.1 hx, Nat.zero_add]
  | @call copies called place _ hplace ih =>
    intro x hx n
    rcases List.mem_or_eq_of_mem_set hx with hold | hcalled
    · exact ih x hold n
    · have hnext := ih called (List.mem_of_getElem? hplace) (n + 1)
      rw [Feed.answer_succ] at hnext
      rw [hcalled, Nat.add_assoc, Nat.add_comm 1 n]
      exact hnext
  | @clone copies original _ hmem ih =>
    intro x hx n
    rcases List.mem_append.1 hx with hold | hnew
    · exact ih x hold n
    · rw [List.mem_singleton.1 hnew, ← ih original hmem n]
      exact answer_congr (hcopy original.state.inner) _ _ n

end Copies

/-- All calls on a fresh feed that is never empty. The items before the first none of the inner
feed, which may be infinitely many, are given one after another; without any the absent marker is
given instead; after that there is nothing for ever. The inner feed is asked once for every call
until its first none and not again, and noting this down changes nothing. A copy taken after any
number of calls goes on with the calls that are left, whatever is done with its original, and so
does the original; the only thing that is needed for it is that copies of the inner feed give the
same items. -/
theorem calls_of_fresh (feed : Feed σ α) (s : σ) :
    (∀ n : ℕ, (n : ℕ∞) < feed.length s → ∃ a, feed.answer n s = some a ∧
      feed.orAbsent.answer n (fresh s) = some (some a)) ∧
    (feed.length s = 0 → feed.orAbsent.answer 0 (fresh s) = some none) ∧
    (∀ n : ℕ, max (feed.length s) 1 ≤ n → feed.orAbsent.answer n (fresh s) = none) ∧
    (∀ n : ℕ, feed.logged.orAbsent.answer n (fresh (s, [])) = feed.orAbsent.answer n (fresh s) ∧
      ∃ m : ℕ, (m : ℕ∞) = min (n : ℕ∞) (feed.length s + 1) ∧
        (feed.logged.orAbsent.after n (fresh (s, []))).inner.2 = feed.answers m s) ∧
    ∀ copy : σ → σ, (∀ t n, feed.answer n (copy t) = feed.answer n t) →
      ∀ copies, Copies feed copy s copies → ∀ x ∈ copies, ∀ n,
        feed.orAbsent.answer n x.state = feed.orAbsent.answer (x.calls + n) (fresh s) := by
  refine ⟨?_, ?_, ?_, ?_, ?_⟩
  · intro n hn
    obtain ⟨a, ha⟩ := Feed.exists_answer_of_lt hn
    refine ⟨a, ha, ?_⟩
    rw [fresh, answer_of_lt hn, ha]
    rfl
  · intro hempty
    have hle : feed.length s ≤ (0 : ℕ) := by simp [hempty]
    rw [fresh, answer_of_le hle]
    rfl
  · intro n hn
    have hle : feed.length s ≤ n := le_trans (le_max_left _ _) hn
    have hone : ((1 : ℕ) : ℕ∞) ≤ n := by simpa using le_trans (le_max_right _ _) hn
    have hpos : 1 ≤ n := by exact_mod_cast hone
    rw [fresh, answer_of_le hle, if_neg]
    omega
  · intro n
    refine ⟨answer_congr (fun m => feed.answer_logged m s []) false false n, ?_⟩
    obtain ⟨m, hm, hinner⟩ : ∃ m : ℕ, (m : ℕ∞) = min (n : ℕ∞) (feed.logged.length (s, []) + 1) ∧
        (feed.logged.orAbsent.after n ⟨(s, []), false, false⟩).inner =
          feed.logged.after m (s, []) := exists_inner_after false n
    rw [Feed.length_logged] at hm
    refine ⟨m, hm, ?_⟩
    rw [fresh, hinner, Feed.after_logged, List.nil_append]
  · intro copy hcopy copies hcopies
    exact hcopies.answer_eq hcopy

/-- A tape that has an item again behind its first none, and one that starts with none; and a copy
that is taken after one call and then called before its original. -/
theorem calls_of_fresh_tapes :
    ((Feed.tape none).orAbsent.answer 0 (fresh [some 7, none, some 8]) = some (some 7) ∧
      ∀ n : ℕ, 1 ≤ n → (Feed.tape none).orAbsent.answer n (fresh [some 7, none, some 8]) = none) ∧
    ((Feed.tape none).orAbsent.answer 0 (fresh [none, some 8]) = some none ∧
      ∀ n : ℕ, 1 ≤ n → (Feed.tape none).orAbsent.answer n (fresh [none, some 8]) = none) ∧
    ((Feed.tape none).logged.orAbsent.after 5 (fresh ([some 7, none, some 8], []))).inner.2 =
      [some 7, none] ∧
    ∀ n : ℕ, (Feed.tape none).orAbsent.answer n ⟨[some 9], true, false⟩ =
      (Feed.tape none).orAbsent.answer (1 + n) (fresh [some 7, some 9]) := by
  have hone : (Feed.tape none).length [some 7, none, some 8] = 1 := by
    rw [Feed.length_tape]
    rfl
  have hzero : (Feed.tape none).length [none, some 8] = 0 := by
    rw [Feed.length_tape]
    rfl
  obtain ⟨hitems, _, hend, hlog, _⟩ := calls_of_fresh (Feed.tape none) [some 7, none, some 8]
  obtain ⟨_, hmarker, hend', _, _⟩ := calls_of_fresh (Feed.tape none) [none, some 8]
  obtain ⟨_, _, _, _, hcopies⟩ := calls_of_fresh (Feed.tape none) [some 7, some 9]
  refine ⟨⟨?_, fun n hn => ?_⟩, ⟨hmarker hzero, fun n hn => ?_⟩, ?_, fun n => ?_⟩
  · obtain ⟨a, ha, hgiven⟩ := hitems 0 (by simp [hone])
    rw [hgiven, ← ha]
    rfl
  · exact hend n (by simpa [hone] using hn)
  · exact hend' n (by simpa [hzero] using hn)
  · obtain ⟨m, hm, hasked⟩ := (hlog 5).2
    have htwo : m = 2 := by
      rw [hone] at hm
      have hmin : min ((5 : ℕ) : ℕ∞) (1 + 1) = (2 : ℕ) := by rfl
      rw [hmin] at hm
      exact_mod_cast hm
    rw [hasked, htwo]
    rfl
  · have hstart : Copies (Feed.tape none) id [some 7, some 9] [⟨fresh [some 7, some 9], 0⟩] :=
      .fresh
    have hcalled : Copies (Feed.tape none) id [some 7, some 9] [⟨⟨[some 9], true, false⟩, 1⟩] :=
      .call 0 hstart rfl
    have hcloned := Copies.clone hcalled List.mem_cons_self
    have hboth : Copies (Feed.tape none) id [some 7, some 9]
        [⟨⟨[some 9], true, false⟩, 1⟩, ⟨⟨[], true, false⟩, 2⟩] := .call 1 hcloned rfl
    exact hcopies id (fun _ _ => rfl) _ hboth ⟨⟨[some 9], true, false⟩, 1⟩ List.mem_cons_self n

end OrAbsent

end JoinPipeline
