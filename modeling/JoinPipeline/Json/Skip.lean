import JoinPipeline.Json.Scan

/-!
# Passing over a value

A value of any depth is passed over with a list of the brackets that are still open, innermost
first. Each step takes at least one character off the text, apart from the step from an opening
bracket to the first value behind it.
-/

namespace JoinPipeline.Json

/-- What is expected next. -/
inductive Expecting where
  /-- A value. -/
  | value
  /-- The first value of a list, the first name of an object, or the closing bracket. -/
  | first
  /-- A comma or the closing bracket; with no bracket open, nothing. -/
  | more
  deriving DecidableEq, Repr

def Expecting.rank : Expecting → Nat
  | first => 1
  | _ => 0

theorem length_skipDigits {cs r : List Char} (h : skipDigits cs = .ok r) :
    r.length < cs.length := by
  cases cs with
  | nil => simp [skipDigits] at h
  | cons c rest =>
    rw [skipDigits] at h
    split at h
    · injection h with h
      subst h
      exact Nat.lt_succ_of_le (List.dropWhile_suffix _).length_le
    · simp at h

theorem length_skipWhole {cs r : List Char} (h : skipWhole cs = .ok r) :
    r.length < cs.length := by
  unfold skipWhole at h
  split at h
  · split at h
    · simp at h
    · injection h with h
      subst h
      exact Nat.lt_succ_self _
  · exact length_skipDigits h

theorem length_skipFraction {cs r : List Char} (h : skipFraction cs = .ok r) :
    r.length ≤ cs.length := by
  unfold skipFraction at h
  split at h
  · exact Nat.le_succ_of_le (Nat.le_of_lt (length_skipDigits h))
  · injection h with h
    subst h
    exact Nat.le_refl _

theorem length_dropSign (cs : List Char) : (dropSign cs).length ≤ cs.length := by
  unfold dropSign
  split
  · exact Nat.le_succ _
  · exact Nat.le_succ _
  · exact Nat.le_refl _

theorem length_skipExponent {cs r : List Char} (h : skipExponent cs = .ok r) :
    r.length ≤ cs.length := by
  unfold skipExponent at h
  split at h
  · exact Nat.le_of_lt (Nat.lt_succ_of_lt
      (Nat.lt_of_lt_of_le (length_skipDigits h) (length_dropSign _)))
  · exact Nat.le_of_lt (Nat.lt_succ_of_lt
      (Nat.lt_of_lt_of_le (length_skipDigits h) (length_dropSign _)))
  · injection h with h
    subst h
    exact Nat.le_refl _

theorem length_skipNumber {cs r : List Char} (h : skipNumber cs = .ok r) :
    r.length < cs.length := by
  simp only [skipNumber, bind, Except.bind] at h
  split at h
  · simp at h
  · rename_i fraction hfraction
    split at hfraction
    · simp at hfraction
    · rename_i whole hwhole
      have h1 := length_skipWhole hwhole
      have h2 := length_skipFraction hfraction
      have h3 := length_skipExponent h
      omega

theorem length_skipColon {cs r : List Char} (h : skipColon cs = .ok r) :
    r.length < cs.length := by
  have hd := length_dropBlanks cs
  unfold skipColon at h
  split at h
  · rename_i heq
    injection h with h
    subst h
    rw [heq] at hd
    exact hd
  · simp at h
  · simp at h

theorem length_skipName {cs r : List Char} (h : skipName cs = .ok r) :
    r.length < cs.length := by
  have hd := length_dropBlanks cs
  unfold skipName at h
  split at h
  · rename_i rest heq
    rw [heq] at hd
    simp only [bind, Except.bind] at h
    split at h
    · simp at h
    · rename_i middle hmiddle
      have h1 := length_skipString hmiddle
      have h2 := length_skipColon h
      simp only [List.length_cons] at hd
      omega
  · simp at h
  · simp at h

theorem length_skipScalar {c : Char} {cs r : List Char} (h : skipScalar c cs = .ok r) :
    r.length ≤ cs.length := by
  unfold skipScalar at h
  split at h
  · exact length_literal h
  · split at h
    · exact length_literal h
    · split at h
      · exact length_literal h
      · split at h
        · exact Nat.le_of_lt (length_skipString h)
        · split at h
          · exact Nat.le_of_lt (length_skipNumber h)
          · split at h
            · exact Nat.le_of_lt_succ (length_skipNumber h)
            · simp at h

set_option linter.unusedVariables false in
/-- Passes over the values and brackets that are still expected. -/
def skip (opened : List Bracket) (expecting : Expecting) (cs : List Char) :
    Except Fault (List Char) :=
  match expecting with
  | .value =>
    match h : dropBlanks cs with
    | [] => .error .early
    | c :: r =>
      if c = '[' then skip (.list :: opened) .first r
      else if c = '\x7b' then skip (.object :: opened) .first r
      else match h' : skipScalar c r with
        | .error e => .error e
        | .ok rest => skip opened .more rest
  | .first =>
    match h : dropBlanks cs with
    | [] => .error .early
    | c :: r =>
      match opened with
      | [] => .error .malformed
      | b :: outer =>
        if c = b.closing then skip outer .more r
        else match b with
          | .list => skip opened .value cs
          | .object =>
            match h' : skipName cs with
            | .error e => .error e
            | .ok rest => skip opened .value rest
  | .more =>
    match opened with
    | [] => .ok cs
    | b :: outer =>
      match h : dropBlanks cs with
      | [] => .error .early
      | c :: r =>
        if c = b.closing then skip outer .more r
        else if c = ',' then
          match b with
          | .list => skip opened .value r
          | .object =>
            match h' : skipName r with
            | .error e => .error e
            | .ok rest => skip opened .value rest
        else .error .malformed
termination_by (cs.length, expecting.rank)
decreasing_by
  all_goals
    have hd := length_dropBlanks cs
    rw [h] at hd
    simp only [List.length_cons] at hd
    first
      | exact Prod.Lex.left _ _ (by omega)
      | exact Prod.Lex.left _ _ (by have hs := length_skipScalar h'; omega)
      | exact Prod.Lex.left _ _ (by have hs := length_skipName h'; omega)
      | exact Prod.Lex.right _ (by decide)

/-- Passes over one value of any sort. -/
def skipValue (cs : List Char) : Except Fault (List Char) := skip [] .value cs

end JoinPipeline.Json
