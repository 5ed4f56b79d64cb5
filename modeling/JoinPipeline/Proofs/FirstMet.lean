import JoinPipeline.Proofs.Stages
import JoinPipeline.Value

/-!
# Joins whose keys come as they are first met

The rows of every join, as one list: the distinct keys in the order in which they are first met in
the inputs, one behind another, and for every key the rows of its values in the order of the inputs.
Keys may be compared by any equivalence that hashes agree with.
-/

namespace JoinPipeline

section Groups

variable {K V W A B C : Type} [BEq K] [Hashable K] [EquivBEq K] [LawfulHashable K]

theorem cogroup_groupTagged (a : List (K × V)) (b : List (K × W)) :
    cogroup groupTagged a b = records a b :=
  cogroup_eq (groupTagged_eq _)

theorem cogroup3_groupTagged (a : List (K × A)) (b : List (K × B)) (c : List (K × C)) :
    cogroup3 groupTagged a b c = records3 a b c :=
  cogroup3_eq (groupTagged_eq _)

theorem innerJoin_groupTagged (a : List (K × V)) (b : List (K × W)) :
    innerJoin groupTagged a b = pairRows id id a b := by
  rw [innerJoin_eq, cogroup_groupTagged, flatMap_records]

theorem leftJoin_groupTagged (a : List (K × V)) (b : List (K × W)) :
    leftJoin groupTagged a b = pairRows id orNone a b := by
  rw [leftJoin_eq, cogroup_groupTagged, flatMap_records]

theorem rightJoin_groupTagged (a : List (K × V)) (b : List (K × W)) :
    rightJoin groupTagged a b = pairRows orNone id a b := by
  rw [rightJoin_eq, cogroup_groupTagged, flatMap_records]

theorem outerJoin_groupTagged (a : List (K × V)) (b : List (K × W)) :
    outerJoin groupTagged a b = pairRows orNone orNone a b := by
  rw [outerJoin_eq, cogroup_groupTagged, flatMap_records]

theorem innerJoin3_groupTagged (a : List (K × A)) (b : List (K × B)) (c : List (K × C)) :
    innerJoin3 groupTagged a b c = tripleRows a b c := by
  rw [innerJoin3_eq, cogroup3_groupTagged, flatMap_records3]

end Groups

/-- What the step of every join makes of its inputs where keys come as they are first met: the
records of the inputs in a co-group, and the rows of all keys, one key behind another, in the other
joins. These are also the rows of the joins on plain lists, whatever the keys are. -/
theorem firstMet_joins_rows :
    (∀ {β : Type} [Basis β] (k v w : ElementType β) (name : String) (scheme : HashScheme β)
      (a : List (k.Carrier × v.Carrier)) (b : List (k.Carrier × w.Carrier)),
      (Grouper.firstMet.pairStep name .cogroup k v w).exec scheme
          [⟨.pair k v, a⟩, ⟨.pair k w, b⟩] =
        .ok ⟨.pair k (.pair (.vector v) (.vector w)), records a b⟩ ∧
      (Grouper.firstMet.pairStep name .inner k v w).exec scheme
          [⟨.pair k v, a⟩, ⟨.pair k w, b⟩] =
        .ok ⟨.pair k (.pair v w), pairRows id id a b⟩ ∧
      (Grouper.firstMet.pairStep name .left k v w).exec scheme
          [⟨.pair k v, a⟩, ⟨.pair k w, b⟩] =
        .ok ⟨.pair k (.pair v (.option w)), pairRows id orNone a b⟩ ∧
      (Grouper.firstMet.pairStep name .right k v w).exec scheme
          [⟨.pair k v, a⟩, ⟨.pair k w, b⟩] =
        .ok ⟨.pair k (.pair (.option v) w), pairRows orNone id a b⟩ ∧
      (Grouper.firstMet.pairStep name .outer k v w).exec scheme
          [⟨.pair k v, a⟩, ⟨.pair k w, b⟩] =
        .ok ⟨.pair k (.pair (.option v) (.option w)), pairRows orNone orNone a b⟩) ∧
    (∀ {β : Type} [Basis β] (k t u v : ElementType β) (name : String) (scheme : HashScheme β)
      (a : List (k.Carrier × t.Carrier)) (b : List (k.Carrier × u.Carrier))
      (c : List (k.Carrier × v.Carrier)),
      (Grouper.firstMet.tripleStep name .cogroup3 k t u v).exec scheme
          [⟨.pair k t, a⟩, ⟨.pair k u, b⟩, ⟨.pair k v, c⟩] =
        .ok ⟨.pair k (.triple (.vector t) (.vector u) (.vector v)), records3 a b c⟩ ∧
      (Grouper.firstMet.tripleStep name .inner3 k t u v).exec scheme
          [⟨.pair k t, a⟩, ⟨.pair k u, b⟩, ⟨.pair k v, c⟩] =
        .ok ⟨.pair k (.triple t u v), tripleRows a b c⟩) ∧
    (∀ {K V W : Type} [BEq K] [Hashable K] [EquivBEq K] [LawfulHashable K] (a : List (K × V))
      (b : List (K × W)),
      cogroup groupTagged a b = records a b ∧
      innerJoin groupTagged a b = pairRows id id a b ∧
      leftJoin groupTagged a b = pairRows id orNone a b ∧
      rightJoin groupTagged a b = pairRows orNone id a b ∧
      outerJoin groupTagged a b = pairRows orNone orNone a b) ∧
    ∀ {K A B C : Type} [BEq K] [Hashable K] [EquivBEq K] [LawfulHashable K] (a : List (K × A))
      (b : List (K × B)) (c : List (K × C)),
      cogroup3 groupTagged a b c = records3 a b c ∧
      innerJoin3 groupTagged a b c = tripleRows a b c := by
  refine ⟨?_, ?_, ?_, ?_⟩
  · intro β _ k v w name scheme a b
    have hexec := fun kind => Grouper.firstMet.pairStep_exec name kind scheme a b
    refine ⟨?_, ?_, ?_, ?_, ?_⟩
    · rw [← cogroup_groupTagged a b]
      exact hexec .cogroup
    · rw [← innerJoin_groupTagged a b]
      exact hexec .inner
    · rw [← leftJoin_groupTagged a b]
      exact hexec .left
    · rw [← rightJoin_groupTagged a b]
      exact hexec .right
    · rw [← outerJoin_groupTagged a b]
      exact hexec .outer
  · intro β _ k t u v name scheme a b c
    have hexec := fun kind => Grouper.firstMet.tripleStep_exec name kind scheme a b c
    refine ⟨?_, ?_⟩
    · rw [← cogroup3_groupTagged a b c]
      exact hexec .cogroup3
    · rw [← innerJoin3_groupTagged a b c]
      exact hexec .inner3
  · intro K V W _ _ _ _ a b
    exact ⟨cogroup_groupTagged a b, innerJoin_groupTagged a b, leftJoin_groupTagged a b,
      rightJoin_groupTagged a b, outerJoin_groupTagged a b⟩
  · intro K A B C _ _ _ _ a b c
    exact ⟨cogroup3_groupTagged a b c, innerJoin3_groupTagged a b c⟩

section Sample

def numberedTexts : List (Int64 × String) := [(2, "a"), (1, "b"), (2, "c")]

def numberedNumbers : List (Int64 × Int64) := [(3, 10), (2, 20), (2, 30)]

theorem firstMet_outerJoin_sample :
    (Grouper.firstMet.pairStep "outer" .outer (.base .int64) (.base .text) (.base .int64)).exec
        ({} : HashScheme Atom) [⟨.pair (.base .int64) (.base .text), numberedTexts⟩,
          ⟨.pair (.base .int64) (.base .int64), numberedNumbers⟩] =
      .ok ⟨.pair (.base .int64) (.pair (.option (.base .text)) (.option (.base .int64))),
        ([(2, some "a", some 20), (2, some "c", some 20), (2, some "a", some 30),
          (2, some "c", some 30), (1, some "b", none), (3, none, some 10)] :
            List (Int64 × (Option String × Option Int64)))⟩ := by
  obtain ⟨_, _, _, _, houter⟩ := firstMet_joins_rows.1 (.base Atom.int64) (.base .text)
    (.base .int64) "outer" {} numberedTexts numberedNumbers
  exact houter.trans rfl

end Sample

end JoinPipeline
