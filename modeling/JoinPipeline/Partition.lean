import JoinPipeline.Element

/-!
# Partitions

A partition is a list of rows together with the type of its elements. Stages hand partitions to
one another without knowing this type; each of them asks for the rows of the type it works on and
gets them only if that is the type of the partition. A partition is cut into consecutive parts
and put together again.
-/

namespace JoinPipeline

variable {β : Type} [Basis β]

structure Partition (β : Type) [Basis β] where
  element : ElementType β
  rows : List element.Carrier

namespace Partition

/-- The rows, if they are of this type. -/
def as? (t : ElementType β) (p : Partition β) : Option (List t.Carrier) :=
  if h : p.element = t then some (h ▸ p.rows) else none

@[simp] theorem as?_self (t : ElementType β) (rows : List t.Carrier) :
    as? t ⟨t, rows⟩ = some rows := by
  simp [as?]

theorem as?_eq_none_iff (t : ElementType β) (p : Partition β) :
    p.as? t = none ↔ p.element ≠ t := by
  by_cases h : p.element = t
  · simp [as?, h]
  · simp [as?, h]

end Partition

/-- Consecutive pieces of `size` rows, the last of which may be shorter. A size of zero counts as
one. -/
def chunks {α : Type} (size : Nat) : List α → List (List α)
  | [] => []
  | a :: rows => (a :: rows.take (size - 1)) :: chunks size (rows.drop (size - 1))
termination_by rows => rows.length

/-- Cuts rows into at most `n` pieces of one size, the last of which may be shorter. -/
def cut {α : Type} (n : Nat) (rows : List α) : List (List α) :=
  if n ≤ 1 ∨ rows.length ≤ 1 then [rows]
  else chunks ((rows.length + n - 1) / n) rows

namespace ElementType

/-- The number of rows of a partition of this type. -/
def count? (t : ElementType β) (p : Partition β) : Option Nat := (p.as? t).map List.length

/-- Cuts a partition of this type. -/
def split? (t : ElementType β) (n : Nat) (p : Partition β) : Option (List (Partition β)) :=
  (p.as? t).map fun rows => (cut n rows).map fun part => ⟨t, part⟩

/-- Puts partitions of this type together, in order. -/
def concat? (t : ElementType β) (parts : List (Partition β)) : Option (Partition β) :=
  (parts.mapM (Partition.as? t)).map fun rows => ⟨t, rows.flatten⟩

end ElementType

end JoinPipeline
