/-!
# How a plan is run

A plan runs in one go, or in partitions that are worked on at the same time. The number of
partitions and of threads may be left open.
-/

namespace JoinPipeline

inductive Mode where
  | sequential
  | parallel (threads partitions : Option Nat)
  deriving DecidableEq, Repr

namespace Mode

def optionText : Option Nat → String
  | none => "None"
  | some n => "Some(" ++ toString n ++ ")"

def text : Mode → String
  | sequential => "Sequential"
  | parallel threads partitions =>
    "Parallel \x7b threads: " ++ optionText threads ++ ", partitions: " ++
      optionText partitions ++ " \x7d"

def isParallel : Mode → Bool
  | sequential => false
  | parallel _ _ => true

/-- The number of partitions, which is one in a sequential run and never zero. -/
def partitions (default : Nat) : Mode → Nat
  | sequential => 1
  | parallel _ requested => max (requested.getD default) 1

end Mode

end JoinPipeline
