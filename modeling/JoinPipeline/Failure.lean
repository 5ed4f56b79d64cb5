import JoinPipeline.Element

/-!
# Failures of planning and running

A walk back through a graph fails at a node that is not there, or at one that has nothing before
it and is no source. A run fails where a walk does, at a chain of the wrong shape, and at a stage
that gets a partition of another type than it works on.
-/

namespace JoinPipeline

/-- The number of a node in its graph. -/
structure NodeId where
  raw : Nat
  deriving DecidableEq, Repr

def NodeId.text (id : NodeId) : String := "NodeId(" ++ toString id.raw ++ ")"

inductive WalkError where
  | missingNode (id : NodeId)
  | noPredecessor (id : NodeId)
  deriving DecidableEq, Repr

def WalkError.message : WalkError → String
  | missingNode id => "missing node " ++ id.text
  | noPredecessor id => "node " ++ id.text ++ " has no upstream and is not a source"

inductive NodeKind where
  | source
  | stateless
  | groupByKey
  | coGroup
  deriving DecidableEq, Repr

def NodeKind.name : NodeKind → String
  | source => "Source"
  | stateless => "Stateless"
  | groupByKey => "GroupByKey"
  | coGroup => "CoGroup"

inductive RunError (β : Type) where
  | walk (cause : WalkError)
  | emptyPlan
  /-- A chain starts with a node that has no rows of its own. -/
  | badStart (kind : NodeKind)
  /-- A node with rows of its own stands behind another one. -/
  | badMiddle (kind : NodeKind)
  | payload (element : ElementType β)
  | stage (label : String) (element : ElementType β)
  /-- What a group-by-key stage merges is no table of its keys and values. -/
  | noTable
  | coGroupInput (name : String) (element : ElementType β)
  | inputCount (name : String) (expected got : Nat)
  /-- A failure of the grouping itself, with its own cause behind it. -/
  | inCoGroup (name : String) (cause : RunError β)
  deriving Repr

namespace RunError

variable {β : Type} [Basis β]

def coGroupLabel (name : String) : String := "co-group `" ++ name ++ "`"

def message : RunError β → String
  | walk cause => cause.message
  | emptyPlan => "empty plan"
  | badStart kind => "plan must start with a Source or CoGroup, found " ++ kind.name
  | badMiddle kind => "unexpected " ++ kind.name ++ " in the middle of a plan"
  | payload element => "source payload is not a " ++ element.vectorName
  | stage label element => label ++ ": expected partition of " ++ element.vectorName
  | noTable => "group_by_key merge: unexpected partial result"
  | coGroupInput name element =>
    coGroupLabel name ++ ": input is not a " ++ element.vectorName
  | inputCount name expected got =>
    coGroupLabel name ++ ": expected " ++ toString expected ++ " inputs, got " ++ toString got
  | inCoGroup name _ => coGroupLabel name

/-- The messages of the causes behind a failure, nearest first. -/
def causes : RunError β → List String
  | inCoGroup _ cause => cause.message :: cause.causes
  | _ => []

end RunError

end JoinPipeline
