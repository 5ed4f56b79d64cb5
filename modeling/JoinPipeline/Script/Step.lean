import JoinPipeline.Join
import JoinPipeline.Script.Kind
import JoinPipeline.Value.Function

/-!
# Steps of a script

A script builds pipelines of values, collects rows and looks at graphs, one step after another.
Pipelines and collections are named. What a step answers is data: the facts of a collection, rows,
a count of nodes and edges, or a failure.
-/

namespace JoinPipeline.Script

/-- How the inputs of a join are grouped. Only the plain way admits inputs of other kinds than
keyed values. -/
inductive Via where
  | plain
  | firstMet
  | bucketed (buckets : Nat)
  deriving DecidableEq, Repr

def Via.grouper : Via → Grouper Atom
  | plain => .firstMet
  | firstMet => .firstMet
  | bucketed buckets => .bucketed buckets

/-- Where a new pipeline comes from. -/
inductive Origin where
  | fresh
  | checked (level : String)
  | shared (pipeline : String)
  deriving DecidableEq, Repr

inductive Edit where
  | connect (start finish : NodeId)
  | insertStateless
  | remove (id : NodeId)
  | kind (id : NodeId)
  | setPayload (id : NodeId) (payload : Partition Atom)
  | keepRows (id : NodeId)
  | dropInput (id : NodeId)
  | setInput (id : NodeId) (place : Nat) (chain : List NodeId)

inductive Step where
  | pipeline (name : String) (origin : Origin)
  | rows (pipeline name : String) (data : Partition Atom)
  | map (input name : String) (f : Value.Function)
  | filter (input name : String) (test : Value.Test)
  | flatMap (input name : String) (f : Value.Spread)
  | toKeyed (input name : String) (key value : Value.Function)
  | keyBy (input name : String) (f : Value.Function)
  | mapValues (input name : String) (f : Value.Function)
  | filterValues (input name : String) (test : Value.Test)
  | groupByKey (input name : String)
  | joinTwo (kind : PairJoin) (transform left right name : String) (via : Via)
  | joinThree (kind : TripleJoin) (transform first second third name : String) (via : Via)
  | collect (input : String) (settings : RunSettings Atom) (isSorted : Bool)
  | run (pipeline input : String) (kind : Kind) (settings : RunSettings Atom)
  | info (input : String)
  | graph (pipeline : String)
  | handle (pipeline name : String) (id : NodeId) (kind : Kind) (isChained : Bool)
  | edit (pipeline : String) (change : Edit)
  | unknown (word : String)

/-- The number of nodes and edges of a graph. -/
structure Size where
  nodes : Nat
  edges : Nat
  deriving DecidableEq, Repr

/-- What an edit has done. -/
inductive Done where
  | success (b : Bool)
  | node (id : NodeId)
  | kind (kind : Option NodeKind)
  deriving DecidableEq, Repr

inductive Failure where
  | noCollection (name : String)
  | noPipeline (name : String)
  | unknownStep (word : String)
  | wrongKind
  | wrongJoin (size : Size)
  | options (cause : ChainCheck.Unknown)
  | join (cause : JoinError) (size : Size)
  | run (cause : RunError Atom)

inductive Answer where
  | pipeline (level : ChainCheck) (size : Size)
  | facts (id : NodeId) (isChained : Bool) (size : Size)
  | rows (rows : List Value)
  | graph (summary : String) (options : Options)
  | edited (outcome : Done) (size : Size)
  | failed (cause : Failure)

end JoinPipeline.Script
