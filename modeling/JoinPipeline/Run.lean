import JoinPipeline.Plan

/-!
# Running a plan

A chain is run from its root: the rows of a source are cut into partitions, and a co-group first
runs the chains of its inputs, puts each of them together and cuts what it makes of them. The
stages behind the root take a list of partitions to another one. In the end the partitions are put
behind one another as rows of the type that was asked for.
-/

namespace JoinPipeline

open Log (Traced)

variable {β : Type} [Basis β]

/-- What holds for a run, chains of inputs included. No two tables of a run need make the same
choices: a scheme is given for every place, and a place is reached by a path of numbers. -/
structure RunContext (β : Type) [Basis β] where
  partitions : Nat := 1
  isParallel : Bool := false
  schemes : List Nat → HashScheme β := fun _ => {}

namespace RunContext

/-- The choices of the table that is made next. -/
def scheme (ctx : RunContext β) : HashScheme β := ctx.schemes []

/-- The places below one number. -/
def below (ctx : RunContext β) (n : Nat) : RunContext β :=
  { ctx with schemes := fun path => ctx.schemes (n :: path) }

/-- What the stages behind a node are run with; a table is not made twice. -/
def behind (ctx : RunContext β) : Node β → RunContext β
  | .groupByKey _ => ctx.below 0
  | _ => ctx

end RunContext

namespace Run

/-- Applies operations to a partition one after another. -/
def applyOps (ops : List (Op β)) (p : Partition β) : Except (RunError β) (Partition β) :=
  ops.foldlM (fun p op => op.apply p) p

/-- Runs one stage behind the root. -/
def stage (ctx : RunContext β) (parts : List (Partition β)) :
    Node β → Traced (RunError β) (List (Partition β))
  | .stateless ops => do
    .report (.statelessStage (ops.map Op.label) parts.length)
    .ofExcept (parts.mapM (applyOps ops))
  | .groupByKey step => .ofExcept do
    let tables ← parts.mapM step.tabulate
    return [← step.merge ctx.scheme tables]
  | node => .fail (.badMiddle node.kind)

/-- Runs the stages behind the root one after another. -/
def stages (ctx : RunContext β) (parts : List (Partition β)) :
    List (Node β) → Traced (RunError β) (List (Partition β))
  | [] => return parts
  | node :: rest => do stages (ctx.behind node) (← stage ctx parts node) rest

/-- The partitions of the rows of a source. -/
def source (ctx : RunContext β) (element : ElementType β) (payload : Partition β) :
    Except (RunError β) (List (Partition β)) :=
  let count := (element.count? payload).getD 0
  match element.split? (min ctx.partitions (max count 1)) payload with
  | some parts => .ok parts
  | none => .error (.payload element)

/-- The partitions of what a co-group has made. -/
def cutOutcome (ctx : RunContext β) (output : ElementType β) (outcome : Partition β) :
    List (Partition β) :=
  let count := (output.count? outcome).getD 0
  if 1 < ctx.partitions ∧ 1 < count then
    (output.split? (min ctx.partitions count) outcome).getD [outcome]
  else [outcome]

/-- Groups the inputs of a co-group and reports the number of its rows. -/
def coGroup (ctx : RunContext β) (step : CoGroupStep β) (inputCount : Nat)
    (inputs : List (Partition β)) : Traced (RunError β) (List (Partition β)) := do
  let outcome ← .ofExcept ((step.exec ctx.scheme inputs).mapError (.inCoGroup step.name))
  .report (.coGroupFinished step.name inputCount ((step.output.count? outcome).getD 0))
  return cutOutcome ctx step.output outcome

/-- Puts the partitions of an input together. -/
def coalesce (name : String) (element : ElementType β) (parts : List (Partition β)) :
    Except (RunError β) (Partition β) :=
  match element.concat? parts with
  | some p => .ok p
  | none => .error (.coGroupInput name element)

mutual

/-- The partitions of a root. -/
def root (ctx : RunContext β) : Node β → Traced (RunError β) (List (Partition β))
  | .source element payload => .ofExcept (source ctx element payload)
  | .coGroup step inputs => do
    let parts ← (runInputs ctx 1 step.name step.inputElements inputs).elsewhereIf ctx.isParallel
    coGroup ctx step inputs.length parts
  | .stateless _ => .fail (.badStart .stateless)
  | .groupByKey _ => .fail (.badStart .groupByKey)

/-- Runs a chain from its root on. -/
def chain (ctx : RunContext β) : List (Node β) → Traced (RunError β) (List (Partition β))
  | [] => .fail .emptyPlan
  | node :: rest => do stages ctx (← root ctx node) rest

/-- Runs the chains of the inputs of a co-group, each of them up to one partition. The inputs are
numbered from `place` on. -/
def runInputs (ctx : RunContext β) (place : Nat) (name : String) (elements : List (ElementType β)) :
    List (List (Node β)) → Traced (RunError β) (List (Partition β))
  | [] => return []
  | input :: rest =>
    match elements with
    | [] => return []
    | element :: elements => do
      let parts ← chain (ctx.below place) input
      let p ← .ofExcept (coalesce name element parts)
      return p :: (← runInputs ctx (place + 1) name elements rest)

end

/-- Rows of partitions of one type, behind one another. -/
def gather (t : ElementType β) (parts : List (Partition β)) :
    Except (RunError β) (List t.Carrier) := do
  let rows ← parts.mapM fun p =>
    match p.as? t with
    | some rows => .ok rows
    | none => .error (.stage "terminal" t)
  return rows.flatten

end Run

/-- How to run, what stands for the number of partitions where it is left open, and the choices of
the tables. -/
structure RunSettings (β : Type) [Basis β] where
  mode : Mode
  defaultPartitions : Nat
  schemes : List Nat → HashScheme β := fun _ => {}

namespace RunSettings

def context (s : RunSettings β) : RunContext β where
  partitions := s.mode.partitions s.defaultPartitions
  isParallel := s.mode.isParallel
  schemes := s.schemes

/-- A number of threads moves the whole run to threads of its own. -/
def hasOwnThreads (s : RunSettings β) : Bool :=
  match s.mode with
  | .parallel (some _) _ => true
  | _ => false

end RunSettings

/-- Plans and runs what leads to a node of a graph, as rows of one type. -/
def Graph.collect (g : Graph β) (settings : RunSettings β) (terminal : NodeId)
    (t : ElementType β) : Traced (RunError β) (List t.Carrier) := do
  let chain ← (g.buildPlan terminal).mapError .walk
  .report (.runningPlan terminal.raw chain.length (Chain.statelessOps chain) settings.mode)
  let parts ← (Run.chain settings.context chain).elsewhereIf settings.hasOwnThreads
  .ofExcept (Run.gather t parts)

end JoinPipeline
