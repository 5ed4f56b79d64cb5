import JoinPipeline.Mode
import JoinPipeline.Text.Quoted
import JoinPipeline.Log.Capture

/-!
# Logged events

What building and running report, as data. An event has a level and a place in the program, and
its line of log text is the level, the place, a message and the fields. Names are quoted in every
field but one.
-/

namespace JoinPipeline.Log

inductive Event where
  /-- A join has inputs that come out of a co-group. -/
  | chained (transform : String) (inputs : Nat)
  /-- A chain of nodes has been found, and fused into stages. -/
  | builtPlan (terminal nodes stages : Nat)
  | addedCoGroup (transform : String) (node : Nat)
  | runningPlan (terminal stages statelessOps : Nat) (mode : Mode)
  | statelessStage (ops : List String) (partitions : Nat)
  | coGroupFinished (transform : String) (inputs rows : Nat)
  deriving DecidableEq, Repr

inductive Level where
  | trace
  | debug
  | warn
  deriving DecidableEq, Repr

def Level.name : Level → String
  | trace => "TRACE"
  | debug => "DEBUG"
  | warn => "WARN"

/-- The name of a level in a column of five characters. -/
def Level.column (l : Level) : String :=
  String.ofList (List.replicate (5 - l.name.length) ' ') ++ l.name

/-- What to do instead of joining the outcome of a co-group. -/
def chainAdvice : String :=
  "an input was produced by another co-group; use a multi-way co-group (cogroup3/inner3) " ++
    "to group all inputs in a single shuffle"

namespace Event

def level : Event → Level
  | chained .. => .warn
  | builtPlan .. => .trace
  | addedCoGroup .. => .debug
  | runningPlan .. => .debug
  | statelessStage .. => .trace
  | coGroupFinished .. => .debug

/-- The place that reports an event. -/
def target : Event → String
  | chained .. => "ironbeam_join::join::chain"
  | builtPlan .. => "ironbeam_join::planner"
  | addedCoGroup .. => "ironbeam_join::join::kernel"
  | runningPlan .. => "ironbeam_join::runner"
  | statelessStage .. => "ironbeam_join::runner"
  | coGroupFinished .. => "ironbeam_join::runner"

/-- Message and fields. -/
def text : Event → String
  | chained transform inputs =>
    "chained co-group detected: " ++ chainAdvice ++ " transform=" ++ Text.quoted transform ++
      " chained_inputs=" ++ toString inputs
  | builtPlan terminal nodes stages =>
    "built plan terminal=" ++ toString terminal ++ " nodes=" ++ toString nodes ++
      " stages=" ++ toString stages
  | addedCoGroup transform node =>
    "added co-group transform=" ++ Text.quoted transform ++ " node=" ++ toString node
  | runningPlan terminal stages statelessOps mode =>
    "running plan terminal=" ++ toString terminal ++ " stages=" ++ toString stages ++
      " stateless_ops=" ++ toString statelessOps ++ " mode=" ++ mode.text
  | statelessStage ops partitions =>
    "stateless stage ops=" ++ Text.shown ops ++ " partitions=" ++ toString partitions
  | coGroupFinished transform inputs rows =>
    "co-group finished transform=" ++ transform ++ " inputs=" ++ toString inputs ++
      " rows=" ++ toString rows

/-- The line of an event behind a time stamp. -/
def line (stamp : String) (e : Event) : String :=
  stamp ++ " " ++ e.level.column ++ " " ++ e.target ++ ": " ++ e.text ++ "\n"

end Event

/-- An event, and whether it is reported by the thread that asked for the work. -/
structure Occurrence where
  event : Event
  onCaller : Bool := true
  deriving DecidableEq, Repr

/-- A capture sees what the calling thread reports. -/
def Capture.record (c : Capture) (stamp : String) (occurrences : List Occurrence) : Capture :=
  occurrences.foldl
    (fun c o => if o.onCaller then c.writeText (o.event.line stamp) else c) c

end JoinPipeline.Log
