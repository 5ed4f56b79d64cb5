import JoinPipeline.Expansion
import JoinPipeline.Workspace

/-!
# Joins of collections

A join adds a co-group node to the pipeline of its first input. Before anything is added the level
of that pipeline is applied to the marks of the inputs, and then the plan of every input is taken,
in order; the node owns these plans. A join that fails leaves every pipeline as it was.
-/

namespace JoinPipeline

open Log (Traced)

variable {β : Type} [Basis β]

/-- A way of grouping the tagged inputs of a join. -/
structure Grouper (β : Type) [Basis β] where
  group : HashScheme β → (k : ElementType β) → {τ : Type} → List (List (k.Carrier × τ)) →
    List (Group k.Carrier τ)

namespace Grouper

/-- Keys in the order in which they are first met. -/
def firstMet : Grouper β := ⟨fun _ _ => groupTagged⟩

/-- Keys dealt out to buckets. -/
def bucketed (requested : Nat) : Grouper β :=
  ⟨fun scheme k => groupBucketed (scheme.bucket k) (bucketCount requested)⟩

instance : Inhabited (Grouper β) := ⟨firstMet⟩

end Grouper

inductive JoinError where
  /-- The level forbids an input that comes out of a co-group. -/
  | chained (transform : String)
  /-- No plan leads to an input. -/
  | plan (transform : String) (cause : WalkError)
  deriving DecidableEq, Repr

namespace JoinError

def transform : JoinError → String
  | chained transform => transform
  | plan transform _ => transform

def message : JoinError → String
  | chained transform =>
    "chained co-group detected in `" ++ transform ++ "`: " ++ Log.chainAdvice
  | plan transform _ => "cannot build input plan for `" ++ transform ++ "`"

/-- The messages of the causes behind a failure. -/
def causes : JoinError → List String
  | chained _ => []
  | plan _ cause => [cause.message]

end JoinError

/-- An input of a join, whatever the type of its elements. -/
structure JoinInput (β : Type) [Basis β] where
  pipeline : PipelineId
  node : NodeId
  isChained : Bool
  element : ElementType β

def Collection.asInput {t : ElementType β} (c : Collection β t) : JoinInput β :=
  ⟨c.pipeline, c.node, c.isChained, t⟩

namespace JoinInput

/-- Applies a level to the marks of the inputs. -/
def check (transform : String) (level : ChainCheck) (inputs : List (JoinInput β)) :
    Traced JoinError Unit :=
  match level, inputs.countP isChained with
  | _, 0 => return ()
  | .off, _ => return ()
  | .warning, marked => .report (.chained transform marked)
  | .error, _ => .fail (.chained transform)

/-- The plans of the inputs. -/
def capture (transform : String) (w : Workspace β) :
    List (JoinInput β) → Traced JoinError (List (Chain β))
  | [] => return []
  | input :: rest => do
    let chain ← ((w.graph input.pipeline).buildPlan input.node).mapError (.plan transform)
    return chain :: (← capture transform w rest)

end JoinInput

/-- Adds a co-group of the inputs to the pipeline of `first`, or says why not. -/
def Workspace.addCoGroup (first : PipelineId) (inputs : List (JoinInput β))
    (step : CoGroupStep β) : StateM (Workspace β) (Traced JoinError (Collection β step.output)) :=
  fun w =>
    let captured : Traced JoinError (List (Chain β)) := do
      JoinInput.check step.name (w.options first).chainCheck inputs
      JoinInput.capture step.name w inputs
    match captured.result with
    | .error e => (⟨.error e, captured.occurrences⟩, w)
    | .ok chains =>
      let (id, w') := Workspace.insertNode first (.coGroup step chains) w
      (do
        let _ ← captured
        .report (.addedCoGroup step.name id.raw)
        return ⟨first, id, true⟩, w')

namespace CoGroupStep

/-- The rows of an input of a co-group. -/
def rowsOf (name : String) (t : ElementType β) (p : Partition β) :
    Except (RunError β) (List t.Carrier) :=
  match p.as? t with
  | some rows => .ok rows
  | none => .error (.stage name t)

/-- A co-group of two inputs. -/
def two (name : String) (a b out : ElementType β)
    (rows : HashScheme β → List a.Carrier → List b.Carrier → List out.Carrier) : CoGroupStep β where
  name := name
  inputElements := [a, b]
  output := out
  exec
    | scheme, [p, q] => do
      let xs ← rowsOf name a p
      let ys ← rowsOf name b q
      return ⟨out, rows scheme xs ys⟩
    | _, parts => .error (.inputCount name 2 parts.length)

/-- A co-group of three inputs. -/
def three (name : String) (a b c out : ElementType β)
    (rows : HashScheme β → List a.Carrier → List b.Carrier → List c.Carrier → List out.Carrier) :
    CoGroupStep β where
  name := name
  inputElements := [a, b, c]
  output := out
  exec
    | scheme, [p, q, r] => do
      let xs ← rowsOf name a p
      let ys ← rowsOf name b q
      let zs ← rowsOf name c r
      return ⟨out, rows scheme xs ys zs⟩
    | _, parts => .error (.inputCount name 3 parts.length)

end CoGroupStep

/-- What joining collections gives: a collection or a failure, and the workspace behind it. -/
abbrev Joining (β : Type) [Basis β] (t : ElementType β) :=
  StateM (Workspace β) (Traced JoinError (Collection β t))

/-- The joins of two inputs. -/
inductive PairJoin where
  | cogroup
  | inner
  | left
  | right
  | outer
  deriving DecidableEq, Repr

namespace PairJoin

/-- The type behind the key in the rows of a join. -/
@[reducible] def payload (v w : ElementType β) : PairJoin → ElementType β
  | cogroup => .pair (.vector v) (.vector w)
  | inner => .pair v w
  | left => .pair v (.option w)
  | right => .pair (.option v) w
  | outer => .pair (.option v) (.option w)

def rows {k v w : ElementType β} (kind : PairJoin)
    (grouping : PairGrouping k.Carrier v.Carrier w.Carrier) (a : List (k.Carrier × v.Carrier))
    (b : List (k.Carrier × w.Carrier)) : List (k.Carrier × (kind.payload v w).Carrier) :=
  match kind with
  | cogroup => JoinPipeline.cogroup grouping a b
  | inner => innerJoin grouping a b
  | left => leftJoin grouping a b
  | right => rightJoin grouping a b
  | outer => outerJoin grouping a b

end PairJoin

/-- The joins of three inputs. -/
inductive TripleJoin where
  | cogroup3
  | inner3
  deriving DecidableEq, Repr

namespace TripleJoin

/-- The type behind the key in the rows of a join. -/
@[reducible] def payload (a b c : ElementType β) : TripleJoin → ElementType β
  | cogroup3 => .triple (.vector a) (.vector b) (.vector c)
  | inner3 => .triple a b c

def rows {k a b c : ElementType β} (kind : TripleJoin)
    (grouping : TripleGrouping k.Carrier a.Carrier b.Carrier c.Carrier)
    (x : List (k.Carrier × a.Carrier)) (y : List (k.Carrier × b.Carrier))
    (z : List (k.Carrier × c.Carrier)) : List (k.Carrier × (kind.payload a b c).Carrier) :=
  match kind with
  | cogroup3 => JoinPipeline.cogroup3 grouping x y z
  | inner3 => innerJoin3 grouping x y z

end TripleJoin

namespace Grouper

section Steps

variable (grouper : Grouper β) (name : String)

/-- The co-group of a join of two inputs. -/
def pairStep (kind : PairJoin) (k v w : ElementType β) : CoGroupStep β :=
  .two name (.pair k v) (.pair k w) (.pair k (kind.payload v w))
    fun scheme => kind.rows (grouper.group scheme k)

/-- The co-group of a join of three inputs. -/
def tripleStep (kind : TripleJoin) (k a b c : ElementType β) : CoGroupStep β :=
  .three name (.pair k a) (.pair k b) (.pair k c) (.pair k (kind.payload a b c))
    fun scheme => kind.rows (grouper.group scheme k)

end Steps

variable {k v w a b c : ElementType β} (grouper : Grouper β) (name : String)

def joinTwo (kind : PairJoin) (x : Collection β (.pair k v)) (y : Collection β (.pair k w)) :
    Joining β (.pair k (kind.payload v w)) :=
  Workspace.addCoGroup x.pipeline [x.asInput, y.asInput] (grouper.pairStep name kind k v w)

def joinThree (kind : TripleJoin) (x : Collection β (.pair k a)) (y : Collection β (.pair k b))
    (z : Collection β (.pair k c)) : Joining β (.pair k (kind.payload a b c)) :=
  Workspace.addCoGroup x.pipeline [x.asInput, y.asInput, z.asInput]
    (grouper.tripleStep name kind k a b c)

variable (x : Collection β (.pair k v)) (y : Collection β (.pair k w))

def cogroup : Joining β (.pair k (.pair (.vector v) (.vector w))) :=
  grouper.joinTwo name .cogroup x y

def inner : Joining β (.pair k (.pair v w)) := grouper.joinTwo name .inner x y

def left : Joining β (.pair k (.pair v (.option w))) := grouper.joinTwo name .left x y

def right : Joining β (.pair k (.pair (.option v) w)) := grouper.joinTwo name .right x y

def outer : Joining β (.pair k (.pair (.option v) (.option w))) :=
  grouper.joinTwo name .outer x y

variable (p : Collection β (.pair k a)) (q : Collection β (.pair k b))
  (r : Collection β (.pair k c))

def cogroup3 : Joining β (.pair k (.triple (.vector a) (.vector b) (.vector c))) :=
  grouper.joinThree name .cogroup3 p q r

def inner3 : Joining β (.pair k (.triple a b c)) := grouper.joinThree name .inner3 p q r

end Grouper

end JoinPipeline
