import JoinPipeline.Graph.Edit
import JoinPipeline.Script.Step
import JoinPipeline.Transform

/-!
# Running a script

A session holds the pipelines and the collections that have been named so far. A step that fails
names nothing and leaves the session as it was.
-/

namespace JoinPipeline.Script

/-- A collection together with the type of its elements. -/
structure AnyCollection where
  element : ElementType Atom
  collection : Collection Atom element

structure Session where
  workspace : Workspace Atom := {}
  pipelines : List (String × PipelineId) := []
  collections : List (String × AnyCollection) := []

/-- What a step answers, and the events it reports. -/
structure Outcome where
  answer : Answer
  occurrences : List Log.Occurrence := []

namespace Session

abbrev Result := Outcome × Session

def size (s : Session) (p : PipelineId) : Size :=
  ⟨(s.workspace.graph p).nodeCount, (s.workspace.graph p).edgeCount⟩

def fail (s : Session) (cause : Failure) : Result := (⟨.failed cause, []⟩, s)

def facts (s : Session) (c : AnyCollection) : Answer :=
  .facts c.collection.node c.collection.isChained (s.size c.collection.pipeline)

def namePipeline (s : Session) (name : String) (p : PipelineId) : Session :=
  { s with pipelines := (name, p) :: s.pipelines }

/-- Names a collection and answers its facts. -/
def bind (s : Session) (name : String) (c : AnyCollection) (occurrences : List Log.Occurrence) :
    Result :=
  (⟨s.facts c, occurrences⟩, { s with collections := (name, c) :: s.collections })

/-- Builds a collection and names it. -/
def build (s : Session) (name : String) {t : ElementType Atom}
    (builder : StateM (Workspace Atom) (Collection Atom t)) : Result :=
  let (c, w) := builder s.workspace
  { s with workspace := w }.bind name ⟨t, c⟩ []

/-- Joins collections and names the outcome. -/
def join (s : Session) (name : String) (first : PipelineId) {t : ElementType Atom}
    (joining : Joining Atom t) : Result :=
  let (traced, w) := joining s.workspace
  let s := { s with workspace := w }
  match traced.result with
  | .ok c => s.bind name ⟨t, c⟩ traced.occurrences
  | .error cause => (⟨.failed (.join cause (s.size first)), traced.occurrences⟩, s)

def withPipeline (s : Session) (name : String) (f : PipelineId → Result) : Result :=
  match s.pipelines.lookup name with
  | some p => f p
  | none => s.fail (.noPipeline name)

def withCollection (s : Session) (name : String) (f : AnyCollection → Result) : Result :=
  match s.collections.lookup name with
  | some c => f c
  | none => s.fail (.noCollection name)

/-- A collection of a keyed kind, with the type behind its keys. -/
def keyed? (c : AnyCollection) :
    Option ((v : ElementType Atom) × Collection Atom (.pair anyValue v)) :=
  match c with
  | ⟨.pair (.base .value) v, c⟩ => if v ∈ Kind.payloads then some ⟨v, c⟩ else none
  | _ => none

/-- A collection of keyed values. -/
def keyedValues? (c : AnyCollection) : Option (Collection Atom keyedValue) :=
  match c with
  | ⟨.pair (.base .value) (.base .value), c⟩ => some c
  | _ => none

/-- Joins two collections. One of them holds keyed values, and the other one does so too unless
the join is a plain one. -/
def joinTwo (s : Session) (kind : PairJoin) (transform name : String) (via : Via)
    (x y : AnyCollection) : Result :=
  let admitted := match keyedValues? x, keyedValues? y with
    | some _, some _ => true
    | none, none => false
    | _, _ => via = .plain
  match keyed? x, keyed? y, admitted with
  | some ⟨_, a⟩, some ⟨_, b⟩, true =>
    s.join name a.pipeline (via.grouper.joinTwo transform kind a b)
  | _, _, _ => s.fail (.wrongJoin (s.size x.collection.pipeline))

def joinThree (s : Session) (kind : TripleJoin) (transform name : String) (via : Via)
    (x y z : AnyCollection) : Result :=
  match keyedValues? x, keyedValues? y, keyedValues? z with
  | some a, some b, some c => s.join name a.pipeline (via.grouper.joinThree transform kind a b c)
  | _, _, _ => s.fail (.wrongJoin (s.size x.collection.pipeline))

/-- Answers the rows of a run as values. -/
def answerRows (s : Session) {t : ElementType Atom}
    (traced : Log.Traced (RunError Atom) (List t.Carrier)) : Result :=
  match traced.result with
  | .ok rows => (⟨.rows (rows.map t.toValue), traced.occurrences⟩, s)
  | .error cause => (⟨.failed (.run cause), traced.occurrences⟩, s)

/-- Changes a graph; a change that does not apply is answered by `false`. -/
def editGraph (s : Session) (p : PipelineId) (change : Edit) : Result :=
  let g := s.workspace.graph p
  let put := fun (outcome : Done) (g : Graph Atom) =>
    let s := { s with workspace := s.workspace.setGraph p g }
    ((⟨.edited outcome (s.size p), []⟩, s) : Result)
  let attempt := fun (edited : Option (Graph Atom)) =>
    match edited with
    | some g => put (.success true) g
    | none => put (.success false) g
  match change with
  | .connect start finish => put (.success true) (g.connect start finish)
  | .insertStateless =>
    let (id, g) := g.insert (.stateless [])
    put (.node id) g
  | .remove id => attempt (g.remove? id)
  | .kind id => put (.kind ((g.node? id).map Node.kind)) g
  | .setPayload id payload => attempt (g.setPayload? id payload)
  | .keepRows id => attempt (g.keepRows? id)
  | .dropInput id => attempt (g.dropInput? id)
  | .setInput id place chain => attempt (g.setInput? id place chain)

/-- Adds a pipeline, or another name for one. -/
def addPipeline (s : Session) (name : String) (origin : Origin) : Result :=
  let answer := fun (p : PipelineId) (s : Session) =>
    ((⟨.pipeline (s.workspace.options p).chainCheck (s.size p), []⟩,
      s.namePipeline name p) : Result)
  let add := fun (options : Options) =>
    let (p, w) := Workspace.addPipeline options s.workspace
    answer p { s with workspace := w }
  match origin with
  | .fresh => add {}
  | .checked level =>
    match ChainCheck.parse level with
    | .ok level => add ⟨level⟩
    | .error cause => s.fail (.options cause)
  | .shared other => s.withPipeline other fun p => answer p s

def step (s : Session) : Step → Result
  | .pipeline name origin => s.addPipeline name origin
  | .rows pipeline name data => s.withPipeline pipeline fun p =>
    s.build name (Collection.ofRows p data.element data.rows)
  | .map input name f => s.withCollection input fun c =>
    s.build name (t := anyValue)
      (c.collection.map fun row => f.apply (c.element.toValue row))
  | .filter input name test => s.withCollection input fun c =>
    s.build name (c.collection.filter fun row => test.holds (c.element.toValue row))
  | .flatMap input name f => s.withCollection input fun c =>
    s.build name (t := anyValue)
      (c.collection.flatMap fun row => f.apply (c.element.toValue row))
  | .toKeyed input name key value => s.withCollection input fun c =>
    s.build name (t := keyedValue) (c.collection.map fun row =>
      (key.apply (c.element.toValue row), value.apply (c.element.toValue row)))
  | .keyBy input name f => s.withCollection input fun
    | ⟨.base .value, c⟩ => s.build name (c.keyBy (k := anyValue) f.apply)
    | _ => s.fail .wrongKind
  | .mapValues input name f => s.withCollection input fun c =>
    match keyed? c with
    | some ⟨v, c⟩ => s.build name (c.mapValues (u := anyValue) fun x => f.apply (v.toValue x))
    | none => s.fail .wrongKind
  | .filterValues input name test => s.withCollection input fun c =>
    match keyed? c with
    | some ⟨v, c⟩ => s.build name (c.filterValues fun x => test.holds (v.toValue x))
    | none => s.fail .wrongKind
  | .groupByKey input name => s.withCollection input fun c =>
    match keyedValues? c with
    | some c => s.build name c.groupByKey
    | none => s.fail .wrongKind
  | .joinTwo kind transform left right name via =>
    s.withCollection left fun x => s.withCollection right fun y =>
      s.joinTwo kind transform name via x y
  | .joinThree kind transform first second third name via =>
    s.withCollection first fun x => s.withCollection second fun y =>
      s.withCollection third fun z => s.joinThree kind transform name via x y z
  | .collect input settings isSorted => s.withCollection input fun c =>
    s.answerRows (if isSorted then c.collection.collectSorted settings s.workspace
      else c.collection.collect settings s.workspace)
  | .run pipeline input kind settings => s.withPipeline pipeline fun p =>
    s.withCollection input fun c =>
      s.answerRows ((s.workspace.graph p).collect settings c.collection.node kind.element)
  | .info input => s.withCollection input fun c => (⟨s.facts c, []⟩, s)
  | .graph pipeline => s.withPipeline pipeline fun p =>
    (⟨.graph (s.workspace.graph p).summary (s.workspace.options p), []⟩, s)
  | .handle pipeline name id kind isChained => s.withPipeline pipeline fun p =>
    s.bind name ⟨kind.element, ⟨p, id, isChained⟩⟩ []
  | .edit pipeline change => s.withPipeline pipeline fun p => s.editGraph p change
  | .unknown word => s.fail (.unknownStep word)

/-- A session with one pipeline, named `p`. -/
def start (options : Options) : Session :=
  let (p, w) := Workspace.addPipeline options {}
  { workspace := w, pipelines := [("p", p)] }

/-- What the steps of a script answer. -/
def run (s : Session) : List Step → List Outcome
  | [] => []
  | next :: rest =>
    let (outcome, s) := s.step next
    outcome :: s.run rest

end Session

/-- The log of a step: the number of warnings, and the lines without time stamps. -/
structure LogReport where
  warnings : Nat
  lines : List String

namespace LogReport

/-- A time stamp; every line gets the same one. -/
def stamp : String := "1970-01-01T00:00:00.000000Z"

/-- Whether a text has the form of a time stamp: the same marks in the same places, and digits
everywhere else. -/
def isStamp (word : List Char) : Bool :=
  word.length = stamp.length &&
    (word.zip stamp.toList).all fun (c, mark) => if mark.isDigit then c.isDigit else c = mark

/-- A line without its time stamp and the blanks behind it. A line that goes on with a name in
which a line ended has no time stamp, and is left as it is. -/
def unstamped (line : List Char) : List Char :=
  if isStamp (line.takeWhile (· ≠ ' ')) then
    (line.dropWhile (· ≠ ' ')).dropWhile (· = ' ')
  else line

/-- The log of events as a capture of the calling thread sees it: all of its lines, or the ones
that it counts as warnings. -/
def ofOccurrences (occurrences : List Log.Occurrence) (warningsOnly : Bool) : LogReport :=
  let capture := Log.Capture.record {} stamp occurrences
  let lines := capture.lines
  let shown := if warningsOnly then lines.filter Log.Capture.isWarning else lines
  ⟨capture.warnings, shown.map fun line => String.ofList (unstamped line)⟩

end LogReport

end JoinPipeline.Script
