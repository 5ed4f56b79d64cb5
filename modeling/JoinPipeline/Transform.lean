import JoinPipeline.Workspace

/-!
# Sources and transforms

A source puts rows into a pipeline. An element-wise transform keeps the mark of its input, and one
on keyed rows is a transform of whole rows. Grouping by key clears the mark.
-/

namespace JoinPipeline

variable {β : Type} [Basis β]

namespace Op

/-- An operation on the rows of a partition, which refuses every other type of rows. -/
def onRows (label : String) (s t : ElementType β) (f : List s.Carrier → List t.Carrier) : Op β where
  label := label
  apply p :=
    match p.as? s with
    | some rows => .ok ⟨t, f rows⟩
    | none => .error (.stage label s)

def map (s t : ElementType β) (f : s.Carrier → t.Carrier) : Op β :=
  onRows "map" s t (List.map f)

def filter (t : ElementType β) (keep : t.Carrier → Bool) : Op β :=
  onRows "filter" t t (List.filter keep)

def flatMap (s t : ElementType β) (f : s.Carrier → List t.Carrier) : Op β :=
  onRows "flat_map" s t (List.flatMap f)

end Op

namespace GroupStep

/-- Appends the entries of a table, listed in some order, to a merged table. -/
def absorb (scheme : HashScheme β) (k v : ElementType β) (merged : KeyTable k.Carrier v.Carrier)
    (table : Partial β) : Except (RunError β) (KeyTable k.Carrier v.Carrier) :=
  match table.table? k v with
  | some entries => .ok (merged.absorb (scheme.listing k v entries.entries))
  | none => .error .noTable

/-- Gathers every partition in a table, merges the tables and lists the entries. -/
def byKey (k v : ElementType β) : GroupStep β where
  tabulate p :=
    match p.as? (.pair k v) with
    | some rows => .ok (.table k v (KeyTable.ofRows rows))
    | none => .error (.stage "group_by_key" (.pair k v))
  merge scheme tables := do
    let merged ← tables.foldlM (absorb scheme k v) {}
    return ⟨.pair k (.vector v), scheme.listing k v merged.entries⟩

end GroupStep

namespace Collection

variable {s t k v u : ElementType β}

/-- A source of the given rows. -/
def ofRows (p : PipelineId) (t : ElementType β) (rows : List t.Carrier) :
    StateM (Workspace β) (Collection β t) := do
  let id ← Workspace.insertNode p (.source t ⟨t, rows⟩)
  return ⟨p, id, false⟩

def map (c : Collection β s) (f : s.Carrier → t.Carrier) : StateM (Workspace β) (Collection β t) :=
  c.andThen (.stateless [.map s t f]) c.isChained

def filter (c : Collection β t) (keep : t.Carrier → Bool) :
    StateM (Workspace β) (Collection β t) :=
  c.andThen (.stateless [.filter t keep]) c.isChained

def flatMap (c : Collection β s) (f : s.Carrier → List t.Carrier) :
    StateM (Workspace β) (Collection β t) :=
  c.andThen (.stateless [.flatMap s t f]) c.isChained

/-- Every row behind a key computed from it. -/
def keyBy (c : Collection β t) (f : t.Carrier → k.Carrier) :
    StateM (Workspace β) (Collection β (.pair k t)) :=
  c.map (t := .pair k t) fun row => (f row, row)

def mapValues (c : Collection β (.pair k v)) (f : v.Carrier → u.Carrier) :
    StateM (Workspace β) (Collection β (.pair k u)) :=
  c.map (t := .pair k u) fun row => (row.1, f row.2)

def filterValues (c : Collection β (.pair k v)) (keep : v.Carrier → Bool) :
    StateM (Workspace β) (Collection β (.pair k v)) :=
  c.filter fun row => keep row.2

/-- One record per key with all of its values. -/
def groupByKey (c : Collection β (.pair k v)) :
    StateM (Workspace β) (Collection β (.pair k (.vector v))) :=
  c.andThen (.groupByKey (.byKey k v)) false

end Collection

end JoinPipeline
