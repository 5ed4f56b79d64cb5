import JoinPipeline.Transform
import JoinPipeline.Proofs.Records

/-!
# Lineages

How a collection was built, as a term: a source with its rows, an element-wise transform, a
grouping by key or a join of such terms. A lineage has a chain, which leads to its collection
before anything is fused, and it denotes lists of rows, told on plain lists. Where a step is free
to list its records in some order, a lineage denotes the rows of every such order.
-/

namespace JoinPipeline

variable {β : Type} [Basis β]

/-- The element-wise transforms. -/
inductive Elementwise (β : Type) [Basis β] : ElementType β → ElementType β → Type where
  | map {s t : ElementType β} (f : s.Carrier → t.Carrier) : Elementwise β s t
  | filter {t : ElementType β} (keep : t.Carrier → Bool) : Elementwise β t t
  | flatMap {s t : ElementType β} (f : s.Carrier → List t.Carrier) : Elementwise β s t
  | keyBy {k t : ElementType β} (f : t.Carrier → k.Carrier) : Elementwise β t (.pair k t)
  | mapValues {k v u : ElementType β} (f : v.Carrier → u.Carrier) :
    Elementwise β (.pair k v) (.pair k u)
  | filterValues {k v : ElementType β} (keep : v.Carrier → Bool) :
    Elementwise β (.pair k v) (.pair k v)

namespace Elementwise

/-- What a transform makes of rows. -/
def rows : {s t : ElementType β} → Elementwise β s t → List s.Carrier → List t.Carrier
  | _, _, map f, l => l.map f
  | _, _, filter keep, l => l.filter keep
  | _, _, flatMap f, l => l.flatMap f
  | _, _, keyBy f, l => l.map fun row => (f row, row)
  | _, _, mapValues f, l => l.map fun row => (row.1, f row.2)
  | _, _, filterValues keep, l => l.filter fun row => keep row.2

/-- The transform of a collection. -/
def build : {s t : ElementType β} → Elementwise β s t → Collection β s →
    StateM (Workspace β) (Collection β t)
  | _, _, map f, c => c.map f
  | _, _, filter keep, c => c.filter keep
  | _, _, flatMap f, c => c.flatMap f
  | _, _, keyBy f, c => c.keyBy f
  | _, _, mapValues f, c => c.mapValues f
  | _, _, filterValues keep, c => c.filterValues keep

/-- The operation in the node of a transform. -/
def op : {s t : ElementType β} → Elementwise β s t → Op β
  | s, t, map f => .map s t f
  | t, _, filter keep => .filter t keep
  | s, t, flatMap f => .flatMap s t f
  | t, .pair k _, keyBy f => .map t (.pair k t) fun row => (f row, row)
  | .pair k v, .pair _ u, mapValues f => .map (.pair k v) (.pair k u) fun row => (row.1, f row.2)
  | .pair k v, _, filterValues keep => .filter (.pair k v) fun row => keep row.2

variable {s t : ElementType β}

theorem build_eq (e : Elementwise β s t) (c : Collection β s) :
    e.build c = c.andThen (.stateless [e.op]) c.isChained := by
  cases e <;> rfl

theorem op_apply (e : Elementwise β s t) (l : List s.Carrier) :
    e.op.apply ⟨s, l⟩ = .ok ⟨t, e.rows l⟩ := by
  cases e <;> simp [op, rows, Op.map, Op.filter, Op.flatMap, Op.onRows]

theorem rows_append (e : Elementwise β s t) (l l' : List s.Carrier) :
    e.rows (l ++ l') = e.rows l ++ e.rows l' := by
  cases e <;> simp [rows]

/-- A transform works on every piece of its rows by itself. -/
theorem rows_flatten (e : Elementwise β s t) (pieces : List (List s.Carrier)) :
    e.rows pieces.flatten = (pieces.map e.rows).flatten := by
  induction pieces with
  | nil => cases e <;> rfl
  | cons piece pieces ih =>
    rw [List.flatten_cons, rows_append, ih, List.map_cons, List.flatten_cons]

theorem rows_perm (e : Elementwise β s t) {l l' : List s.Carrier} (h : l.Perm l') :
    (e.rows l).Perm (e.rows l') := by
  cases e with
  | map f => exact h.map f
  | filter keep => exact h.filter keep
  | flatMap f => exact h.flatMap_right f
  | keyBy f => exact h.map _
  | mapValues f => exact h.map _
  | filterValues keep => exact h.filter _

end Elementwise

namespace Grouper

/-- Whatever the choices of the table, the groups are those of the inputs in some order. -/
def IsFaithful (g : Grouper β) : Prop :=
  ∀ scheme k {τ : Type} (inputs : List (List (k.Carrier × τ))),
    (g.group scheme k inputs).Perm (groupsOf inputs)

/-- The groups come in the order in which their keys are first met. -/
def KeepsOrder (g : Grouper β) : Prop :=
  ∀ scheme k {τ : Type} (inputs : List (List (k.Carrier × τ))),
    g.group scheme k inputs = groupsOf inputs

/-- The orders in which records may be listed. -/
def Lists (g : Grouper β) {α : Type} (records listed : List α) : Prop :=
  listed.Perm records ∧ (g.KeepsOrder → listed = records)

end Grouper

/-- How a collection was built. -/
inductive Lineage (β : Type) [Basis β] : ElementType β → Type 1 where
  | source (t : ElementType β) (rows : List t.Carrier) : Lineage β t
  | each {s t : ElementType β} (input : Lineage β s) (e : Elementwise β s t) : Lineage β t
  | groupByKey {k v : ElementType β} (input : Lineage β (.pair k v)) :
    Lineage β (.pair k (.vector v))
  | joinTwo {k v w : ElementType β} (g : Grouper β) (name : String) (kind : PairJoin)
    (x : Lineage β (.pair k v)) (y : Lineage β (.pair k w)) :
    Lineage β (.pair k (kind.payload v w))
  | joinThree {k a b c : ElementType β} (g : Grouper β) (name : String) (kind : TripleJoin)
    (x : Lineage β (.pair k a)) (y : Lineage β (.pair k b)) (z : Lineage β (.pair k c)) :
    Lineage β (.pair k (kind.payload a b c))

namespace Lineage

/-- The nodes that lead to a collection, root first. A co-group owns the plans of its inputs, which
are fused. -/
def chain : {t : ElementType β} → Lineage β t → Chain β
  | _, source t rows => [.source t ⟨t, rows⟩]
  | _, each input e => input.chain ++ [.stateless [e.op]]
  | _, groupByKey (k := k) (v := v) input => input.chain ++ [.groupByKey (.byKey k v)]
  | _, joinTwo (k := k) (v := v) (w := w) g name kind x y =>
    [.coGroup (g.pairStep name kind k v w) [Chain.fuse x.chain, Chain.fuse y.chain]]
  | _, joinThree (k := k) (a := a) (b := b) (c := c) g name kind x y z =>
    [.coGroup (g.tripleStep name kind k a b c)
      [Chain.fuse x.chain, Chain.fuse y.chain, Chain.fuse z.chain]]

/-- The rows a collection may have. -/
def Denotes : {t : ElementType β} → Lineage β t → List t.Carrier → Prop
  | _, source _ rows, out => out = rows
  | _, each input e, out => ∃ rows, input.Denotes rows ∧ out = e.rows rows
  | _, groupByKey input, out => ∃ rows, input.Denotes rows ∧ out.Perm (recordsByKey rows)
  | _, joinTwo g _ kind x y, out =>
    ∃ a b listed, x.Denotes a ∧ y.Denotes b ∧ g.Lists (records a b) listed ∧
      out = listed.flatMap kind.expand
  | _, joinThree g _ kind x y z, out =>
    ∃ a b c listed, x.Denotes a ∧ y.Denotes b ∧ z.Denotes c ∧ g.Lists (records3 a b c) listed ∧
      out = listed.flatMap kind.expand

/-- The groupers of all joins that lead to a collection. -/
def groupers : {t : ElementType β} → Lineage β t → List (Grouper β)
  | _, source _ _ => []
  | _, each input _ => input.groupers
  | _, groupByKey input => input.groupers
  | _, joinTwo g _ _ x y => g :: (x.groupers ++ y.groupers)
  | _, joinThree g _ _ x y z => g :: (x.groupers ++ (y.groupers ++ z.groupers))

/-- Whether a step that leads to a collection groups by key. -/
def groupsByKey : {t : ElementType β} → Lineage β t → Bool
  | _, source _ _ => false
  | _, each input _ => input.groupsByKey
  | _, groupByKey _ => true
  | _, joinTwo _ _ _ x y => x.groupsByKey || y.groupsByKey
  | _, joinThree _ _ _ x y z => x.groupsByKey || (y.groupsByKey || z.groupsByKey)

end Lineage

end JoinPipeline
