import JoinPipeline.Element

/-!
# Values

Values whose sort is known only when they are there: null, truth values, 64-bit integers, texts,
present values and lists. They are ordered by sort first and by content within a sort, and two
values are equal exactly when this order does not tell them apart.
-/

namespace JoinPipeline

inductive Value where
  | null
  | bool (b : Bool)
  | int (n : Int64)
  | text (s : String)
  | present (v : Value)
  | list (vs : List Value)
  deriving Inhabited, Repr

namespace Value

/-- The order of two members of a type with decidable equality and decidable `<`. -/
def orderOf {α : Type} [DecidableEq α] [LT α] [DecidableLT α] (a b : α) : Ordering :=
  if a = b then .eq else if a < b then .lt else .gt

theorem orderOf_eq_iff {α : Type} [DecidableEq α] [LT α] [DecidableLT α] (a b : α) :
    orderOf a b = .eq ↔ a = b := by
  unfold orderOf
  split
  · simp [*]
  · split <;> simp [*]

/-- The place of a sort of values among the sorts. -/
def rank : Value → Nat
  | null => 0
  | bool _ => 1
  | int _ => 2
  | text _ => 3
  | present _ => 4
  | list _ => 5

mutual

/-- The order of values. -/
def compare : Value → Value → Ordering
  | bool a, bool b => orderOf a b
  | int a, int b => orderOf a b
  | text a, text b => orderOf a b
  | present a, present b => compare a b
  | list as, list bs => compareAll as bs
  | a, b => orderOf a.rank b.rank

/-- The order of lists of values: the first difference counts, or else the length. -/
def compareAll : List Value → List Value → Ordering
  | [], [] => .eq
  | [], _ :: _ => .lt
  | _ :: _, [] => .gt
  | a :: as, b :: bs => (compare a b).then (compareAll as bs)

end

mutual

theorem compare_eq_iff : (a b : Value) → (compare a b = .eq ↔ a = b)
  | null, b => by cases b <;> simp [compare, orderOf_eq_iff, rank]
  | bool _, b => by cases b <;> simp [compare, orderOf_eq_iff, rank]
  | int _, b => by cases b <;> simp [compare, orderOf_eq_iff, rank]
  | text _, b => by cases b <;> simp [compare, orderOf_eq_iff, rank]
  | present a, b => by
    cases b with
    | present b => simp [compare, compare_eq_iff a b]
    | _ => simp [compare, orderOf_eq_iff, rank]
  | list as, b => by
    cases b with
    | list bs => simp [compare, compareAll_eq_iff as bs]
    | _ => simp [compare, orderOf_eq_iff, rank]

theorem compareAll_eq_iff : (as bs : List Value) → (compareAll as bs = .eq ↔ as = bs)
  | [], [] => by simp [compareAll]
  | [], _ :: _ => by simp [compareAll]
  | _ :: _, [] => by simp [compareAll]
  | a :: as, b :: bs => by
    simp [compareAll, compare_eq_iff a b, compareAll_eq_iff as bs]

end

instance : DecidableEq Value := fun a b => decidable_of_iff _ (compare_eq_iff a b)

mutual

def hash : Value → UInt64
  | null => 1
  | bool b => mixHash 2 (Hashable.hash b)
  | int n => mixHash 3 (Hashable.hash n)
  | text s => mixHash 5 (Hashable.hash s)
  | present v => mixHash 7 v.hash
  | list vs => mixHash 11 (hashAll vs)

def hashAll : List Value → UInt64
  | [] => 13
  | v :: vs => mixHash v.hash (hashAll vs)

end

instance : Hashable Value := ⟨hash⟩

end Value

/-- The element types of scripts and checks that are not built from others. -/
inductive Atom where
  | value
  | word32
  | int64
  | text
  deriving DecidableEq, Repr

namespace Atom

@[reducible] def Carrier : Atom → Type
  | value => Value
  | word32 => UInt32
  | int64 => Int64
  | text => String

def name : Atom → String
  | value => "Val"
  | word32 => "u32"
  | int64 => "i64"
  | text => "alloc::string::String"

instance : Basis Atom where
  Carrier := Carrier
  name := name
  decEqBase := inferInstance
  beqCarrier
    | value => inferInstanceAs (BEq Value)
    | word32 => inferInstanceAs (BEq UInt32)
    | int64 => inferInstanceAs (BEq Int64)
    | text => inferInstanceAs (BEq String)
  equivBEq
    | value => inferInstanceAs (EquivBEq Value)
    | word32 => inferInstanceAs (EquivBEq UInt32)
    | int64 => inferInstanceAs (EquivBEq Int64)
    | text => inferInstanceAs (EquivBEq String)
  compare
    | value => Value.compare
    | word32 => Value.orderOf
    | int64 => Value.orderOf
    | text => Value.orderOf
  hash
    | value => Value.hash
    | word32 => fun n => n.toUInt64
    | int64 => fun n => n.toUInt64
    | text => fun s => Hashable.hash s
  hash_eq
    | value, _, _, h => by rw [eq_of_beq (α := Value) h]
    | word32, _, _, h => by rw [eq_of_beq (α := UInt32) h]
    | int64, _, _, h => by rw [eq_of_beq (α := Int64) h]
    | text, _, _, h => by rw [eq_of_beq (α := String) h]

/-- A member of an atomic type as a value. -/
def toValue : (a : Atom) → a.Carrier → Value
  | value, v => v
  | word32, n => .int (Int64.ofNat n.toNat)
  | int64, n => .int n
  | text, s => .text s

end Atom

/-- Equal elements of scripts and checks are the same. -/
instance (t : ElementType Atom) : LawfulBEq t.Carrier :=
  ElementType.lawfulBEq (fun
    | .value => inferInstanceAs (LawfulBEq Value)
    | .word32 => inferInstanceAs (LawfulBEq UInt32)
    | .int64 => inferInstanceAs (LawfulBEq Int64)
    | .text => inferInstanceAs (LawfulBEq String)) t

/-- An element as a value: pairs, triples and vectors become lists, an absent part becomes null
and a present part a present value. -/
def ElementType.toValue : (t : ElementType Atom) → t.Carrier → Value
  | base a, x => a.toValue x
  | option t, x =>
    match x with
    | none => .null
    | some x => .present (t.toValue x)
  | vector t, xs => .list (xs.map t.toValue)
  | pair s t, x => .list [s.toValue x.1, t.toValue x.2]
  | triple r s t, x => .list [r.toValue x.1, s.toValue x.2.1, t.toValue x.2.2]

end JoinPipeline
