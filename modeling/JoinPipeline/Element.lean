/-!
# Types of elements

The elements of a collection have a type that is known when the pipeline runs. A basis gives the
types that are not built from others, with their names, equality, order and hash; options,
vectors, pairs and triples are built on top of it. Elements are compared by an equivalence with
which the hash agrees; it may hold between elements that other functions tell apart. Two types are
the same exactly when they are built in the same way, so that a check for a type is a decision
between two such terms.
-/

namespace JoinPipeline

/-- The types from which all others are built. -/
class Basis (β : Type) where
  Carrier : β → Type
  name : β → String
  decEqBase : DecidableEq β
  beqCarrier (b : β) : BEq (Carrier b)
  equivBEq (b : β) : EquivBEq (Carrier b)
  compare (b : β) : Carrier b → Carrier b → Ordering
  hash (b : β) : Carrier b → UInt64
  hash_eq (b : β) (x y : Carrier b) : (x == y) = true → hash b x = hash b y

instance {β : Type} [Basis β] (b : β) : BEq (Basis.Carrier b) := Basis.beqCarrier b

instance {β : Type} [Basis β] (b : β) : EquivBEq (Basis.Carrier b) := Basis.equivBEq b

inductive ElementType (β : Type) where
  | base (b : β)
  | option (t : ElementType β)
  | vector (t : ElementType β)
  | pair (s t : ElementType β)
  | triple (r s t : ElementType β)
  deriving DecidableEq, Repr

section Equality

variable {α γ : Type} [BEq α] [EquivBEq α] [BEq γ] [EquivBEq γ]

instance equivBEqOption : EquivBEq (Option α) where
  rfl {x} := by
    cases x with
    | none => rfl
    | some a => exact BEq.rfl (a := a)
  symm {x y} h := by
    cases x with
    | none =>
      cases y with
      | none => rfl
      | some b => cases h
    | some a =>
      cases y with
      | none => cases h
      | some b => exact BEq.symm (a := a) h
  trans {x y z} h h' := by
    cases x with
    | none =>
      cases y with
      | none => exact h'
      | some b => cases h
    | some a =>
      cases y with
      | none => cases h
      | some b =>
        cases z with
        | none => cases h'
        | some c => exact BEq.trans (a := a) h h'

theorem beq_symm_list {xs ys : List α} (h : (xs == ys) = true) : (ys == xs) = true := by
  induction xs generalizing ys with
  | nil =>
    cases ys with
    | nil => rfl
    | cons y ys => cases h
  | cons x xs ih =>
    cases ys with
    | nil => cases h
    | cons y ys =>
      rw [List.cons_beq_cons, Bool.and_eq_true] at h ⊢
      exact ⟨BEq.symm h.1, ih h.2⟩

theorem beq_trans_list {xs ys zs : List α} (h : (xs == ys) = true) (h' : (ys == zs) = true) :
    (xs == zs) = true := by
  induction xs generalizing ys zs with
  | nil =>
    cases ys with
    | nil => exact h'
    | cons y ys => cases h
  | cons x xs ih =>
    cases ys with
    | nil => cases h
    | cons y ys =>
      cases zs with
      | nil => cases h'
      | cons z zs =>
        rw [List.cons_beq_cons, Bool.and_eq_true] at h h' ⊢
        exact ⟨BEq.trans h.1 h'.1, ih h.2 h'.2⟩

instance equivBEqList : EquivBEq (List α) where
  symm := beq_symm_list
  trans := beq_trans_list

instance equivBEqProd : EquivBEq (α × γ) where
  symm h := by
    have hparts := Bool.and_eq_true_iff.1 h
    exact Bool.and_eq_true_iff.2 ⟨BEq.symm hparts.1, BEq.symm hparts.2⟩
  trans h h' := by
    have hparts := Bool.and_eq_true_iff.1 h
    have hparts' := Bool.and_eq_true_iff.1 h'
    exact Bool.and_eq_true_iff.2
      ⟨BEq.trans hparts.1 hparts'.1, BEq.trans hparts.2 hparts'.2⟩

end Equality

/-- Compares the parts of two lists one after another; a list that ends first comes first. -/
def compareLists {α : Type} (compare : α → α → Ordering) : List α → List α → Ordering
  | [], [] => .eq
  | [], _ :: _ => .lt
  | _ :: _, [] => .gt
  | a :: as, b :: bs => (compare a b).then (compareLists compare as bs)

namespace ElementType

variable {β : Type} [Basis β]

instance : DecidableEq (ElementType β) :=
  @instDecidableEqElementType β Basis.decEqBase

/-- The elements of a type. -/
@[reducible] def Carrier : ElementType β → Type
  | base b => Basis.Carrier b
  | option t => Option t.Carrier
  | vector t => List t.Carrier
  | pair s t => s.Carrier × t.Carrier
  | triple r s t => r.Carrier × s.Carrier × t.Carrier

/-- The name of a type in messages. -/
def name : ElementType β → String
  | base b => Basis.name b
  | option t => "core::option::Option<" ++ t.name ++ ">"
  | vector t => "alloc::vec::Vec<" ++ t.name ++ ">"
  | pair s t => "(" ++ s.name ++ ", " ++ t.name ++ ")"
  | triple r s t => "(" ++ r.name ++ ", " ++ s.name ++ ", " ++ t.name ++ ")"

/-- The name of the type of a vector of such elements. -/
def vectorName (t : ElementType β) : String := "Vec<" ++ t.name ++ ">"

/-- Elements are equal if their parts are. -/
@[reducible] def beqCarrier : (t : ElementType β) → BEq t.Carrier
  | base b => Basis.beqCarrier b
  | option t => have := t.beqCarrier; inferInstanceAs (BEq (Option t.Carrier))
  | vector t => have := t.beqCarrier; inferInstanceAs (BEq (List t.Carrier))
  | pair s t =>
    have := s.beqCarrier
    have := t.beqCarrier
    inferInstanceAs (BEq (s.Carrier × t.Carrier))
  | triple r s t =>
    have := r.beqCarrier
    have := s.beqCarrier
    have := t.beqCarrier
    inferInstanceAs (BEq (r.Carrier × s.Carrier × t.Carrier))

instance (t : ElementType β) : BEq t.Carrier := t.beqCarrier

theorem equivBEq : (t : ElementType β) → EquivBEq t.Carrier
  | base b => Basis.equivBEq b
  | option t => have := t.equivBEq; inferInstanceAs (EquivBEq (Option t.Carrier))
  | vector t => have := t.equivBEq; inferInstanceAs (EquivBEq (List t.Carrier))
  | pair s t =>
    have := s.equivBEq
    have := t.equivBEq
    inferInstanceAs (EquivBEq (s.Carrier × t.Carrier))
  | triple r s t =>
    have := r.equivBEq
    have := s.equivBEq
    have := t.equivBEq
    inferInstanceAs (EquivBEq (r.Carrier × s.Carrier × t.Carrier))

instance (t : ElementType β) : EquivBEq t.Carrier := t.equivBEq

/-- If equal elements of the base types are the same, so are those of all types. -/
theorem lawfulBEq (h : ∀ b : β, LawfulBEq (Basis.Carrier b)) :
    (t : ElementType β) → LawfulBEq t.Carrier
  | base b => h b
  | option t => have := lawfulBEq h t; inferInstanceAs (LawfulBEq (Option t.Carrier))
  | vector t => have := lawfulBEq h t; inferInstanceAs (LawfulBEq (List t.Carrier))
  | pair s t =>
    have := lawfulBEq h s
    have := lawfulBEq h t
    inferInstanceAs (LawfulBEq (s.Carrier × t.Carrier))
  | triple r s t =>
    have := lawfulBEq h r
    have := lawfulBEq h s
    have := lawfulBEq h t
    inferInstanceAs (LawfulBEq (r.Carrier × s.Carrier × t.Carrier))

/-- The order of elements: parts count from the left, and an absent part comes before a present
one. -/
def compare : (t : ElementType β) → t.Carrier → t.Carrier → Ordering
  | base b, x, y => Basis.compare b x y
  | option t, x, y =>
    match x, y with
    | none, none => .eq
    | none, some _ => .lt
    | some _, none => .gt
    | some x, some y => t.compare x y
  | vector t, xs, ys => compareLists t.compare xs ys
  | pair s t, x, y => (s.compare x.1 y.1).then (t.compare x.2 y.2)
  | triple r s t, x, y =>
    (r.compare x.1 y.1).then ((s.compare x.2.1 y.2.1).then (t.compare x.2.2 y.2.2))

def hash : (t : ElementType β) → t.Carrier → UInt64
  | base b, x => Basis.hash b x
  | option t, x =>
    match x with
    | none => 11
    | some x => mixHash 13 (t.hash x)
  | vector t, xs => xs.foldl (fun h x => mixHash h (t.hash x)) 7
  | pair s t, x => mixHash (s.hash x.1) (t.hash x.2)
  | triple r s t, x => mixHash (r.hash x.1) (mixHash (s.hash x.2.1) (t.hash x.2.2))

theorem foldl_mixHash_eq {α : Type} [BEq α] {hash : α → UInt64}
    (h : ∀ x y, (x == y) = true → hash x = hash y) {xs ys : List α} (hxy : (xs == ys) = true)
    (seed : UInt64) :
    xs.foldl (fun seed x => mixHash seed (hash x)) seed =
      ys.foldl (fun seed x => mixHash seed (hash x)) seed := by
  induction xs generalizing ys seed with
  | nil =>
    cases ys with
    | nil => rfl
    | cons y ys => cases hxy
  | cons x xs ih =>
    cases ys with
    | nil => cases hxy
    | cons y ys =>
      rw [List.cons_beq_cons, Bool.and_eq_true] at hxy
      rw [List.foldl_cons, List.foldl_cons, h x y hxy.1, ih hxy.2]

/-- Equal elements have the same hash. -/
theorem hash_eq : (t : ElementType β) → (x y : t.Carrier) → (x == y) = true → t.hash x = t.hash y
  | base b, x, y, h => Basis.hash_eq b x y h
  | option t, x, y, h => by
    cases x with
    | none =>
      cases y with
      | none => rfl
      | some y => cases h
    | some x =>
      cases y with
      | none => cases h
      | some y => exact congrArg (mixHash 13) (t.hash_eq x y h)
  | vector t, xs, ys, h => foldl_mixHash_eq t.hash_eq h 7
  | pair s t, x, y, h => by
    have hparts := Bool.and_eq_true_iff.1 h
    rw [hash, hash, s.hash_eq x.1 y.1 hparts.1, t.hash_eq x.2 y.2 hparts.2]
  | triple r s t, x, y, h => by
    have hparts := Bool.and_eq_true_iff.1 h
    have hrest := Bool.and_eq_true_iff.1 hparts.2
    rw [hash, hash, r.hash_eq x.1 y.1 hparts.1, s.hash_eq x.2.1 y.2.1 hrest.1,
      t.hash_eq x.2.2 y.2.2 hrest.2]

instance (t : ElementType β) : Hashable t.Carrier := ⟨t.hash⟩

instance (t : ElementType β) : LawfulHashable t.Carrier := ⟨t.hash_eq⟩

/-- Rows in ascending order; rows that the order ties keep theirs. -/
def sort (t : ElementType β) (rows : List t.Carrier) : List t.Carrier :=
  rows.mergeSort fun x y => (t.compare x y).isLE

end ElementType

end JoinPipeline
