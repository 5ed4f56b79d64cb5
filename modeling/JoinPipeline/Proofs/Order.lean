import JoinPipeline.Value
import Mathlib.Data.List.Forall2

/-!
# The order of rows

Where the order of elements is total, sorting leaves nothing of the order in which rows have come
but among rows that the order does not tell apart.
-/

namespace JoinPipeline

namespace Value

variable {α : Type} [DecidableEq α] [LE α] [LT α] [DecidableLT α] [Std.IsLinearOrder α]
  [Std.LawfulOrderLT α]

omit [LE α] [Std.IsLinearOrder α] [Std.LawfulOrderLT α] in
theorem orderOf_lawfulEqCmp : Std.LawfulEqCmp (orderOf : α → α → Ordering) where
  compare_self := (orderOf_eq_iff _ _).2 rfl
  eq_of_compare h := (orderOf_eq_iff _ _).1 h

theorem isLE_orderOf (a b : α) : (orderOf a b).isLE = true ↔ a ≤ b := by
  unfold orderOf
  split
  next heq =>
    subst heq
    exact iff_of_true rfl (Std.le_refl a)
  next hne =>
    split
    next hlt => exact iff_of_true rfl (Std.le_of_lt hlt)
    next hnot =>
      refine iff_of_false (fun h => nomatch h) fun hle => ?_
      exact hnot (Std.lt_of_le_of_ne hle hne)

/-- The order of a linearly ordered type is total. -/
theorem orderOf_transCmp : Std.TransCmp (orderOf : α → α → Ordering) where
  eq_swap {a b} := by
    unfold orderOf
    by_cases heq : a = b
    · subst heq
      rw [if_pos rfl]
      rfl
    · have heq' : ¬ b = a := fun h => heq h.symm
      rw [if_neg heq, if_neg heq']
      by_cases hlt : a < b
      · rw [if_pos hlt, if_neg (Std.not_lt.2 (Std.le_of_lt hlt))]
        rfl
      · have hlt' : b < a := Std.lt_of_le_of_ne (Std.not_lt.1 hlt) heq'
        rw [if_neg hlt, if_pos hlt']
        rfl
  isLE_trans {a b c} hab hbc := by
    rw [isLE_orderOf] at hab hbc ⊢
    exact Std.le_trans hab hbc

end Value

namespace ElementType

variable {β : Type} [Basis β] {s t : ElementType β}

theorem lawfulEqCmp_pair (hs : Std.LawfulEqCmp s.compare) (ht : Std.LawfulEqCmp t.compare) :
    Std.LawfulEqCmp (pair s t).compare where
  compare_self {x} := by
    rw [compare, hs.compare_self, ht.compare_self]
    rfl
  eq_of_compare {x y} h := by
    rw [compare, Ordering.then_eq_eq] at h
    exact Prod.ext (hs.eq_of_compare h.1) (ht.eq_of_compare h.2)

theorem transCmp_pair (hs : Std.TransCmp s.compare) (ht : Std.TransCmp t.compare) :
    Std.TransCmp (pair s t).compare where
  eq_swap {x y} := by
    rw [compare, compare, Ordering.swap_then, ← hs.eq_swap, ← ht.eq_swap]
  isLE_trans {x y z} hxy hyz := by
    rw [compare, Ordering.isLE_then_iff_and] at hxy hyz ⊢
    refine ⟨hs.isLE_trans hxy.1 hyz.1, ?_⟩
    rcases hxy.2 with hlt | hle
    · exact .inl (Std.TransCmp.lt_of_lt_of_isLE hlt hyz.1)
    · rcases hyz.2 with hlt' | hle'
      · exact .inl (Std.TransCmp.lt_of_isLE_of_lt hxy.1 hlt')
      · exact .inr (ht.isLE_trans hle hle')

theorem beq_of_forall₂ {α : Type} [BEq α] {xs ys : List α}
    (h : List.Forall₂ (fun x y => (x == y) = true) xs ys) : (xs == ys) = true := by
  induction h with
  | nil => rfl
  | cons hxy _ ih =>
    rw [List.cons_beq_cons, hxy, ih]
    rfl

section Sorting

variable [Std.TransCmp t.compare]

theorem pairwise_sort (rows : List t.Carrier) :
    (t.sort rows).Pairwise fun x y => (t.compare x y).isLE = true := by
  refine List.pairwise_mergeSort ?_ ?_ rows
  · intro x y z hxy hyz
    exact Std.TransCmp.isLE_trans hxy hyz
  · intro x y
    have hswap : t.compare y x = (t.compare x y).swap := Std.OrientedCmp.eq_swap
    rw [hswap]
    cases t.compare x y <;> rfl

/-- Elements that the order does not tell apart. -/
def tied (t : ElementType β) [Std.TransCmp t.compare] : Setoid t.Carrier where
  r x y := t.compare x y = .eq
  iseqv :=
    { refl _ := Std.ReflCmp.compare_self
      symm h := Std.OrientedCmp.eq_comm.1 h
      trans h h' := Std.TransCmp.eq_trans h h' }

/-- The order of the classes of tied elements. -/
def classLE (p q : Quotient t.tied) : Prop :=
  ∃ x y, p = Quotient.mk t.tied x ∧ q = Quotient.mk t.tied y ∧ (t.compare x y).isLE = true

theorem classLE_antisymm {p q : Quotient t.tied} (h : classLE p q) (h' : classLE q p) : p = q := by
  obtain ⟨x, y, rfl, rfl, hxy⟩ := h
  obtain ⟨y', x', hy, hx, hyx⟩ := h'
  have htiedx : t.compare x x' = .eq := Quotient.exact hx
  have htiedy : t.compare y y' = .eq := Quotient.exact hy
  rw [← Std.TransCmp.congr_left htiedy, ← Std.TransCmp.congr_right htiedx] at hyx
  exact Quotient.sound (Std.OrientedCmp.isLE_antisymm hxy hyx)

/-- Rows in another order agree place by place when they are sorted: of the classes of tied
elements there is one ascending list. -/
theorem sort_tied {l l' : List t.Carrier} (h : l.Perm l') :
    List.Forall₂ (fun x y => t.compare x y = .eq) (t.sort l) (t.sort l') := by
  have hperm : (t.sort l).Perm (t.sort l') :=
    (List.mergeSort_perm l _).trans (h.trans (List.mergeSort_perm l' _).symm)
  have hsorted : ∀ rows : List t.Carrier,
      ((t.sort rows).map (Quotient.mk t.tied)).Pairwise classLE := fun rows =>
    List.pairwise_map.2 ((pairwise_sort rows).imp fun hxy => ⟨_, _, rfl, rfl, hxy⟩)
  have hclasses : (t.sort l).map (Quotient.mk t.tied) = (t.sort l').map (Quotient.mk t.tied) :=
    List.Perm.eq_of_pairwise (fun _ _ _ _ => classLE_antisymm) (hsorted l) (hsorted l')
      (hperm.map _)
  rw [← List.forall₂_eq_eq_eq, List.forall₂_map_left_iff, List.forall₂_map_right_iff] at hclasses
  exact hclasses.imp fun _ _ hxy => Quotient.exact hxy

/-- Where the order tells different rows apart, they are the same rows when they are sorted. -/
theorem sort_eq_of_perm [Std.LawfulEqCmp t.compare] {l l' : List t.Carrier} (h : l.Perm l') :
    t.sort l = t.sort l' := by
  rw [← List.forall₂_eq_eq_eq]
  exact (sort_tied h).imp fun _ _ hxy => Std.LawfulEqCmp.eq_of_compare hxy

/-- Where the order ties equal rows alone, they are equal rows when they are sorted. -/
theorem sort_beq_of_perm [Std.LawfulBEqCmp t.compare] {l l' : List t.Carrier} (h : l.Perm l') :
    (t.sort l == t.sort l') = true := by
  refine beq_of_forall₂ ((sort_tied h).imp fun _ _ hxy => ?_)
  exact Std.LawfulBEqCmp.compare_eq_iff_beq.1 hxy

end Sorting

end ElementType

end JoinPipeline
