import JoinPipeline.Proofs.Records
import Mathlib.Data.List.Nodup
import Mathlib.Data.List.Perm.Basic

/-!
# Joins of reordered inputs

A join that makes rows of single values gives the same rows in some order when the rows of its
inputs come in another order, provided that equal keys are the same: otherwise another one of them
may be met first. The keys of a reordered input are then the same, and so are the values of every
key; an absent value depends on whether there are values, and this does not change.
-/

namespace JoinPipeline

section KeyedRows

variable {K V W V' W' A B C : Type}

theorem eraseDups_perm [BEq K] [LawfulBEq K] {l l' : List K} (h : l.Perm l') :
    l.eraseDups.Perm l'.eraseDups := by
  refine (List.perm_ext_iff_of_nodup (nodup_eraseDups l) (nodup_eraseDups l')).2 fun k => ?_
  rw [List.mem_eraseDups, List.mem_eraseDups, h.mem_iff]

theorem orNone_perm {vs vs' : List V} (h : vs.Perm vs') : (orNone vs).Perm (orNone vs') := by
  unfold orNone
  by_cases hempty : vs.isEmpty = true
  · have hnil : vs = [] := List.isEmpty_iff.1 hempty
    subst hnil
    rw [h.nil_eq]
  · have hempty' : vs'.isEmpty ≠ true := by
      intro hnil
      rw [List.isEmpty_iff.1 hnil] at h
      exact hempty (List.isEmpty_iff.2 h.eq_nil)
    rw [if_neg hempty, if_neg hempty']
    exact h.map some

theorem keyRows_perm {left : List V → List V'} {right : List W → List W'} (k : K)
    {vs vs' : List V} {ws ws' : List W} (hleft : (left vs).Perm (left vs'))
    (hright : (right ws).Perm (right ws')) :
    (keyRows left right k vs ws).Perm (keyRows left right k vs' ws') :=
  hright.flatMap fun _ _ => hleft.map _

theorem keyTriples_perm (k : K) {xs xs' : List A} {ys ys' : List B} {zs zs' : List C}
    (hx : xs.Perm xs') (hy : ys.Perm ys') (hz : zs.Perm zs') :
    (keyTriples k xs ys zs).Perm (keyTriples k xs' ys' zs') :=
  hz.flatMap fun _ _ => hy.flatMap fun _ _ => hx.map _

end KeyedRows

variable {β : Type} [Basis β] {k v w a b c : ElementType β}

namespace PairJoin

/-- Whether the rows of a join hold values of a key as a vector, in their order. -/
def exposesOrder : PairJoin → Bool
  | cogroup => true
  | _ => false

theorem expand_perm {kind : PairJoin} (hkind : kind.exposesOrder = false) (key : k.Carrier)
    {vs vs' : List v.Carrier} {ws ws' : List w.Carrier} (hv : vs.Perm vs') (hw : ws.Perm ws') :
    (kind.expand (key, (vs, ws))).Perm (kind.expand (key, (vs', ws'))) := by
  cases kind with
  | cogroup => cases hkind
  | inner => exact keyRows_perm key hv hw
  | left => exact keyRows_perm key hv (orNone_perm hw)
  | right => exact keyRows_perm key (orNone_perm hv) hw
  | outer => exact keyRows_perm key (orNone_perm hv) (orNone_perm hw)

theorem expand_records_perm [LawfulBEq k.Carrier] {kind : PairJoin} (hkind : kind.exposesOrder = false)
    {x x' : List (k.Carrier × v.Carrier)} {y y' : List (k.Carrier × w.Carrier)}
    (hx : x.Perm x') (hy : y.Perm y') :
    ((records x y).flatMap kind.expand).Perm ((records x' y').flatMap kind.expand) := by
  unfold records
  rw [List.flatMap_map, List.flatMap_map]
  have hkeys := eraseDups_perm ((hx.map Prod.fst).append (hy.map Prod.fst))
  refine hkeys.flatMap fun key _ => ?_
  have hxs := valuesOf_perm hx key
  have hys := valuesOf_perm hy key
  exact expand_perm hkind key hxs hys

end PairJoin

namespace TripleJoin

/-- Whether the rows of a join hold values of a key as a vector, in their order. -/
def exposesOrder : TripleJoin → Bool
  | cogroup3 => true
  | inner3 => false

theorem expand_perm {kind : TripleJoin} (hkind : kind.exposesOrder = false) (key : k.Carrier)
    {xs xs' : List a.Carrier} {ys ys' : List b.Carrier} {zs zs' : List c.Carrier}
    (hx : xs.Perm xs') (hy : ys.Perm ys') (hz : zs.Perm zs') :
    (kind.expand (key, (xs, ys, zs))).Perm (kind.expand (key, (xs', ys', zs'))) := by
  cases kind with
  | cogroup3 => cases hkind
  | inner3 => exact keyTriples_perm key hx hy hz

theorem expand_records_perm [LawfulBEq k.Carrier] {kind : TripleJoin} (hkind : kind.exposesOrder = false)
    {x x' : List (k.Carrier × a.Carrier)} {y y' : List (k.Carrier × b.Carrier)}
    {z z' : List (k.Carrier × c.Carrier)} (hx : x.Perm x') (hy : y.Perm y') (hz : z.Perm z') :
    ((records3 x y z).flatMap kind.expand).Perm ((records3 x' y' z').flatMap kind.expand) := by
  unfold records3
  rw [List.flatMap_map, List.flatMap_map]
  have hkeys := eraseDups_perm
    ((hx.map Prod.fst).append ((hy.map Prod.fst).append (hz.map Prod.fst)))
  refine hkeys.flatMap fun key _ => ?_
  have hxs := valuesOf_perm hx key
  have hys := valuesOf_perm hy key
  have hzs := valuesOf_perm hz key
  exact expand_perm hkind key hxs hys hzs

end TripleJoin

end JoinPipeline
