import JoinPipeline.Proofs.Keys
import Mathlib.Data.List.Forall2

/-!
# Enumerations of keys

Lists with exactly one entry for every key of a kind, which holds what belongs to the key. The
entries may come in any order, and any of the keys that compare equal may stand for them. What is
under a key does not depend on this choice, nor do the rows that are made of the entries: two
enumerations give the same rows up to their order and to equal keys.
-/

namespace JoinPipeline

section Keyed

variable {K V : Type} [BEq K]

/-- Whether some row has this key. -/
def isKeyOf (k : K) (rows : List (K × V)) : Bool := rows.any fun row => row.1 == k

/-- How often a row occurs, where keys that compare equal are the same. -/
def occurrences [BEq V] (k : K) (v : V) (rows : List (K × V)) : Nat :=
  rows.countP fun row => row.1 == k && row.2 == v

theorem isKeyOf_eq_false_iff (k : K) (rows : List (K × V)) :
    isKeyOf k rows = false ↔ valuesOf k rows = [] := by
  rw [valuesOf_eq_nil_iff, List.any_map]
  rfl

theorem valuesOf_of_isKeyOf_false {k : K} {rows : List (K × V)} (h : ¬ isKeyOf k rows = true) :
    valuesOf k rows = [] :=
  (isKeyOf_eq_false_iff k rows).1 (Bool.eq_false_iff.2 h)

theorem valuesOf_ne_nil {k : K} {rows : List (K × V)} (h : isKeyOf k rows = true) :
    valuesOf k rows ≠ [] := by
  intro hnil
  rw [(isKeyOf_eq_false_iff k rows).2 hnil] at h
  cases h

theorem isKeyOf_of_keyOf? {k key : K} {rows : List (K × V)} (h : keyOf? k rows = some key) :
    isKeyOf k rows = true := by
  have hfound := List.find?_isSome.1 (Option.isSome_of_eq_some h)
  simpa [isKeyOf] using hfound

/-- A row occurs as often as its value does among those of its key. -/
theorem occurrences_eq_count [BEq V] (k : K) (v : V) (rows : List (K × V)) :
    occurrences k v rows = (valuesOf k rows).count v := by
  induction rows with
  | nil => rfl
  | cons row rows ih =>
    unfold occurrences at ih ⊢
    rw [List.countP_cons, ih, valuesOf_cons]
    by_cases hkey : (row.1 == k) = true
    · rw [if_pos hkey, List.count_cons, hkey, Bool.true_and]
    · simp [hkey]

theorem occurrences_eq_zero [BEq V] {k : K} {rows : List (K × V)}
    (h : ¬ isKeyOf k rows = true) (v : V) : occurrences k v rows = 0 := by
  rw [occurrences_eq_count, valuesOf_of_isKeyOf_false h]
  rfl

theorem valuesOf_congr [EquivBEq K] {k k' : K} (h : (k == k') = true) (rows : List (K × V)) :
    valuesOf k rows = valuesOf k' rows := by
  unfold valuesOf
  congr 2
  funext row
  exact BEq.congr_right h

end Keyed

variable {K T R : Type} [BEq K]

/-- The rows made of entries; each of them is under the key of its entry. -/
def spread (rows : T → List R) (entries : List (K × T)) : List (K × R) :=
  entries.flatMap fun entry => (rows entry.2).map fun row => (entry.1, row)

/-- What is under a key is made of the entries under this key. -/
theorem valuesOf_spread [ReflBEq K] (k : K) (rows : T → List R) (entries : List (K × T)) :
    valuesOf k (spread rows entries) = (valuesOf k entries).flatMap rows := by
  induction entries with
  | nil => rfl
  | cons entry entries ih =>
    unfold spread at ih ⊢
    rw [List.flatMap_cons, valuesOf_append, ih, valuesOf_keyed, valuesOf_cons]
    split
    · rw [List.flatMap_cons]
    · rw [List.nil_append]

/-- The lists agree up to the order of their rows and to keys that compare equal. -/
def SameUpToKeys (l l' : List (K × R)) : Prop :=
  ∃ mid, l.Perm mid ∧ List.Forall₂ (fun x y => (x.1 == y.1) = true ∧ x.2 = y.2) mid l'

theorem SameUpToKeys.perm [LawfulBEq K] {l l' : List (K × R)} (h : SameUpToKeys l l') :
    l.Perm l' := by
  obtain ⟨mid, hperm, hsame⟩ := h
  have heq : mid = l' := by
    rw [← List.forall₂_eq_eq_eq]
    refine hsame.imp fun x y hxy => ?_
    exact Prod.ext (eq_of_beq hxy.1) hxy.2
  rwa [heq] at hperm

theorem sameUpToKeys_spread {l l' : List (K × T)} (h : SameUpToKeys l l') (rows : T → List R) :
    SameUpToKeys (spread rows l) (spread rows l') := by
  obtain ⟨mid, hperm, hsame⟩ := h
  refine ⟨spread rows mid, hperm.flatMap_right _, List.rel_flatMap hsame ?_⟩
  intro x y hxy
  show List.Forall₂ _ ((rows x.2).map fun row => (x.1, row)) ((rows y.2).map fun row => (y.1, row))
  rw [hxy.2, List.forall₂_map_left_iff, List.forall₂_map_right_iff]
  exact List.forall₂_same.2 fun row _ => ⟨hxy.1, rfl⟩

/-- Exactly one entry for every key of a kind, with what belongs to the key. -/
structure Enumerates (isKey : K → Prop) (content : K → T) (entries : List (K × T)) : Prop where
  distinct : entries.Pairwise fun x y => (x.1 == y.1) = false
  keys : ∀ k, (∃ entry ∈ entries, (entry.1 == k) = true) ↔ isKey k
  contents : ∀ entry ∈ entries, entry.2 = content entry.1

/-- Distinct keys, each with what belongs to it. -/
theorem enumerates_eraseDups [EquivBEq K] (ks : List K) (content : K → T) :
    Enumerates (fun k => ks.any (· == k) = true) content
      (ks.eraseDups.map fun k => (k, content k)) where
  distinct := List.pairwise_map.2 (pairwise_eraseDups ks)
  keys := by
    intro k
    rw [← any_eraseDups]
    simp
  contents := by
    intro entry hentry
    obtain ⟨k, _, rfl⟩ := List.mem_map.1 hentry
    rfl

namespace Enumerates

variable {isKey isKey' : K → Prop} {content : K → T} {entries entries' : List (K × T)}

theorem congr {content' : K → T} (h : Enumerates isKey content entries)
    (hkeys : ∀ k, isKey k ↔ isKey' k) (hcontent : ∀ k, content k = content' k) :
    Enumerates isKey' content' entries where
  distinct := h.distinct
  keys k := (h.keys k).trans (hkeys k)
  contents entry hentry := (h.contents entry hentry).trans (hcontent _)

theorem map (h : Enumerates isKey content entries) (f : T → R) :
    Enumerates isKey (fun k => f (content k)) (entries.map fun entry => (entry.1, f entry.2)) where
  distinct := List.pairwise_map.2 h.distinct
  keys k := by
    rw [← h.keys k]
    simp only [List.mem_map, exists_exists_and_eq_and]
  contents := by
    intro entry hentry
    obtain ⟨old, hold, heq⟩ := List.mem_map.1 hentry
    rw [← heq]
    exact congrArg f (h.contents old hold)

theorem perm [EquivBEq K] (h : Enumerates isKey content entries) (hperm : entries.Perm entries') :
    Enumerates isKey content entries' where
  distinct := hperm.pairwise h.distinct fun hxy => BEq.comm.trans hxy
  keys k := by
    rw [← h.keys k]
    simp only [hperm.mem_iff]
  contents entry hentry := h.contents entry (hperm.mem_iff.2 hentry)

/-- Without its first entry, an enumeration misses the key of this entry. -/
theorem tail [EquivBEq K] {first : K × T} (h : Enumerates isKey content (first :: entries)) :
    Enumerates (fun k => isKey k ∧ (first.1 == k) = false) content entries where
  distinct := (List.pairwise_cons.1 h.distinct).2
  keys := by
    intro k
    have hfirst := (List.pairwise_cons.1 h.distinct).1
    constructor
    · intro hkey
      obtain ⟨entry, hentry, hk⟩ := hkey
      refine ⟨(h.keys k).1 ⟨entry, List.mem_cons_of_mem _ hentry, hk⟩, ?_⟩
      rw [← BEq.congr_right hk]
      exact hfirst entry hentry
    · intro hkey
      obtain ⟨entry, hentry, hk⟩ := (h.keys k).2 hkey.1
      rcases List.mem_cons.1 hentry with hnew | hold
      · rw [hnew, hkey.2] at hk
        cases hk
      · exact ⟨entry, hold, hk⟩
  contents entry hentry := h.contents entry (List.mem_cons_of_mem _ hentry)

/-- An entry for the key can be brought to the front. -/
theorem exists_perm_cons (h : Enumerates isKey content entries) {k : K} (hk : isKey k) :
    ∃ entry others, (entry.1 == k) = true ∧ entries.Perm (entry :: others) := by
  obtain ⟨entry, hentry, hkey⟩ := (h.keys k).2 hk
  obtain ⟨before, after, hentries⟩ := List.append_of_mem hentry
  refine ⟨entry, before ++ after, hkey, ?_⟩
  rw [hentries]
  exact List.perm_middle

theorem valuesOf_of_not_isKey (h : Enumerates isKey content entries) {k : K} (hk : ¬ isKey k) :
    valuesOf k entries = [] := by
  refine (isKeyOf_eq_false_iff k entries).1 (List.any_eq_false.2 fun entry hentry hkey => ?_)
  exact hk ((h.keys k).1 ⟨entry, hentry, hkey⟩)

section Contents

variable (hcontent : ∀ k k', (k == k') = true → content k = content k')

include hcontent

/-- What an enumeration has under a key of the kind. -/
theorem valuesOf_of_isKey [EquivBEq K] (h : Enumerates isKey content entries) {k : K}
    (hk : isKey k) : valuesOf k entries = [content k] := by
  obtain ⟨entry, others, hkey, hperm⟩ := h.exists_perm_cons hk
  have hcons := h.perm hperm
  have hothers : valuesOf k others = [] := by
    refine (isKeyOf_eq_false_iff k others).1 (List.any_eq_false.2 fun other hother hk' => ?_)
    have hne := ((hcons.tail.keys k).1 ⟨other, hother, hk'⟩).2
    rw [hkey] at hne
    cases hne
  have hentry : entry.2 = content k :=
    (hcons.contents entry List.mem_cons_self).trans (hcontent _ _ hkey)
  have hvalues := valuesOf_perm hperm k
  rw [valuesOf_cons, if_pos hkey, hothers, hentry] at hvalues
  exact List.perm_singleton.1 hvalues

/-- Two enumerations of the same keys agree up to order and to equal keys. -/
theorem same [EquivBEq K] (h : Enumerates isKey content entries)
    (h' : Enumerates isKey content entries') : SameUpToKeys entries entries' := by
  -- The first entry of the second list has its counterpart somewhere in the first list. Without
  -- these two, both lists enumerate the remaining keys.
  induction entries' generalizing isKey entries with
  | nil =>
    have hnil : entries = [] := by
      refine List.eq_nil_iff_forall_not_mem.2 fun entry hentry => ?_
      obtain ⟨other, hother, _⟩ := (h'.keys entry.1).2 ((h.keys entry.1).1 ⟨entry, hentry, BEq.rfl⟩)
      cases hother
    rw [hnil]
    exact ⟨[], .refl _, .nil⟩
  | cons first rest ih =>
    have hkey : isKey first.1 := (h'.keys first.1).1 ⟨first, List.mem_cons_self, BEq.rfl⟩
    obtain ⟨entry, others, hsame, hperm⟩ := h.exists_perm_cons hkey
    have hcons := h.perm hperm
    have hothers : Enumerates (fun k => isKey k ∧ (first.1 == k) = false) content others :=
      hcons.tail.congr (fun k => by rw [BEq.congr_left hsame]) fun k => rfl
    obtain ⟨mid, hmid, hrest⟩ := ih hothers h'.tail
    refine ⟨entry :: mid, hperm.trans (hmid.cons entry), .cons ⟨hsame, ?_⟩ hrest⟩
    rw [hcons.contents entry List.mem_cons_self, h'.contents first List.mem_cons_self]
    exact hcontent _ _ hsame

end Contents

end Enumerates

end JoinPipeline
