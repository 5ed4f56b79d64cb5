import JoinPipeline.Proofs.Contract

/-!
# Places and slots of groups

What grouping in one go keeps while it is under way, and what it has made in the end. Behind every
row the index tells for each key that has been met where its group stands, and every group has one
slot per tag; so the slot that the next value goes to is there. In the end the slots hold every
value of the inputs exactly once.
-/

namespace JoinPipeline

variable {K V : Type} [BEq K]

/-- Among distinct keys, the first one that equals a key is the only one. -/
theorem findIdx?_eq_some_iff_of_distinct [EquivBEq K] {keys : List K}
    (hdistinct : keys.Pairwise fun a b => (a == b) = false) (k : K) (place : Nat) :
    keys.findIdx? (· == k) = some place ↔
      ∃ key, keys[place]? = some key ∧ (key == k) = true := by
  rw [List.findIdx?_eq_some_iff_getElem]
  constructor
  · intro h
    obtain ⟨hlt, hkey, _⟩ := h
    exact ⟨keys[place], List.getElem?_eq_getElem hlt, hkey⟩
  · intro h
    obtain ⟨key, hplace, hkey⟩ := h
    obtain ⟨hlt, heq⟩ := List.getElem?_eq_some_iff.1 hplace
    subst heq
    refine ⟨hlt, hkey, fun earlier hearlier hsame => ?_⟩
    have hne := List.pairwise_iff_getElem.1 hdistinct earlier place (by omega) hlt hearlier
    rw [BEq.congr_left hsame, BEq.symm hkey] at hne
    cases hne

namespace GroupTable

variable [Hashable K]

/-- The table behind all rows of some inputs and the first rows of the next one. -/
def behind (tags : Nat) (before : List (List (K × V))) (part : List (K × V)) : GroupTable K V :=
  (before.zipIdx.foldl (fun table input => table.addAll input.2 input.1)
    (⟨tags, {}, #[]⟩ : GroupTable K V)).addAll before.length part

/-- The index tells the places of the groups, and every group has one slot per tag. -/
structure IsIndexed (table : GroupTable K V) : Prop where
  index_iff : ∀ (k : K) (place : Nat), table.index[k]? = some place ↔
    ∃ group, table.groups[place]? = some group ∧ (group.1 == k) = true
  slots : ∀ group ∈ table.groups, group.2.size = table.tags

theorem getElem?_toList (table : GroupTable K V) (place : Nat) :
    table.toList[place]? =
      table.groups[place]?.map fun group => (group.1, group.2.toList.map Array.toList) := by
  simp [toList]

section Holds

variable {table : GroupTable K V} {inputs : List (List (K × V))} {place : Nat}

/-- The group at a place is under the key that has been met in this place. -/
theorem Holds.group_at (h : table.Holds inputs) {group : K × Array (Array V)}
    (hgroup : table.groups[place]? = some group) :
    (inputs.flatten.map Prod.fst).eraseDups[place]? = some group.1 ∧
      group.2.size = table.tags := by
  have hview := getElem?_toList table place
  rw [h.groups, groupsOf, List.getElem?_map, hgroup, Option.map_some,
    Option.map_eq_some_iff] at hview
  obtain ⟨key, hkey, heq⟩ := hview
  have hslots := congrArg List.length (congrArg Prod.snd heq)
  refine ⟨hkey.trans (congrArg (fun g => some g.1) heq), ?_⟩
  rw [h.tags]
  simpa using hslots.symm

theorem Holds.exists_group_at (h : table.Holds inputs) {key : K}
    (hkey : (inputs.flatten.map Prod.fst).eraseDups[place]? = some key) :
    ∃ group, table.groups[place]? = some group ∧ group.1 = key := by
  have hview := getElem?_toList table place
  rw [h.groups, groupsOf, List.getElem?_map, hkey, Option.map_some, eq_comm,
    Option.map_eq_some_iff] at hview
  obtain ⟨group, hgroup, heq⟩ := hview
  exact ⟨group, hgroup, congrArg Prod.fst heq⟩

/-- A table that has taken in some rows is indexed. -/
theorem Holds.isIndexed [EquivBEq K] (h : table.Holds inputs) : table.IsIndexed where
  index_iff k place := by
    rw [h.index, findIdx?_eq_some_iff_of_distinct (pairwise_eraseDups _)]
    constructor
    · intro hfound
      obtain ⟨key, hkey, hsame⟩ := hfound
      obtain ⟨group, hgroup, rfl⟩ := h.exists_group_at hkey
      exact ⟨group, hgroup, hsame⟩
    · intro hfound
      obtain ⟨group, hgroup, hsame⟩ := hfound
      exact ⟨group.1, (h.group_at hgroup).1, hsame⟩
  slots group hgroup := by
    obtain ⟨place, hplace⟩ := Array.mem_iff_getElem?.1 hgroup
    exact (h.group_at hplace).2

end Holds

variable [EquivBEq K] [LawfulHashable K]

/-- What the table has taken in by then. -/
theorem holds_behind (before : List (List (K × V))) (part : List (K × V)) (n : Nat) :
    (behind (before.length + (n + 1)) before part).Holds (partialInputs before part n) := by
  have hstep : ∀ (table : GroupTable K V) before part n row,
      table.Holds (partialInputs before part n) →
        (table.add before.length row).Holds (partialInputs before (part ++ [row]) n) :=
    fun _ _ _ _ row h => h.add row
  have hbefore := invariant_of_inputs (fun tag table row => add table tag row) hstep before []
    (n + 1) (holds_empty _)
  exact invariant_of_rows (fun tag table row => add table tag row) hstep part before [] hbefore

end GroupTable

/-- These are the tables that the loop goes through: from each of them it goes on with the rows of
the input that it is at, and with the inputs after that. -/
theorem groupTagged_eq_continued [Hashable K] (before : List (List (K × V)))
    (part rest : List (K × V)) (after : List (List (K × V))) :
    groupTagged (before ++ (part ++ rest) :: after) =
      ((after.zipIdx (before.length + 1)).foldl (fun table input => table.addAll input.2 input.1)
        ((GroupTable.behind (before.length + (after.length + 1)) before part).addAll
          before.length rest)).toList := by
  unfold groupTagged GroupTable.behind
  simp [List.zipIdx_append, GroupTable.addAll]

section Values

theorem valuesOf_flatten (k : K) (inputs : List (List (K × V))) :
    valuesOf k inputs.flatten = (inputs.map (valuesOf k)).flatten := by
  induction inputs with
  | nil => rfl
  | cons rows inputs ih => simp [ih]

variable [EquivBEq K]

/-- The values of distinct keys, taken together, are those of the rows if no key of a row is left
out. -/
theorem flatMap_valuesOf_perm {keys : List K} {rows : List (K × V)}
    (hdistinct : keys.Pairwise fun a b => (a == b) = false)
    (hkeys : ∀ row ∈ rows, keys.any (· == row.1) = true) :
    (keys.flatMap fun k => valuesOf k rows).Perm (rows.map Prod.snd) := by
  -- the rows of the first key are taken out, and the others have only the other keys
  induction keys generalizing rows with
  | nil =>
    have hnil : rows = [] := List.eq_nil_iff_forall_not_mem.2 fun row hrow => by
      simpa using hkeys row hrow
    simp [hnil]
  | cons k keys ih =>
    obtain ⟨hfirst, hothers⟩ := List.pairwise_cons.1 hdistinct
    have hclass : ∀ a b, (a == b) = true → (!(a == k)) = !(b == k) := by
      intro a b hab
      rw [BEq.congr_left hab]
    have hrest : ∀ k' ∈ keys,
        valuesOf k' (rows.filter fun row => !(row.1 == k)) = valuesOf k' rows := by
      intro k' hk'
      have hne : (!(k' == k)) = true := by
        rw [BEq.comm, hfirst k' hk']
        rfl
      exact valuesOf_filter (p := fun key => !(key == k)) hclass hne rows
    have hcovered : ∀ row ∈ rows.filter fun row => !(row.1 == k),
        keys.any (· == row.1) = true := by
      intro row hrow
      obtain ⟨hmem, hne⟩ := List.mem_filter.1 hrow
      have hother : (row.1 == k) = false := by simpa using hne
      have hany := hkeys row hmem
      rwa [List.any_cons, BEq.comm, hother, Bool.false_or] at hany
    have hperm := ih hothers hcovered
    rw [List.flatMap_congr hrest] at hperm
    rw [List.flatMap_cons]
    refine (hperm.append_left _).trans ?_
    rw [valuesOf, ← List.map_append]
    exact (List.filter_append_perm _ rows).map _

theorem any_keys_of_mem {inputs : List (List (K × V))} {row : K × V}
    (hrow : row ∈ inputs.flatten) :
    (inputs.flatten.map Prod.fst).eraseDups.any (· == row.1) = true := by
  rw [any_eraseDups]
  exact List.any_eq_true.2 ⟨row.1, List.mem_map_of_mem hrow, BEq.rfl⟩

/-- All slots together hold the values of all inputs. -/
theorem flatten_slots_perm (inputs : List (List (K × V))) :
    ((groupsOf inputs).flatMap fun group => group.2.flatten).Perm
      (inputs.flatten.map Prod.snd) := by
  have hall := flatMap_valuesOf_perm (pairwise_eraseDups (inputs.flatten.map Prod.fst))
    fun row hrow => any_keys_of_mem hrow
  simpa [groupsOf, List.flatMap_map, valuesOf_flatten] using hall

/-- The slots of one tag hold the values of its input. -/
theorem slots_of_tag_perm {inputs : List (List (K × V))} {tag : Nat} {rows : List (K × V)}
    (hrows : inputs[tag]? = some rows) :
    ((groupsOf inputs).flatMap fun group => group.2.getD tag []).Perm (rows.map Prod.snd) := by
  have hmem := List.mem_of_getElem? hrows
  have hall := flatMap_valuesOf_perm (pairwise_eraseDups (inputs.flatten.map Prod.fst))
    fun row hrow => any_keys_of_mem (List.mem_flatten_of_mem hmem hrow)
  simpa [groupsOf, List.flatMap_map, hrows] using hall

end Values

/-- Grouping in one go honours the contract with the keys in the order in which they are first met.
Its slots hold every value once, and while it is under way the index leads to the group of its
key, which has a slot for the tag of the next row. -/
theorem groupTagged_meets_contract [Hashable K] [EquivBEq K] [LawfulHashable K]
    (inputs : List (List (K × V))) :
    Enumerates (fun k => ∃ rows ∈ inputs, isKeyOf k rows = true)
      (fun k => inputs.map (valuesOf k)) (groupTagged inputs) ∧
    (groupTagged inputs).map Prod.fst = (inputs.flatten.map Prod.fst).eraseDups ∧
    ((groupTagged inputs).flatMap fun group => group.2.flatten).Perm
      (inputs.flatten.map Prod.snd) ∧
    (∀ (tag : Nat) rows, inputs[tag]? = some rows →
      ((groupTagged inputs).flatMap fun group => group.2.getD tag []).Perm
        (rows.map Prod.snd)) ∧
    ∀ before part rest after table, inputs = before ++ (part ++ rest) :: after →
      table = GroupTable.behind inputs.length before part →
      groupTagged inputs =
        ((after.zipIdx (before.length + 1)).foldl (fun table input => table.addAll input.2 input.1)
          (table.addAll before.length rest)).toList ∧
      table.IsIndexed ∧
      ∀ (k : K) (place : Nat), table.index[k]? = some place →
        ∃ group, table.groups[place]? = some group ∧ (group.1 == k) = true ∧
          before.length < group.2.size := by
  refine ⟨honoursContract_groupTagged inputs, ?_, ?_, ?_, ?_⟩
  · rw [groupTagged_eq, keys_groupsOf]
  · rw [groupTagged_eq]
    exact flatten_slots_perm inputs
  · intro tag rows hrows
    rw [groupTagged_eq]
    exact slots_of_tag_perm hrows
  · intro before part rest after table hinputs htable
    have hlength : inputs.length = before.length + (after.length + 1) := by simp [hinputs]
    have hholds := GroupTable.holds_behind before part after.length
    have hloop := groupTagged_eq_continued before part rest after
    rw [← hlength, ← htable] at hholds hloop
    have hindexed := hholds.isIndexed
    refine ⟨by rwa [hinputs], hindexed, fun k place hplace => ?_⟩
    obtain ⟨group, hgroup, hsame⟩ := (hindexed.index_iff k place).1 hplace
    refine ⟨group, hgroup, hsame, ?_⟩
    rw [hindexed.slots group (Array.mem_of_getElem? hgroup), hholds.tags]
    simp [partialInputs]

/-- In the second input, behind its first row, the key of the second group is looked up. -/
theorem groupTagged_meets_contract_letters :
    (groupTagged lettersByNumber).map Prod.fst = [2, 5, 3, 1] ∧
    ((groupTagged lettersByNumber).flatMap fun group => group.2.getD 0 []).Perm
      ['a', 'b', 'c', 'd'] ∧
    ∃ group, (GroupTable.behind 2 [[(2, 'a'), (5, 'b'), (3, 'c'), (2, 'd')]]
        [(1, 'x')]).groups[1]? = some group ∧ (group.1 == 5) = true ∧ 1 < group.2.size := by
  obtain ⟨_, hkeys, _, htags, hloop⟩ := groupTagged_meets_contract lettersByNumber
  obtain ⟨_, _, hplaces⟩ :=
    hloop [[(2, 'a'), (5, 'b'), (3, 'c'), (2, 'd')]] [(1, 'x')] [(5, 'y')] [] _ rfl rfl
  have hindex : (GroupTable.behind 2 [[(2, 'a'), (5, 'b'), (3, 'c'), (2, 'd')]]
      [(1, 'x')]).index[5]? = some 1 := by
    have hholds :=
      GroupTable.holds_behind [[(2, 'a'), (5, 'b'), (3, 'c'), (2, 'd')]] [(1, 'x')] 0
    refine (hholds.index 5).trans ?_
    decide
  refine ⟨?_, htags 0 _ rfl, hplaces 5 1 hindex⟩
  rw [hkeys]
  decide

end JoinPipeline
