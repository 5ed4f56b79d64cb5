import JoinPipeline.KeyTable
import JoinPipeline.Proofs.Enumeration

/-!
# Tables of values by key

A table that has taken in rows holds for every key its values in the order of the rows, under the
first one met of the keys that compare equal. Merging tables of consecutive parts gives a table of
all rows, whatever order each table lists its entries in, and the entries of a table are the records
of its rows in some order.
-/

namespace JoinPipeline

section Records

variable {K V : Type} [BEq K] {rows : List (K × V)} {entries entries' : List (K × List V)}

/-- One record for every key of the rows, with all of its values in the order of the rows. -/
def EnumeratesValues (rows : List (K × V)) (entries : List (K × List V)) : Prop :=
  Enumerates (fun k => isKeyOf k rows = true) (fun k => valuesOf k rows) entries

theorem enumeratesValues_recordsByKey [EquivBEq K] (rows : List (K × V)) :
    EnumeratesValues rows (recordsByKey rows) := by
  refine (enumerates_eraseDups (rows.map Prod.fst) fun k => valuesOf k rows).congr ?_ fun _ => rfl
  intro k
  rw [List.any_map]
  rfl

namespace EnumeratesValues

theorem same [EquivBEq K] (h : EnumeratesValues rows entries)
    (h' : EnumeratesValues rows entries') : SameUpToKeys entries entries' :=
  Enumerates.same (fun _ _ hk => valuesOf_congr hk rows) h h'

theorem ne_nil [ReflBEq K] (h : EnumeratesValues rows entries) :
    ∀ entry ∈ entries, entry.2 ≠ [] := by
  intro entry hentry
  rw [h.contents entry hentry]
  exact valuesOf_ne_nil ((h.keys entry.1).1 ⟨entry, hentry, BEq.rfl⟩)

end EnumeratesValues

theorem enumeratesValues_of_perm [EquivBEq K] (h : entries.Perm (recordsByKey rows)) :
    EnumeratesValues rows entries :=
  (enumeratesValues_recordsByKey rows).perm h.symm

/-- In whatever order records come, the same keys stand for all others. -/
theorem keyOf?_of_perm_recordsByKey [EquivBEq K] (h : entries.Perm (recordsByKey rows)) (k : K) :
    keyOf? k entries = keyOf? k rows := by
  have hdistinct := (enumeratesValues_of_perm h).distinct
  have hkeys := find?_perm (h.map Prod.fst) (List.pairwise_map.2 hdistinct) k
  rw [keys_recordsByKey, find?_eraseDups] at hkeys
  exact hkeys

/-- The rows that entries stand for. -/
def rowsOfEntries (entries : List (K × List V)) : List (K × V) := spread id entries

theorem keyOf?_rowsOfEntries (h : ∀ entry ∈ entries, entry.2 ≠ []) (k : K) :
    keyOf? k (rowsOfEntries entries) = keyOf? k entries := by
  induction entries with
  | nil => rfl
  | cons entry entries ih =>
    have hrows : rowsOfEntries (entry :: entries) =
        (entry.2.map fun v => (entry.1, v)) ++ rowsOfEntries entries := rfl
    rw [hrows, keyOf?_append, keyOf?_keyed k entry.1 (h entry List.mem_cons_self), keyOf?_cons,
      ih fun e he => h e (List.mem_cons_of_mem _ he)]
    split <;> simp

/-- Records stand for the values of the rows, in whatever order they come. -/
theorem EnumeratesValues.valuesOf_rowsOfEntries [EquivBEq K] (h : EnumeratesValues rows entries)
    (k : K) : valuesOf k (rowsOfEntries entries) = valuesOf k rows := by
  rw [rowsOfEntries, valuesOf_spread]
  by_cases hk : isKeyOf k rows = true
  · rw [Enumerates.valuesOf_of_isKey (fun _ _ hk => valuesOf_congr hk rows) h hk]
    simp
  · rw [Enumerates.valuesOf_of_not_isKey h hk, valuesOf_of_isKeyOf_false hk]
    rfl

theorem nodup_of_distinct [ReflBEq K] {T : Type} {entries : List (K × T)}
    (h : entries.Pairwise fun x y => (x.1 == y.1) = false) : entries.Nodup :=
  h.imp fun {x y} hne heq => by simp [heq] at hne

end Records

namespace KeyTable

variable {K V : Type} [BEq K] [Hashable K]

/-- The table holds the values of these rows, under the first one met of equal keys. -/
structure Tabulates (table : KeyTable K V) (rows : List (K × V)) : Prop where
  values : ∀ k, table[k]?.map Array.toList =
    if (valuesOf k rows).isEmpty then none else some (valuesOf k rows)
  keys : ∀ k, table.getKey? k = keyOf? k rows

theorem Tabulates.congr {table : KeyTable K V} {rows rows' : List (K × V)}
    (h : Tabulates table rows) (hvalues : ∀ k, valuesOf k rows = valuesOf k rows')
    (hkeys : ∀ k, keyOf? k rows = keyOf? k rows') : Tabulates table rows' where
  values k := by rw [h.values k, hvalues k]
  keys k := by rw [h.keys k, hkeys k]

theorem Tabulates.getD {table : KeyTable K V} {rows : List (K × V)} (h : Tabulates table rows)
    (k : K) : (table[k]?.getD #[]).toList = valuesOf k rows := by
  have hk := h.values k
  cases hfound : table[k]? with
  | none =>
    rw [hfound] at hk
    by_cases hempty : (valuesOf k rows).isEmpty = true
    · simp [List.isEmpty_iff.1 hempty]
    · simp [hempty] at hk
  | some found =>
    rw [hfound] at hk
    by_cases hempty : (valuesOf k rows).isEmpty = true
    · simp [hempty] at hk
    · simpa [hempty] using hk

variable [EquivBEq K] [LawfulHashable K]

theorem tabulates_empty : Tabulates ({} : KeyTable K V) [] where
  values k := by simp
  keys k := by simp [keyOf?]

theorem Tabulates.append {table : KeyTable K V} {rows : List (K × V)} (h : Tabulates table rows)
    (key : K) {values : List V} (hvalues : values ≠ []) :
    Tabulates (append table key values.toArray) (rows ++ values.map fun v => (key, v)) := by
  have hkey : (table.getKeyD key key == key) = true := getKeyD_self_beq table key
  constructor
  · intro k
    rw [valuesOf_append, valuesOf_keyed, KeyTable.append, Std.HashMap.getElem?_alter,
      BEq.congr_left hkey, Std.HashMap.getElem?_congr hkey]
    by_cases hk : key == k
    · have hempty : (valuesOf k rows ++ values).isEmpty = false := by simp [hvalues]
      simp [hk, h.getD, valuesOf_congr hk, hempty]
    · simp [hk, h.values k]
  · intro k
    rw [keyOf?_append, keyOf?_keyed k key hvalues, KeyTable.append, Std.HashMap.getKey?_alter,
      BEq.congr_left hkey, ← h.keys k]
    by_cases hk : key == k
    · rw [if_pos hk, if_pos hk, Option.isSome_some, if_pos rfl, Std.HashMap.getKeyD_eq_getD_getKey?,
        Std.HashMap.getKey?_congr hk]
      cases table.getKey? k <;> rfl
    · rw [if_neg hk, if_neg hk, Option.or_none]

theorem tabulates_ofRows (rows : List (K × V)) : Tabulates (ofRows rows) rows := by
  have hfold : ∀ (rows seen : List (K × V)) (table : KeyTable K V), Tabulates table seen →
      Tabulates (rows.foldl (fun table row => KeyTable.append table row.1 #[row.2]) table)
        (seen ++ rows) := by
    intro rows
    induction rows with
    | nil =>
      intro seen table h
      rwa [List.append_nil]
    | cons row rows ih =>
      intro seen table h
      have hrow := ih _ _ (h.append row.1 (List.cons_ne_nil row.2 []))
      rwa [List.append_assoc] at hrow
  exact hfold rows [] {} tabulates_empty

theorem Tabulates.absorb {table : KeyTable K V} {rows : List (K × V)} (h : Tabulates table rows)
    {entries : List (K × List V)} (hentries : ∀ entry ∈ entries, entry.2 ≠ []) :
    Tabulates (absorb table entries) (rows ++ rowsOfEntries entries) := by
  induction entries generalizing table rows with
  | nil => simpa [rowsOfEntries, spread, KeyTable.absorb] using h
  | cons entry entries ih =>
    have hfirst := h.append entry.1 (hentries entry List.mem_cons_self)
    have hrest := ih hfirst fun e he => hentries e (List.mem_cons_of_mem _ he)
    rwa [List.append_assoc] at hrest

/-- An entry of a table is what the table has under its key. -/
theorem mem_entries_iff (table : KeyTable K V) (entry : K × List V) :
    entry ∈ entries table ↔ table.getKey? entry.1 = some entry.1 ∧
      table[entry.1]?.map Array.toList = some entry.2 := by
  unfold entries
  rw [List.mem_map]
  constructor
  · rintro ⟨found, hfound, rfl⟩
    obtain ⟨hkey, hvalues⟩ :=
      Std.HashMap.mem_toList_iff_getKey?_eq_some_and_getElem?_eq_some.1 hfound
    exact ⟨hkey, by rw [hvalues]; rfl⟩
  · rintro ⟨hkey, hvalues⟩
    obtain ⟨values, hfound, hlist⟩ := Option.map_eq_some_iff.1 hvalues
    exact ⟨(entry.1, values),
      Std.HashMap.mem_toList_iff_getKey?_eq_some_and_getElem?_eq_some.2 ⟨hkey, hfound⟩,
      Prod.ext rfl hlist⟩

/-- The entries of a table are the records of its rows, in some order. -/
theorem Tabulates.perm_recordsByKey {table : KeyTable K V} {rows : List (K × V)}
    (h : Tabulates table rows) : (entries table).Perm (recordsByKey rows) := by
  have hentries : (entries table).Pairwise fun x y => (x.1 == y.1) = false :=
    List.pairwise_map.2 Std.HashMap.distinct_keys_toList
  have hrecords := (enumeratesValues_recordsByKey rows).distinct
  refine (List.perm_ext_iff_of_nodup (nodup_of_distinct hentries)
    (nodup_of_distinct hrecords)).2 fun entry => ?_
  rw [mem_entries_iff, mem_recordsByKey_iff, h.keys, h.values]
  refine and_congr_right fun hkey => ?_
  have hvalues : ¬ (valuesOf entry.1 rows).isEmpty = true := by
    rw [List.isEmpty_iff]
    exact valuesOf_ne_nil (isKeyOf_of_keyOf? hkey)
  rw [if_neg hvalues, Option.some_inj, eq_comm]

/-- Merging the entries of a table, listed in whatever order, behind those of another one. -/
theorem Tabulates.absorb_listed {table other : KeyTable K V} {rows more : List (K × V)}
    (h : Tabulates table rows) (hother : Tabulates other more) {listed : List (K × List V)}
    (hlisted : listed.Perm (entries other)) :
    Tabulates (KeyTable.absorb table listed) (rows ++ more) := by
  have hperm : listed.Perm (recordsByKey more) := hlisted.trans hother.perm_recordsByKey
  have hrecords := enumeratesValues_of_perm hperm
  refine (h.absorb hrecords.ne_nil).congr (fun k => ?_) fun k => ?_
  · rw [valuesOf_append, valuesOf_append, hrecords.valuesOf_rowsOfEntries]
  · rw [keyOf?_append, keyOf?_append, keyOf?_rowsOfEntries hrecords.ne_nil,
      keyOf?_of_perm_recordsByKey hperm]

/-- What comes of merging the tables of pieces, in their order: each of these tables lists its
entries in some order of its own, and so does the merged one. -/
def MergesTo (pieces : List (List (K × V))) (out : List (K × List V)) : Prop :=
  ∃ listings : List (List (K × List V)),
    List.Forall₂ (fun piece listed => listed.Perm (entries (ofRows piece))) pieces listings ∧
    out.Perm (entries (listings.foldl absorb {}))

/-- Having merged the tables of some pieces, a table holds the values of these pieces. -/
theorem Tabulates.absorb_pieces {pieces : List (List (K × V))}
    {listings : List (List (K × List V))}
    (hlistings : List.Forall₂ (fun piece listed => listed.Perm (entries (ofRows piece)))
      pieces listings) {table : KeyTable K V} {seen : List (K × V)} (h : Tabulates table seen) :
    Tabulates (listings.foldl KeyTable.absorb table) (seen ++ pieces.flatten) := by
  induction hlistings generalizing table seen with
  | nil => simpa using h
  | cons hpiece _ ih =>
    have hrest := ih (h.absorb_listed (tabulates_ofRows _) hpiece)
    rwa [List.append_assoc, ← List.flatten_cons] at hrest

/-- Merging tables gives the records of all rows. -/
theorem MergesTo.perm_recordsByKey {pieces : List (List (K × V))} {out : List (K × List V)}
    (h : MergesTo pieces out) : out.Perm (recordsByKey pieces.flatten) := by
  obtain ⟨listings, hlistings, hout⟩ := h
  have hmerged : Tabulates (listings.foldl absorb {}) pieces.flatten :=
    tabulates_empty.absorb_pieces hlistings
  exact hout.trans hmerged.perm_recordsByKey

end KeyTable

end JoinPipeline
