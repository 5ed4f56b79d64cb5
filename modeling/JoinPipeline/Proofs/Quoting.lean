import JoinPipeline.Text.Quoted
import JoinPipeline.Proofs.Lines
import Mathlib.Tactic.SplitIfs

/-!
# What stands in quoted text

Quoting replaces some characters by a backslash with a letter, or with a number in braces. All
others stand for themselves, so a text without those letters, digits and marks stands in a quoted
text exactly if it stands in the text itself. A quoted text is always one line.
-/

namespace JoinPipeline.Text

theorem exists_of_mem_toDigits {base n : Nat} {d : Char} (hbase : 1 < base)
    (h : d ∈ Nat.toDigits base n) : ∃ k < base, d = Nat.digitChar k := by
  induction n using Nat.strongRecOn with
  | ind n ih =>
    rw [Nat.toDigits_eq_if hbase] at h
    split at h
    next hlt => exact ⟨n, hlt, List.mem_singleton.1 h⟩
    next hge =>
      rcases List.mem_append.1 h with hmore | hlast
      · exact ih _ (Nat.div_lt_self (by omega) hbase) hmore
      · exact ⟨n % base, Nat.mod_lt _ (by omega), List.mem_singleton.1 hlast⟩

theorem notMem_toString {x : Char} (hx : x.isDigit = false) (n : Nat) :
    x ∉ (toString n).toList := by
  intro h
  rw [Nat.toString_eq_ofList_toDigits, String.toList_ofList] at h
  rw [Nat.isDigit_of_mem_toDigits (by decide) (by decide) h] at hx
  cases hx

theorem notMem_append {x : Char} {a b : String} (ha : x ∉ a.toList) (hb : x ∉ b.toList) :
    x ∉ (a ++ b).toList := by
  rw [String.toList_append, List.mem_append]
  exact not_or.2 ⟨ha, hb⟩

/-- The characters that escaped ones are written with. -/
def escapeMarks : List Char :=
  ['\\', '"', 'n', 'r', 't', '0', 'u', '\x7b', '\x7d'] ++ (List.range 16).map Nat.digitChar

theorem escape_ne_nil (c : Char) : escape c ≠ [] := by
  unfold escape named
  split_ifs <;> simp

/-- Every other character stands in an escaped one only where it stands for itself. -/
theorem eq_of_mem_escape {x c : Char} (hx : x ∉ escapeMarks) (h : x ∈ escape c) : c = x := by
  have hdigits : x ∉ Nat.toDigits 16 c.toNat := by
    intro hmem
    obtain ⟨k, hk, rfl⟩ := exists_of_mem_toDigits (by decide) hmem
    exact hx (List.mem_append_right _ (List.mem_map_of_mem (List.mem_range.2 hk)))
  have hmarks : x ∉ ['\\', '"', 'n', 'r', 't', '0', 'u', '\x7b', '\x7d'] :=
    fun hmem => hx (List.mem_append_left _ hmem)
  unfold escape named at h
  split_ifs at h <;> simp_all

theorem newline_notMem_escape (c : Char) : '\n' ∉ escape c := by
  intro h
  have heq := eq_of_mem_escape (by decide) h
  subst heq
  simp [escape] at h

theorem toList_quoted (s : String) :
    (quoted s).toList = '"' :: (s.toList.flatMap escape ++ ['"']) := by
  simp [quoted]

theorem newline_notMem_quoted (s : String) : '\n' ∉ (quoted s).toList := by
  simp [toList_quoted, newline_notMem_escape]

theorem infix_quoted_append_iff {x : Char} {needle : List Char}
    (hmarks : ∀ y ∈ x :: needle, y ∉ escapeMarks) (hself : ∀ y ∈ x :: needle, escape y = [y])
    (s : String) (rest : List Char) : x :: needle <:+: (quoted s).toList ++ rest ↔
      x :: needle <:+: s.toList ∨ x :: needle <:+: rest := by
  have hquote : '"' ∉ x :: needle := fun h => hmarks _ h (by decide)
  have hother : ∀ y ∈ x :: needle, ∀ c, y ∈ escape c → c = y :=
    fun y hy c => eq_of_mem_escape (hmarks y hy)
  have hfront : x :: needle <:+: '"' :: (s.toList.flatMap escape ++ '"' :: rest) ↔
      x :: needle <:+: [] ∨ x :: needle <:+: s.toList.flatMap escape ++ '"' :: rest :=
    infix_append_cons_iff (a := []) hquote
  rw [toList_quoted, List.cons_append, List.append_assoc, List.singleton_append, hfront,
    infix_append_cons_iff hquote, infix_flatMap_iff escape_ne_nil hself hother]
  simp

end JoinPipeline.Text
