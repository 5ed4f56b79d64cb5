import JoinPipeline.Text.Lines

/-!
# Lines and what stands in them

Text that was put together from whole lines falls into these lines again. Whether something stands
in a line is told piece by piece, as the line is cut at a character that it does not have.
-/

namespace JoinPipeline.Text

section Lines

theorem linesFrom_line {line : List Char} (h : '\n' ∉ line) (begun more : List Char) :
    linesFrom begun (line ++ '\n' :: more) =
      dropReturn (begun.reverse ++ line) :: linesFrom [] more := by
  induction line generalizing begun with
  | nil =>
    rw [List.nil_append, linesFrom, if_pos rfl, List.append_nil]
  | cons c line ih =>
    obtain ⟨hc, hline⟩ := List.ne_and_not_mem_of_not_mem_cons h
    rw [List.cons_append, linesFrom, if_neg (Ne.symm hc), ih hline, List.reverse_cons,
      List.append_assoc]
    rfl

theorem lines_flatMap {α : Type} {f : α → List Char} {as : List α} (h : ∀ a ∈ as, '\n' ∉ f a) :
    lines (as.flatMap fun a => f a ++ ['\n']) = as.map fun a => dropReturn (f a) := by
  unfold lines
  induction as with
  | nil => rfl
  | cons a as ih =>
    obtain ⟨ha, hrest⟩ := List.forall_mem_cons.1 h
    rw [List.flatMap_cons, List.append_assoc, List.singleton_append, linesFrom_line ha, ih hrest]
    rfl

end Lines

section Searching

variable {x : Char} {needle a b : List Char}

theorem occursIn_iff (needle text : List Char) : occursIn needle text = true ↔ needle <:+: text := by
  induction text with
  | nil => rw [occursIn, List.isEmpty_iff, List.infix_nil]
  | cons c text ih =>
    rw [occursIn, Bool.or_eq_true, List.isPrefixOf_iff_prefix, ih, List.infix_cons_iff]

/-- What lacks a character stands on one side of it. -/
theorem infix_append_cons_iff (hx : x ∉ needle) :
    needle <:+: a ++ x :: b ↔ needle <:+: a ∨ needle <:+: b := by
  -- A part of the needle at the character, or in front of something that starts with it, is empty.
  have hpart : ∀ part, part ⊆ needle → part <+: x :: b → part = [] := by
    intro part hsub hprefix
    cases part with
    | nil => rfl
    | cons y rest =>
      obtain ⟨hy, _⟩ := List.cons_prefix_cons.1 hprefix
      exact absurd (hy ▸ hsub List.mem_cons_self) hx
  rw [List.infix_append_iff, List.infix_cons_iff]
  constructor
  · rintro (h | (h | h) | ⟨first, second, rfl, hfirst, hsecond⟩)
    · exact .inl h
    · rw [hpart needle (List.Subset.refl _) h]
      exact .inl (List.nil_infix)
    · exact .inr h
    · rw [hpart second (List.subset_append_right _ _) hsecond, List.append_nil]
      exact .inl hfirst.isInfix
  · rintro (h | h)
    · exact .inl h
    · exact .inr (.inl (.inr h))

/-- What starts with a character does not start before it. -/
theorem cons_infix_append_iff (hx : x ∉ a) : x :: needle <:+: a ++ b ↔ x :: needle <:+: b := by
  induction a with
  | nil => rfl
  | cons c a ih =>
    obtain ⟨hc, ha⟩ := List.ne_and_not_mem_of_not_mem_cons hx
    rw [List.cons_append, List.infix_cons_iff, List.cons_prefix_cons, ih ha]
    simp [hc]

/-- The first word of a text is as long as it has no blank in it. -/
theorem concat_prefix_append_cons_iff {word first : List Char} (hword : x ∉ word)
    (hfirst : x ∉ first) : word ++ [x] <+: first ++ x :: b ↔ word = first := by
  induction word generalizing first with
  | nil =>
    cases first with
    | nil => simp
    | cons c first =>
      obtain ⟨hc, _⟩ := List.ne_and_not_mem_of_not_mem_cons hfirst
      simp [hc]
  | cons c word ih =>
    obtain ⟨hc, hrest⟩ := List.ne_and_not_mem_of_not_mem_cons hword
    cases first with
    | nil => simp [Ne.symm hc]
    | cons d first =>
      obtain ⟨_, hlater⟩ := List.ne_and_not_mem_of_not_mem_cons hfirst
      rw [List.cons_append, List.cons_append, List.cons_prefix_cons, ih hrest hlater,
        List.cons_eq_cons]

/-- Where characters are replaced by texts, but those of the needle only by themselves and no other
one by a text that has them, what stands at the beginning is the same. -/
theorem prefix_flatMap_iff {f : Char → List Char} (hne : ∀ c, f c ≠ [])
    (hself : ∀ y ∈ needle, f y = [y]) (hother : ∀ y ∈ needle, ∀ c, y ∈ f c → c = y)
    (text : List Char) : needle <+: text.flatMap f ↔ needle <+: text := by
  induction needle generalizing text with
  | nil => simp
  | cons y needle ih =>
    obtain ⟨hy, hrest⟩ := List.forall_mem_cons.1 hself
    obtain ⟨hfirst, hlater⟩ := List.forall_mem_cons.1 hother
    cases text with
    | nil => rfl
    | cons c text =>
      rw [List.flatMap_cons, List.cons_prefix_cons, ← ih hrest hlater]
      by_cases hc : y = c
      · rw [← hc, hy, List.singleton_append, List.cons_prefix_cons]
      · obtain ⟨d, more, hd⟩ := List.exists_cons_of_ne_nil (hne c)
        have hdy : y ≠ d := by
          rintro rfl
          exact hc (hfirst c (hd ▸ List.mem_cons_self)).symm
        rw [hd, List.cons_append, List.cons_prefix_cons]
        simp [hc, hdy]

theorem infix_flatMap_iff {f : Char → List Char} (hne : ∀ c, f c ≠ [])
    (hself : ∀ y ∈ x :: needle, f y = [y]) (hother : ∀ y ∈ x :: needle, ∀ c, y ∈ f c → c = y)
    (text : List Char) : x :: needle <:+: text.flatMap f ↔ x :: needle <:+: text := by
  induction text with
  | nil => rfl
  | cons c text ih =>
    by_cases hc : x = c
    · subst hc
      have hprefix := prefix_flatMap_iff hne hself hother (x :: text)
      rw [List.flatMap_cons, hself x List.mem_cons_self, List.singleton_append] at hprefix ⊢
      rw [List.infix_cons_iff, List.infix_cons_iff, hprefix, ih]
    · have hlacks : x ∉ f c := fun hx => hc (hother x List.mem_cons_self c hx).symm
      rw [List.flatMap_cons, cons_infix_append_iff hlacks, ih, List.infix_cons_iff,
        List.cons_prefix_cons]
      simp [hc]

/-- A carriage return at the end of a line matters only to what has one. -/
theorem infix_dropReturn_iff (h : '\r' ∉ needle) (line : List Char) :
    needle <:+: dropReturn line ↔ needle <:+: line := by
  unfold dropReturn
  split
  next hlast =>
    obtain ⟨text, rfl⟩ := List.getLast?_eq_some_iff.1 hlast
    rw [List.dropLast_concat, infix_append_cons_iff h, List.infix_nil]
    refine ⟨.inl, ?_⟩
    rintro (hin | rfl)
    · exact hin
    · exact List.nil_infix
  next => rfl

end Searching

end JoinPipeline.Text
