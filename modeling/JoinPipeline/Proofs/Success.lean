import JoinPipeline.Run

/-!
# Runs that succeed

A sequence of steps succeeds exactly if each of its steps does. What a chain gives is read off its
stages one after another, whatever events they report.
-/

namespace JoinPipeline

section Sequences

variable {ε δ α γ : Type}

theorem bind_eq_ok {x : Except ε α} {f : α → Except ε γ} {c : γ} :
    x >>= f = .ok c ↔ ∃ a, x = .ok a ∧ f a = .ok c := by
  cases x with
  | error e =>
    constructor
    · intro h
      cases h
    · intro h
      obtain ⟨a, ha, _⟩ := h
      cases ha
  | ok a =>
    constructor
    · intro h
      exact ⟨a, rfl, h⟩
    · intro h
      obtain ⟨b, hb, hf⟩ := h
      cases hb
      exact hf

theorem bind_eq_error {x : Except ε α} {f : α → Except ε γ} {e : ε} :
    x >>= f = .error e ↔ x = .error e ∨ ∃ a, x = .ok a ∧ f a = .error e := by
  cases x with
  | error e' =>
    constructor
    · intro h
      cases h
      exact .inl rfl
    · intro h
      rcases h with h | ⟨a, ha, _⟩
      · cases h
        rfl
      · cases ha
  | ok a =>
    constructor
    · intro h
      exact .inr ⟨a, rfl, h⟩
    · intro h
      rcases h with h | ⟨b, hb, hf⟩
      · cases h
      · cases hb
        exact hf

theorem map_eq_ok {f : α → γ} {x : Except ε α} {c : γ} :
    x.map f = .ok c ↔ ∃ a, x = .ok a ∧ f a = c := by
  cases x with
  | error e =>
    constructor
    · intro h
      cases h
    · intro h
      obtain ⟨a, ha, _⟩ := h
      cases ha
  | ok a =>
    constructor
    · intro h
      cases h
      exact ⟨a, rfl, rfl⟩
    · intro h
      obtain ⟨b, hb, hf⟩ := h
      cases hb
      exact congrArg Except.ok hf

/-- Results that are the same whenever one of them is a success are the same, or two failures. -/
theorem both_ok_or_both_error {x y : Except ε α} (h : ∀ a, x = .ok a ↔ y = .ok a) :
    (∃ a, x = .ok a ∧ y = .ok a) ∨ ∃ e e', x = .error e ∧ y = .error e' := by
  cases hx : x with
  | ok a => exact .inl ⟨a, rfl, (h a).1 hx⟩
  | error e =>
    cases hy : y with
    | ok a =>
      have hsame := (h a).2 hy
      rw [hx] at hsame
      cases hsame
    | error e' => exact .inr ⟨e, e', rfl, rfl⟩

/-- A step that succeeds on every element succeeds on a list. -/
theorem mapM_eq_ok_map {f : α → Except ε γ} {g : α → γ} {l : List α}
    (h : ∀ a ∈ l, f a = .ok (g a)) : l.mapM f = .ok (l.map g) := by
  induction l with
  | nil => rfl
  | cons a l ih =>
    rw [List.mapM_cons, h a List.mem_cons_self, ih fun b hb => h b (List.mem_cons_of_mem _ hb)]
    rfl

theorem mapM_cons_eq_ok {f : α → Except ε γ} {a : α} {l : List α} {out : List γ} :
    (a :: l).mapM f = .ok out ↔ ∃ b rest, f a = .ok b ∧ l.mapM f = .ok rest ∧ out = b :: rest := by
  rw [List.mapM_cons, bind_eq_ok]
  constructor
  · intro h
    obtain ⟨b, hb, hmap⟩ := h
    obtain ⟨rest, hrest, hout⟩ := bind_eq_ok.1 hmap
    cases hout
    exact ⟨b, rest, hb, hrest, rfl⟩
  · intro h
    obtain ⟨b, rest, hb, hrest, hout⟩ := h
    subst hout
    exact ⟨b, hb, bind_eq_ok.2 ⟨rest, hrest, rfl⟩⟩

/-- Where a pass over a list fails, its step fails on an element. -/
theorem exists_of_mapM_eq_error {f : α → Except ε γ} {l : List α} {e : ε}
    (h : l.mapM f = .error e) : ∃ a ∈ l, f a = .error e := by
  induction l with
  | nil => cases h
  | cons a l ih =>
    rw [List.mapM_cons] at h
    rcases bind_eq_error.1 h with hfirst | ⟨b, _, hmap⟩
    · exact ⟨a, List.mem_cons_self, hfirst⟩
    rcases bind_eq_error.1 hmap with hrest | ⟨bs, _, hdone⟩
    · obtain ⟨a', hmem, ha'⟩ := ih hrest
      exact ⟨a', List.mem_cons_of_mem _ hmem, ha'⟩
    · cases hdone

/-- Where a fold fails, its step fails on an element. -/
theorem exists_of_foldlM_eq_error {f : γ → α → Except ε γ} {l : List α} {c : γ} {e : ε}
    (h : l.foldlM f c = .error e) : ∃ a ∈ l, ∃ c', f c' a = .error e := by
  induction l generalizing c with
  | nil => cases h
  | cons a l ih =>
    rw [List.foldlM_cons] at h
    rcases bind_eq_error.1 h with hfirst | ⟨c', _, hrest⟩
    · exact ⟨a, List.mem_cons_self, c, hfirst⟩
    · obtain ⟨a', hmem, ha'⟩ := ih hrest
      exact ⟨a', List.mem_cons_of_mem _ hmem, ha'⟩

/-- One pass over a list with two steps is a pass with each of them. -/
theorem mapM_bind_eq_ok {f : α → Except ε α} {g : α → Except ε γ} {l : List α} {out : List γ} :
    l.mapM (fun a => f a >>= g) = .ok out ↔ ∃ mid, l.mapM f = .ok mid ∧ mid.mapM g = .ok out := by
  induction l generalizing out with
  | nil =>
    constructor
    · intro h
      exact ⟨[], rfl, h⟩
    · intro h
      obtain ⟨mid, hmid, hout⟩ := h
      cases hmid
      exact hout
  | cons a l ih =>
    constructor
    · intro h
      obtain ⟨c, rest, hc, hrest, heq⟩ := mapM_cons_eq_ok.1 h
      subst heq
      obtain ⟨b, hb, hgb⟩ := bind_eq_ok.1 hc
      obtain ⟨mid, hmid, hout⟩ := ih.1 hrest
      exact ⟨b :: mid, mapM_cons_eq_ok.2 ⟨b, mid, hb, hmid, rfl⟩,
        mapM_cons_eq_ok.2 ⟨c, rest, hgb, hout, rfl⟩⟩
    · intro h
      obtain ⟨mid, hmid, hout⟩ := h
      obtain ⟨b, bs, hb, hbs, heq⟩ := mapM_cons_eq_ok.1 hmid
      subst heq
      obtain ⟨c, rest, hc, hrest, heq⟩ := mapM_cons_eq_ok.1 hout
      subst heq
      have hfirst : f a >>= g = .ok c := bind_eq_ok.2 ⟨b, hb, hc⟩
      have hothers : l.mapM (fun a => f a >>= g) = .ok rest := ih.2 ⟨bs, hbs, hrest⟩
      exact mapM_cons_eq_ok.2 ⟨c, rest, hfirst, hothers, rfl⟩

end Sequences

variable {β : Type} [Basis β]

namespace Run

theorem applyOps_append (first second : List (Op β)) (p : Partition β) :
    applyOps (first ++ second) p = applyOps first p >>= applyOps second := by
  unfold applyOps
  rw [List.foldlM_append]

theorem result_stage_stateless (ctx : RunContext β) (parts : List (Partition β))
    (ops : List (Op β)) :
    (stage ctx parts (.stateless ops)).result = parts.mapM (applyOps ops) := by
  simp only [stage, Log.Traced.result_bind, Log.Traced.result_report, Log.Traced.result_ofExcept]
  rfl

theorem result_stage_groupByKey (ctx : RunContext β) (parts : List (Partition β))
    (step : GroupStep β) :
    (stage ctx parts (.groupByKey step)).result =
      parts.mapM step.tabulate >>= fun tables =>
        step.merge ctx.scheme tables >>= fun p => .ok [p] := rfl

theorem result_stages_cons (ctx : RunContext β) (parts : List (Partition β)) (node : Node β)
    (rest : List (Node β)) :
    (stages ctx parts (node :: rest)).result =
      (stage ctx parts node).result >>= fun parts =>
        (stages (ctx.behind node) parts rest).result := by
  rw [stages, Log.Traced.result_bind]

theorem result_chain_cons (ctx : RunContext β) (node : Node β) (rest : List (Node β)) :
    (chain ctx (node :: rest)).result =
      (root ctx node).result >>= fun parts => (stages ctx parts rest).result := by
  rw [chain, Log.Traced.result_bind]

/-- The stages behind other ones go on with what these give. -/
theorem result_stages_append (ctx : RunContext β) (parts : List (Partition β))
    (before after : List (Node β)) :
    (stages ctx parts (before ++ after)).result =
      (stages ctx parts before).result >>= fun parts =>
        (stages (before.foldl RunContext.behind ctx) parts after).result := by
  induction before generalizing ctx parts with
  | nil => rfl
  | cons first before ih =>
    rw [List.cons_append, result_stages_cons, result_stages_cons, bind_assoc]
    congr 1
    funext parts
    exact ih _ _

theorem result_stages_singleton (ctx : RunContext β) (parts : List (Partition β))
    (node : Node β) : (stages ctx parts [node]).result = (stage ctx parts node).result := by
  rw [result_stages_cons]
  exact bind_pure (stage ctx parts node).result

/-- The stages behind a chain that succeeds go on with what it gives. -/
theorem result_chain_append (ctx : RunContext β) {before : List (Node β)} (hne : before ≠ []) :
    ∃ ctx' : RunContext β, ∀ after, (chain ctx (before ++ after)).result =
      (chain ctx before).result >>= fun parts => (stages ctx' parts after).result := by
  obtain ⟨first, rest, rfl⟩ := List.exists_cons_of_ne_nil hne
  refine ⟨rest.foldl RunContext.behind ctx, fun after => ?_⟩
  rw [List.cons_append, result_chain_cons, result_chain_cons, bind_assoc]
  congr 1
  funext parts
  exact result_stages_append _ _ _ _

theorem result_chain_concat {ctx : RunContext β} {before : List (Node β)}
    {parts : List (Partition β)} (h : (chain ctx before).result = .ok parts) (node : Node β) :
    ∃ ctx' : RunContext β,
      (chain ctx (before ++ [node])).result = (stage ctx' parts node).result := by
  have hne : before ≠ [] := by
    rintro rfl
    cases h
  obtain ⟨ctx', happend⟩ := result_chain_append ctx hne
  refine ⟨ctx', ?_⟩
  rw [happend, h]
  exact result_stages_singleton _ _ _

end Run

end JoinPipeline
