import JoinPipeline.Value
import JoinPipeline.Proofs.Built
import JoinPipeline.Proofs.Emptied
import JoinPipeline.Proofs.EvenCuts
import JoinPipeline.Proofs.Stages

/-!
# Failures do not depend on the rows

Every stage is given at least one partition, also where there are no rows, and all of its
partitions are of one type. So the types alone decide whether a stage fails, and with what. A run
therefore comes out like one of the same graph without any rows, in whatever number of partitions
and with whatever choices of the tables.
-/

namespace JoinPipeline

section Outcomes

variable {ε δ α γ α' γ' : Type}

/-- Two results are the same failure, or successes that are related. -/
inductive SameOutcome (R : α → γ → Prop) : Except ε α → Except ε γ → Prop
  | failure (e : ε) : SameOutcome R (.error e) (.error e)
  | success {a : α} {c : γ} (h : R a c) : SameOutcome R (.ok a) (.ok c)

namespace SameOutcome

variable {R : α → γ → Prop} {S : α' → γ' → Prop} {x : Except ε α} {y : Except ε γ}

theorem bind (h : SameOutcome R x y) {f : α → Except ε α'} {f' : γ → Except ε γ'}
    (hf : ∀ a c, R a c → SameOutcome S (f a) (f' c)) :
    SameOutcome S (x >>= f) (y >>= f') := by
  cases h with
  | failure e => exact .failure e
  | success hac => exact hf _ _ hac

theorem mapError (h : SameOutcome R x y) (f : ε → δ) :
    SameOutcome R (x.mapError f) (y.mapError f) := by
  cases h with
  | failure e => exact .failure (f e)
  | success hac => exact .success hac

theorem of_error {e : ε} (h : SameOutcome R x y) (hx : x = .error e) : y = .error e := by
  cases h with
  | failure =>
    cases hx
    rfl
  | success => cases hx

theorem of_ok {a : α} (h : SameOutcome R x y) (hx : x = .ok a) : ∃ c, y = .ok c ∧ R a c := by
  cases h with
  | failure => cases hx
  | success hac =>
    cases hx
    exact ⟨_, rfl, hac⟩

theorem isOk_iff (h : SameOutcome R x y) : (∃ a, x = .ok a) ↔ ∃ c, y = .ok c := by
  cases h with
  | failure e =>
    constructor
    · rintro ⟨a, ha⟩
      cases ha
    · rintro ⟨c, hc⟩
      cases hc
  | success hac => exact ⟨fun _ => ⟨_, rfl⟩, fun _ => ⟨_, rfl⟩⟩

theorem error_iff (h : SameOutcome R x y) (e : ε) : x = .error e ↔ y = .error e := by
  refine ⟨h.of_error, ?_⟩
  cases h with
  | failure =>
    rintro ⟨⟩
    rfl
  | success => rintro ⟨⟩

end SameOutcome

/-- A step that fails on a list's elements in one way fails on the list, unless it is empty. -/
theorem mapM_eq_error {f : α → Except ε γ} {e : ε} {l : List α} (hne : l ≠ [])
    (h : ∀ a ∈ l, f a = .error e) : l.mapM f = .error e := by
  cases l with
  | nil => exact absurd rfl hne
  | cons a l =>
    rw [List.mapM_cons, h a List.mem_cons_self]
    rfl

theorem mapM_eq_ok {f : α → Except ε γ} {P : γ → Prop} {l : List α}
    (h : ∀ a ∈ l, ∃ c, f a = .ok c ∧ P c) :
    ∃ out, l.mapM f = .ok out ∧ out.length = l.length ∧ ∀ c ∈ out, P c := by
  induction l with
  | nil => exact ⟨[], rfl, rfl, List.forall_mem_nil _⟩
  | cons a l ih =>
    obtain ⟨hfirst, hrest⟩ := List.forall_mem_cons.1 h
    obtain ⟨c, hc, hP⟩ := hfirst
    obtain ⟨out, hout, hlength, hall⟩ := ih hrest
    refine ⟨c :: out, mapM_cons_eq_ok.2 ⟨c, out, hc, hout, rfl⟩, ?_, ?_⟩
    · rw [List.length_cons, List.length_cons, hlength]
    · exact List.forall_mem_cons.2 ⟨hP, hall⟩

end Outcomes

variable {β : Type} [Basis β]

/-- Partitions of one type, at least one of them. -/
structure AreOf (t : ElementType β) (parts : List (Partition β)) : Prop where
  ne_nil : parts ≠ []
  element : ∀ p ∈ parts, p.element = t

def SameType (p q : Partition β) : Prop := p.element = q.element

def SameTypes (parts parts' : List (Partition β)) : Prop := ∃ t, AreOf t parts ∧ AreOf t parts'

section Partitions

variable {t u : ElementType β} {p p' : Partition β} {parts parts' : List (Partition β)}
  {f : Partition β → Except (RunError β) (Partition β)}

/-- Partitions of one type are both of the type that is asked for, or none of them is. -/
theorem SameType.cases (h : SameType p p') (t : ElementType β) :
    (∃ rows rows', p = ⟨t, rows⟩ ∧ p' = ⟨t, rows'⟩) ∨ p.as? t = none ∧ p'.as? t = none := by
  obtain ⟨element, rows⟩ := p
  obtain ⟨element', rows'⟩ := p'
  cases h
  by_cases ht : element = t
  · subst ht
    exact .inl ⟨rows, rows', rfl, rfl⟩
  · exact .inr ⟨dif_neg ht, dif_neg ht⟩

theorem AreOf.exists_rows (h : AreOf t parts) : ∃ rows, IsCut t rows parts := by
  have helement := h.element
  clear h
  induction parts with
  | nil => exact ⟨[], [], rfl, rfl⟩
  | cons p parts ih =>
    obtain ⟨hfirst, hrest⟩ := List.forall_mem_cons.1 helement
    obtain ⟨_, pieces, _, hpieces⟩ := ih hrest
    obtain ⟨_, rows⟩ := p
    cases hfirst
    refine ⟨_, rows :: pieces, rfl, ?_⟩
    rw [List.map_cons, hpieces]

theorem areOf_map {pieces : List (List t.Carrier)} (h : pieces ≠ []) :
    AreOf t (pieces.map (Partition.mk t)) where
  ne_nil hnil := h (List.map_eq_nil_iff.1 hnil)
  element p hp := by
    obtain ⟨_, _, rfl⟩ := List.mem_map.1 hp
    rfl

theorem areOf_single (h : p.element = t) : AreOf t [p] where
  ne_nil := List.cons_ne_nil _ _
  element _ hq := by rw [List.mem_singleton.1 hq, h]

theorem areOf_cut (n : Nat) (rows : List t.Carrier) :
    AreOf t ((cut n rows).map (Partition.mk t)) :=
  areOf_map (isEvenCut_cut n rows).ne_nil

/-- Partitions of one type are all of the type that is asked for, or none of them is. -/
theorem SameTypes.cases (h : SameTypes parts parts') (u : ElementType β) :
    (∃ rows rows', IsCut u rows parts ∧ IsCut u rows' parts') ∨
      ∃ t, t ≠ u ∧ AreOf t parts ∧ AreOf t parts' := by
  obtain ⟨t, hparts, hparts'⟩ := h
  by_cases ht : t = u
  · subst ht
    obtain ⟨rows, hrows⟩ := hparts.exists_rows
    obtain ⟨rows', hrows'⟩ := hparts'.exists_rows
    exact .inl ⟨rows, rows', hrows, hrows'⟩
  · exact .inr ⟨t, ht, hparts, hparts'⟩

theorem AreOf.as?_eq_none (h : AreOf t parts) (hne : t ≠ u) : ∀ p ∈ parts, p.as? u = none := by
  intro p hp
  exact dif_neg ((h.element p hp).trans_ne hne)

theorem AreOf.mapM_eq_ok (h : AreOf t parts)
    (hf : ∀ p, p.element = t → ∃ q, f p = .ok q ∧ q.element = u) :
    ∃ out, parts.mapM f = .ok out ∧ AreOf u out := by
  obtain ⟨out, hout, hlength, helement⟩ :=
    JoinPipeline.mapM_eq_ok fun p hp => hf p (h.element p hp)
  refine ⟨out, hout, fun hnil => h.ne_nil ?_, helement⟩
  rw [← List.length_eq_zero_iff, ← hlength, hnil]
  rfl

/-- A step that fails by the type of a partition does so on lists of partitions. -/
theorem SameTypes.mapM (hf : ∀ p p', SameType p p' → SameOutcome SameType (f p) (f p'))
    (h : SameTypes parts parts') :
    SameOutcome SameTypes (parts.mapM f) (parts'.mapM f) := by
  obtain ⟨t, hparts, hparts'⟩ := h
  obtain ⟨first, hmem⟩ := List.exists_mem_of_ne_nil parts hparts.ne_nil
  have hlike : ∀ p, p.element = t → SameOutcome SameType (f first) (f p) := fun p hp =>
    hf first p ((hparts.element first hmem).trans hp.symm)
  cases hfirst : f first with
  | error e =>
    have hall : ∀ p, p.element = t → f p = .error e := fun p hp => (hlike p hp).of_error hfirst
    rw [mapM_eq_error hparts.ne_nil fun p hp => hall p (hparts.element p hp),
      mapM_eq_error hparts'.ne_nil fun p hp => hall p (hparts'.element p hp)]
    exact .failure e
  | ok made =>
    have hall : ∀ p, p.element = t → ∃ q, f p = .ok q ∧ q.element = made.element := by
      intro p hp
      obtain ⟨q, hq, hsame⟩ := (hlike p hp).of_ok hfirst
      exact ⟨q, hq, hsame.symm⟩
    obtain ⟨out, hout, houtOf⟩ := hparts.mapM_eq_ok hall
    obtain ⟨out', hout', houtOf'⟩ := hparts'.mapM_eq_ok hall
    rw [hout, hout']
    exact .success ⟨_, houtOf, houtOf'⟩

end Partitions

section Operations

variable {p p' : Partition β} {parts parts' : List (Partition β)}

theorem Op.onRows_sameType (label : String) (s t : ElementType β)
    (f : List s.Carrier → List t.Carrier) (h : SameType p p') :
    SameOutcome SameType ((onRows label s t f).apply p) ((onRows label s t f).apply p') := by
  rcases h.cases s with ⟨rows, rows', rfl, rfl⟩ | ⟨hnone, hnone'⟩
  · simp only [onRows, Partition.as?_self]
    exact .success rfl
  · simp only [onRows, hnone, hnone']
    exact .failure _

/-- Whether an operation fails, and what type it makes, is told by the type it is given. -/
theorem Op.IsBuilt.sameType {op : Op β} (hop : op.IsBuilt) (h : SameType p p') :
    SameOutcome SameType (op.apply p) (op.apply p') := by
  cases hop with
  | map s t f => exact onRows_sameType _ _ _ _ h
  | filter t keep => exact onRows_sameType _ _ _ _ h
  | flatMap s t f => exact onRows_sameType _ _ _ _ h

theorem Run.applyOps_sameType {ops : List (Op β)} (hops : ∀ op ∈ ops, op.IsBuilt)
    (h : SameType p p') : SameOutcome SameType (applyOps ops p) (applyOps ops p') := by
  unfold applyOps
  induction ops generalizing p p' with
  | nil => exact .success h
  | cons op ops ih =>
    obtain ⟨hop, hrest⟩ := List.forall_mem_cons.1 hops
    rw [List.foldlM_cons, List.foldlM_cons]
    exact (hop.sameType h).bind fun q q' hq => ih hrest hq

end Operations

section GroupByKey

variable {parts parts' : List (Partition β)}

/-- A grouping by key fails on partitions of another type. -/
theorem GroupStep.stage_of_ne {t k v : ElementType β} (hparts : AreOf t parts)
    (hne : t ≠ .pair k v) (ctx : RunContext β) :
    (Run.stage ctx parts (.groupByKey (.byKey k v))).result =
      .error (.stage "group_by_key" (.pair k v)) := by
  have htabulate : ∀ p ∈ parts, (GroupStep.byKey k v).tabulate p =
      .error (.stage "group_by_key" (.pair k v)) := by
    intro p hp
    simp only [GroupStep.byKey, hparts.as?_eq_none hne p hp]
  rw [Run.result_stage_groupByKey, mapM_eq_error hparts.ne_nil htabulate]
  rfl

/-- Rows that were left as they are cannot be merged. -/
theorem GroupStep.stage_keepRows (k v : ElementType β) (hne : parts ≠ []) (ctx : RunContext β) :
    (Run.stage ctx parts (.groupByKey
      { GroupStep.byKey k v with tabulate := fun p => .ok (.rows p) })).result =
        .error .noTable := by
  cases parts with
  | nil => exact absurd rfl hne
  | cons p parts =>
    have htables : (p :: parts).mapM (fun p => (.ok (.rows p) : Except (RunError β) (Partial β))) =
        .ok ((p :: parts).map .rows) := mapM_eq_ok_map fun _ _ => rfl
    rw [Run.result_stage_groupByKey, htables]
    rfl

theorem GroupStep.IsBuilt.sameTypes {step : GroupStep β} (hstep : step.IsBuilt)
    (h : SameTypes parts parts') (ctx ctx' : RunContext β) :
    SameOutcome SameTypes (Run.stage ctx parts (.groupByKey step)).result
      (Run.stage ctx' parts' (.groupByKey step)).result := by
  cases hstep with
  | byKey k v =>
    rcases h.cases (.pair k v) with ⟨rows, rows', hcut, hcut'⟩ | ⟨t, hne, hparts, hparts'⟩
    · obtain ⟨out, _, hout⟩ := Run.stage_byKey ctx hcut
      obtain ⟨out', _, hout'⟩ := Run.stage_byKey ctx' hcut'
      rw [hout, hout']
      exact .success ⟨_, areOf_single rfl, areOf_single rfl⟩
    · rw [stage_of_ne hparts hne, stage_of_ne hparts' hne]
      exact .failure _
  | keepRows k v =>
    obtain ⟨t, hparts, hparts'⟩ := h
    rw [stage_keepRows k v hparts.ne_nil, stage_keepRows k v hparts'.ne_nil]
    exact .failure _

end GroupByKey

section CoGroup

variable {p p' : Partition β} {parts parts' : List (Partition β)}

theorem CoGroupStep.rowsOf_sameType (name : String) (t : ElementType β) (h : SameType p p') :
    SameOutcome (fun _ _ => True) (rowsOf name t p) (rowsOf name t p') := by
  rcases h.cases t with ⟨rows, rows', rfl, rfl⟩ | ⟨hnone, hnone'⟩
  · rw [rowsOf_self, rowsOf_self]
    exact .success trivial
  · simp only [rowsOf, hnone, hnone']
    exact .failure _

/-- A co-group of two inputs fails by their number and their types. -/
theorem CoGroupStep.two_sameTypes (name : String) (a b out : ElementType β)
    (rows : HashScheme β → List a.Carrier → List b.Carrier → List out.Carrier)
    (h : List.Forall₂ SameType parts parts') (scheme scheme' : HashScheme β) :
    SameOutcome (fun p p' => p.element = out ∧ p'.element = out)
      ((two name a b out rows).exec scheme parts)
      ((two name a b out rows).exec scheme' parts') := by
  have hlength := h.length_eq
  cases h with
  | nil => exact .failure _
  | cons hp h =>
    cases h with
    | nil => exact .failure _
    | cons hq h =>
      cases h with
      | nil =>
        exact (rowsOf_sameType name a hp).bind fun _ _ _ =>
          (rowsOf_sameType name b hq).bind fun _ _ _ => .success ⟨rfl, rfl⟩
      | cons _ h =>
        simp only [two, hlength]
        exact .failure _

theorem CoGroupStep.three_sameTypes (name : String) (a b c out : ElementType β)
    (rows : HashScheme β → List a.Carrier → List b.Carrier → List c.Carrier → List out.Carrier)
    (h : List.Forall₂ SameType parts parts') (scheme scheme' : HashScheme β) :
    SameOutcome (fun p p' => p.element = out ∧ p'.element = out)
      ((three name a b c out rows).exec scheme parts)
      ((three name a b c out rows).exec scheme' parts') := by
  have hlength := h.length_eq
  cases h with
  | nil => exact .failure _
  | cons hp h =>
    cases h with
    | nil => exact .failure _
    | cons hq h =>
      cases h with
      | nil => exact .failure _
      | cons hr h =>
        cases h with
        | nil =>
          exact (rowsOf_sameType name a hp).bind fun _ _ _ =>
            (rowsOf_sameType name b hq).bind fun _ _ _ =>
              (rowsOf_sameType name c hr).bind fun _ _ _ => .success ⟨rfl, rfl⟩
        | cons _ h =>
          simp only [three, hlength]
          exact .failure _

theorem CoGroupStep.IsBuilt.sameTypes {step : CoGroupStep β} (hstep : step.IsBuilt)
    (h : List.Forall₂ SameType parts parts') (scheme scheme' : HashScheme β) :
    SameOutcome (fun p p' => p.element = step.output ∧ p'.element = step.output)
      (step.exec scheme parts) (step.exec scheme' parts') := by
  cases hstep with
  | joinTwo g name kind k v w => exact two_sameTypes _ _ _ _ _ h scheme scheme'
  | joinThree g name kind k a b c => exact three_sameTypes _ _ _ _ _ _ h scheme scheme'

end CoGroup

section Roots

variable {parts parts' : List (Partition β)}

/-- A source fails if its rows are of another type than its elements. -/
theorem Run.source_sameTypes (ctx ctx' : RunContext β) (element : ElementType β)
    {payload payload' : Partition β} (h : SameType payload payload') :
    SameOutcome SameTypes (source ctx element payload) (source ctx' element payload') := by
  rcases h.cases element with ⟨rows, rows', rfl, rfl⟩ | ⟨hnone, hnone'⟩
  · simp only [source, split?_self]
    exact .success ⟨element, areOf_cut _ _, areOf_cut _ _⟩
  · simp only [source, ElementType.split?, hnone, hnone', Option.map_none]
    exact .failure _

/-- What a co-group has made is cut into partitions of its type. -/
theorem Run.areOf_cutOutcome (ctx : RunContext β) {output : ElementType β}
    {outcome : Partition β} (h : outcome.element = output) :
    AreOf output (cutOutcome ctx output outcome) := by
  obtain ⟨_, rows⟩ := outcome
  cases h
  unfold cutOutcome
  simp only [split?_self, Option.getD_some]
  split
  · exact areOf_cut _ rows
  · exact areOf_single rfl

theorem concat?_of_ne {t u : ElementType β} (h : AreOf t parts) (hne : t ≠ u) :
    u.concat? parts = none := by
  cases parts with
  | nil => exact absurd rfl h.ne_nil
  | cons p parts =>
    simp [ElementType.concat?, h.as?_eq_none hne p List.mem_cons_self]

theorem Run.coalesce_sameType (name : String) (u : ElementType β) (h : SameTypes parts parts') :
    SameOutcome SameType (coalesce name u parts) (coalesce name u parts') := by
  rcases h.cases u with ⟨rows, rows', hcut, hcut'⟩ | ⟨t, hne, hparts, hparts'⟩
  · rw [coalesce_of_isCut name hcut, coalesce_of_isCut name hcut']
    exact .success rfl
  · simp only [coalesce, concat?_of_ne hparts hne, concat?_of_ne hparts' hne]
    exact .failure _

theorem Run.gather_of_ne {t u : ElementType β} (h : AreOf t parts) (hne : t ≠ u) :
    gather u parts = .error (.stage "terminal" u) := by
  unfold gather
  rw [mapM_eq_error h.ne_nil]
  · rfl
  · intro p hp
    simp only [h.as?_eq_none hne p hp]

theorem Run.gather_sameTypes (u : ElementType β) (h : SameTypes parts parts') :
    SameOutcome (fun _ _ => True) (gather u parts) (gather u parts') := by
  rcases h.cases u with ⟨rows, rows', hcut, hcut'⟩ | ⟨t, hne, hparts, hparts'⟩
  · rw [gather_of_isCut hcut, gather_of_isCut hcut']
    exact .success trivial
  · rw [gather_of_ne hparts hne, gather_of_ne hparts' hne]
    exact .failure _

end Roots

section Runs

variable {parts parts' : List (Partition β)} {node : Node β} {chain : Chain β}

theorem Run.stage_sameTypes (hnode : node.IsBuilt) (h : SameTypes parts parts')
    (ctx ctx' : RunContext β) :
    SameOutcome SameTypes (stage ctx parts node).result
      (stage ctx' parts' node.emptied).result := by
  cases hnode with
  | source element payload => exact .failure _
  | stateless hops =>
    rw [Node.emptied, result_stage_stateless, result_stage_stateless]
    exact h.mapM fun _ _ hp => applyOps_sameType hops hp
  | groupByKey hstep => exact hstep.sameTypes h ctx ctx'
  | coGroup hstep hinputs => exact .failure _

theorem Run.stages_sameTypes (hchain : chain.IsBuilt) (h : SameTypes parts parts')
    (ctx ctx' : RunContext β) :
    SameOutcome SameTypes (stages ctx parts chain).result
      (stages ctx' parts' chain.emptied).result := by
  induction chain generalizing parts parts' ctx ctx' with
  | nil => exact .success h
  | cons node rest ih =>
    obtain ⟨hnode, hrest⟩ := List.forall_mem_cons.1 hchain
    rw [Chain.emptied, List.map_cons, result_stages_cons, result_stages_cons]
    exact (stage_sameTypes hnode h ctx ctx').bind fun _ _ hparts => ih hrest hparts _ _

/-- What the partitions of a root are, is told by the root without rows. -/
def Node.IsUniform (node : Node β) : Prop :=
  ∀ ctx ctx' : RunContext β, SameOutcome SameTypes (Run.root ctx node).result
    (Run.root ctx' node.emptied).result

theorem Run.chain_sameTypes (hchain : chain.IsBuilt) (hroots : ∀ node ∈ chain, node.IsUniform)
    (ctx ctx' : RunContext β) :
    SameOutcome SameTypes (Run.chain ctx chain).result (Run.chain ctx' chain.emptied).result := by
  cases chain with
  | nil => exact .failure _
  | cons node rest =>
    obtain ⟨_, hrest⟩ := List.forall_mem_cons.1 hchain
    rw [Chain.emptied, List.map_cons, result_chain_cons, result_chain_cons]
    exact (hroots node List.mem_cons_self ctx ctx').bind fun _ _ hparts =>
      stages_sameTypes hrest hparts ctx ctx'

theorem Run.runInputs_sameTypes {inputs : List (Chain β)}
    (hinputs : ∀ input ∈ inputs, input.IsBuilt)
    (hroots : ∀ input ∈ inputs, ∀ node ∈ input, node.IsUniform) (ctx ctx' : RunContext β)
    (place : Nat) (name : String) (elements : List (ElementType β)) :
    SameOutcome (List.Forall₂ SameType) (runInputs ctx place name elements inputs).result
      (runInputs ctx' place name elements (inputs.map Chain.emptied)).result := by
  induction inputs generalizing place elements with
  | nil => exact .success .nil
  | cons input rest ih =>
    obtain ⟨hinput, hrest⟩ := List.forall_mem_cons.1 hinputs
    obtain ⟨hroot, hothers⟩ := List.forall_mem_cons.1 hroots
    cases elements with
    | nil => exact .success .nil
    | cons element elements =>
      simp only [List.map_cons, runInputs, Log.Traced.result_bind, Log.Traced.result_ofExcept]
      refine (chain_sameTypes hinput hroot _ _).bind fun parts parts' hparts => ?_
      refine (coalesce_sameType name element hparts).bind fun p p' hp => ?_
      exact (ih hrest hothers _ _).bind fun _ _ hps => .success (.cons hp hps)

/-- By induction over the inputs of co-groups, which are built in their turn. -/
theorem Node.IsBuilt.isUniform (h : node.IsBuilt) : node.IsUniform := by
  induction h with
  | source element payload =>
    intro ctx ctx'
    exact Run.source_sameTypes ctx ctx' element rfl
  | stateless => exact fun _ _ => .failure _
  | groupByKey => exact fun _ _ => .failure _
  | @coGroup step inputs hstep hinputs ih =>
    intro ctx ctx'
    rw [Node.emptied, emptiedInputs_eq]
    simp only [Run.root, Run.coGroup, Log.Traced.result_bind, Log.Traced.result_elsewhereIf,
      Log.Traced.result_ofExcept]
    refine (Run.runInputs_sameTypes hinputs ih ctx ctx' 1 step.name step.inputElements).bind
      fun parts parts' hparts => ?_
    refine ((hstep.sameTypes hparts ctx.scheme ctx'.scheme).mapError _).bind
      fun p p' hp => ?_
    exact .success ⟨step.output, Run.areOf_cutOutcome ctx hp.1, Run.areOf_cutOutcome ctx' hp.2⟩

/-- A run comes out like one of the same graph without rows. -/
theorem Graph.IsBuilt.collect_emptied {g : Graph β} (h : g.IsBuilt)
    (settings settings' : RunSettings β) (terminal : NodeId) (t : ElementType β) :
    SameOutcome (fun _ _ => True) (g.collect settings terminal t).result
      (g.emptied.collect settings' terminal t).result := by
  simp only [collect, Log.Traced.result_bind, Log.Traced.result_mapError, buildPlan_result,
    Log.Traced.result_elsewhereIf, Log.Traced.result_ofExcept, plan_emptied]
  cases hplan : g.plan terminal with
  | error cause => exact .failure _
  | ok plan =>
    have hbuilt := h.plan hplan
    have hrun := Run.chain_sameTypes hbuilt (fun node hnode => (hbuilt node hnode).isUniform)
      settings.context settings'.context
    exact hrun.bind fun _ _ hparts => Run.gather_sameTypes t hparts

/-- Whatever builders and edits have made: whether a run succeeds depends neither on the rows of
any source nor on the way of running. Sequential runs that fail, fail in the same way; in parallel
it may be any of several inputs of a co-group that is found to fail. -/
theorem collect_uniform :
    (∀ w : Workspace β, w.Arises → ∀ p, (w.graph p).IsBuilt) ∧
    ∀ g g' : Graph β, g.IsBuilt → g'.IsBuilt → g'.emptied = g.emptied →
      ∀ (settings settings' : RunSettings β) (terminal : NodeId) (t : ElementType β),
        ((∃ rows, (g.collect settings terminal t).result = .ok rows) ↔
          ∃ rows, (g'.collect settings' terminal t).result = .ok rows) ∧
        (settings.mode = .sequential → settings'.mode = .sequential →
          ∀ cause, (g.collect settings terminal t).result = .error cause ↔
            (g'.collect settings' terminal t).result = .error cause) := by
  refine ⟨fun w h => h.isBuilt, ?_⟩
  intro g g' hg hg' hemptied settings settings' terminal t
  have hfirst := hg.collect_emptied settings settings' terminal t
  have hsecond := hg'.collect_emptied settings' settings' terminal t
  rw [hemptied] at hsecond
  refine ⟨hfirst.isOk_iff.trans hsecond.isOk_iff.symm, fun _ _ cause => ?_⟩
  exact (hfirst.error_iff cause).trans (hsecond.error_iff cause).symm

section Sample

/-- A source of numbers with a filter of texts behind it. -/
def misread (rows : List Int64) : Workspace Atom :=
  let w := (Workspace.addPipeline {} {}).2
  let numbers : Collection Atom (.base .text) := ⟨⟨0⟩, ⟨0⟩, false⟩
  ((Elementwise.filter fun _ => true).build numbers
    (Collection.ofRows ⟨0⟩ (.base .int64) rows w).2).2

theorem arises_misread (rows : List Int64) : (misread rows).Arises :=
  .each (.source (.pipeline .empty {}) ⟨0⟩ (.base Atom.int64) rows) _ _

theorem reaches_misread (rows : List Int64) :
    ((misread rows).graph ⟨0⟩).Reaches ⟨1⟩ [.source (.base .int64) ⟨.base .int64, rows⟩,
      .stateless [.filter (.base .text) fun _ => true]] := by
  have htidy : (({} : Graph Atom).insert
      (.source (.base .int64) ⟨.base .int64, rows⟩)).2.IsTidy := Graph.isTidy_of_edges_eq_nil rfl
  exact (Graph.reaches_insert rfl).connect_insert htidy rfl

theorem collect_misread_nil :
    (((misread []).graph ⟨0⟩).collect ⟨.sequential, 16, fun _ => {}⟩ ⟨1⟩ (.base .text)).result =
      .error (.stage "filter" (.base .text)) := by
  simp only [Graph.collect, Log.Traced.result_bind, Log.Traced.result_mapError,
    Graph.buildPlan_result, Log.Traced.result_elsewhereIf, (reaches_misread []).plan]
  rfl

theorem collect_uniform_misread :
    (((misread [1, 2, 3]).graph ⟨0⟩).collect ⟨.sequential, 16, fun _ => {}⟩ ⟨1⟩
        (.base .text)).result = .error (.stage "filter" (.base .text)) ∧
      ¬ ∃ rows, (((misread [1, 2, 3]).graph ⟨0⟩).collect
        ⟨.parallel none (some 2), 16, fun _ => {}⟩ ⟨1⟩ (.base .text)).result = .ok rows := by
  obtain ⟨hbuilt, huniform⟩ := @collect_uniform Atom _
  have hfirst := hbuilt _ (arises_misread [1, 2, 3]) ⟨0⟩
  have hempty := hbuilt _ (arises_misread []) ⟨0⟩
  refine ⟨?_, ?_⟩
  · exact ((huniform _ _ hfirst hempty rfl _ _ ⟨1⟩ (.base .text)).2 rfl rfl _).2
      collect_misread_nil
  · rw [(huniform _ _ hfirst hempty rfl _ ⟨.sequential, 16, fun _ => {}⟩ ⟨1⟩ (.base .text)).1]
    rintro ⟨rows, hrows⟩
    rw [collect_misread_nil] at hrows
    cases hrows

end Sample

end Runs

end JoinPipeline
