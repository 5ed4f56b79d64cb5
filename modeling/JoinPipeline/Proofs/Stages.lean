import JoinPipeline.Proofs.Cuts
import JoinPipeline.Proofs.Fusion
import JoinPipeline.Proofs.Lineage
import JoinPipeline.Proofs.Tables

/-!
# Stages on cut rows

What a run gives, node by node: a source or a co-group at the root, and an element-wise stage or a
group-by-key stage behind other stages. Each of them succeeds on partitions of the type it works
on, and which rows it gives does not depend on where these are cut.
-/

namespace JoinPipeline

variable {β : Type} [Basis β] {s t k v w a b c : ElementType β}

namespace Run

/-- Running a chain gives pieces of these rows. -/
def Gives (ctx : RunContext β) (chain : Chain β) (t : ElementType β) (rows : List t.Carrier) :
    Prop :=
  ∃ parts, (Run.chain ctx chain).result = .ok parts ∧ IsCut t rows parts

theorem Gives.fuse {ctx : RunContext β} {chain : Chain β} {rows : List t.Carrier}
    (h : Gives ctx chain t rows) : Gives ctx (Chain.fuse chain) t rows := by
  obtain ⟨parts, hrun, hcut⟩ := h
  exact ⟨parts, (Chain.run_fuse ctx chain parts).2 hrun, hcut⟩

theorem gives_source (ctx : RunContext β) (t : ElementType β) (rows : List t.Carrier) :
    Gives ctx [.source t ⟨t, rows⟩] t rows := by
  obtain ⟨parts, hsource, hcut⟩ := source_self ctx rows
  refine ⟨parts, ?_, hcut⟩
  rw [result_chain_cons]
  exact bind_eq_ok.2 ⟨parts, hsource, rfl⟩

theorem applyOps_single (op : Op β) (p : Partition β) : applyOps [op] p = op.apply p := by
  unfold applyOps
  rw [List.foldlM_cons]
  exact bind_pure (op.apply p)

theorem stage_each (ctx : RunContext β) (e : Elementwise β s t) {rows : List s.Carrier}
    {parts : List (Partition β)} (h : IsCut s rows parts) :
    ∃ parts', (stage ctx parts (.stateless [e.op])).result = .ok parts' ∧
      IsCut t (e.rows rows) parts' := by
  obtain ⟨pieces, hrows, hparts⟩ := h
  subst hrows hparts
  refine ⟨(pieces.map e.rows).map (Partition.mk t), ?_, pieces.map e.rows, ?_, rfl⟩
  · rw [result_stage_stateless, List.mapM_map, List.map_map]
    refine mapM_eq_ok_map fun piece _ => ?_
    rw [Function.comp_apply, applyOps_single, e.op_apply]
    rfl
  · exact (e.rows_flatten pieces).symm

theorem Gives.each {ctx : RunContext β} {chain : Chain β} {rows : List s.Carrier}
    (h : Gives ctx chain s rows) (e : Elementwise β s t) :
    Gives ctx (chain ++ [.stateless [e.op]]) t (e.rows rows) := by
  obtain ⟨parts, hrun, hcut⟩ := h
  obtain ⟨ctx', hstage⟩ := result_chain_concat hrun (.stateless [e.op])
  obtain ⟨parts', hparts', hcut'⟩ := stage_each ctx' e hcut
  exact ⟨parts', hstage.trans hparts', hcut'⟩

end Run

section GroupByKey

theorem table?_self (entries : KeyTable k.Carrier v.Carrier) :
    (Partial.table k v entries : Partial β).table? k v = some entries := by
  unfold Partial.table?
  exact dif_pos ⟨rfl, rfl⟩

theorem tabulate_piece (piece : List (k.Carrier × v.Carrier)) :
    (GroupStep.byKey k v).tabulate ⟨.pair k v, piece⟩ =
      .ok (.table k v (KeyTable.ofRows piece)) := by
  simp [GroupStep.byKey]

/-- The tables of pieces are merged as the scheme lists them. -/
theorem foldlM_absorb (scheme : HashScheme β) (pieces : List (List (k.Carrier × v.Carrier)))
    (table : KeyTable k.Carrier v.Carrier) :
    (pieces.map fun piece => .table k v (KeyTable.ofRows piece)).foldlM
        (GroupStep.absorb scheme k v) table =
      .ok ((pieces.map fun piece => scheme.listing k v (KeyTable.ofRows piece).entries).foldl
        KeyTable.absorb table) := by
  induction pieces generalizing table with
  | nil => rfl
  | cons piece pieces ih =>
    rw [List.map_cons, List.foldlM_cons, GroupStep.absorb, table?_self]
    exact ih _

/-- However rows are cut, grouping them by key succeeds and merges the tables of the pieces. -/
theorem merge_tabulated (scheme : HashScheme β) (pieces : List (List (k.Carrier × v.Carrier))) :
    ∃ out, KeyTable.MergesTo pieces out ∧
      ((pieces.map (Partition.mk (.pair k v))).mapM (GroupStep.byKey k v).tabulate >>=
        (GroupStep.byKey k v).merge scheme) = .ok ⟨.pair k (.vector v), out⟩ := by
  have htables : (pieces.map (Partition.mk (.pair k v))).mapM (GroupStep.byKey k v).tabulate =
      .ok (pieces.map fun piece => .table k v (KeyTable.ofRows piece)) := by
    rw [List.mapM_map]
    exact mapM_eq_ok_map fun piece _ => tabulate_piece piece
  have hlistings : List.Forall₂
      (fun piece listed => listed.Perm (KeyTable.ofRows piece).entries) pieces
      (pieces.map fun piece => scheme.listing k v (KeyTable.ofRows piece).entries) :=
    List.forall₂_map_right_iff.2 (List.forall₂_same.2 fun _ _ => scheme.listing_perm k v _)
  refine ⟨_, ⟨_, hlistings, scheme.listing_perm k v _⟩, bind_eq_ok.2 ⟨_, htables, ?_⟩⟩
  exact bind_eq_ok.2 ⟨_, foldlM_absorb scheme pieces {}, rfl⟩

theorem Run.stage_byKey (ctx : RunContext β) {rows : List (k.Carrier × v.Carrier)}
    {parts : List (Partition β)} (h : IsCut (.pair k v) rows parts) :
    ∃ out : List (k.Carrier × List v.Carrier), out.Perm (recordsByKey rows) ∧
      (stage ctx parts (.groupByKey (.byKey k v))).result =
        .ok [⟨.pair k (.vector v), out⟩] := by
  obtain ⟨pieces, hrows, hparts⟩ := h
  subst hrows hparts
  obtain ⟨out, hout, hmerge⟩ := merge_tabulated ctx.scheme pieces
  obtain ⟨tables, htables, hmerged⟩ := bind_eq_ok.1 hmerge
  refine ⟨out, hout.perm_recordsByKey, ?_⟩
  rw [result_stage_groupByKey]
  exact bind_eq_ok.2 ⟨tables, htables, bind_eq_ok.2 ⟨_, hmerged, rfl⟩⟩

theorem Run.Gives.groupByKey {ctx : RunContext β} {chain : Chain β}
    {rows : List (k.Carrier × v.Carrier)} (h : Gives ctx chain (.pair k v) rows) :
    ∃ out : List (k.Carrier × List v.Carrier), out.Perm (recordsByKey rows) ∧
      Gives ctx (chain ++ [.groupByKey (.byKey k v)]) (.pair k (.vector v)) out := by
  obtain ⟨parts, hrun, hcut⟩ := h
  obtain ⟨ctx', hstage⟩ := result_chain_concat hrun (.groupByKey (.byKey k v))
  obtain ⟨out, hout, hparts⟩ := stage_byKey ctx' hcut
  exact ⟨out, hout, _, hstage.trans hparts, isCut_single (t := .pair k (.vector v)) out⟩

end GroupByKey

section CoGroup

theorem rowsOf_self (name : String) (rows : List t.Carrier) :
    CoGroupStep.rowsOf name t ⟨t, rows⟩ = .ok rows := by
  simp [CoGroupStep.rowsOf]

theorem Grouper.pairStep_exec (g : Grouper β) (name : String) (kind : PairJoin)
    (scheme : HashScheme β) (x : List (k.Carrier × v.Carrier))
    (y : List (k.Carrier × w.Carrier)) :
    (g.pairStep name kind k v w).exec scheme [⟨.pair k v, x⟩, ⟨.pair k w, y⟩] =
      .ok ⟨.pair k (kind.payload v w), kind.rows (g.group scheme k) x y⟩ := by
  simp only [pairStep, CoGroupStep.two, rowsOf_self]
  rfl

theorem Grouper.tripleStep_exec (g : Grouper β) (name : String) (kind : TripleJoin)
    (scheme : HashScheme β) (x : List (k.Carrier × a.Carrier))
    (y : List (k.Carrier × b.Carrier)) (z : List (k.Carrier × c.Carrier)) :
    (g.tripleStep name kind k a b c).exec scheme
        [⟨.pair k a, x⟩, ⟨.pair k b, y⟩, ⟨.pair k c, z⟩] =
      .ok ⟨.pair k (kind.payload a b c), kind.rows (g.group scheme k) x y z⟩ := by
  simp only [tripleStep, CoGroupStep.three, rowsOf_self]
  rfl

namespace Run

theorem result_runInputs_cons {ctx : RunContext β} {place : Nat} {input : Chain β}
    {rows : List t.Carrier} (h : Gives (ctx.below place) input t rows) (name : String)
    (elements : List (ElementType β)) (rest : List (Chain β)) :
    (runInputs ctx place name (t :: elements) (input :: rest)).result =
      (runInputs ctx (place + 1) name elements rest).result >>= fun ps =>
        .ok (⟨t, rows⟩ :: ps) := by
  obtain ⟨parts, hchain, hcut⟩ := h
  simp only [runInputs, Log.Traced.result_bind, hchain, Log.Traced.result_ofExcept]
  show (coalesce name t parts >>= _) = _
  rw [coalesce_of_isCut name hcut]
  rfl

/-- A co-group gives what its grouping makes of the inputs. -/
theorem gives_coGroup {ctx : RunContext β} (step : CoGroupStep β) {inputs : List (Chain β)}
    {ps : List (Partition β)} {rows : List step.output.Carrier}
    (hinputs : (runInputs ctx 1 step.name step.inputElements inputs).result = .ok ps)
    (hexec : step.exec ctx.scheme ps = .ok ⟨step.output, rows⟩) :
    Gives ctx [.coGroup step inputs] step.output rows := by
  refine ⟨_, ?_, isCut_cutOutcome ctx rows⟩
  rw [result_chain_cons, root]
  refine bind_eq_ok.2 ⟨_, ?_, rfl⟩
  rw [Log.Traced.result_bind, Log.Traced.result_elsewhereIf, hinputs]
  show (coGroup ctx step inputs.length ps).result = _
  rw [coGroup, hexec]
  rfl

theorem gives_joinTwo {ctx : RunContext β} (g : Grouper β) (name : String) (kind : PairJoin)
    {left right : Chain β} {x : List (k.Carrier × v.Carrier)} {y : List (k.Carrier × w.Carrier)}
    (hx : Gives (ctx.below 1) left (.pair k v) x) (hy : Gives (ctx.below 2) right (.pair k w) y) :
    Gives ctx [.coGroup (g.pairStep name kind k v w) [left, right]]
      (.pair k (kind.payload v w)) (kind.rows (g.group ctx.scheme k) x y) := by
  refine gives_coGroup (g.pairStep name kind k v w) ?_ (g.pairStep_exec name kind _ x y)
  show (runInputs ctx 1 name [.pair k v, .pair k w] [left, right]).result = _
  rw [result_runInputs_cons hx, result_runInputs_cons hy]
  rfl

theorem gives_joinThree {ctx : RunContext β} (g : Grouper β) (name : String) (kind : TripleJoin)
    {first second third : Chain β} {x : List (k.Carrier × a.Carrier)}
    {y : List (k.Carrier × b.Carrier)} {z : List (k.Carrier × c.Carrier)}
    (hx : Gives (ctx.below 1) first (.pair k a) x)
    (hy : Gives (ctx.below 2) second (.pair k b) y)
    (hz : Gives (ctx.below 3) third (.pair k c) z) :
    Gives ctx [.coGroup (g.tripleStep name kind k a b c) [first, second, third]]
      (.pair k (kind.payload a b c)) (kind.rows (g.group ctx.scheme k) x y z) := by
  refine gives_coGroup (g.tripleStep name kind k a b c) ?_ (g.tripleStep_exec name kind _ x y z)
  show (runInputs ctx 1 name [.pair k a, .pair k b, .pair k c] [first, second, third]).result = _
  rw [result_runInputs_cons hx, result_runInputs_cons hy, result_runInputs_cons hz]
  rfl

end Run

end CoGroup

end JoinPipeline
