import OperatorConsole.Proofs.Query.Parts
import OperatorConsole.Proofs.Query.WellFormed
import OperatorConsole.Proofs.Query.Window

/-!
# Verbs on both sides of the query

Some verbs can be asked of a source and applied to the rows that it gave.  Over a source that
carries plans out row by row it does not matter where this is done, as long as rows are neither
merged nor grouped: a limit, an offset, a count and a column are the same on both sides.
-/

namespace OperatorConsole

namespace Query

open OperatorConsole.Action Checked

/-! ## Row by row -/

/-- Whether rows are neither merged nor grouped by a plan, and its limit and offset are counts. -/
structure Plan.IsPlain (plan : Plan) : Prop where
  distinct : plan.distinct = false
  groups : plan.groups = []
  counts : plan.HasCounts

def Plan.given (plan : Plan) (rows : List Clause -> List Having -> List SortKey -> List Row)
    (project : List String -> Row -> Row) : List Row :=
  (window plan.limit plan.offset (rows plan.conditions plan.havings plan.orders)).map
    (project plan.columns)

/-- Whether a source carries plans out row by row. -/
structure EntitySource.IsRowByRow (source : EntitySource σ)
    (rows : List Clause -> List Having -> List SortKey -> List Row)
    (project : List String -> Row -> Row) : Prop where
  select : forall plan s, plan.IsPlain ->
    (source.select plan s).1 = .ok (plan.given rows project)
  iterate : forall plan s, plan.IsPlain ->
    (source.iterate plan s).1 = .ok (plan.given rows project)
  count : forall plan s, plan.IsPlain -> (source.aggregate plan .count none s).1 =
    .ok (some (Number.ofNat (plan.given rows project).length))
  /-- Without columns, rows are given as they are. -/
  whole : forall row, project [] row = row
  /-- A field that is asked for is kept. -/
  kept : forall columns column row v, column ∈ columns -> row.fields.own? column = some v ->
    (project columns row).fields.own? column = some v

theorem listSource_isRowByRow (rows : List Row) :
    (listSource rows).IsRowByRow (fun _ _ _ => rows) Row.only := by
  constructor
  case select => exact fun plan s _ => rfl
  case iterate => exact fun plan s _ => rfl
  case count =>
    intro plan s _
    unfold Plan.given
    rw [List.length_map]
    rfl
  case whole => exact fun row => rfl
  case kept =>
    intro columns column row v hcolumn hv
    have hnonempty : columns.isEmpty = false :=
      List.isEmpty_eq_false_iff.mpr (List.ne_nil_of_mem hcolumn)
    unfold Row.only
    rw [if_neg (Bool.eq_false_iff.mp hnonempty), ← Record.get_own hv]
    exact lookup_fields (Record.get row) hcolumn

/-! ## Plans without some parts -/

def Chain.Spares (part : PlanPart) (calls : Chain) : Prop :=
  forall call verb, call ∈ calls -> BuilderVerb.ofName? call.verb = some verb -> verb.part ≠ part

theorem Chain.Resolves.part_ne {clock : Action σ Number} {calls : Chain}
    {directives : List Chain.Directive} {s t : Session σ}
    (hresolves : Chain.Resolves clock calls s directives t) {contributions : List Contribution}
    (hstated : Chain.AreStated directives contributions) {part : PlanPart}
    (hspared : calls.Spares part) : forall c, c ∈ contributions -> c.part ≠ part := by
  induction hresolves generalizing contributions with
  | done =>
      cases hstated
      exact fun _ hc => absurd hc List.not_mem_nil
  | next hverb _ _ ih =>
      cases hstated with
      | cons hstates hrest =>
          refine List.forall_mem_cons.mpr ⟨?_, ih hrest fun call verb hcall =>
            hspared call verb (List.mem_cons_of_mem _ hcall)⟩
          rw [hstates.part_eq]
          exact hspared _ _ List.mem_cons_self hverb

theorem Chain.AreStated.isBuilt {directives : List Chain.Directive}
    {contributions : List Contribution} (hstated : Chain.AreStated directives contributions)
    {plan : Plan} (hplan : plan.IsBuilt) : (contributions.foldl Plan.put plan).IsBuilt := by
  induction hstated generalizing plan with
  | nil => exact hplan
  | cons hstates _ ih => exact ih (hplan.put hstates.isSound)

namespace Plan.IsMadeOf

variable {plan : Plan} {contributions : List Contribution} (hplan : plan.IsMadeOf contributions)

include hplan

theorem distinct_eq_false (hparts : forall c, c ∈ contributions -> c.part ≠ .distinct) :
    plan.distinct = false := by
  rw [Bool.eq_false_iff]
  exact fun hdistinct => hparts _ (hplan.distinct.mp hdistinct) rfl

theorem groups_eq_nil (hparts : forall c, c ∈ contributions -> c.part ≠ .groups) :
    plan.groups = [] := by
  rw [hplan.groups, List.flatMap_eq_nil_iff]
  intro c hc
  cases c with
  | groups columns => exact absurd rfl (hparts _ hc)
  | _ => rfl

theorem limit_eq_none (hparts : forall c, c ∈ contributions -> c.part ≠ .limit) :
    plan.limit = none := by
  have hnone : contributions.filterMap Contribution.limit? = [] := by
    rw [List.filterMap_eq_nil_iff]
    intro c hc
    cases c with
    | limit n => exact absurd rfl (hparts _ hc)
    | _ => rfl
  rw [hplan.limit, hnone]
  rfl

theorem offset_eq_none (hparts : forall c, c ∈ contributions -> c.part ≠ .offset) :
    plan.offset = none := by
  have hnone : contributions.filterMap Contribution.offset? = [] := by
    rw [List.filterMap_eq_nil_iff]
    intro c hc
    cases c with
    | offset n => exact absurd rfl (hparts _ hc)
    | _ => rfl
  rw [hplan.offset, hnone]
  rfl

end Plan.IsMadeOf

namespace Chain.Reaches

variable {source : EntitySource σ} {clock : Action σ Number} {builders : Chain}
  {directives : List Chain.Directive} {plan : Plan} {s r t : Session σ}
  (hreaches : Chain.Reaches source clock builders s plan t)
  (hresolves : Chain.Resolves clock builders s directives r)

include hreaches hresolves

theorem isMadeOf : exists contributions, Chain.AreStated directives contributions ∧
    plan.IsMadeOf contributions := by
  rcases hresolves.leads_iff.mp hreaches with ⟨_, contributions, hstated, hplan⟩
  exact ⟨contributions, hstated, Plan.isMadeOf_iff.mpr hplan⟩

theorem distinct_eq_false (hspared : builders.Spares .distinct) : plan.distinct = false := by
  rcases isMadeOf hreaches hresolves with ⟨_, hstated, hmade⟩
  exact hmade.distinct_eq_false (hresolves.part_ne hstated hspared)

theorem groups_eq_nil (hspared : builders.Spares .groups) : plan.groups = [] := by
  rcases isMadeOf hreaches hresolves with ⟨_, hstated, hmade⟩
  exact hmade.groups_eq_nil (hresolves.part_ne hstated hspared)

theorem limit_eq_none (hspared : builders.Spares .limit) : plan.limit = none := by
  rcases isMadeOf hreaches hresolves with ⟨_, hstated, hmade⟩
  exact hmade.limit_eq_none (hresolves.part_ne hstated hspared)

theorem offset_eq_none (hspared : builders.Spares .offset) : plan.offset = none := by
  rcases isMadeOf hreaches hresolves with ⟨_, hstated, hmade⟩
  exact hmade.offset_eq_none (hresolves.part_ne hstated hspared)

theorem hasCounts : plan.HasCounts := by
  rcases hresolves.leads_iff.mp hreaches with ⟨_, contributions, hstated, hplan⟩
  have hbuilt : plan.IsBuilt := hplan ▸ hstated.isBuilt Plan.isBuilt_empty
  exact hbuilt.counts

theorem isPlain (hdistinct : builders.Spares .distinct) (hgroups : builders.Spares .groups) :
    plan.IsPlain :=
  ⟨distinct_eq_false hreaches hresolves hdistinct, groups_eq_nil hreaches hresolves hgroups,
    hasCounts hreaches hresolves⟩

end Chain.Reaches

/-! ## Verbs behind calls that have reached a plan -/

theorem numberOrZero_some (n : Number) :
    TerminalVerb.numberOrZero (some n) = .ok (.number n) := rfl

section Sides

variable {source : EntitySource σ} {clock : Action σ Number}
  {rows : List Clause -> List Having -> List SortKey -> List Row}
  {project : List String -> Row -> Row} {builders : Chain} {plan : Plan} {s t : Session σ}
  (hsource : source.IsRowByRow rows project) (hplan : plan.IsPlain)
  (hreaches : Chain.Reaches source clock builders s plan t)

section Reached

include hsource hplan hreaches

theorem get_value {call : Call} (hcall : call.IsOf (TerminalVerb.text .get) []) :
    (Chain.evaluate source clock (builders ++ [call]) s).1 =
      .ok (rowsValue (plan.given rows project)) := by
  rw [Chain.terminal_value hreaches hcall rfl]
  exact Inquiry.select_value (hsource.select plan t hplan) _

theorem lazy_value {call : Call} (hcall : call.IsOf (TerminalVerb.text .lazy) []) :
    (Chain.evaluate source clock (builders ++ [call]) s).1 =
      .ok (rowsValue (plan.given rows project)) := by
  rw [Chain.terminal_value hreaches hcall rfl]
  exact Inquiry.iterate_value (hsource.iterate plan t hplan) _

theorem count_value {call : Call} (hcall : call.IsOf (TerminalVerb.text .count) []) :
    (Chain.evaluate source clock (builders ++ [call]) s).1 =
      .ok (.number (.ofNat (plan.given rows project).length)) := by
  have hinquiry : TerminalVerb.inquiry .count source.name source.primaryKey plan
      (([] : List Scalar).map .scalar) =
      .ok (.aggregate plan .count none TerminalVerb.numberOrZero) := rfl
  rw [Chain.terminal_value hreaches hcall hinquiry,
    Inquiry.aggregate_value (hsource.count plan t hplan)]
  exact numberOrZero_some _

theorem exists_value {call : Call} (hcall : call.IsOf (TerminalVerb.text .exists) []) :
    (Chain.evaluate source clock (builders ++ [call]) s).1 =
      .ok (.bool (Number.lt 0 (.ofNat (plan.given rows project).length))) := by
  have hinquiry : TerminalVerb.inquiry .exists source.name source.primaryKey plan
      (([] : List Scalar).map .scalar) = .ok (.aggregate plan .count none fun answer =>
        .ok (.bool (Number.lt 0 (answer.getD 0) == true))) := rfl
  rw [Chain.terminal_value hreaches hcall hinquiry,
    Inquiry.aggregate_value (hsource.count plan t hplan), beq_true, Option.getD_some]

theorem doesntExist_value {call : Call} (hcall : call.IsOf (TerminalVerb.text .doesntExist) []) :
    (Chain.evaluate source clock (builders ++ [call]) s).1 =
      .ok (.bool (!Number.lt 0 (.ofNat (plan.given rows project).length))) := by
  have hinquiry : TerminalVerb.inquiry .doesntExist source.name source.primaryKey plan
      (([] : List Scalar).map .scalar) = .ok (.aggregate plan .count none fun answer =>
        .ok (.bool (Number.lt 0 (answer.getD 0) == false))) := rfl
  rw [Chain.terminal_value hreaches hcall hinquiry,
    Inquiry.aggregate_value (hsource.count plan t hplan), beq_false, Option.getD_some]

theorem behind_get {call : Call} (hcall : call.IsOf (TerminalVerb.text .get) []) (rest : Chain) :
    exists u, (Chain.evaluate source clock (builders ++ call :: rest) s).1 =
      (Chain.finish clock rest (rowsValue (plan.given rows project)) u).1 := by
  exact Chain.behind_select hreaches hcall rfl (hsource.select plan t hplan) rfl rest

end Reached

/-! ## Verbs on rows -/

section Rows

variable {u : Session σ} {call : Call} {v w : Value}

theorem finish_ok {verb : ResultVerb} {args : List Scalar} (hcall : call.IsOf verb.text args)
    (happly : verb.apply (args.map .scalar) v = .ok w) (rest : Chain) :
    Chain.finish clock (call :: rest) v u = Chain.finish clock rest w u := by
  rw [Chain.finish_cons, Chain.finishStep_of_result hcall, happly]
  rfl

theorem finish_error {verb : ResultVerb} {args : List Scalar} (hcall : call.IsOf verb.text args)
    {failure : Failure} (happly : verb.apply (args.map .scalar) v = .error failure)
    (rest : Chain) : Chain.finish clock (call :: rest) v u = (.error failure, u) := by
  rw [Chain.finish_cons, Chain.finishStep_of_result hcall, happly]
  rfl

theorem apply_count (kept : List Row) :
    ResultVerb.apply .count [] (rowsValue kept) = .ok (.number (.ofNat kept.length)) := by
  have hitems : forall items : List Value, ResultVerb.apply .count [] (.list items) =
      .ok (.number (.ofNat items.length)) := fun _ => rfl
  unfold rowsValue
  rw [hitems, List.length_map]

theorem apply_skip {n : Number} (hn : n.IsCount) (kept : List Row) :
    ResultVerb.apply .skip [.scalar (.number n)] (rowsValue kept) =
      .ok (rowsValue (kept.drop (toCount n))) := by
  have hchecked : ResultVerb.skipItems (ResultVerb.text .skip) [.scalar (.number n)]
      (rowsValue kept) = .ok (rowsValue (kept.drop (toCount n))) := by
    refine bind_eq_ok.mpr ⟨(), rfl, bind_eq_ok.mpr ⟨_, rfl,
      bind_eq_ok.mpr ⟨n, countOf_eq_ok.mpr ⟨rfl, hn⟩, ?_⟩⟩⟩
    unfold rowsValue
    rw [List.map_drop]
    rfl
  change Except.mapError _ (ResultVerb.skipItems _ _ _) = _
  rw [hchecked]
  rfl

theorem apply_take {n : Number} (hn : n.IsCount) (kept : List Row) :
    ResultVerb.apply .take [.scalar (.number n)] (rowsValue kept) =
      .ok (rowsValue (kept.take (toCount n))) := by
  have hchecked : ResultVerb.takeItems (ResultVerb.text .take) [.scalar (.number n)]
      (rowsValue kept) = .ok (rowsValue (kept.take (toCount n))) := by
    refine bind_eq_ok.mpr ⟨(), rfl, bind_eq_ok.mpr ⟨_, rfl,
      bind_eq_ok.mpr ⟨n, countOf_eq_ok.mpr ⟨rfl, hn⟩, ?_⟩⟩⟩
    unfold rowsValue
    rw [List.map_take]
    rfl
  change Except.mapError _ (ResultVerb.takeItems _ _ _) = _
  rw [hchecked]
  rfl

/-- A column that is plucked from rows, unless it has no name of a column. -/
theorem apply_pluck (column : String) (kept : List Row) :
    ResultVerb.apply .pluck [.column column] (rowsValue kept) =
      if isColumnName column then .ok (TerminalVerb.plucked column kept)
      else .error (EvaluationFault.expectsColumn "pluck").toFailure := by
  change Except.mapError _ (ResultVerb.pluckItems _ _ _) = _
  unfold ResultVerb.pluckItems
  change Except.mapError _ (columnOf _ (some (.column column)) >>= _) = _
  rw [columnOf_column]
  split
  · change Except.ok (Value.list ((kept.map Record.toValue).map (fieldOf column))) = _
    rw [List.map_map]
    rfl
  · rfl

end Rows

/-! ## Columns on both sides -/

theorem mem_window {limit offset : Option Number} {all : List Row} {row : Row}
    (hrow : row ∈ window limit offset all) : row ∈ all := by
  unfold window at hrow
  cases limit with
  | none => exact List.mem_of_mem_drop hrow
  | some n => exact List.mem_of_mem_drop (List.mem_of_mem_take hrow)

include hsource in
theorem at_project {columns : List String} {column : String}
    (hcolumns : columns = [] ∨ column ∈ columns) {row : Row}
    (hhas : (row.fields.own? column).isSome) :
    Row.at (project columns row) column = Row.at row column := by
  rcases hcolumns with rfl | hcolumn
  · rw [hsource.whole]
  · rcases Option.isSome_iff_exists.mp hhas with ⟨v, hv⟩
    unfold Row.at
    rw [Record.get_own hv, Record.get_own (hsource.kept columns column row v hcolumn hv)]

section Columns

variable {column : String}

include hsource in
theorem plucked_given {columns others : List String}
    (hcolumns : columns = [] ∨ column ∈ columns) (hothers : others = [] ∨ column ∈ others)
    (hhas : forall row, row ∈ rows plan.conditions plan.havings plan.orders ->
      (row.fields.own? column).isSome) :
    TerminalVerb.plucked column ((plan.withColumns columns).given rows project) =
      TerminalVerb.plucked column ((plan.withColumns others).given rows project) := by
  unfold TerminalVerb.plucked Plan.given
  rw [List.map_map, List.map_map]
  refine congrArg Value.list (List.map_congr_left fun row hrow => ?_)
  have hfield := hhas row (mem_window hrow)
  exact (at_project hsource hcolumns hfield).trans (at_project hsource hothers hfield).symm

theorem askPluck_column (plan : Plan) (column : String) :
    TerminalVerb.askPluck (TerminalVerb.text .pluck) plan [.column column] =
      if isColumnName column then .ok (.select (plan.withColumns [column]) fun rows =>
        .ok (TerminalVerb.plucked column rows))
      else .error (.expectsColumn "pluck") := by
  unfold TerminalVerb.askPluck
  change columnOf _ (some (.column column)) >>= _ = _
  rw [columnOf_column]
  split
  · rfl
  · rfl

include hsource hplan hreaches in
theorem pluck_value (hcolumns : plan.columns = [] ∨ column ∈ plan.columns)
    (hhas : forall row, row ∈ rows plan.conditions plan.havings plan.orders ->
      (row.fields.own? column).isSome)
    {call : Call} (hcall : call.IsOf (TerminalVerb.text .pluck) [.text column]) :
    (Chain.evaluate source clock (builders ++ [call]) s).1 =
      if isColumnName column then .ok (TerminalVerb.plucked column (plan.given rows project))
      else .error (EvaluationFault.expectsColumn "pluck").toFailure := by
  have hasks := askPluck_column plan column
  by_cases hname : isColumnName column
  · rw [if_pos hname] at hasks ⊢
    have hnarrow : (plan.withColumns [column]).IsPlain :=
      ⟨hplan.distinct, hplan.groups, ⟨hplan.counts.limit, hplan.counts.offset⟩⟩
    rw [Chain.terminal_value hreaches hcall hasks,
      Inquiry.select_value (hsource.select _ t hnarrow)]
    exact congrArg Except.ok
      (plucked_given hsource (Or.inr List.mem_cons_self) hcolumns hhas)
  · rw [if_neg hname] at hasks ⊢
    exact Chain.terminal_refused hreaches hcall hasks []

include hsource hplan hreaches in
theorem get_pluck_value {get call : Call} (hget : get.IsOf (TerminalVerb.text .get) [])
    (hcall : call.IsOf (ResultVerb.text .pluck) [.text column]) :
    (Chain.evaluate source clock (builders ++ [get, call]) s).1 =
      if isColumnName column then .ok (TerminalVerb.plucked column (plan.given rows project))
      else .error (EvaluationFault.expectsColumn "pluck").toFailure := by
  rcases behind_get hsource hplan hreaches hget [call] with ⟨u, hbehind⟩
  have happly := apply_pluck column (plan.given rows project)
  rw [hbehind]
  by_cases hname : isColumnName column
  · rw [if_pos hname] at happly ⊢
    rw [finish_ok hcall happly]
    rfl
  · rw [if_neg hname] at happly ⊢
    rw [finish_error hcall happly]

end Columns

/-! ## Windows on both sides -/

section Windows

variable {get skip take : Call} (hget : get.IsOf (TerminalVerb.text .get) []) {a b : Number}
  (ha : a.IsCount) (hb : b.IsCount)

theorem given_slice (hlimit : plan.limit = none) (hoffset : plan.offset = none) :
    (plan.slice b a).given rows project =
      ((plan.given rows project).drop (toCount a)).take (toCount b) := by
  unfold Plan.given Plan.slice
  rw [hlimit, hoffset, window_both, window_all, List.map_take, List.map_drop]

include hsource hplan hreaches hget ha hb

theorem skip_take_get_value (hskip : skip.IsOf (BuilderVerb.text .skip) [.number a])
    (htake : take.IsOf (BuilderVerb.text .take) [.number b]) :
    (Chain.evaluate source clock (builders ++ [skip, take, get]) s).1 =
      .ok (rowsValue ((plan.slice b a).given rows project)) := by
  have hskipped : Chain.Leads source clock plan [skip] t (plan.put (.offset a)) t :=
    Chain.leads_scalars hskip (BuilderVerb.StatesCount.count ha) plan t
  have htaken : Chain.Leads source clock (plan.put (.offset a)) [take] t (plan.slice b a) t :=
    Chain.leads_scalars htake (BuilderVerb.StatesCount.count hb) _ t
  have hsliced : (plan.slice b a).IsPlain := by
    refine ⟨hplan.distinct, hplan.groups, ?_, ?_⟩
    · rintro _ ⟨⟩
      exact hb
    · rintro _ ⟨⟩
      exact ha
  rw [← get_value hsource hsliced ((hreaches.append hskipped).append htaken) hget,
    List.append_assoc, List.append_assoc]
  rfl

theorem get_skip_take_value (hskip : skip.IsOf (ResultVerb.text .skip) [.number a])
    (htake : take.IsOf (ResultVerb.text .take) [.number b]) :
    (Chain.evaluate source clock (builders ++ [get, skip, take]) s).1 =
      .ok (rowsValue (((plan.given rows project).drop (toCount a)).take (toCount b))) := by
  rcases behind_get hsource hplan hreaches hget [skip, take] with ⟨u, hbehind⟩
  rw [hbehind, finish_ok hskip (apply_skip ha _), finish_ok htake (apply_take hb _)]
  rfl

end Windows

end Sides

namespace Chain

/-- Over a source that carries plans out row by row, it does not matter on which side of `get` a
verb stands, as long as the calls before it neither merge rows nor group them.  A column has to be
one that all rows have and that is not left out, and a window must not be cut out of another. -/
theorem agrees_in_memory (clock : Action σ Number) {source : EntitySource σ}
    {rows : List Clause -> List Having -> List SortKey -> List Row}
    {project : List String -> Row -> Row} (hsource : source.IsRowByRow rows project)
    {builders : Chain}
    (hbuilders : forall call, call ∈ builders -> (BuilderVerb.ofName? call.verb).isSome)
    (hdistinct : builders.Spares .distinct) (hgroups : builders.Spares .groups) (s : Session σ)
    {get : Call} (hget : get.IsOf "get" []) :
    let value := fun calls => (Chain.evaluate source clock (builders ++ calls) s).1
    (forall plan t, Reaches source clock builders s plan t ->
      value [get] = .ok (rowsValue (plan.given rows project))) ∧
    (forall all, all.IsOf "lazy" [] -> value [all] = value [get]) ∧
    (forall count, count.IsOf "count" [] ->
      value [count] = value [get, count] ∧
      forall any no, any.IsOf "exists" [] -> no.IsOf "doesntExist" [] ->
        (exists failure, value [count] = .error failure ∧ value [any] = .error failure ∧
          value [no] = .error failure) ∨
        exists n, value [count] = .ok (.number n) ∧
          value [any] = .ok (.bool (Number.lt 0 n)) ∧
          value [no] = .ok (.bool (!Number.lt 0 n))) ∧
    (forall column pluck, pluck.IsOf "pluck" [.text column] ->
      (forall plan t, Reaches source clock builders s plan t ->
        (plan.columns = [] ∨ column ∈ plan.columns) ∧
          forall row, row ∈ rows plan.conditions plan.havings plan.orders ->
            (row.fields.own? column).isSome) ->
      value [pluck] = value [get, pluck]) ∧
    (builders.Spares .limit -> builders.Spares .offset ->
      forall a b skip take, a.IsCount -> b.IsCount -> skip.IsOf "skip" [.number a] ->
        take.IsOf "take" [.number b] -> value [skip, take, get] = value [get, skip, take]) := by
  intro value
  rcases builders_lead source clock hbuilders .empty s with
    ⟨failure, t, hfails⟩ | ⟨plan, directives, t, hleads, hresolves⟩
  · have hfailed : forall calls, value calls = .error failure :=
      fun calls => congrArg Prod.fst (evaluate_of_failure hfails calls)
    refine ⟨?_, ?_, ?_, ?_, ?_⟩
    · intro plan r hreaches
      cases hfails.symm.trans hreaches
    · exact fun all _ => (hfailed _).trans (hfailed _).symm
    · refine fun count _ => ⟨(hfailed _).trans (hfailed _).symm, fun any no _ _ => Or.inl ?_⟩
      exact ⟨failure, hfailed _, hfailed _, hfailed _⟩
    · exact fun column pluck _ _ => (hfailed _).trans (hfailed _).symm
    · exact fun _ _ a b skip take _ _ _ _ => (hfailed _).trans (hfailed _).symm
  · have hreaches : Reaches source clock builders s plan t := hleads
    have hplan := hreaches.isPlain hresolves hdistinct hgroups
    have hgiven : value [get] = _ := get_value hsource hplan hreaches hget
    refine ⟨?_, ?_, ?_, ?_, ?_⟩
    · intro plan' r hother
      cases hreaches.symm.trans hother
      exact hgiven
    · exact fun all hall => (lazy_value hsource hplan hreaches hall).trans hgiven.symm
    · intro count hcount
      have hcounted : value [count] = _ := count_value hsource hplan hreaches hcount
      refine ⟨?_, fun any no hany hno => Or.inr ?_⟩
      · rcases behind_get hsource hplan hreaches hget [count] with ⟨u, hbehind⟩
        have hcall : count.IsOf (ResultVerb.text .count) [] := hcount
        rw [hcounted]
        refine Eq.trans ?_ hbehind.symm
        rw [finish_ok hcall (apply_count _)]
        rfl
      · exact ⟨_, hcounted, exists_value hsource hplan hreaches hany,
          doesntExist_value hsource hplan hreaches hno⟩
    · intro column pluck hpluck hhas
      rcases hhas plan t hreaches with ⟨hcolumns, hfields⟩
      exact (pluck_value hsource hplan hreaches hcolumns hfields hpluck).trans
        (get_pluck_value hsource hplan hreaches hget hpluck).symm
    · intro hlimits hoffsets a b skip take ha hb hskip htake
      have hslice : (plan.slice b a).given rows project = _ :=
        given_slice (hreaches.limit_eq_none hresolves hlimits)
          (hreaches.offset_eq_none hresolves hoffsets)
      refine (skip_take_get_value hsource hplan hreaches hget ha hb hskip htake).trans ?_
      rw [hslice]
      exact (get_skip_take_value hsource hplan hreaches hget ha hb hskip htake).symm

theorem agrees_in_memory_three :
    let rows : List Row := [.ofFields [("a", .bool true), ("b", .null)],
      .ofFields [("b", .text "x")], .ofFields [("b", .bool false)]]
    let builders : Chain := [⟨"Select", [.scalar (.text "b")], 0⟩]
    let get : Call := ⟨"get", [], 20⟩
    let pluck : Call := ⟨"pluck", [.scalar (.text "b")], 40⟩
    let skip : Call := ⟨"skip", [.scalar (.number (.ofNat 1))], 40⟩
    let take : Call := ⟨"take", [.scalar (.number (.ofNat 1))], 60⟩
    let value := fun calls =>
      (Chain.evaluate (listSource rows) (pure 0) (builders ++ calls) ⟨(), []⟩).1
    value [get] = .ok (rowsValue (rows.map (Row.only ["b"]))) ∧
      value [pluck] = value [get, pluck] ∧
      value [skip, take, get] = value [get, skip, take] := by
  intro rows builders get pluck skip take value
  have hsource := listSource_isRowByRow rows
  have hreaches : Reaches (listSource rows) (pure 0) builders ⟨(), []⟩
      { Plan.empty with columns := ["b"] } ⟨(), []⟩ := rfl
  have hspares : forall part, part ≠ .columns -> builders.Spares part := by
    intro part hpart call verb hcall hverb
    cases List.mem_singleton.mp hcall
    cases hverb
    exact hpart.symm
  have hbuilders : forall call, call ∈ builders -> (BuilderVerb.ofName? call.verb).isSome := by
    decide
  have hone : (Number.ofNat 1).IsCount := Number.isExact_one.isCount
  have hget : get.IsOf "get" [] := ⟨rfl, rfl⟩
  rcases agrees_in_memory (pure 0) hsource hbuilders (hspares _ nofun) (hspares _ nofun)
    ⟨(), []⟩ hget with ⟨hrows, _, _, hpluck, hwindow⟩
  refine ⟨hrows _ _ hreaches, hpluck "b" pluck ⟨rfl, rfl⟩ ?_,
    hwindow (hspares _ nofun) (hspares _ nofun) _ _ skip take hone hone ⟨rfl, rfl⟩ ⟨rfl, rfl⟩⟩
  intro plan t hother
  cases hreaches.symm.trans hother
  exact ⟨Or.inr List.mem_cons_self, by decide⟩

end Chain

end Query

end OperatorConsole
