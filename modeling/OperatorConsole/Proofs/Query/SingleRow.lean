import OperatorConsole.Proofs.Query.InMemory

/-!
# Single rows

The verbs `first`, `value` and `sole` ask for one row, or for two to see whether there is only one.
They put that limit in the place of the one that the calls before them have set, so they go by the
rows from the offset on, whatever limit the query has.

Among the rows that `get` gives, the same row is found as long as the query lets one row through,
for `sole` two.  A limit of zero is lost on `first` and `value`, and one of zero or one on `sole`.
-/

namespace OperatorConsole

namespace Query

open OperatorConsole.Action Checked

/-! ## Fixed rows -/

/-- Whether a source has fixed rows for what a plan asks, its columns among it, whatever limit and
offset it sets, and selects a window on them. -/
structure EntitySource.Slices (source : EntitySource σ) (rows : Plan -> List Row) : Prop where
  select : forall plan s, plan.HasCounts ->
    (source.select plan s).1 = .ok (window plan.limit plan.offset (rows plan))
  fixed : forall plan limit offset,
    rows { plan with limit := limit, offset := offset } = rows plan

theorem window_map (f : α -> β) (limit offset : Option Number) (rows : List α) :
    window limit offset (rows.map f) = (window limit offset rows).map f := by
  unfold window
  cases limit with
  | none => exact List.map_drop.symm
  | some n =>
      dsimp only
      rw [← List.map_drop, ← List.map_take]

theorem listSource_slices (rows : List Row) :
    (listSource rows).Slices fun plan => rows.map (Row.only plan.columns) := by
  constructor
  case select =>
    intro plan s _
    rw [window_map]
    rfl
  case fixed => exact fun plan limit offset => rfl

/-! ## Rows with and without the limit -/

section Rows

variable (rows : Plan -> List Row)

/-- The rows that a plan gives. -/
def Plan.sliced (plan : Plan) : List Row :=
  window plan.limit plan.offset (rows plan)

def Plan.onward (plan : Plan) : List Row :=
  window none plan.offset (rows plan)

/-- Whether the limit of a plan lets no row through. -/
def Plan.IsShut (plan : Plan) : Prop :=
  exists n, plan.limit = some n ∧ toCount n = 0

theorem Plan.sliced_of_limit {plan : Plan} {n : Number} (hlimit : plan.limit = some n) :
    plan.sliced rows = (plan.onward rows).take (toCount n) := by
  unfold sliced onward
  rw [hlimit]
  rfl

theorem Plan.sliced_of_none {plan : Plan} (hlimit : plan.limit = none) :
    plan.sliced rows = plan.onward rows := by
  unfold sliced onward
  rw [hlimit]

theorem Plan.sliced_of_shut {plan : Plan} (hshut : plan.IsShut) : plan.sliced rows = [] := by
  rcases hshut with ⟨n, hlimit, hzero⟩
  rw [sliced_of_limit rows hlimit, hzero, List.take_zero]

theorem Plan.head?_sliced {plan : Plan} (hopen : ¬ plan.IsShut) :
    (plan.sliced rows).head? = (plan.onward rows).head? := by
  cases hlimit : plan.limit with
  | none => rw [sliced_of_none rows hlimit]
  | some n =>
      have hsome : toCount n ≠ 0 := fun hzero => hopen ⟨n, hlimit, hzero⟩
      rw [sliced_of_limit rows hlimit, List.head?_take, if_neg hsome]

/-- What is made of the first row is the same with the limit, unless the limit lets no row through
and something else is made of the first row than of none. -/
theorem Plan.head?_agrees (plan : Plan) (f : Option Row -> Value) :
    f (plan.onward rows).head? = f (plan.sliced rows).head? ↔
      (plan.IsShut -> f (plan.onward rows).head? = f none) := by
  by_cases hshut : plan.IsShut
  · rw [sliced_of_shut rows hshut]
    exact ⟨fun hsame _ => hsame, fun hnone => hnone hshut⟩
  · rw [head?_sliced rows hshut]
    exact iff_of_true rfl fun h => absurd h hshut

end Rows

theorem toCount_literal {n : Nat} (hn : n ≤ 2 ^ 53) : toCount (OfNat.ofNat n) = n := by
  rw [Number.ofNat_literal, toCount_ofNat (Number.isExact_of_le hn)]

/-! ## The only row -/

theorem only_take_two (rows : List Row) :
    TerminalVerb.only (rows.take 2) = TerminalVerb.only rows := by
  match rows with
  | [] => rfl
  | [_] => rfl
  | _ :: _ :: _ => rfl

theorem toValue_inj {row other : Row} :
    Record.toValue row = Record.toValue other ↔ row = other := by
  constructor
  · intro hsame
    cases row
    cases other
    cases hsame
    rfl
  · exact congrArg Record.toValue

theorem rowsValue_inj {rows others : List Row} :
    rowsValue rows = rowsValue others ↔ rows = others := by
  unfold rowsValue
  rw [Value.list.injEq]
  exact List.map_inj_right fun _ _ => toValue_inj.mp

theorem only_eq_ok {rows : List Row} {row : Row} :
    TerminalVerb.only rows = .ok row.toValue ↔ rows = [row] := by
  match rows with
  | [] => exact iff_of_false nofun nofun
  | [other] =>
      rw [TerminalVerb.only, Except.ok.injEq, toValue_inj, List.singleton_inj]
  | _ :: _ :: _ => exact iff_of_false nofun nofun

/-- The first rows of a list are exactly one row if the list is, unless the list is cut where its
second row would show. -/
theorem only_agrees (rows : List Row) (count : Nat) :
    (forall row, rows = [row] ↔ rows.take count = [row]) ↔
      (count = 0 -> rows.length ≠ 1) ∧ (count = 1 -> rows.length ≤ 1) := by
  match rows, count with
  | [], _ => simp
  | [row], 0 => simp
  | [row], 1 => simp
  | row :: other :: rest, 0 => simp
  | row :: other :: rest, 1 => simp
  | row :: rest, count + 2 => simp

/-! ## First items of results -/

theorem apply_first (items : List Value) :
    ResultVerb.apply .first [] (.list items) = .ok (items.head?.getD .null).orNull := rfl

theorem apply_first_rows (kept : List Row) :
    ResultVerb.apply .first [] (rowsValue kept) = .ok (rowOrNull kept.head?) := by
  unfold rowsValue
  rw [apply_first]
  cases kept with
  | nil => rfl
  | cons row rest => rfl

theorem orNull_orNull (v : Value) : v.orNull.orNull = v.orNull := by
  cases v with
  | _ => rfl

theorem apply_first_plucked (column : String) (kept : List Row) :
    ResultVerb.apply .first [] (TerminalVerb.plucked column kept) =
      .ok (TerminalVerb.valueIn column kept.head?) := by
  unfold TerminalVerb.plucked
  rw [apply_first]
  cases kept with
  | nil => rfl
  | cons row rest => exact congrArg Except.ok (orNull_orNull _)

/-! ## Inquiries about one column -/

section Inquiries

variable (entity key : String) (plan : Plan) (column : String)

theorem inquiry_value :
    TerminalVerb.inquiry .value entity key plan (([.text column] : List Scalar).map .scalar) =
      if isColumnName column then .ok (.first (plan.withColumns [column]) fun row =>
        .ok (TerminalVerb.valueIn column row))
      else .error (.expectsColumn "value") := by
  change TerminalVerb.askValue _ plan [.column column] = _
  unfold TerminalVerb.askValue
  change columnOf _ (some (.column column)) >>= _ = _
  rw [columnOf_column]
  split
  · rfl
  · rfl

theorem inquiry_get :
    TerminalVerb.inquiry .get entity key plan (([.text column] : List Scalar).map .scalar) =
      if isColumnName column then .ok (.select (plan.withColumns [column]) fun rows =>
        .ok (rowsValue rows))
      else .error (.expectsColumn "get") := by
  have hcolumns : columnsOf (TerminalVerb.text .get) [.column column] =
      if isColumnName column then .ok [column] else .error (.expectsColumn "get") := by
    change ([Operand.column column].mapM fun arg =>
      columnOf (TerminalVerb.text .get) (some arg) : Checked (List String)) = _
    rw [List.mapM_cons, columnOf_column]
    split
    · rfl
    · rfl
  change TerminalVerb.askGet _ plan [.column column] = _
  unfold TerminalVerb.askGet
  change (columnsOf _ [.column column] >>= _) >>= _ = _
  rw [hcolumns]
  split
  · rfl
  · rfl

end Inquiries

/-! ## Verbs behind calls that have reached a plan -/

section Reached

variable {source : EntitySource σ} {clock : Action σ Number} {rows : Plan -> List Row}
  {builders : Chain} {plan : Plan} {s t : Session σ} (hsource : source.Slices rows)
  (hcounts : plan.HasCounts) (hreaches : Chain.Reaches source clock builders s plan t)

include hsource hcounts

theorem select_sliced (u : Session σ) : (source.select plan u).1 = .ok (plan.sliced rows) :=
  hsource.select plan u hcounts

/-- A limit of the verb's own takes the place of the limit of the plan. -/
theorem select_limited {n : Nat} (hn : n ≤ 2 ^ 53) (u : Session σ) :
    (source.select (plan.withLimit (OfNat.ofNat n)) u).1 = .ok ((plan.onward rows).take n) := by
  have hlimited : (plan.withLimit (OfNat.ofNat n)).HasCounts := by
    refine ⟨?_, hcounts.offset⟩
    intro m hm
    cases hm
    exact Number.isCount_literal hn
  have hfixed : rows (plan.withLimit (OfNat.ofNat n)) = rows plan := hsource.fixed plan _ _
  rw [hsource.select _ u hlimited, hfixed]
  change Except.ok ((plan.onward rows).take (toCount (OfNat.ofNat n))) = _
  rw [toCount_literal hn]

theorem first_carryOut (conclude : Option Row -> Except Failure Value) (u : Session σ) :
    ((Inquiry.first plan conclude).carryOut source u).1 = conclude (plan.onward rows).head? := by
  have hone : (source.select (plan.withLimit 1) u).1 = .ok ((plan.onward rows).take 1) :=
    select_limited hsource hcounts (n := 1) (by decide) u
  unfold Inquiry.first
  rw [Inquiry.select_value hone, List.head?_take, if_neg Nat.one_ne_zero]

include hreaches

theorem first_value {call : Call} (hcall : call.IsOf (TerminalVerb.text .first) []) :
    (Chain.evaluate source clock (builders ++ [call]) s).1 =
      .ok (rowOrNull (plan.onward rows).head?) := by
  rw [Chain.terminal_value hreaches hcall rfl]
  exact first_carryOut hsource hcounts _ t

theorem sole_value {call : Call} (hcall : call.IsOf (TerminalVerb.text .sole) []) :
    (Chain.evaluate source clock (builders ++ [call]) s).1 =
      TerminalVerb.only (plan.onward rows) := by
  have htwo : (source.select (plan.withLimit 2) t).1 = .ok ((plan.onward rows).take 2) :=
    select_limited hsource hcounts (n := 2) (by decide) t
  rw [Chain.terminal_value hreaches hcall rfl, ← only_take_two]
  exact Inquiry.select_value htwo _

theorem get_rows {call : Call} (hcall : call.IsOf (TerminalVerb.text .get) []) :
    (Chain.evaluate source clock (builders ++ [call]) s).1 =
      .ok (rowsValue (plan.sliced rows)) := by
  rw [Chain.terminal_value hreaches hcall rfl]
  exact Inquiry.select_value (select_sliced hsource hcounts t) _

theorem get_first_value {get first : Call} (hget : get.IsOf (TerminalVerb.text .get) [])
    (hfirst : first.IsOf (ResultVerb.text .first) []) :
    (Chain.evaluate source clock (builders ++ [get, first]) s).1 =
      .ok (rowOrNull (plan.sliced rows).head?) := by
  rcases Chain.behind_select hreaches hget rfl (select_sliced hsource hcounts t) rfl [first] with
    ⟨u, hbehind⟩
  rw [hbehind, finish_ok hfirst (apply_first_rows _)]
  rfl

section Column

variable {column : String} (hname : isColumnName column = true)

include hname

theorem value_value {call : Call} (hcall : call.IsOf (TerminalVerb.text .value) [.text column]) :
    (Chain.evaluate source clock (builders ++ [call]) s).1 =
      .ok (TerminalVerb.valueIn column ((plan.withColumns [column]).onward rows).head?) := by
  have hasks := inquiry_value source.name source.primaryKey plan column
  rw [if_pos hname] at hasks
  have hnarrowed : (plan.withColumns [column]).HasCounts := ⟨hcounts.limit, hcounts.offset⟩
  rw [Chain.terminal_value hreaches hcall hasks]
  exact first_carryOut hsource hnarrowed _ t

theorem get_pluck_first_value {get pluck first : Call}
    (hget : get.IsOf (TerminalVerb.text .get) [.text column])
    (hpluck : pluck.IsOf (ResultVerb.text .pluck) [.text column])
    (hfirst : first.IsOf (ResultVerb.text .first) []) :
    (Chain.evaluate source clock (builders ++ [get, pluck, first]) s).1 =
      .ok (TerminalVerb.valueIn column ((plan.withColumns [column]).sliced rows).head?) := by
  have hasks := inquiry_get source.name source.primaryKey plan column
  rw [if_pos hname] at hasks
  have hnarrowed : (plan.withColumns [column]).HasCounts := ⟨hcounts.limit, hcounts.offset⟩
  have hplucks := apply_pluck column ((plan.withColumns [column]).sliced rows)
  rw [if_pos hname] at hplucks
  rcases Chain.behind_select hreaches hget hasks (select_sliced hsource hnarrowed t) rfl
    [pluck, first] with ⟨u, hbehind⟩
  rw [hbehind, finish_ok hpluck hplucks, finish_ok hfirst (apply_first_plucked column _)]
  rfl

end Column

end Reached

/-! ## All verbs that ask for one row -/

/-- What the verbs that ask for one row give behind calls that have reached a plan.  Each of them
goes by the rows from the offset on; then it is said when that is what `get` leads to. -/
structure Plan.GivesSingleRows (plan : Plan) (rows : Plan -> List Row)
    (answer : Chain -> Except Failure Value) : Prop where
  get : forall {get : Call}, get.IsOf "get" [] -> answer [get] = .ok (rowsValue (plan.sliced rows))
  first : forall {first : Call}, first.IsOf "first" [] ->
    answer [first] = .ok (rowOrNull (plan.onward rows).head?)
  /-- A row that the limit keeps from `get` is not kept from `first`. -/
  first_agrees : forall {get first : Call}, get.IsOf "get" [] -> first.IsOf "first" [] ->
    (answer [first] = answer [get, first] ↔ (plan.IsShut -> plan.onward rows = []))
  value : forall {single : Call} {column : String}, single.IsOf "value" [.text column] ->
    isColumnName column = true ->
      answer [single] =
        .ok (TerminalVerb.valueIn column ((plan.withColumns [column]).onward rows).head?)
  value_agrees : forall {single get pluck first : Call} {column : String},
    single.IsOf "value" [.text column] -> get.IsOf "get" [.text column] ->
      pluck.IsOf "pluck" [.text column] -> first.IsOf "first" [] -> isColumnName column = true ->
        (answer [single] = answer [get, pluck, first] ↔
          (plan.IsShut -> answer [single] = .ok .null))
  /-- What is no name of a column is refused on both ways, by the verb that comes first. -/
  value_refused : forall {single get : Call} {column : String},
    single.IsOf "value" [.text column] -> get.IsOf "get" [.text column] ->
      isColumnName column = false ->
        answer [single] = .error (EvaluationFault.expectsColumn "value").toFailure ∧
          forall rest, answer (get :: rest) = .error (EvaluationFault.expectsColumn "get").toFailure
  sole : forall {sole : Call}, sole.IsOf "sole" [] ->
    answer [sole] = TerminalVerb.only (plan.onward rows)
  sole_agrees : forall {get sole : Call}, get.IsOf "get" [] -> sole.IsOf "sole" [] ->
    ((forall row, answer [sole] = .ok row.toValue ↔ answer [get] = .ok (rowsValue [row])) ↔
      forall n, plan.limit = some n ->
        (toCount n = 0 -> (plan.onward rows).length ≠ 1) ∧
          (toCount n = 1 -> (plan.onward rows).length ≤ 1))

theorem rowOrNull_eq_null {rows : List Row} :
    rowOrNull rows.head? = rowOrNull none ↔ rows = [] := by
  cases rows with
  | nil => exact iff_of_true rfl rfl
  | cons row rest => exact iff_of_false nofun nofun

theorem Plan.only_agrees (plan : Plan) (rows : Plan -> List Row) :
    (forall row, plan.onward rows = [row] ↔ plan.sliced rows = [row]) ↔
      forall n, plan.limit = some n ->
        (toCount n = 0 -> (plan.onward rows).length ≠ 1) ∧
          (toCount n = 1 -> (plan.onward rows).length ≤ 1) := by
  cases hlimit : plan.limit with
  | none =>
      rw [sliced_of_none rows hlimit]
      exact iff_of_true (fun row => Iff.rfl) nofun
  | some n =>
      rw [sliced_of_limit rows hlimit, Query.only_agrees]
      constructor
      · intro hcut m hm
        cases hm
        exact hcut
      · intro hall
        exact hall n rfl

theorem givesSingleRows {source : EntitySource σ} {clock : Action σ Number}
    {rows : Plan -> List Row} {builders : Chain} {plan : Plan} {s t : Session σ}
    (hsource : source.Slices rows) (hcounts : plan.HasCounts)
    (hreaches : Chain.Reaches source clock builders s plan t) :
    plan.GivesSingleRows rows fun calls =>
      (Chain.evaluate source clock (builders ++ calls) s).1 := by
  constructor
  case get => exact get_rows hsource hcounts hreaches
  case first => exact first_value hsource hcounts hreaches
  case first_agrees =>
    intro get first hget hfirst
    rw [first_value hsource hcounts hreaches hfirst,
      get_first_value hsource hcounts hreaches hget hfirst, Except.ok.injEq,
      Plan.head?_agrees rows plan rowOrNull, rowOrNull_eq_null]
  case value =>
    intro single column hsingle hname
    exact value_value hsource hcounts hreaches hname hsingle
  case value_agrees =>
    intro single get pluck first column hsingle hget hpluck hfirst hname
    rw [value_value hsource hcounts hreaches hname hsingle,
      get_pluck_first_value hsource hcounts hreaches hname hget hpluck hfirst,
      Except.ok.injEq, Except.ok.injEq]
    exact Plan.head?_agrees rows (plan.withColumns [column]) (TerminalVerb.valueIn column)
  case value_refused =>
    intro single get column hsingle hget hname
    have hvalue := inquiry_value source.name source.primaryKey plan column
    have hgets := inquiry_get source.name source.primaryKey plan column
    rw [if_neg (Bool.eq_false_iff.mp hname)] at hvalue hgets
    exact ⟨Chain.terminal_refused hreaches hsingle hvalue [],
      Chain.terminal_refused hreaches hget hgets⟩
  case sole => exact sole_value hsource hcounts hreaches
  case sole_agrees =>
    intro get sole hget hsole
    rw [sole_value hsource hcounts hreaches hsole, get_rows hsource hcounts hreaches hget]
    simp only [only_eq_ok, Except.ok.injEq, rowsValue_inj]
    exact plan.only_agrees rows

namespace Chain

/-- Over a source that selects a window on fixed rows, `first`, `value` and `sole` find what `get`
finds, unless the calls before them set a limit that keeps rows from `get` which the limit of the
verb's own does not keep from it: a limit of zero, and for `sole` one that leaves one row of
more. -/
theorem evaluate_single_rows (clock : Action σ Number) {source : EntitySource σ}
    {rows : Plan -> List Row} (hsource : source.Slices rows) {builders : Chain}
    (hbuilders : forall call, call ∈ builders -> (BuilderVerb.ofName? call.verb).isSome)
    (s : Session σ) :
    let value := fun calls => (Chain.evaluate source clock (builders ++ calls) s).1
    (exists failure, forall calls, value calls = .error failure) ∨
      exists plan t, Reaches source clock builders s plan t ∧ plan.GivesSingleRows rows value := by
  intro value
  rcases builders_lead source clock hbuilders .empty s with
    ⟨failure, t, hfails⟩ | ⟨plan, directives, t, hreaches, hresolves⟩
  · exact Or.inl ⟨failure, fun calls => congrArg Prod.fst (evaluate_of_failure hfails calls)⟩
  · have hcounts : plan.HasCounts := Reaches.hasCounts hreaches hresolves
    exact Or.inr ⟨plan, t, hreaches, givesSingleRows hsource hcounts hreaches⟩

theorem evaluate_single_rows_limited :
    let rows : List Row := [.ofFields [("a", .bool true)], .ofFields [("a", .bool false)]]
    let builders : Chain := [⟨"limit", [.scalar (.number (.ofNat 1))], 0⟩]
    let get : Call := ⟨"get", [], 10⟩
    let first : Call := ⟨"first", [], 10⟩
    let value := fun calls =>
      (Chain.evaluate (listSource rows) (pure 0) (builders ++ calls) ⟨(), []⟩).1
    ((listSource rows).Slices fun plan => rows.map (Row.only plan.columns)) ∧
      (forall call, call ∈ builders -> (BuilderVerb.ofName? call.verb).isSome) ∧
      value [get] = .ok (rowsValue (rows.take 1)) ∧ value [first] = value [get, first] := by
  intro rows builders get first value
  have hbuilders : forall call, call ∈ builders -> (BuilderVerb.ofName? call.verb).isSome := by
    decide
  have hone : toCount (.ofNat 1) = 1 := toCount_ofNat Number.isExact_one
  have hcount : (Number.ofNat 1).IsCount := Number.isExact_one.isCount
  have hlimit : Call.IsOf ⟨"limit", [.scalar (.number (.ofNat 1))], 0⟩
      (BuilderVerb.text .limit) [.number (.ofNat 1)] := ⟨rfl, rfl⟩
  have hstart : Reaches (listSource rows) (pure 0) builders ⟨(), []⟩
      (Plan.empty.put (.limit (.ofNat 1))) ⟨(), []⟩ :=
    leads_scalars hlimit (BuilderVerb.StatesCount.count hcount) .empty _
  refine ⟨listSource_slices rows, hbuilders, ?_⟩
  rcases evaluate_single_rows (pure 0) (listSource_slices rows) hbuilders ⟨(), []⟩ with
    ⟨failure, hfails⟩ | ⟨plan, t, hreaches, hgives⟩
  · have hcounts : (Plan.empty.put (.limit (.ofNat 1))).HasCounts := by
      refine ⟨?_, nofun⟩
      intro n hn
      rw [← Option.some.inj hn]
      exact hcount
    have hgot : value [get] = _ := get_rows (listSource_slices rows) hcounts hstart ⟨rfl, rfl⟩
    cases hgot.symm.trans (hfails [get])
  · cases hstart.symm.trans hreaches
    refine ⟨?_, (hgives.first_agrees ⟨rfl, rfl⟩ ⟨rfl, rfl⟩).mpr ?_⟩
    · have hgot : value [get] = _ := hgives.get ⟨rfl, rfl⟩
      rw [Plan.sliced_of_limit _ rfl, hone] at hgot
      exact hgot
    · intro hshut
      rcases hshut with ⟨n, hn, hzero⟩
      rw [← Option.some.inj hn, hone] at hzero
      cases hzero

/-- The limit of a query is lost on verbs that ask for one row: behind `limit(0)` there is a first
row that `get` does not give, and behind `limit(1)` the row that `get` gives is not the only one. -/
theorem limit_overruled :
    let rows : List Row := [.ofFields [("a", .bool true)], .ofFields [("a", .bool false)]]
    let limit : Nat -> Call := fun n => ⟨"limit", [.scalar (.number (.ofNat n))], 0⟩
    let get : Call := ⟨"get", [], 10⟩
    let first : Call := ⟨"first", [], 10⟩
    let sole : Call := ⟨"sole", [], 10⟩
    let value := fun calls => (Chain.evaluate (listSource rows) (pure 0) calls ⟨(), []⟩).1
    value [limit 0, get, first] = .ok .null ∧
      value [limit 0, first] = .ok (Value.ofFields [("a", .bool true)]) ∧
      value [limit 1, get] = .ok (.list [.ofFields [("a", .bool true)]]) ∧
      value [limit 1, sole] = .error EvaluationFault.manyRecords.toFailure := by
  decide +kernel

end Chain

end Query

end OperatorConsole
