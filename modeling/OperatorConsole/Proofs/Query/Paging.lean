import OperatorConsole.Proofs.Query.Pages
import OperatorConsole.Proofs.Query.Window

/-!
# Pages of rows

A numbered page is cut out of the rows by its place, with the number of all rows beside it; a
simple page fetches one row more than it holds.  Both give the same rows, and they agree on whether
there are more.  The pages in a row are all rows, none of them twice.

Places are calculated in numbers, so all of this holds as long as no place is rounded.
-/

namespace OperatorConsole

namespace Query

open OperatorConsole.Action

/-! ## Pages of a source -/

/-- Whether a source has fixed rows for what a plan asks, whatever limit and offset it sets: it
selects a window on them and counts them all. -/
structure EntitySource.Holds (source : EntitySource σ) (plan : Plan) (rows : List Row) : Prop where
  select : forall limit offset s, limit.IsCount -> offset.IsCount ->
    (source.select (plan.slice limit offset) s).1 = .ok (window (some limit) (some offset) rows)
  count : forall s,
    (source.aggregate plan.unpaged .count none s).1 = .ok (some (Number.ofNat rows.length))

theorem listSource_holds {plan : Plan} (hplan : plan.columns = []) (rows : List Row) :
    (listSource rows).Holds plan rows := by
  constructor
  case select =>
    intro limit offset s _ _
    have hwhole : Row.only (plan.slice limit offset).columns = id := by
      unfold Plan.slice
      rw [hplan]
      rfl
    change Except.ok (List.map (Row.only (plan.slice limit offset).columns) _) = _
    rw [hwhole, List.map_id]
    rfl
  case count => exact fun s => rfl

section Pages

variable {source : EntitySource σ} {plan : Plan} {rows : List Row} {size page : Nat}

theorem pageOffset_ofNat (hsize : Number.IsExact size) (hpage : page ≤ 2 ^ 53)
    (hfirst : 1 ≤ page) :
    pageOffset (Number.ofNat size) (Number.ofNat page) = Number.ofNat ((page - 1) * size) := by
  have hexact := Number.isExact_of_le hpage
  have hbefore : Number.IsExact (page - 1) := Number.isExact_of_le (by omega)
  unfold pageOffset
  rw [Number.ofNat_literal, Number.ofNat_sub hexact Number.isExact_one hfirst,
    Number.ofNat_mul hbefore hsize]

theorem lastPage_ofNat (hsize : 0 < size) (hsmall : size ≤ 2 ^ 53) {count : Nat}
    (hcount : count ≤ 2 ^ 53) :
    Number.max 1 ((Number.ofNat count).div (Number.ofNat size)).ceil =
      Number.ofNat (lastPageOf size count) := by
  have hpages : count ⌈/⌉ size ≤ 2 ^ 53 :=
    Nat.le_trans ((ceilDiv_le_iff_le_mul hsize).mpr (Nat.le_mul_of_pos_left count hsize)) hcount
  rw [Number.ceil_div hsize hcount hsmall, Number.ofNat_literal,
    Number.max_ofNat Number.isExact_one (Number.isExact_of_le hpages)]
  rfl

theorem inquiry_paginate {entity key : String} {args : List Operand} {perPage number : Number}
    (hgiven : pageOf (TerminalVerb.text .paginate) args = .ok (perPage, number)) :
    TerminalVerb.inquiry .paginate entity key plan args =
      .ok (.page plan.unpaged (plan.slice perPage (pageOffset perPage number)) fun total rows =>
        .ok (TerminalVerb.pageValue perPage number total rows)) := by
  change TerminalVerb.askPaginate _ plan args = _
  unfold TerminalVerb.askPaginate
  rw [hgiven]
  rfl

theorem inquiry_simplePaginate {entity key : String} {args : List Operand}
    {perPage number : Number}
    (hgiven : pageOf (TerminalVerb.text .simplePaginate) args = .ok (perPage, number)) :
    TerminalVerb.inquiry .simplePaginate entity key plan args =
      .ok (.select (plan.slice (perPage.add 1) (pageOffset perPage number)) fun rows =>
        .ok (TerminalVerb.simplePageValue perPage number rows)) := by
  change TerminalVerb.askSimplePaginate _ plan args = _
  unfold TerminalVerb.askSimplePaginate
  rw [hgiven]
  rfl

theorem select_slice (hholds : source.Holds plan rows) {limit offset : Nat}
    (hlimit : Number.IsExact limit) (hoffset : Number.IsExact offset) (s : Session σ) :
    (source.select (plan.slice (Number.ofNat limit) (Number.ofNat offset)) s).1 =
      .ok ((rows.drop offset).take limit) := by
  rw [hholds.select _ _ s hlimit.isCount hoffset.isCount, window_both, toCount_ofNat hlimit,
    toCount_ofNat hoffset]

variable {clock : Action σ Number} {builders : Chain} {s t : Session σ} {call : Call}
  (hholds : source.Holds plan rows) (hsize : 1 ≤ size) (hfirst : 1 ≤ page)
  (hpage : page ≤ 2 ^ 53) (hplace : (page - 1) * size ≤ 2 ^ 53)
  (hreaches : Chain.Reaches source clock builders s plan t)

include hholds hsize hfirst hpage hplace hreaches

theorem paginate_value (hrows : rows.length ≤ 2 ^ 53) (hsmall : size ≤ 2 ^ 53)
    (hcall : call.IsOf (TerminalVerb.text .paginate)
      [.number (.ofNat size), .number (.ofNat page)]) :
    (Chain.evaluate source clock (builders ++ [call]) s).1 =
      .ok (.ofFields [("data", rowsValue (pageOfList rows size page)),
        ("total", .number (.ofNat rows.length)), ("perPage", .number (.ofNat size)),
        ("currentPage", .number (.ofNat page)),
        ("lastPage", .number (.ofNat (lastPageOf size rows.length)))]) := by
  have hexact := Number.isExact_of_le hsmall
  have hperPage : (Number.ofNat size).IsPositive := ⟨size, hsize, hexact, rfl⟩
  have hnumber : (Number.ofNat page).IsPositive := ⟨page, hfirst, Number.isExact_of_le hpage, rfl⟩
  have hselect : forall s, (source.select (plan.slice (Number.ofNat size)
      (pageOffset (Number.ofNat size) (Number.ofNat page))) s).1 =
      .ok (pageOfList rows size page) := by
    intro s
    rw [pageOffset_ofNat hexact hpage hfirst]
    exact select_slice hholds hexact (Number.isExact_of_le hplace) s
  rw [Chain.terminal_value hreaches hcall (inquiry_paginate (pageOf_given hperPage hnumber)),
    Inquiry.page_value (hholds.count t) hselect]
  unfold TerminalVerb.pageValue
  rw [Option.getD_some, lastPage_ofNat hsize hsmall hrows]

theorem simplePaginate_value (hsmall : size + 1 ≤ 2 ^ 53)
    (hcall : call.IsOf (TerminalVerb.text .simplePaginate)
      [.number (.ofNat size), .number (.ofNat page)]) :
    (Chain.evaluate source clock (builders ++ [call]) s).1 =
      .ok (.ofFields [("data", rowsValue (pageOfList rows size page)),
        ("perPage", .number (.ofNat size)), ("currentPage", .number (.ofNat page)),
        ("hasMorePages", .bool (decide (page < lastPageOf size rows.length)))]) := by
  have hexact : Number.IsExact size := Number.isExact_of_le (by omega)
  have hperPage : (Number.ofNat size).IsPositive := ⟨size, hsize, hexact, rfl⟩
  have hnumber : (Number.ofNat page).IsPositive := ⟨page, hfirst, Number.isExact_of_le hpage, rfl⟩
  have hnext : (Number.ofNat size).add 1 = Number.ofNat (size + 1) := by
    rw [Number.ofNat_literal, Number.ofNat_add hexact Number.isExact_one]
  have hselect : forall s, (source.select (plan.slice ((Number.ofNat size).add 1)
      (pageOffset (Number.ofNat size) (Number.ofNat page))) s).1 =
      .ok ((rows.drop ((page - 1) * size)).take (size + 1)) := by
    intro s
    rw [hnext, pageOffset_ofNat hexact hpage hfirst]
    exact select_slice hholds (Number.isExact_of_le hsmall) (Number.isExact_of_le hplace) s
  have hheld : ((rows.drop ((page - 1) * size)).take (size + 1)).take size =
      pageOfList rows size page := by
    rw [List.take_take, Nat.min_eq_left (Nat.le_succ size)]
    rfl
  rw [Chain.terminal_value hreaches hcall (inquiry_simplePaginate (pageOf_given hperPage hnumber)),
    Inquiry.select_value (hselect t)]
  unfold TerminalVerb.simplePageValue
  rw [toCount_ofNat hexact, hheld, decide_eq_decide.mpr (size_lt_iff rows hsize hfirst)]

end Pages

namespace Chain

/-- Paging loses nothing and repeats nothing.  Over fixed rows, and with numbers that are not
rounded, the pages up to the last one are the rows, cut where a page is full.  A numbered page and
a simple page with the same number hold the same rows, and the simple page has more behind it
exactly if it is not the last one or one behind it. -/
theorem paginate_partitions (source : EntitySource σ) (clock : Action σ Number)
    (builders : Chain) {plan : Plan} {rows : List Row} (hholds : source.Holds plan rows)
    (hrows : rows.length ≤ 2 ^ 53) {size : Nat} (hsize : 1 ≤ size) (hsmall : size + 1 ≤ 2 ^ 53) :
    let lastPage := Max.max 1 (rows.length ⌈/⌉ size)
    exists data : Nat -> List Row,
      (forall page s t call, 1 ≤ page -> page ≤ 2 ^ 53 -> (page - 1) * size ≤ 2 ^ 53 ->
        Reaches source clock builders s plan t ->
        (call.IsOf "paginate" [.number (.ofNat size), .number (.ofNat page)] ->
          (Chain.evaluate source clock (builders ++ [call]) s).1 =
            .ok (.ofFields [("data", rowsValue (data page)),
              ("total", .number (.ofNat rows.length)), ("perPage", .number (.ofNat size)),
              ("currentPage", .number (.ofNat page)),
              ("lastPage", .number (.ofNat lastPage))])) ∧
        (call.IsOf "simplePaginate" [.number (.ofNat size), .number (.ofNat page)] ->
          (Chain.evaluate source clock (builders ++ [call]) s).1 =
            .ok (.ofFields [("data", rowsValue (data page)), ("perPage", .number (.ofNat size)),
              ("currentPage", .number (.ofNat page)),
              ("hasMorePages", .bool (decide (page < lastPage)))]))) ∧
      (List.range lastPage).flatMap (fun i => data (i + 1)) = rows ∧
      (forall page, 1 ≤ page -> page < lastPage -> (data page).length = size) ∧
      (forall page, lastPage < page -> data page = []) ∧
      forall page, 1 ≤ page -> page ≤ lastPage -> page ≤ 2 ^ 53 ∧ (page - 1) * size ≤ 2 ^ 53 := by
  intro lastPage
  refine ⟨pageOfList rows size, ?_, flatMap_pages rows hsize, fun page => length_page rows hsize,
    fun page => page_behind rows hsize, ?_⟩
  · intro page s t call hfirst hpage hplace hreaches
    exact ⟨paginate_value hholds hsize hfirst hpage hplace hreaches hrows (by omega),
      simplePaginate_value hholds hsize hfirst hpage hplace hreaches hsmall⟩
  · intro page hfirst hlast
    have hplace := place_le hsize hfirst hlast
    omega

theorem paginate_partitions_three :
    let rows : List Row := [.ofFields [("a", .bool true)], .ofFields [], .ofFields [("b", .null)]]
    let last : Call := ⟨"paginate", [.scalar (.number (.ofNat 2)), .scalar (.number (.ofNat 2))], 0⟩
    let run := Chain.evaluate (listSource rows) (pure 0) [last] ⟨(), []⟩
    exists data : Nat -> List Row, data 1 ++ data 2 = rows ∧ (data 1).length = 2 ∧
      run.1 = .ok (.ofFields [("data", rowsValue (data 2)), ("total", .number (.ofNat rows.length)),
        ("perPage", .number (.ofNat 2)), ("currentPage", .number (.ofNat 2)),
        ("lastPage", .number (.ofNat 2))]) := by
  intro rows last run
  have hreaches : Reaches (listSource rows) (pure 0) [] ⟨(), []⟩ .empty ⟨(), []⟩ := rfl
  have hholds : (listSource rows).Holds .empty rows := listSource_holds rfl rows
  have hsize : 1 ≤ 2 := by decide
  have hrows : rows.length ≤ 2 ^ 53 := by decide
  rcases paginate_partitions (listSource rows) (pure 0) [] hholds hrows hsize (by decide) with
    ⟨data, hrun, hall, hfull, _⟩
  have hlast : Max.max 1 (rows.length ⌈/⌉ 2) = 2 := by decide
  rw [hlast] at hrun hall hfull
  refine ⟨data, ?_, hfull 1 (by decide) (by decide), ?_⟩
  · exact (congrArg (data 1 ++ ·) (List.append_nil _).symm).trans hall
  · exact (hrun 2 _ _ last (by decide) (by decide) (by decide) hreaches).1 ⟨rfl, rfl⟩

end Chain

end Query

end OperatorConsole
