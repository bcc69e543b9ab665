import OperatorConsole.Proofs.Query.Reached
import OperatorConsole.Proofs.Value.Fields

/-!
# Windows on rows

The limit and the offset of a plan cut a window out of the rows that its conditions select.
`listSource` keeps its rows in a list and carries plans out row by row.
-/

namespace OperatorConsole

namespace Query

open OperatorConsole.Action

/-! ## Windows -/

/-- The rows from an offset on, at most as many as the limit says. -/
def window (limit offset : Option Number) (rows : List α) : List α :=
  let rest := rows.drop ((offset.map toCount).getD 0)
  match limit with
  | some n => rest.take (toCount n)
  | none => rest

theorem window_all (rows : List α) : window none none rows = rows := rfl

theorem window_both (limit offset : Number) (rows : List α) :
    window (some limit) (some offset) rows = (rows.drop (toCount offset)).take (toCount limit) :=
  rfl

theorem toCount_ofNat {n : Nat} (hn : Number.IsExact n) : toCount (Number.ofNat n) = n := by
  unfold toCount
  rw [hn.toInt?]
  rfl

/-! ## Inquiries whose answers are known -/

theorem bind_value {a : Action σ β} {step : β -> Action σ α} {s : Session σ} {x : β}
    (hx : (a s).1 = .ok x) : ((a >>= step) s).1 = (step x (a s).2).1 := by
  rw [bind_apply, next_of_ok hx]

namespace Inquiry

variable {source : EntitySource σ} {plan : Plan} {s : Session σ} {rows : List Row}
  {answer : Option Number}

theorem select_value (hrows : (source.select plan s).1 = .ok rows)
    (conclude : List Row -> Except Failure Value) :
    ((Inquiry.select plan conclude).carryOut source s).1 = conclude rows :=
  bind_value hrows

theorem iterate_value (hrows : (source.iterate plan s).1 = .ok rows)
    (conclude : List Row -> Except Failure Value) :
    ((Inquiry.iterate plan conclude).carryOut source s).1 = conclude rows :=
  bind_value hrows

theorem aggregate_value {fn : AggregateFunction} {column : Option String}
    (hanswer : (source.aggregate plan fn column s).1 = .ok answer)
    (conclude : Option Number -> Except Failure Value) :
    ((Inquiry.aggregate plan fn column conclude).carryOut source s).1 = conclude answer :=
  bind_value hanswer

theorem page_value {sliced : Plan}
    (hanswer : (source.aggregate plan .count none s).1 = .ok answer)
    (hrows : forall r, (source.select sliced r).1 = .ok rows)
    (conclude : Option Number -> List Row -> Except Failure Value) :
    ((Inquiry.page plan sliced conclude).carryOut source s).1 = conclude answer rows :=
  (bind_value hanswer).trans (bind_value (hrows _))

end Inquiry

theorem TerminalVerb.run_of_inquiry {source : EntitySource σ} {verb : TerminalVerb} {plan : Plan}
    {args : List Operand} {inquiry : Inquiry}
    (hinquiry : verb.inquiry source.name source.primaryKey plan args = .ok inquiry) :
    verb.run source plan args = inquiry.carryOut source := by
  rw [TerminalVerb.run_eq, hinquiry]
  rfl

namespace Chain

variable {source : EntitySource σ} {clock : Action σ Number} {builders : Chain} {plan : Plan}
  {s t : Session σ}

theorem terminal_value {verb : TerminalVerb} (hreaches : Reaches source clock builders s plan t)
    {call : Call} {args : List Scalar} (hcall : call.IsOf verb.text args) {inquiry : Inquiry}
    (hinquiry :
      verb.inquiry source.name source.primaryKey plan (args.map .scalar) = .ok inquiry) :
    (Chain.evaluate source clock (builders ++ [call]) s).1 = (inquiry.carryOut source t).1 := by
  rw [evaluate_terminal hreaches hcall, TerminalVerb.run_of_inquiry hinquiry]
  change ((inquiry.carryOut source >>= pure) t).1 = _
  rw [bind_pure]

theorem behind_select {verb : TerminalVerb} (hreaches : Reaches source clock builders s plan t)
    {call : Call} {args : List Scalar} (hcall : call.IsOf verb.text args) {asked : Plan}
    {conclude : List Row -> Except Failure Value}
    (hinquiry : verb.inquiry source.name source.primaryKey plan (args.map .scalar) =
      .ok (.select asked conclude))
    {rows : List Row} (hrows : (source.select asked t).1 = .ok rows) {v : Value}
    (hvalue : conclude rows = .ok v) (rest : Chain) :
    exists u, (Chain.evaluate source clock (builders ++ call :: rest) s).1 =
      (Chain.finish clock rest v u).1 := by
  rw [evaluate_terminal hreaches hcall, TerminalVerb.run_of_inquiry hinquiry]
  exact ⟨_, bind_value ((Inquiry.select_value hrows conclude).trans hvalue)⟩

theorem terminal_refused {verb : TerminalVerb} (hreaches : Reaches source clock builders s plan t)
    {call : Call} {args : List Scalar} (hcall : call.IsOf verb.text args) {fault : EvaluationFault}
    (hinquiry :
      verb.inquiry source.name source.primaryKey plan (args.map .scalar) = .error fault)
    (rest : Chain) :
    (Chain.evaluate source clock (builders ++ call :: rest) s).1 = .error fault.toFailure := by
  rw [evaluate_terminal hreaches hcall, TerminalVerb.run_eq, hinquiry]
  rfl

end Chain

/-! ## Rows in a list -/

/-- A row with the columns that are asked for, or with all of its fields. -/
def Row.only (columns : List String) (row : Row) : Row :=
  if columns.isEmpty then row
  else .ofFields (columns.map fun column => (column, Record.get row column))

theorem lookup_fields (f : String -> Value) {columns : List String} {column : String}
    (hcolumn : column ∈ columns) :
    Fields.own? (columns.map fun name => (name, f name)) column = some (f column) := by
  induction columns with
  | nil => cases hcolumn
  | cons name rest ih =>
      rw [List.map_cons, Fields.own?_cons]
      split
      · rename_i hname
        rw [hname]
      · rename_i hother
        exact ih (List.mem_of_ne_of_mem hother hcolumn)

def listSource (rows : List Row) : EntitySource Unit where
  name := "t"
  primaryKey := "id"
  fields := pure []
  select := fun plan => pure ((window plan.limit plan.offset rows).map (Row.only plan.columns))
  iterate := fun plan => pure ((window plan.limit plan.offset rows).map (Row.only plan.columns))
  aggregate := fun plan _ _ =>
    pure (some (Number.ofNat (window plan.limit plan.offset rows).length))

end Query

end OperatorConsole
