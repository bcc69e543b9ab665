import Mathlib.Control.Monad.Basic
import OperatorConsole.Proofs.Query.ComposedVerbs
import OperatorConsole.Proofs.Text.Letters

/-!
# Where results come from

The columns that verbs read stand in the calls of a chain as they are written, since no helper
writes the name of a column.  What a chain gives is composed of data and of what these columns
inherit; over rows of scalars, nothing else leaves it.
-/

namespace OperatorConsole

open OperatorConsole.Action Value

namespace Query

variable {names : String -> Prop}

/-! ## Columns of calls -/

theorem padded_head (count n : Nat) :
    exists c rest, Calendar.padded count n = c :: rest ∧ c.isDigit = true := by
  have hdigits : forall c, c ∈ Calendar.padded count n -> c.isDigit = true := by
    intro c hc
    rcases List.mem_append.mp hc with hzero | hdigit
    · rw [List.eq_of_mem_replicate hzero]
      rfl
    · exact Nat.isDigit_of_mem_toDigits (by decide) (by decide) hdigit
  cases hlist : Calendar.padded count n with
  | nil =>
      have hempty := (List.append_eq_nil_iff.mp hlist).2
      exact absurd hempty Nat.toDigits_ne_nil
  | cons c rest =>
      rw [hlist] at hdigits
      exact ⟨c, rest, rfl, hdigits c List.mem_cons_self⟩

theorem isoChars_head (separator : Char) (ms : Int) :
    exists c rest, Calendar.isoChars separator ms = c :: rest ∧ isNameStart c = false := by
  have hyear : forall year, exists c rest, Calendar.yearText year = c :: rest ∧
      isNameStart c = false := by
    intro year
    unfold Calendar.yearText
    split
    · rcases padded_head 4 year.toNat with ⟨c, rest, hlist, hdigit⟩
      exact ⟨c, rest, hlist, isNameStart_digit hdigit⟩
    · split
      · exact ⟨'-', _, rfl, by decide⟩
      · exact ⟨'+', _, rfl, by decide⟩
  rcases hyear (Calendar.civilDate (ms / Calendar.dayMs)).year with ⟨c, rest, hlist, hc⟩
  unfold Calendar.isoChars Calendar.dateText
  rw [hlist]
  exact ⟨c, _, rfl, hc⟩

theorem textAt_not_column {h : Helper} {time : Number} {text : String}
    (htext : h.textAt time = .ok text) : isColumnName text = false := by
  have hleading : forall separator count,
      Calendar.leadingText separator (count + 1) time = .ok text -> isColumnName text = false := by
    intro separator count hleading
    unfold Calendar.leadingText at hleading
    split at hleading
    · rename_i ms _
      rcases isoChars_head separator ms with ⟨c, rest, hlist, hc⟩
      cases hleading
      unfold isColumnName
      rw [String.toList_ofList, hlist, List.take_succ_cons]
      change (isNameStart c && _) = false
      rw [hc]
      rfl
    · cases hleading
  cases h with
  | now => exact hleading ' ' 18 htext
  | today => exact hleading 'T' 9 htext

theorem resolveAll_columns {clock : Action σ Number} {args : List Argument}
    {operands : List Operand} {s : Session σ}
    (hresolved : (Argument.resolveAll clock args s).1 = .ok operands) :
    ColumnsAre (fun column => Argument.scalar (.text column) ∈ args) operands := by
  induction args generalizing operands s with
  | nil =>
      rw [Argument.resolveAll] at hresolved
      cases hresolved
      intro column hcolumn
      cases hcolumn
  | cons arg args ih =>
      rw [Argument.resolveAll] at hresolved
      rcases bind_ok hresolved with ⟨operand, t, hoperand, hrest⟩
      rcases bind_ok hrest with ⟨others, t', hothers, hgiven⟩
      cases hgiven
      intro column hcolumn hname
      rcases List.mem_cons.mp hcolumn with rfl | hcolumn
      · refine List.mem_cons.mpr (Or.inl ?_)
        cases arg with
        | scalar v =>
            rw [Argument.resolve] at hoperand
            cases hoperand
            rfl
        | list items =>
            rw [Argument.resolve] at hoperand
            rcases bind_ok hoperand with ⟨operands, _, _, hgiven⟩
            cases hgiven
        | helper h =>
            rw [Argument.resolve] at hoperand
            rcases bind_ok hoperand with ⟨time, _, _, hgiven⟩
            cases htext : h.textAt time with
            | error failure =>
                rw [htext] at hgiven
                cases hgiven
            | ok text =>
                rw [htext] at hgiven
                cases hgiven
                rw [textAt_not_column htext] at hname
                cases hname
      · exact List.mem_cons_of_mem arg (ih hothers column hcolumn hname)

def Call.Reads (call : Call) (column : String) : Prop :=
  (TerminalVerb.ofName? call.verb = some .pluck ∨ TerminalVerb.ofName? call.verb = some .value ∨
    ResultVerb.ofName? call.verb = some .pluck) ∧ Argument.scalar (.text column) ∈ call.args

/-! ## Chains -/

section Chains

variable {source : EntitySource σ} {clock : Action σ Number}

theorem Inquiry.Concludes.good {rows : Row -> Prop} {times : Number -> Prop} {good : Value -> Prop}
    {bad : Failure -> Prop} {inquiry : Inquiry} (hconcludes : inquiry.Concludes rows good bad)
    (hsupplies : Supplies rows times source clock) {s : Session σ} {v : Value}
    (hv : (inquiry.carryOut source s).1 = .ok v) : good v := by
  cases inquiry with
  | select plan conclude =>
      rcases bind_ok hv with ⟨answer, t, hanswer, hconclude⟩
      exact (hconcludes answer (hsupplies.select plan s answer hanswer)).yields v hconclude
  | iterate plan conclude =>
      rcases bind_ok hv with ⟨answer, t, hanswer, hconclude⟩
      exact (hconcludes answer (hsupplies.iterate plan s answer hanswer)).yields v hconclude
  | aggregate plan fn column conclude =>
      rcases bind_ok hv with ⟨answer, t, hanswer, hconclude⟩
      exact (hconcludes answer).yields v hconclude
  | page counted sliced conclude =>
      rcases bind_ok hv with ⟨total, t, _, hrest⟩
      rcases bind_ok hrest with ⟨answer, t', hanswer, hconclude⟩
      exact (hconcludes total answer (hsupplies.select sliced t answer hanswer)).yields v hconclude

namespace Chain

def Reads (chain : Chain) (column : String) : Prop :=
  exists call, call ∈ chain ∧ call.Reads column

theorem finish_composed {calls : Chain} {v w : Value} {s : Session σ} (hv : Composed names v)
    (hcalls : forall column, calls.Reads column -> names column)
    (hw : (calls.finish clock v s).1 = .ok w) : Composed names w := by
  induction calls generalizing v s with
  | nil =>
      cases hw
      exact hv
  | cons call calls ih =>
      rw [finish_cons] at hw
      rcases bind_ok hw with ⟨next, t, hnext, hrest⟩
      refine ih ?_ ?_ hrest
      · unfold finishStep at hnext
        cases hcanonical : canonicalVerb? call.verb with
        | none =>
            rw [hcanonical] at hnext
            cases hnext
        | some canonical =>
            rw [hcanonical] at hnext
            rcases bind_ok hnext with ⟨args, t', hargs, happlied⟩
            cases hresult : ResultVerb.ofName? call.verb with
            | none =>
                rw [hresult] at happlied
                cases happlied
            | some r =>
                rw [hresult] at happlied
                refine r.apply_composed hv ?_ next happlied
                rintro rfl column hcolumn hname
                refine hcalls column ⟨call, List.mem_cons_self, Or.inr (Or.inr hresult), ?_⟩
                exact resolveAll_columns hargs column hcolumn hname
      · rintro column ⟨other, hother, hreads⟩
        exact hcalls column ⟨other, List.mem_cons_of_mem call hother, hreads⟩

/-- The value of a chain is composed of data, and of what the chain reads from columns. -/
theorem evaluate_composed {times : Number -> Prop} (hsupplies : Supplies ScalarRow times source clock)
    {chain : Chain} {s : Session σ} {v : Value} (hv : (chain.evaluate source clock s).1 = .ok v) :
    Composed chain.Reads v := by
  rw [evaluate_eq] at hv
  rcases bind_ok hv with ⟨⟨inquiry, rest⟩, t, hprepare, hrest⟩
  rcases bind_ok hrest with ⟨answer, t', hanswer, hfinish⟩
  have hprepared : chain.prepare source.name source.primaryKey clock .empty s =
      (.ok (inquiry, rest), (chain.prepare source.name source.primaryKey clock .empty s).2) :=
    Prod.ext hprepare rfl
  rcases prepare_ok hprepared with
    ⟨builders, terminal, verb, plan, args, hsplits, ⟨r, hargs⟩, hinquiry, _⟩
  have hcalls := hsplits.calls
  refine finish_composed ?_ ?_ hfinish
  · refine (verb.inquiry_composed _ _ ?_ inquiry hinquiry).good hsupplies hanswer
    intro hreads column hcolumn hname
    refine ⟨terminal, ?_, ?_, resolveAll_columns hargs column hcolumn hname⟩
    · rw [hcalls]
      simp
    · rw [hsplits.terminal]
      rcases hreads with rfl | rfl
      · exact Or.inl rfl
      · exact Or.inr (Or.inl rfl)
  · rintro column ⟨call, hcall, hreads⟩
    refine ⟨call, ?_, hreads⟩
    rw [hcalls]
    exact List.mem_append_right _ (List.mem_cons_of_mem terminal hcall)

end Chain

end Chains

/-! ## Missing columns -/

theorem at_missing_null {row : Row} (hrow : ScalarRow row) {column : String}
    (hown : row.fields.own? column = none) :
    Row.at row column = .null ↔ Fields.inherited? column = none := by
  rw [at_missing hrow hown]
  cases hinherited : Fields.inherited? column with
  | none => exact iff_of_true rfl rfl
  | some v =>
      rcases Fields.inherited?_cases hinherited with rfl | ⟨routine, rfl⟩
      · exact iff_of_false nofun nofun
      · exact iff_of_false nofun nofun

/-- What is inherited is no number, so no calculation over a column takes it in. -/
theorem numbersIn_missing {row : Row} (hrow : ScalarRow row) {column : String}
    (hown : row.fields.own? column = none) (items : List Value) :
    numbersIn (some column) (row.toValue :: items) = numbersIn (some column) items := by
  have hfield : (fieldOf column row.toValue).numeric? = none := by
    change (Row.at row column).numeric? = none
    rw [at_missing hrow hown]
    cases hinherited : Fields.inherited? column with
    | none => rfl
    | some v =>
        rcases Fields.inherited?_cases hinherited with rfl | ⟨routine, rfl⟩
        · rfl
        · rfl
  unfold numbersIn
  exact List.filterMap_cons_none hfield

/-! ## Results -/

/-- Over rows of scalars, the value of a chain is composed of data and of what the columns that
the chain reads inherit; it is data if they inherit nothing.  A row that lacks a column answers
with null exactly if the name is not inherited, and adds nothing to a calculation. -/
theorem evaluate_gives_data {source : EntitySource σ} {clock : Action σ Number}
    (hsupplies : Supplies ScalarRow (fun _ => True) source clock) :
    (forall (chain : Chain) (s : Session σ) (v : Value),
      (chain.evaluate source clock s).1 = .ok v ->
      Composed chain.Reads v ∧
        ((forall column, chain.Reads column -> Fields.inherited? column = none) ->
          IsPureData v)) ∧
    forall (row : Row) (column : String), ScalarRow row -> row.fields.own? column = none ->
      (Row.at row column = .null ↔ Fields.inherited? column = none) ∧
      fieldOf column row.toValue = Row.at row column ∧
      forall items, numbersIn (some column) (row.toValue :: items) =
        numbersIn (some column) items := by
  refine ⟨?_, ?_⟩
  · intro chain s v hv
    have hcomposed := Chain.evaluate_composed hsupplies hv
    exact ⟨hcomposed, hcomposed.isPureData⟩
  · intro row column hrow hown
    exact ⟨at_missing_null hrow hown, rfl, numbersIn_missing hrow hown⟩

def singleRowSource (fields : Fields) : EntitySource Unit where
  name := "t"
  primaryKey := "id"
  fields := pure (fields.map Prod.fst)
  select := fun _ => pure [.ofFields fields]
  iterate := fun _ => pure [.ofFields fields]
  aggregate := fun _ _ _ => pure (some 1)

theorem singleRowSource_supplies {fields : Fields} {times : Number -> Prop} {time : Number}
    (hfields : forall field, field ∈ fields -> field.2.scalar?.isSome) (htime : times time) :
    Supplies ScalarRow times (singleRowSource fields) (pure time : Action Unit Number) := by
  have hrow : forall answer : List Row, Except.ok (ε := Failure) [Record.ofFields fields] =
      .ok answer -> forall row, row ∈ answer -> ScalarRow row := by
    intro answer hanswer row hmem
    cases hanswer
    rw [List.mem_singleton.mp hmem]
    exact ⟨rfl, hfields⟩
  constructor
  case select => exact fun _ _ answer hanswer => hrow answer hanswer
  case iterate => exact fun _ _ answer hanswer => hrow answer hanswer
  case clock =>
    intro s given hgiven
    rw [← Except.ok.inj hgiven]
    exact htime

theorem evaluate_gives_data_single :
    (Chain.evaluate (singleRowSource [("k", .text "a")]) (pure 0)
        [⟨"pluck", [.scalar (.text "k")], 0⟩] ⟨(), []⟩).1 = .ok (.list [.text "a"]) ∧
      IsPureData (.list [.text "a"]) := by
  have hvalue : (Chain.evaluate (singleRowSource [("k", .text "a")]) (pure 0)
      [⟨"pluck", [.scalar (.text "k")], 0⟩] ⟨(), []⟩).1 = .ok (.list [.text "a"]) := by
    decide +kernel
  have hsupplies : Supplies ScalarRow (fun _ => True) (singleRowSource [("k", .text "a")])
      (pure 0) := singleRowSource_supplies (by simp [Value.scalar?]) trivial
  refine ⟨hvalue, ((evaluate_gives_data hsupplies).1 _ _ _ hvalue).2 ?_⟩
  rintro column ⟨call, hcall, _, hcolumn⟩
  rw [List.mem_singleton.mp hcall] at hcolumn
  cases List.mem_singleton.mp hcolumn
  decide

/-- An admitted chain reads a column that its only row lacks, and gives a function. -/
theorem plucked_not_data :
    exists chain, Validator.standard.verdict "pluck('toString')" = .accepted chain ∧
      isColumnName "toString" = true ∧
      (chain.evaluate (singleRowSource [("k", .text "a")]) (pure 0) ⟨(), []⟩).1 =
        .ok (.list [.routine "toString"]) ∧
      ¬ IsPureData (.list [.routine "toString"]) := by
  have hvalue : ((Validator.standard.verdict "pluck('toString')").chain?.map fun chain =>
      (chain.evaluate (singleRowSource [("k", .text "a")]) (pure 0) ⟨(), []⟩).1) =
        some (.ok (.list [.routine "toString"])) := by
    decide +kernel
  rcases Option.map_eq_some_iff.mp hvalue with ⟨chain, hchain, hresult⟩
  refine ⟨chain, Verdict.chain?_eq_some.mp hchain, by decide, hresult, ?_⟩
  intro hdata
  have hitem := hdata.parts _ List.mem_cons_self
  rcases hitem.parts with ⟨_, hname, _⟩
  exact hname

end Query

end OperatorConsole
