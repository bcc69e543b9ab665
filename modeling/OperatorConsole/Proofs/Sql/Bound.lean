import OperatorConsole.Proofs.Action.Contract
import OperatorConsole.Proofs.Sql.Compiled

/-!
# Parameters of compiled statements

The text of a statement has a placeholder for each of its parameters.  A statement falls into
parts, one for each condition and each comparison of groups among them, and every part has the
placeholders of its own values.  So the values of a plan meet their placeholders in the order of
the plan.
-/

namespace OperatorConsole

namespace Sql

open Query (AggregateFunction Clause Condition DatePart Having Plan)
open Table (aggregated)

/-! ## Placeholders -/

/-- The number of question marks that are not in double quotes. A text may begin in quotes. -/
def placeholdersFrom (quoted : Bool) : List Char -> Nat
  | [] => 0
  | c :: rest =>
      if c = '\x22' then placeholdersFrom (!quoted) rest
      else if c = '?' && !quoted then placeholdersFrom quoted rest + 1
      else placeholdersFrom quoted rest

def placeholders (text : String) : Nat :=
  placeholdersFrom false text.toList

theorem placeholdersFrom_doubleQuotes (name rest : List Char) :
    placeholdersFrom true (doubleQuotes name ++ rest) = placeholdersFrom true rest := by
  induction name with
  | nil => rfl
  | cons c name ih =>
      rw [doubleQuotes]
      split
      · rename_i hquote
        subst hquote
        simp [placeholdersFrom, ih]
      · rename_i hother
        simp [placeholdersFrom, hother, ih]

theorem placeholdersFrom_identifier (name : String) (rest : List Char) :
    placeholdersFrom false ((quoteIdentifier name).toList ++ rest) =
      placeholdersFrom false rest := by
  unfold quoteIdentifier
  rw [String.toList_ofList, List.cons_append, List.append_assoc]
  change placeholdersFrom true (doubleQuotes name.toList ++ ('\x22' :: rest)) = _
  rw [placeholdersFrom_doubleQuotes]
  rfl

/-- Whether a text has neither quotes nor placeholders. -/
def isPlain (text : List Char) : Bool :=
  text.all fun c => c != '\x22' && c != '?'

theorem placeholdersFrom_plain {text : List Char} (htext : isPlain text = true)
    (rest : List Char) : placeholdersFrom false (text ++ rest) = placeholdersFrom false rest := by
  induction text with
  | nil => rfl
  | cons c text ih =>
      simp only [isPlain, List.all_cons, Bool.and_eq_true, bne_iff_ne] at htext
      rcases htext with ⟨⟨hquote, hmark⟩, hothers⟩
      rw [List.cons_append, placeholdersFrom, if_neg hquote, if_neg (by simp [hmark])]
      exact ih hothers

theorem words_plain : forall text, text ∈ words -> isPlain text.toList = true := by
  decide +kernel

theorem Sound.permitted {names : List String} {ending : Edge} {s : Draft}
    (hsound : Sound names ending s) : forall f, f ∈ s -> Permitted names f := by
  induction s generalizing ending with
  | nil => exact List.forall_mem_nil _
  | cons f rest ih => exact List.forall_mem_cons.mpr ⟨hsound.2.1, ih hsound.2.2⟩

theorem placeholdersFrom_text {names : List String} {s : Draft}
    (hs : forall f, f ∈ s -> Permitted names f) :
    placeholdersFrom false (Draft.text s).toList = (Draft.parameters s).length := by
  induction s with
  | nil => rfl
  | cons f rest ih =>
      rcases List.forall_mem_cons.mp hs with ⟨hf, hrest⟩
      rw [Draft.text_cons, String.toList_append]
      cases f with
      | word text => exact (placeholdersFrom_plain (words_plain text hf) _).trans (ih hrest)
      | identifier name => exact (placeholdersFrom_identifier name _).trans (ih hrest)
      | parameter value =>
          have hmark : (Fragment.parameter value).text.toList = ['?'] := by
            change "?".toList = ['?']
            decide
          rw [hmark]
          exact congrArg (· + 1) (ih hrest)

/-! ## Values of a plan -/

/-- What a scalar is in a statement: truth values are one and zero. -/
def boundScalar : Scalar -> Scalar
  | .bool true => .number 1
  | .bool false => .number 0
  | v => v

/-- What a part of a date is compared with: months and years with a number where there is one. -/
def boundPart (part : DatePart) (v : Scalar) : Scalar :=
  if (part = .month ∨ part = .year) ∧ v.toValue.isNumeric then .number v.toValue.asNumber
  else boundScalar v

def boundIn : Condition -> List Scalar
  | .basic _ _ value => [boundScalar value]
  | .oneOf _ values _ => values.map boundScalar
  | .between _ low high _ => [boundScalar low, boundScalar high]
  | .isNull _ _ => []
  | .datePart part _ _ value => [boundPart part value]
  | .columns _ _ _ => []

/-- A limit stands before an offset; minus one is no limit. -/
def boundPaging (limit offset : Option Number) : List Scalar :=
  if limit.isNone && offset.isNone then []
  else .number (limit.getD (Number.ofInt (-1))) :: offset.toList.map .number

def boundValues (plan : Plan) : List Scalar :=
  plan.conditions.flatMap (fun clause => boundIn clause.condition) ++
    plan.havings.map (fun having => boundScalar having.value) ++
    boundPaging plan.limit plan.offset

theorem bindable_eq (v : Scalar) : bindable v = boundScalar v := by
  cases v with
  | bool b => cases b <;> rfl
  | _ => rfl

theorem numeric?_eq (v : Scalar) :
    v.toValue.numeric? = if v.toValue.isNumeric then some v.toValue.asNumber else none := by
  cases v with
  | null => rfl
  | bool b => rfl
  | number x => rfl
  | text s =>
      simp [Scalar.toValue, Value.numeric?, Value.isNumeric, Value.asNumber, Value.text?,
        Value.chars?]

theorem bindable_datePart (part : DatePart) (v : Scalar) :
    bindable (datePartValue part v) = boundPart part v := by
  have hnumeric : forall w : Scalar,
      bindable ((w.toValue.numeric?.map Scalar.number).getD w) =
        if w.toValue.isNumeric then .number w.toValue.asNumber else boundScalar w := by
    intro w
    rw [numeric?_eq]
    split
    · rfl
    · exact bindable_eq w
  unfold boundPart
  cases part with
  | date => exact bindable_eq v
  | month => simpa [datePartValue] using hnumeric v
  | year => simpa [datePartValue] using hnumeric v
  | time => exact bindable_eq v

/-! ## Parts of a statement -/

def whereParts : List Clause -> List Draft
  | [] => []
  | clause :: clauses =>
      (.word " WHERE " :: draftCondition clause.condition) :: clauses.map draftClause

def havingParts : List Having -> List Draft
  | [] => []
  | having :: havings =>
      (.word " HAVING " :: draftHaving having) ::
        havings.map fun other => .word " AND " :: draftHaving other

def pagingParts (limit offset : Option Number) : List Draft :=
  match limit, offset with
  | none, none => []
  | some n, none => [[.word " LIMIT ", .parameter (.number n)]]
  | limit, some m =>
      [[.word " LIMIT ", .parameter (.number (limit.getD (Number.ofInt (-1))))],
        [.word " OFFSET ", .parameter (.number m)]]

namespace Table

def parts (table : Table) (plan : Plan) : List Draft :=
  [.word (if plan.distinct then "SELECT DISTINCT " else "SELECT ") :: draftSelection plan.columns ++
      [.word " FROM ", .identifier table.name]] ++
    whereParts plan.conditions ++ [Draft.headed " GROUP BY " ", " (draftColumns plan.groups)] ++
    havingParts plan.havings ++ [Draft.headed " ORDER BY " ", " (plan.orders.map draftOrder)] ++
    pagingParts plan.limit plan.offset

def aggregateParts (table : Table) (plan : Plan) (fn : AggregateFunction)
    (column : Option String) : List Draft :=
  (.word "SELECT " :: .word (functionWord fn) :: .word "(" :: draftTarget column ++
      [.word ") AS aggregate FROM ("]) :: table.parts (aggregated plan) ++ [[.word ") AS q"]]

end Table

def valuesOfParts (plan : Plan) : List (List Scalar) :=
  [[]] ++ plan.conditions.map (fun clause => boundIn clause.condition) ++ [[]] ++
    plan.havings.map (fun having => [boundScalar having.value]) ++ [[]] ++
    (boundPaging plan.limit plan.offset).map fun v => [v]

theorem flatten_valuesOfParts (plan : Plan) : (valuesOfParts plan).flatten = boundValues plan := by
  have hsingle : forall values : List Scalar, (values.map fun v => [v]).flatten = values := by
    intro values
    rw [← List.flatMap_def, List.flatMap_singleton']
  have hhavings : (plan.havings.map fun having => [boundScalar having.value]).flatten =
      plan.havings.map fun having => boundScalar having.value := by
    rw [← hsingle (plan.havings.map fun having => boundScalar having.value), List.map_map]
    rfl
  simp [valuesOfParts, boundValues, List.flatMap_def, hhavings, hsingle]

/-! ### Drafts as their parts -/

theorem flatten_whereParts (clauses : List Clause) :
    (whereParts clauses).flatten = draftWhere clauses := by
  cases clauses with
  | nil => rfl
  | cons clause clauses =>
      rw [whereParts, List.flatten_cons, ← List.flatMap_def, draftWhere]

theorem flatten_havingParts (havings : List Having) :
    (havingParts havings).flatten = Draft.headed " HAVING " " AND " (havings.map draftHaving) := by
  cases havings with
  | nil => rfl
  | cons having havings =>
      rw [havingParts, List.flatten_cons, ← List.flatMap_def, List.map_cons, Draft.headed,
        Draft.joinWith_cons, List.flatMap_map]
      rfl

theorem flatten_pagingParts (limit offset : Option Number) :
    (pagingParts limit offset).flatten = draftPaging limit offset := by
  cases limit with
  | none => cases offset <;> rfl
  | some n => cases offset <;> rfl

theorem Table.flatten_parts (table : Table) (plan : Plan) :
    (table.parts plan).flatten = table.draft plan := by
  simp [parts, draft, flatten_whereParts, flatten_havingParts, flatten_pagingParts]

theorem Table.flatten_aggregateParts (table : Table) (plan : Plan) (fn : AggregateFunction)
    (column : Option String) :
    (table.aggregateParts plan fn column).flatten = table.draftAggregate plan fn column := by
  simp [aggregateParts, draftAggregate, flatten_parts]

/-! ### Parameters of parts -/

theorem parameters_condition (condition : Condition) :
    (draftCondition condition).parameters = boundIn condition := by
  cases condition with
  | basic column operator value => simp [draftCondition, draftComparison, boundIn, bindable_eq]
  | oneOf column values negated =>
      cases values with
      | nil => rfl
      | cons value values =>
          rw [draftCondition, List.cons_append, Draft.parameters_identifier, List.cons_append,
            Draft.parameters_word, Draft.parameters_append, Draft.parameters_joinWith,
            (draft_places (value :: values)).2, Draft.parameters_word, Draft.parameters_nil,
            List.append_nil]
          exact List.map_congr_left fun v _ => bindable_eq v
  | between column low high negated => simp [draftCondition, boundIn, bindable_eq]
  | isNull column negated => rfl
  | datePart part column operator value =>
      rw [boundIn, ← bindable_datePart]
      rfl
  | columns first operator second => rfl

theorem parameters_whereParts (clauses : List Clause) :
    (whereParts clauses).map Draft.parameters =
      clauses.map fun clause => boundIn clause.condition := by
  cases clauses with
  | nil => rfl
  | cons clause clauses =>
      simp [whereParts, draftClause, parameters_condition]

theorem parameters_havingParts (havings : List Having) :
    (havingParts havings).map Draft.parameters =
      havings.map fun having => [boundScalar having.value] := by
  cases havings with
  | nil => rfl
  | cons having havings => simp [havingParts, draftHaving, draftComparison, bindable_eq]

theorem parameters_pagingParts (limit offset : Option Number) :
    (pagingParts limit offset).map Draft.parameters =
      (boundPaging limit offset).map fun v => [v] := by
  cases limit with
  | none => cases offset <;> rfl
  | some n => cases offset <;> rfl

namespace Table

theorem parameters_parts (table : Table) (plan : Plan) :
    (table.parts plan).map Draft.parameters = valuesOfParts plan := by
  have hgroups : (Draft.headed " GROUP BY " ", " (draftColumns plan.groups)).parameters = [] := by
    rw [Draft.parameters_headed, parameters_draftColumns]
  have horders : (Draft.headed " ORDER BY " ", " (plan.orders.map draftOrder)).parameters = [] := by
    simp [Draft.parameters_headed, List.flatMap_map, draftOrder]
  simp [parts, valuesOfParts, Draft.parameters_append, parameters_draftSelection,
    parameters_whereParts, parameters_havingParts, parameters_pagingParts, hgroups, horders]

theorem parameters_aggregateParts (table : Table) (plan : Plan) (fn : AggregateFunction)
    (column : Option String) :
    (table.aggregateParts plan fn column).map Draft.parameters =
      [] :: valuesOfParts (aggregated plan) ++ [[]] := by
  simp [aggregateParts, Draft.parameters_append, parameters_parts, parameters_draftTarget]

end Table

/-! ## Placeholders and values -/

/-- A statement consists of parts which have placeholders for their own values, each part for
each of its values, and so does the whole for the values of all parts. -/
structure Binds (s : Statement) (parts : List Statement) (values : List (List Scalar)) : Prop where
  text : s.text = String.join (parts.map Statement.text)
  parts_parameters : parts.map Statement.parameters = values
  parts_placeholders : forall part, part ∈ parts ->
    placeholders part.text = part.parameters.length
  parameters : s.parameters = values.flatten
  placeholders : placeholders s.text = s.parameters.length

theorem binds_of_sound {names : List String} {d : Draft} {parts : List Draft}
    {values : List (List Scalar)} (hsound : Sound names .free d) (hparts : parts.flatten = d)
    (hvalues : parts.map Draft.parameters = values) :
    Binds d.statement (parts.map Draft.statement) values := by
  have hpermitted := hsound.permitted
  subst hparts
  constructor
  case text =>
    rw [List.map_map]
    exact Draft.text_flatten parts
  case parts_parameters =>
    rw [List.map_map]
    exact hvalues
  case parts_placeholders =>
    intro part hpart
    rcases List.mem_map.mp hpart with ⟨d, hd, rfl⟩
    exact placeholdersFrom_text fun f hf => hpermitted f (List.mem_flatten_of_mem hd hf)
  case parameters =>
    rw [← hvalues]
    exact Draft.parameters_flatten parts
  case placeholders => exact placeholdersFrom_text hpermitted

theorem boundValues_aggregated (plan : Plan) :
    boundValues (aggregated plan) = boundValues plan := by
  unfold aggregated
  split <;> rfl

/-- The parameters of a statement are the values of the plan, in the order of their
placeholders. -/
theorem Table.statements_bind_values (table : Table) (plan : Plan) :
    Yields (fun s => Binds s ((table.parts plan).map Draft.statement) (valuesOfParts plan) ∧
        s.parameters = boundValues plan) (table.select plan) ∧
      forall fn column,
        Yields (fun s => Binds s ((table.aggregateParts plan fn column).map Draft.statement)
            ([] :: valuesOfParts (aggregated plan) ++ [[]]) ∧
          s.parameters = boundValues plan) (table.aggregate plan fn column) := by
  constructor
  · intro s hselect
    rcases select_eq_ok hselect with ⟨hknown, rfl⟩
    have hbinds := binds_of_sound (sound_draft hknown) (table.flatten_parts plan)
      (table.parameters_parts plan)
    exact ⟨hbinds, hbinds.parameters.trans (flatten_valuesOfParts plan)⟩
  · intro fn column s haggregate
    rcases aggregate_eq_ok haggregate with ⟨hknown, rfl⟩
    have hbinds := binds_of_sound (sound_draftAggregate fn hknown)
      (table.flatten_aggregateParts plan fn column)
      (table.parameters_aggregateParts plan fn column)
    refine ⟨hbinds, hbinds.parameters.trans ?_⟩
    rw [← boundValues_aggregated, ← flatten_valuesOfParts]
    simp

example : boundValues { Plan.empty with
    conditions := [⟨.and, .datePart .month "at" .eq (.text "02")⟩, ⟨.or, .oneOf "id" [] false⟩,
      ⟨.and, .between "id" (.bool true) (.text "x") true⟩]
    offset := some 20 } =
    [.number 2, .number 1, .text "x", .number (Number.ofInt (-1)), .number 20] := by
  decide +kernel

end Sql

end OperatorConsole
