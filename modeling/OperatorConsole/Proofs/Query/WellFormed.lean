import OperatorConsole.Proofs.Query.Lookup
import OperatorConsole.Proofs.Query.Reached
import OperatorConsole.Proofs.Sql.Columns

/-!
# Plans that a source is given

Whatever a source is asked, the plan in the question is well formed.  A host program that carries
out plans can rely on the names, the operators, the values and the counts that stand in it.

What is promised of conditions, havings and orders is promised of their documents, which is how a
host reads them.  The promise is kept call by call: what a builder verb states is sound, and a
terminal verb changes a plan in few ways before it asks.
-/

namespace OperatorConsole

namespace Query

open OperatorConsole.Action Checked
open Sql (namedColumns namedIn)

/-! ## Well-formed plans -/

def NamesColumn (key column : String) : Prop :=
  column = key ∨ isColumnName column = true

def columnFields : List String :=
  ["column", "first", "second"]

def operatorTexts : List String :=
  ["=", "!=", "<>", "<", ">", "<=", ">=", "like", "not like"]

/-- What a field of a document may hold, by its name. -/
structure IsAdmitted (key name : String) (v : Value) : Prop where
  column : name ∈ columnFields -> exists column, v = .text column ∧ NamesColumn key column
  operator : name = "operator" -> exists operator, operator ∈ operatorTexts ∧ v = .text operator
  value : name = "value" -> v.scalar?.isSome
  values : name = "values" ->
    exists items, v = .list items ∧ forall item, item ∈ items -> item.scalar?.isSome
  range : name = "range" ->
    exists low high, v = .list [low, high] ∧ low.scalar?.isSome ∧ high.scalar?.isSome

namespace Plan

/-- The conditions, the havings and the orders of a plan as a host reads them. -/
def documents (plan : Plan) : List Value :=
  plan.conditions.map Clause.toValue ++ plan.havings.map Having.toValue ++
    plan.orders.map SortKey.toValue

structure IsWellFormed (key : String) (plan : Plan) : Prop where
  columns : forall column, column ∈ plan.columns -> NamesColumn key column
  groups : forall column, column ∈ plan.groups -> NamesColumn key column
  documents : forall document, document ∈ plan.documents ->
    forall field, field ∈ document.fields -> IsAdmitted key field.1 field.2

structure HasCounts (plan : Plan) : Prop where
  limit : forall n, plan.limit = some n -> n.IsCount
  offset : forall n, plan.offset = some n -> n.IsCount

end Plan

/-! ## Documents of parts that name columns -/

section Documents

variable {key : String}

theorem isSome_scalar? (v : Scalar) : v.toValue.scalar?.isSome := by
  cases v <;> rfl

theorem admitted_column {name column : String} (hname : name ∈ columnFields)
    (hcolumn : NamesColumn key column) : IsAdmitted key name (.text column) := by
  constructor
  case column => exact fun _ => ⟨column, rfl, hcolumn⟩
  all_goals
    rintro rfl
    exact absurd hname (by decide)

theorem admitted_operator (operator : Comparison) :
    IsAdmitted key "operator" (.text operator.text) := by
  constructor
  case operator => exact fun _ => ⟨operator.text, by cases operator <;> decide, rfl⟩
  all_goals exact fun hname => absurd hname (by decide)

theorem admitted_value (v : Scalar) : IsAdmitted key "value" v.toValue := by
  constructor
  case value => exact fun _ => isSome_scalar? v
  all_goals exact fun hname => absurd hname (by decide)

theorem admitted_values (values : List Scalar) :
    IsAdmitted key "values" (.list (values.map Scalar.toValue)) := by
  constructor
  case values =>
    refine fun _ => ⟨_, rfl, ?_⟩
    intro item hitem
    rcases List.mem_map.mp hitem with ⟨v, _, rfl⟩
    exact isSome_scalar? v
  all_goals exact fun hname => absurd hname (by decide)

theorem admitted_range (low high : Scalar) :
    IsAdmitted key "range" (.list [low.toValue, high.toValue]) := by
  constructor
  case range => exact fun _ => ⟨_, _, rfl, isSome_scalar? low, isSome_scalar? high⟩
  all_goals exact fun hname => absurd hname (by decide)

theorem admitted_free {name : String} (v : Value)
    (hname : name ∉ columnFields ++ ["operator", "value", "values", "range"]) :
    IsAdmitted key name v := by
  constructor
  case column => exact fun hmem => absurd (List.mem_append_left _ hmem) hname
  all_goals
    rintro rfl
    exact absurd (by decide) hname

theorem admitted_condition {condition : Condition}
    (hnamed : forall column, column ∈ namedIn condition -> NamesColumn key column) :
    forall field, field ∈ condition.fields -> IsAdmitted key field.1 field.2 := by
  have hplace : forall name column, name ∈ columnFields -> column ∈ namedIn condition ->
      IsAdmitted key name (.text column) :=
    fun name column hname hcolumn => admitted_column hname (hnamed column hcolumn)
  cases condition with
  | basic column operator v =>
      simp only [Condition.fields, List.forall_mem_cons]
      exact ⟨admitted_free _ (by decide), hplace _ _ (by decide) List.mem_cons_self,
        admitted_operator operator, admitted_value v, List.forall_mem_nil _⟩
  | oneOf column values negated =>
      simp only [Condition.fields, List.forall_mem_cons]
      exact ⟨admitted_free _ (by decide), hplace _ _ (by decide) List.mem_cons_self,
        admitted_values values, admitted_free _ (by decide), List.forall_mem_nil _⟩
  | between column low high negated =>
      simp only [Condition.fields, List.forall_mem_cons]
      exact ⟨admitted_free _ (by decide), hplace _ _ (by decide) List.mem_cons_self,
        admitted_range low high, admitted_free _ (by decide), List.forall_mem_nil _⟩
  | isNull column negated =>
      simp only [Condition.fields, List.forall_mem_cons]
      exact ⟨admitted_free _ (by decide), hplace _ _ (by decide) List.mem_cons_self,
        admitted_free _ (by decide), List.forall_mem_nil _⟩
  | datePart part column operator v =>
      simp only [Condition.fields, List.forall_mem_cons]
      exact ⟨admitted_free _ (by decide), admitted_free _ (by decide),
        hplace _ _ (by decide) List.mem_cons_self, admitted_operator operator, admitted_value v,
        List.forall_mem_nil _⟩
  | columns first operator second =>
      simp only [Condition.fields, List.forall_mem_cons]
      exact ⟨admitted_free _ (by decide), hplace _ _ (by decide) List.mem_cons_self,
        admitted_operator operator,
        hplace _ _ (by decide) (List.mem_cons_of_mem _ List.mem_cons_self), List.forall_mem_nil _⟩

/-- A plan is well formed if all that it names are columns: the rest of it cannot be otherwise. -/
theorem Plan.isWellFormed {plan : Plan}
    (hnamed : forall column, column ∈ namedColumns plan -> NamesColumn key column) :
    plan.IsWellFormed key := by
  simp only [namedColumns, List.forall_mem_append] at hnamed
  rcases hnamed with ⟨⟨⟨⟨hcolumns, hconditions⟩, hgroups⟩, hhavings⟩, horders⟩
  refine ⟨hcolumns, hgroups, ?_⟩
  simp only [Plan.documents, List.forall_mem_append, List.forall_mem_map]
  refine ⟨⟨?_, ?_⟩, ?_⟩
  · intro clause hclause
    have hjoint : IsAdmitted key "boolean" (.text clause.joint.text) :=
      admitted_free _ (by decide)
    refine List.forall_mem_append.mpr ⟨admitted_condition fun column hcolumn => ?_, ?_⟩
    · exact hconditions column (List.mem_flatMap.mpr ⟨clause, hclause, hcolumn⟩)
    · exact List.forall_mem_singleton.mpr hjoint
  · intro having hhaving
    have hcolumn := hhavings having.column (List.mem_map_of_mem hhaving)
    change forall field, field ∈ [_, _, _] -> _
    simp only [List.forall_mem_cons]
    exact ⟨admitted_column (by decide) hcolumn, admitted_operator having.operator,
      admitted_value having.value, List.forall_mem_nil _⟩
  · intro order horder
    have hcolumn := horders order.column (List.mem_map_of_mem horder)
    change forall field, field ∈ [_, _] -> _
    simp only [List.forall_mem_cons]
    have hdirection : IsAdmitted key "direction" (.text order.direction.text) :=
      admitted_free _ (by decide)
    exact ⟨admitted_column (by decide) hcolumn, hdirection, List.forall_mem_nil _⟩

end Documents

/-! ## Plans that calls build -/

theorem Compares.name {args : List Operand} {column : String} {operator : Comparison} {v : Scalar}
    (hcompares : Compares args column operator v) : isColumnName column = true := by
  cases hcompares with
  | equal hname => exact hname
  | written hname => exact hname

namespace Contribution

/-- Every column that a contribution names. -/
def named : Contribution -> List String
  | .clause c => namedIn c.condition
  | .order key => [key.column]
  | .groups columns => columns
  | .having h => [h.column]
  | .select columns => columns
  | .addSelect columns => columns
  | .limit _ => []
  | .offset _ => []
  | .distinct => []

structure IsSound (c : Contribution) : Prop where
  names : forall column, column ∈ c.named -> isColumnName column = true
  values : forall clause column operator, c = .clause clause ->
    clause.condition ≠ .basic column operator .null
  counts : forall n, c = .limit n ∨ c = .offset n -> n.IsCount

end Contribution

section Sound

variable {args : List Operand} {c : Contribution}

theorem Contribution.isSound_clause {joint : Conjunction} {condition : Condition}
    (hnames : forall column, column ∈ namedIn condition -> isColumnName column = true)
    (hvalue : forall column operator, condition ≠ .basic column operator .null) :
    (Contribution.clause ⟨joint, condition⟩).IsSound := by
  refine ⟨hnames, ?_, by rintro n (hn | hn) <;> cases hn⟩
  rintro _ column operator ⟨⟩
  exact hvalue column operator

theorem Contribution.isSound_names
    (hnames : forall column, column ∈ c.named -> isColumnName column = true)
    (hpart : c.part ≠ .conditions ∧ c.part ≠ .limit ∧ c.part ≠ .offset) : c.IsSound := by
  refine ⟨hnames, ?_, ?_⟩
  · rintro clause _ _ rfl
    exact absurd rfl hpart.1
  · rintro n (rfl | rfl)
    · exact absurd rfl hpart.2.1
    · exact absurd rfl hpart.2.2

namespace BuilderVerb

theorem StatesComparison.isSound {joint : Conjunction} (hstates : StatesComparison joint args c) :
    c.IsSound := by
  cases hstates with
  | basic hcompares hvalue =>
      refine Contribution.isSound_clause (List.forall_mem_singleton.mpr hcompares.name) ?_
      rintro _ _ ⟨⟩
      exact hvalue rfl
  | null hcompares =>
      exact Contribution.isSound_clause (List.forall_mem_singleton.mpr hcompares.name) nofun
  | notNull _ hcompares =>
      exact Contribution.isSound_clause (List.forall_mem_singleton.mpr hcompares.name) nofun

theorem StatesMember.isSound {negated : Bool} (hstates : StatesMember negated args c) :
    c.IsSound := by
  cases hstates with
  | values hname => exact Contribution.isSound_clause (List.forall_mem_singleton.mpr hname) nofun

theorem StatesRange.isSound {negated : Bool} (hstates : StatesRange negated args c) :
    c.IsSound := by
  cases hstates with
  | bounds hname => exact Contribution.isSound_clause (List.forall_mem_singleton.mpr hname) nofun

theorem StatesColumns.isSound (hstates : StatesColumns args c) : c.IsSound := by
  cases hstates with
  | columns hcompares hname =>
      refine Contribution.isSound_clause ?_ nofun
      exact List.forall_mem_cons.mpr ⟨hcompares.name, List.forall_mem_singleton.mpr hname⟩

theorem StatesCompared.isSound {contribution : String -> Comparison -> Scalar -> Contribution}
    (hsound : forall column operator v, isColumnName column = true ->
      (contribution column operator v).IsSound)
    (hstates : StatesCompared contribution args c) : c.IsSound := by
  cases hstates with
  | compared hcompares => exact hsound _ _ _ hcompares.name

theorem StatesColumn.isSound {contribution : String -> Contribution}
    (hsound : forall column, isColumnName column = true -> (contribution column).IsSound)
    (hstates : StatesColumn contribution args c) : c.IsSound := by
  cases hstates with
  | column hname => exact hsound _ hname

theorem isSound_order {column : String} (direction : Direction)
    (hname : isColumnName column = true) : (Contribution.order ⟨column, direction⟩).IsSound :=
  Contribution.isSound_names (List.forall_mem_singleton.mpr hname) ⟨nofun, nofun, nofun⟩

theorem StatesOrder.isSound (hstates : StatesOrder args c) : c.IsSound := by
  cases hstates with
  | plain hname => exact isSound_order _ hname
  | directed hname => exact isSound_order _ hname

theorem StatesTime.isSound {direction : Direction} (hstates : StatesTime direction args c) :
    c.IsSound := by
  cases hstates with
  | standard => exact isSound_order _ (by decide)
  | column hname => exact isSound_order _ hname

theorem StatesNames.isSound {contribution : List String -> Contribution}
    (hsound : forall columns, (forall column, column ∈ columns -> isColumnName column = true) ->
      (contribution columns).IsSound)
    (hstates : StatesNames contribution args c) : c.IsSound := by
  cases hstates with
  | names hnames => exact hsound _ hnames.2.1

theorem StatesCount.isSound {contribution : Number -> Contribution}
    (hsound : forall n, n.IsCount -> (contribution n).IsSound)
    (hstates : StatesCount contribution args c) : c.IsSound := by
  cases hstates with
  | count hn => exact hsound _ hn

theorem isSound_limit (n : Number) (hn : n.IsCount) : (Contribution.limit n).IsSound := by
  refine ⟨List.forall_mem_nil _, ?_, ?_⟩
  · rintro clause _ _ ⟨⟩
  · rintro m (hm | hm)
    · cases hm
      exact hn
    · cases hm

theorem isSound_offset (n : Number) (hn : n.IsCount) : (Contribution.offset n).IsSound := by
  refine ⟨List.forall_mem_nil _, ?_, ?_⟩
  · rintro clause _ _ ⟨⟩
  · rintro m (hm | hm)
    · cases hm
    · cases hm
      exact hn

theorem States.isSound {verb : BuilderVerb} (hstates : verb.States args c) : c.IsSound := by
  have hnull : forall negated column, isColumnName column = true ->
      (Contribution.clause ⟨.and, .isNull column negated⟩).IsSound :=
    fun _ _ hname => Contribution.isSound_clause (List.forall_mem_singleton.mpr hname) nofun
  have hdate : forall part column operator v, isColumnName column = true ->
      (Contribution.clause ⟨.and, .datePart part column operator v⟩).IsSound :=
    fun _ _ _ _ hname => Contribution.isSound_clause (List.forall_mem_singleton.mpr hname) nofun
  have hselect : forall columns, (forall column, column ∈ columns -> isColumnName column = true) ->
      (Contribution.select columns).IsSound :=
    fun _ hnames => Contribution.isSound_names hnames ⟨nofun, nofun, nofun⟩
  have hadd : forall columns, (forall column, column ∈ columns -> isColumnName column = true) ->
      (Contribution.addSelect columns).IsSound :=
    fun _ hnames => Contribution.isSound_names hnames ⟨nofun, nofun, nofun⟩
  have hgroup : forall columns, (forall column, column ∈ columns -> isColumnName column = true) ->
      (Contribution.groups columns).IsSound :=
    fun _ hnames => Contribution.isSound_names hnames ⟨nofun, nofun, nofun⟩
  have hhaving : forall column operator v, isColumnName column = true ->
      (Contribution.having ⟨column, operator, v⟩).IsSound := fun _ _ _ hname =>
    Contribution.isSound_names (List.forall_mem_singleton.mpr hname) ⟨nofun, nofun, nofun⟩
  cases verb with
  | «where» => exact StatesComparison.isSound hstates
  | orWhere => exact StatesComparison.isSound hstates
  | whereIn => exact StatesMember.isSound hstates
  | whereNotIn => exact StatesMember.isSound hstates
  | whereBetween => exact StatesRange.isSound hstates
  | whereNotBetween => exact StatesRange.isSound hstates
  | whereNull => exact StatesColumn.isSound (hnull false) hstates
  | whereNotNull => exact StatesColumn.isSound (hnull true) hstates
  | whereDate => exact StatesCompared.isSound (hdate .date) hstates
  | whereMonth => exact StatesCompared.isSound (hdate .month) hstates
  | whereYear => exact StatesCompared.isSound (hdate .year) hstates
  | whereTime => exact StatesCompared.isSound (hdate .time) hstates
  | whereColumn => exact StatesColumns.isSound hstates
  | orderBy => exact StatesOrder.isSound hstates
  | orderByDesc => exact StatesColumn.isSound (fun _ => isSound_order _) hstates
  | latest => exact StatesTime.isSound hstates
  | oldest => exact StatesTime.isSound hstates
  | limit => exact StatesCount.isSound isSound_limit hstates
  | take => exact StatesCount.isSound isSound_limit hstates
  | offset => exact StatesCount.isSound isSound_offset hstates
  | skip => exact StatesCount.isSound isSound_offset hstates
  | select => exact StatesNames.isSound hselect hstates
  | addSelect => exact StatesNames.isSound hadd hstates
  | distinct =>
      cases hstates
      exact Contribution.isSound_names nofun ⟨nofun, nofun, nofun⟩
  | groupBy => exact StatesNames.isSound hgroup hstates
  | having => exact StatesCompared.isSound hhaving hstates

end BuilderVerb

end Sound

/-- What is true of the plans that calls build. -/
structure Plan.IsBuilt (plan : Plan) : Prop where
  names : forall column, column ∈ namedColumns plan -> isColumnName column = true
  values : forall clause column operator, clause ∈ plan.conditions ->
    clause.condition ≠ .basic column operator .null
  counts : plan.HasCounts

theorem mem_namedColumns_put {plan : Plan} {c : Contribution} {column : String}
    (hcolumn : column ∈ namedColumns (plan.put c)) :
    column ∈ namedColumns plan ∨ column ∈ c.named := by
  cases c <;> simp [namedColumns, Plan.put, Contribution.named] at hcolumn ⊢ <;> grind

theorem Plan.IsBuilt.put {plan : Plan} (hplan : plan.IsBuilt) {c : Contribution}
    (hc : c.IsSound) : (plan.put c).IsBuilt := by
  constructor
  case names =>
    intro column hcolumn
    rcases mem_namedColumns_put hcolumn with hold | hnew
    · exact hplan.names column hold
    · exact hc.names column hnew
  case values =>
    intro clause column operator hclause
    cases c with
    | clause added =>
        rcases List.mem_append.mp hclause with hold | hnew
        · exact hplan.values clause column operator hold
        · rw [List.mem_singleton.mp hnew]
          exact hc.values added column operator rfl
    | _ => exact hplan.values clause column operator hclause
  case counts =>
    cases c with
    | limit n =>
        refine ⟨?_, hplan.counts.offset⟩
        rintro _ ⟨⟩
        exact hc.counts n (Or.inl rfl)
    | offset n =>
        refine ⟨hplan.counts.limit, ?_⟩
        rintro _ ⟨⟩
        exact hc.counts n (Or.inr rfl)
    | _ => exact ⟨hplan.counts.limit, hplan.counts.offset⟩

theorem Plan.isBuilt_empty : Plan.empty.IsBuilt := by
  refine ⟨List.forall_mem_nil _, ?_, ?_⟩
  · rintro clause _ _ ⟨⟩
  · exact ⟨nofun, nofun⟩

theorem Chain.Builds.isBuilt {clock : Action σ Number} {plan plan' : Plan} {calls : Chain}
    (hbuilds : Chain.Builds clock plan calls plan') (hplan : plan.IsBuilt) : plan'.IsBuilt := by
  induction hbuilds with
  | done => exact hplan
  | next _ _ happly _ ih =>
      rcases BuilderVerb.apply_eq_ok.mp happly with ⟨c, hstates, rfl⟩
      exact ih (hplan.put hstates.isSound)

/-! ## Plans that terminal verbs ask for -/

def Question.plan : Question -> Plan
  | .select plan => plan
  | .iterate plan => plan
  | .aggregate plan _ _ => plan

/-- Whether the place of a page is told without rounding. -/
def PageIsExact (perPage page : Number) : Prop :=
  forall size number : Nat, perPage.toInt? = some (size : Int) ->
    page.toInt? = some (number : Int) ->
      Number.IsExact ((number - 1) * size) ∧ Number.IsExact (size + 1)

def TerminalVerb.IsExact (verb : TerminalVerb) (args : List Operand) : Prop :=
  verb = .paginate ∨ verb = .simplePaginate -> forall perPage page,
    pageOf verb.text args = .ok (perPage, page) -> PageIsExact perPage page

/-- What a terminal verb may make of a plan before it asks. -/
structure Plan.IsAsked (verb : TerminalVerb) (key : String) (exact : Prop) (plan asked : Plan) :
    Prop where
  names : forall column, column ∈ namedColumns asked -> NamesColumn key column
  conditions : asked.conditions = plan.conditions ∨
    (verb = .find ∨ verb = .findOrFail) ∧
      exists id, asked.conditions = plan.conditions ++ [⟨.and, .basic key .eq id⟩]
  counts : exact -> asked.HasCounts

section Asked

variable {verb : TerminalVerb} {key : String} {exact : Prop} {plan asked : Plan}

theorem Plan.IsBuilt.isAsked (hplan : plan.IsBuilt) : plan.IsAsked verb key exact plan :=
  ⟨fun column hcolumn => Or.inr (hplan.names column hcolumn), Or.inl rfl, fun _ => hplan.counts⟩

theorem Plan.IsAsked.withLimit (hasked : plan.IsAsked verb key exact asked) {n : Number}
    (hn : n.IsCount) : plan.IsAsked verb key exact (asked.withLimit n) := by
  refine ⟨hasked.names, hasked.conditions, fun hexact => ⟨?_, (hasked.counts hexact).offset⟩⟩
  rintro _ ⟨⟩
  exact hn

theorem Plan.IsAsked.withColumns (hasked : plan.IsAsked verb key exact asked)
    {columns : List String}
    (hcolumns : forall column, column ∈ columns -> isColumnName column = true) :
    plan.IsAsked verb key exact (asked.withColumns columns) := by
  refine ⟨?_, hasked.conditions, fun hexact => ?_⟩
  swap
  · exact ⟨(hasked.counts hexact).limit, (hasked.counts hexact).offset⟩
  intro column hcolumn
  have hsplit : column ∈ columns ∨ column ∈ namedColumns asked := by
    simp only [namedColumns, Plan.withColumns, List.mem_append] at hcolumn ⊢
    grind
  rcases hsplit with hnew | hold
  · exact Or.inr (hcolumns column hnew)
  · exact hasked.names column hold

theorem Plan.IsAsked.slice (hasked : plan.IsAsked verb key exact asked) {limit offset : Number}
    (hcounts : exact -> limit.IsCount ∧ offset.IsCount) :
    plan.IsAsked verb key exact (asked.slice limit offset) := by
  refine ⟨hasked.names, hasked.conditions, fun hexact => ⟨?_, ?_⟩⟩
  · rintro _ ⟨⟩
    exact (hcounts hexact).1
  · rintro _ ⟨⟩
    exact (hcounts hexact).2

theorem Plan.IsAsked.unpaged (hasked : plan.IsAsked verb key exact asked) :
    plan.IsAsked verb key exact asked.unpaged := by
  refine ⟨?_, hasked.conditions, fun _ => ⟨nofun, nofun⟩⟩
  intro column hcolumn
  refine hasked.names column ?_
  simp only [namedColumns, Plan.unpaged, List.mem_append] at hcolumn ⊢
  grind

theorem Plan.IsBuilt.withKey (hplan : plan.IsBuilt) (hverb : verb = .find ∨ verb = .findOrFail)
    (id : Scalar) : plan.IsAsked verb key exact (plan.withKey key id) := by
  refine ⟨?_, Or.inr ⟨hverb, id, rfl⟩, fun _ => ⟨hplan.counts.limit, hplan.counts.offset⟩⟩
  intro column hcolumn
  have hsplit : column = key ∨ column ∈ namedColumns plan := by
    simp only [namedColumns, Plan.withKey, List.mem_append, List.flatMap_append,
      List.flatMap_cons, List.flatMap_nil, namedIn, List.mem_singleton] at hcolumn ⊢
    grind
  exact hsplit.imp_right (hplan.names column)

end Asked

/-! ### Pages -/

theorem PageIsExact.counts {perPage page : Number} (hexact : PageIsExact perPage page)
    (hperPage : perPage.IsPositive) (hpage : page.IsPositive) :
    (pageOffset perPage page).IsCount ∧ (perPage.add 1).IsCount := by
  rcases hperPage with ⟨size, hsize, hsizeExact, rfl⟩
  rcases hpage with ⟨number, hnumber, hnumberExact, rfl⟩
  rcases hexact size number hsizeExact.toInt? hnumberExact.toInt? with ⟨hplace, hnext⟩
  have hbefore : Number.IsExact (number - 1) := by
    refine hplace.factor hsize ?_
    rw [Nat.sub_add_cancel hnumber]
    exact hnumberExact
  unfold pageOffset
  rw [Number.ofNat_literal, Number.ofNat_sub hnumberExact Number.isExact_one hnumber,
    Number.ofNat_mul hbefore hsizeExact, Number.ofNat_add hsizeExact Number.isExact_one]
  exact ⟨hplace.isCount, hnext.isCount⟩

/-! ### Questions of terminal verbs -/

def Inquiry.IsAbout (good : Plan -> Prop) (inquiry : Inquiry) : Prop :=
  forall question, question ∈ inquiry.questions -> good question.plan

namespace TerminalVerb

section Asking

variable {verb : TerminalVerb} {key : String} {exact : Prop} {plan : Plan}
  (hplan : plan.IsBuilt) (text : String) (args : List Operand)

include hplan

theorem narrowed_asked : Yields (plan.IsAsked verb key exact) (narrowed text args plan) := by
  unfold narrowed
  split
  · exact Yields.ok hplan.isAsked
  · refine (Yields.self _).bind fun columns hcolumns => Yields.ok ?_
    exact hplan.isAsked.withColumns (columnsOf_eq_ok.mp hcolumns).2.1

theorem askGet_asked :
    Yields (Inquiry.IsAbout (plan.IsAsked verb key exact)) (askGet text plan args) :=
  (narrowed_asked hplan text args).bind fun _ hasked =>
    Yields.ok (List.forall_mem_singleton.mpr hasked)

theorem askFirst_asked :
    Yields (Inquiry.IsAbout (plan.IsAsked verb key exact)) (askFirst text plan args) :=
  (narrowed_asked hplan text args).bind fun _ hasked =>
    Yields.ok (List.forall_mem_singleton.mpr
      (hasked.withLimit (Number.isCount_literal (by decide))))

theorem askFind_asked (hverb : verb = .find ∨ verb = .findOrFail) (required : Bool)
    (entity : String) :
    Yields (Inquiry.IsAbout (plan.IsAsked verb key exact))
      (askFind required text entity key plan args) :=
  Yields.behind fun _ => Yields.behind fun id =>
    Yields.ok (List.forall_mem_singleton.mpr
      ((hplan.withKey hverb id).withLimit (Number.isCount_literal (by decide))))

theorem askSole_asked :
    Yields (Inquiry.IsAbout (plan.IsAsked verb key exact)) (askSole text plan args) :=
  Yields.behind fun _ =>
    Yields.ok (List.forall_mem_singleton.mpr
      (hplan.isAsked.withLimit (Number.isCount_literal (by decide))))

theorem askPluck_asked :
    Yields (Inquiry.IsAbout (plan.IsAsked verb key exact)) (askPluck text plan args) := by
  refine Yields.behind fun _ => (Yields.self _).bind fun column hcolumn => ?_
  have hname := (columnOf_eq_ok.mp hcolumn).2
  split
  · refine (Yields.self _).bind fun keyColumn hkeyColumn => ?_
    have hboth : forall name, name ∈ [column, keyColumn] -> isColumnName name = true :=
      List.forall_mem_cons.mpr
        ⟨hname, List.forall_mem_singleton.mpr (columnOf_eq_ok.mp hkeyColumn).2⟩
    exact Yields.ok (List.forall_mem_singleton.mpr (hplan.isAsked.withColumns hboth))
  · refine Yields.ok (List.forall_mem_singleton.mpr ?_)
    exact hplan.isAsked.withColumns (List.forall_mem_singleton.mpr hname)

theorem askValue_asked :
    Yields (Inquiry.IsAbout (plan.IsAsked verb key exact)) (askValue text plan args) := by
  refine Yields.behind fun _ => (Yields.self _).bind fun column hcolumn => ?_
  have hname := (columnOf_eq_ok.mp hcolumn).2
  refine Yields.ok (List.forall_mem_singleton.mpr ?_)
  exact (hplan.isAsked.withColumns (List.forall_mem_singleton.mpr hname)).withLimit
    (Number.isCount_literal (by decide))

theorem askCount_asked :
    Yields (Inquiry.IsAbout (plan.IsAsked verb key exact)) (askCount text plan args) :=
  Yields.behind fun _ => Yields.ok (List.forall_mem_singleton.mpr hplan.isAsked)

theorem askAggregate_asked (fn : AggregateFunction) :
    Yields (Inquiry.IsAbout (plan.IsAsked verb key exact)) (askAggregate fn text plan args) :=
  Yields.behind fun _ => Yields.behind fun _ =>
    Yields.ok (List.forall_mem_singleton.mpr hplan.isAsked)

theorem askSum_asked :
    Yields (Inquiry.IsAbout (plan.IsAsked verb key exact)) (askSum text plan args) :=
  Yields.behind fun _ => Yields.behind fun _ =>
    Yields.ok (List.forall_mem_singleton.mpr hplan.isAsked)

theorem askExists_asked (wanted : Bool) :
    Yields (Inquiry.IsAbout (plan.IsAsked verb key exact)) (askExists wanted text plan args) :=
  Yields.behind fun _ => Yields.ok (List.forall_mem_singleton.mpr hplan.isAsked)

theorem askPaginate_asked :
    Yields (Inquiry.IsAbout (plan.IsAsked verb key (IsExact .paginate args)))
      (askPaginate (TerminalVerb.text .paginate) plan args) := by
  refine (Yields.self _).bind fun (perPage, page) hpage => ?_
  rcases pageOf_positive hpage with ⟨hperPage, hnumber⟩
  refine Yields.ok (List.forall_mem_cons.mpr ⟨hplan.isAsked.unpaged, ?_⟩)
  refine List.forall_mem_singleton.mpr (hplan.isAsked.slice fun hexact => ?_)
  have hcounts := (hexact (Or.inl rfl) _ _ hpage).counts hperPage hnumber
  rcases hperPage with ⟨size, _, hsize, rfl⟩
  exact ⟨hsize.isCount, hcounts.1⟩

theorem askSimplePaginate_asked :
    Yields (Inquiry.IsAbout (plan.IsAsked verb key (IsExact .simplePaginate args)))
      (askSimplePaginate (TerminalVerb.text .simplePaginate) plan args) := by
  refine (Yields.self _).bind fun (perPage, page) hpage => ?_
  rcases pageOf_positive hpage with ⟨hperPage, hnumber⟩
  refine Yields.ok (List.forall_mem_singleton.mpr (hplan.isAsked.slice fun hexact => ?_))
  exact ((hexact (Or.inr rfl) _ _ hpage).counts hperPage hnumber).symm

theorem askLazy_asked :
    Yields (Inquiry.IsAbout (plan.IsAsked verb key exact)) (askLazy text plan args) :=
  Yields.behind fun _ => Yields.ok (List.forall_mem_singleton.mpr hplan.isAsked)

end Asking

theorem inquiry_asked {plan : Plan} (hplan : plan.IsBuilt) (verb : TerminalVerb)
    (entity key : String) (args : List Operand) :
    Yields (Inquiry.IsAbout (plan.IsAsked verb key (verb.IsExact args)))
      (verb.inquiry entity key plan args) := by
  cases verb with
  | get => exact askGet_asked hplan _ args
  | first => exact askFirst_asked hplan _ args
  | find => exact askFind_asked hplan _ args (Or.inl rfl) _ entity
  | findOrFail => exact askFind_asked hplan _ args (Or.inr rfl) _ entity
  | sole => exact askSole_asked hplan _ args
  | pluck => exact askPluck_asked hplan _ args
  | value => exact askValue_asked hplan _ args
  | count => exact askCount_asked hplan _ args
  | min => exact askAggregate_asked hplan _ args _
  | max => exact askAggregate_asked hplan _ args _
  | avg => exact askAggregate_asked hplan _ args _
  | sum => exact askSum_asked hplan _ args
  | «exists» => exact askExists_asked hplan _ args _
  | doesntExist => exact askExists_asked hplan _ args _
  | paginate => exact askPaginate_asked hplan args
  | simplePaginate => exact askSimplePaginate_asked hplan args
  | lazy => exact askLazy_asked hplan _ args

end TerminalVerb

/-! ## Plans of a run -/

namespace Chain

/-- Every plan that a source is given in a run is well formed.  It has the conditions of the plan
that the builder calls make, none of which compares with null, and at most a test for the key
behind them; its limit and its offset are counts as long as the place of a page is told without
rounding. -/
theorem evaluate_asks_wellFormed (source : EntitySource σ) (clock : Action σ Number)
    (chain : Chain) (s : Session σ) {question : Question} {failure? : Option Failure}
    (hasked : .asked question failure? ∈
      (chain.evaluate source.observed (observedClock clock) s.watched).2.host.events) :
    exists builders terminal verb rest built args,
      chain.Splits builders terminal verb rest ∧ Builds clock .empty builders built ∧
        (exists r, (Argument.resolveAll clock terminal.args r).1 = .ok args) ∧
        question.plan.IsWellFormed source.primaryKey ∧
        (forall clause column operator, clause ∈ built.conditions ->
          clause.condition ≠ .basic column operator .null) ∧
        (question.plan.conditions = built.conditions ∨
          (verb = .find ∨ verb = .findOrFail) ∧ exists id, question.plan.conditions =
            built.conditions ++ [⟨.and, .basic source.primaryKey .eq id⟩]) ∧
        (verb.IsExact args -> question.plan.HasCounts) := by
  have hsupplies : Supplies (fun _ => True) (fun _ => True) source clock :=
    ⟨fun _ _ _ _ _ _ => trivial, fun _ _ _ _ _ _ => trivial, fun _ _ _ => trivial⟩
  rcases (evaluate_course hsupplies chain s).2.question_mem hasked with
    ⟨inquiry, rest, t, hprepare, hquestion⟩
  rcases prepare_ok hprepare with ⟨builders, terminal, verb, _, _, hsplits, _, _, _⟩
  have hbuilt := hprepare
  rw [hsplits.calls] at hbuilt
  rcases prepare_builds hsplits.builders hsplits.terminal hbuilt with
    ⟨_, built, args, hbuilds, hargs, hinquiry⟩
  have hsound := hbuilds.isBuilt Plan.isBuilt_empty
  have hplan := verb.inquiry_asked hsound _ _ args inquiry hinquiry question hquestion
  exact ⟨builders, terminal, verb, rest, built, args, hsplits, hbuilds, hargs,
    Plan.isWellFormed hplan.names, hsound.values, hplan.conditions, hplan.counts⟩

theorem evaluate_asks_wellFormed_page :
    let chain : Chain := [⟨"orWhere", [.scalar (.text "a"), .scalar (.text " Not  LIKE "),
      .scalar (.text "x")], 0⟩, ⟨"paginate", [.scalar (.number 2), .scalar (.number 3)], 30⟩]
    let asked := (Plan.empty.addClause .or (.basic "a" .notLike (.text "x"))).slice 2 4
    .asked (.select asked) none ∈
        (chain.evaluate (singleRowSource [("a", .text "y")]).observed (observedClock (pure 0))
          (Session.watched ⟨(), []⟩)).2.host.events ∧
      asked.IsWellFormed "id" := by
  intro chain asked
  have hasked : .asked (.select asked) none ∈
      (chain.evaluate (singleRowSource [("a", .text "y")]).observed (observedClock (pure 0))
        (Session.watched ⟨(), []⟩)).2.host.events := by
    decide +kernel
  rcases evaluate_asks_wellFormed _ _ _ _ hasked with ⟨_, _, _, _, _, _, _, _, _, hplan, _⟩
  exact ⟨hasked, hplan⟩

end Chain

end Query

end OperatorConsole
