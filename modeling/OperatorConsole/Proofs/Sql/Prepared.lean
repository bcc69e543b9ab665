import OperatorConsole.Proofs.Action.Watched
import OperatorConsole.Proofs.Query.Outcome
import OperatorConsole.Proofs.Sql.Compiled
import OperatorConsole.Sql.Catalog

/-!
# Statements that a query prepares

A watched database notes every statement that it is asked to run.  Whatever the database
holds and whatever the expression says, a run over a catalog asks for the tables, then for the
columns of one table on offer, and after that only for statements that this table issues.
-/

namespace OperatorConsole

open OperatorConsole.Action

namespace Sql

def Database.watched (db : Database σ) : Database (Watched σ Statement) where
  all := fun s => do
    Action.note s
    Action.watch (db.all s)
  get := fun s => do
    Action.note s
    Action.watch (db.get s)
  iterate := fun s => do
    Action.note s
    Action.watch (db.iterate s)

/-! ## Tables -/

theorem inexact_normalizeRow (row : Fields) :
    Yields Query.InexactRow (normalizeRow row) := by
  have hends : Ends Query.InexactRow (fun _ => True) (normalizeRow row) := by
    refine Ends.foldlM ?_ Record.empty rfl
    intro record hrecord field _
    apply (Ends.trivial _).bind
    intro value _
    exact Record.inexact_assign hrecord field.1 (Value.inexact_scalar value)
  exact hends.yields

theorem inexact_normalizeRows (rows : List Fields) :
    Ends Query.InexactRows (fun _ => True) (rows.mapM normalizeRow) :=
  Ends.ofYields (Yields.mapM fun row _ => inexact_normalizeRow row)

/-- A table over a watched database does what it does over the database itself, as long as
what is known of the statements allows those that the table issues. -/
theorem Table.agree_source (table : Table) (db : Database σ) {known : List Statement -> Prop}
    (hknown : forall s, table.Issued s ->
      forall noted, known noted -> known (noted ++ [s])) :
    Query.EntitySource.Agree (Tracks known) (fun _ => True)
      (table.source db.watched) (table.source db) := by
  refine ⟨rfl, rfl, ?_, ?_, ?_⟩
  · intro plan
    apply (Agree.settle (Ends.self (table.select plan))).bind
    intro s hs
    refine (Agree.afterNote (hknown s (.select hs))
      (Agree.watch fun t => Ends.trivial (db.all s t).1)).bind ?_
    intro rows _
    exact Agree.settle (inexact_normalizeRows rows)
  · intro plan
    apply (Agree.settle (Ends.self (table.select plan))).bind
    intro s hs
    refine (Agree.afterNote (hknown s (.select hs))
      (Agree.watch fun t => Ends.trivial (db.iterate s t).1)).bind ?_
    intro rows _
    exact Agree.settle (inexact_normalizeRows rows)
  · intro plan fn column
    apply (Agree.settle (Ends.self (table.aggregate plan fn column))).bind
    intro s hs
    refine (Agree.afterNote (hknown s (.aggregate hs))
      (Agree.watch fun t => Ends.trivial (db.get s t).1)).bind ?_
    intro row _
    exact Agree.pure trivial

/-! ## Questions of a catalog -/

def ask (db : Database σ) (question : Statement) (f : List Fields -> α) : Action σ α := do
  let rows ← db.all question
  return f rows

theorem ask_watched (db : Database σ) (question : Statement) (f : List Fields -> α)
    (s : Session (Watched σ Statement)) :
    ask db.watched question f s =
      ((ask db question f s.forget).1,
        ⟨⟨(ask db question f s.forget).2.host, s.host.events ++ [question]⟩,
          (ask db question f s.forget).2.journal⟩) := by
  have hall : db.watched.all question s =
      ((db.all question s.forget).1,
        ⟨⟨(db.all question s.forget).2.host, s.host.events ++ [question]⟩,
          (db.all question s.forget).2.journal⟩) := rfl
  unfold ask
  rw [bind_apply, bind_apply, hall]
  cases db.all question s.forget with
  | mk result t =>
      cases result with
      | ok rows => rfl
      | error failure => rfl

theorem agree_ask (db : Database σ) (question : Statement) (f : List Fields -> α) :
    Agree (Tracks fun _ => True) (fun _ => True) (fun _ => True)
      (ask db.watched question f) (ask db question f) := by
  refine (Agree.afterNote (fun _ _ => trivial)
    (Agree.watch fun t => Ends.trivial (db.all question t).1)).bind ?_
  intro rows _
  exact Agree.pure trivial

namespace Catalog

variable (catalog : Catalog) (db : Database σ)

theorem tableNames_eq :
    catalog.tableNames db =
      ask db tablesStatement fun rows => (rows.map nameIn).filter catalog.offers := rfl

theorem columns_eq (table : String) :
    columns db table = ask db (columnsStatement table) fun rows => rows.map Column.ofRow := rfl

/-- A table on offer, as the database is in a session: there, none of the internal tables,
not excluded, among the included ones if only those are on offer, and in the list of entity
types. -/
structure Offered (name : String) (s : Session σ) : Prop where
  present : exists names, (catalog.tableNames db s).1 = .ok names ∧ name ∈ names
  notInternal : name ∉ internalTables
  notExcluded : name ∉ catalog.excluded
  included : forall tables, catalog.included = some tables -> name ∈ tables
  listed : forall entities, (catalog.list db s).1 = .ok entities ->
    name ∈ entities.map Query.EntityType.name

theorem list_names {names : List String} {entities : List Query.EntityType} {s : Session σ}
    (hlist : ((names.mapM fun name => do
      let columns ← columns db name
      return (⟨name, catalog.label name, columns.map Column.name⟩ : Query.EntityType)) s).1 =
        .ok entities) :
    entities.map Query.EntityType.name = names := by
  induction names generalizing entities s with
  | nil =>
      cases hlist
      rfl
  | cons name rest ih =>
      rw [List.mapM_cons, bind_apply] at hlist
      rcases next_ok_of_ok hlist with ⟨entity, hentity, hmore⟩
      rw [bind_apply] at hentity
      rcases next_ok_of_ok hentity with ⟨columns, _, hfirst⟩
      cases hfirst
      rw [bind_apply] at hmore
      rcases next_ok_of_ok hmore with ⟨entities', hrest, hall⟩
      cases hall
      rw [List.map_cons, ih hrest]

theorem offered_of_tableNames {names : List String} {name : String} {s : Session σ}
    (hnames : (catalog.tableNames db s).1 = .ok names) (hname : name ∈ names) :
    catalog.Offered db name s := by
  have hoffers : catalog.offers name = true := by
    rw [tableNames_eq, ask, bind_apply] at hnames
    rcases next_ok_of_ok hnames with ⟨rows, _, hfiltered⟩
    cases hfiltered
    exact (List.mem_filter.mp hname).2
  rw [offers, Bool.and_eq_true, Bool.not_eq_true'] at hoffers
  rcases hoffers with ⟨hopen, hincluded⟩
  have hneither : name ∉ internalTables ++ catalog.excluded := by
    intro hmem
    rw [List.contains_iff_mem.mpr hmem] at hopen
    cases hopen
  refine ⟨⟨names, hnames, hname⟩, ?_, ?_, ?_, ?_⟩
  · intro hinternal
    exact hneither (List.mem_append_left _ hinternal)
  · intro hexcluded
    exact hneither (List.mem_append_right _ hexcluded)
  · intro tables htables
    rw [htables] at hincluded
    exact List.contains_iff_mem.mp hincluded
  · intro entities hlist
    unfold list at hlist
    rw [bind_apply] at hlist
    rcases next_ok_of_ok hlist with ⟨names', hnames', hentities⟩
    rw [hnames] at hnames'
    cases hnames'
    rw [catalog.list_names db hentities]
    exact hname

/-! ## Prepared statements -/

structure ReadOnly (table : Table) (s : Statement) : Prop where
  text : (exists plan, table.select plan = .ok s) ∨
    exists plan fn column inner operand, table.select plan = .ok inner ∧
      table.target column = .ok operand ∧
      s.text = "SELECT " ++ functionWord fn ++ "(" ++ operand ++ ") AS aggregate FROM (" ++
        inner.text ++ ") AS q"
  lexemes : exists lexemes, lex s.text.toList = some lexemes ∧
    forall lexeme, lexeme ∈ lexemes -> lexeme ∈ vocabulary ∨
      exists name, (name = table.name ∨ name = table.primaryKey ∨ name ∈ table.columns) ∧
        lexeme = .quoted name

theorem readOnly_of_issued {table : Table} {s : Statement} (hs : table.Issued s) :
    ReadOnly table s := by
  rcases hs.sound with ⟨d, hsound, hstatement⟩
  rcases lex_of_sound hsound with ⟨lexemes, hlex, hlexemes⟩
  refine ⟨hs.text, lexemes, hstatement ▸ hlex, ?_⟩
  intro lexeme hlexeme
  rcases hlexemes lexeme hlexeme with hfixed | ⟨name, hname, hquoted⟩
  · exact Or.inl hfixed
  · refine Or.inr ⟨name, ?_, hquoted⟩
    rcases List.mem_cons.mp hname with htable | hname
    · exact Or.inl htable
    · rcases List.mem_cons.mp hname with hkey | hcolumn
      · exact Or.inr (Or.inl hkey)
      · exact Or.inr (Or.inr hcolumn)

/-- What has been prepared by the end of a run that asks for an entity type in a session. -/
inductive Prepared (name : String) (s : Session σ) : List Statement -> Prop where
  | nothing : Prepared name s []
  | tables : Prepared name s [tablesStatement]
  | columns (hoffered : catalog.Offered db name s) :
      Prepared name s [tablesStatement, columnsStatement name]
  | queries {table data} (hoffered : catalog.Offered db name s) (hname : table.name = name)
      (hresolve : (catalog.resolve? db name s).1 = .ok (some table))
      (hdata : forall statement, statement ∈ data -> ReadOnly table statement) :
      Prepared name s (tablesStatement :: columnsStatement name :: data)

theorem agree_resolve? (name : String) :
    Agree (Tracks fun _ => True) (fun _ => True) (fun _ => True)
      (catalog.resolve? db.watched name) (catalog.resolve? db name) := by
  apply (agree_ask db tablesStatement _).bind
  intro names _
  refine Agree.ite ?_ ?_
  · intro _
    apply (agree_ask db (columnsStatement name) _).bind
    intro columns _
    exact Agree.pure trivial
  · intro _
    exact Agree.pure trivial

theorem resolve?_prepares (name : String) (s : Session (Watched σ Statement))
    (hs : s.host.events = []) :
    let final := catalog.resolve? db.watched name s
    catalog.Prepared db name s.forget final.2.host.events ∧
      forall table, final.1 = .ok (some table) -> table.name = name ∧
        catalog.Offered db name s.forget ∧
        final.2.host.events = [tablesStatement, columnsStatement name] := by
  have hunresolved : forall (failure : Failure) table,
      (.error failure : Except Failure (Option Table)) ≠ .ok (some table) := by
    intro failure table hsome
    cases hsome
  unfold resolve?
  rw [bind_apply, tableNames_eq, ask_watched, hs, ← tableNames_eq]
  cases hnames : catalog.tableNames db s.forget with
  | mk result t =>
      cases result with
      | error failure => exact ⟨.tables, fun table hsome => absurd hsome (hunresolved _ table)⟩
      | ok names =>
          rw [next_ok]
          by_cases hname : names.contains name = true
          · have hanswer : (catalog.tableNames db s.forget).1 = .ok names := by
              rw [hnames]
            have hoffered : catalog.Offered db name s.forget :=
              catalog.offered_of_tableNames db hanswer (List.contains_iff_mem.mp hname)
            rw [if_pos hname, bind_apply, columns_eq, ask_watched]
            cases ask db (columnsStatement name) _ _ with
            | mk result' t' =>
                cases result' with
                | error failure =>
                    exact ⟨.columns hoffered, fun table hsome => absurd hsome (hunresolved _ table)⟩
                | ok columns =>
                    refine ⟨.columns hoffered, ?_⟩
                    intro table hsome
                    cases hsome
                    exact ⟨rfl, hoffered, rfl⟩
          · rw [if_neg hname]
            refine ⟨.tables, ?_⟩
            intro table hsome
            cases hsome

/-! ## Runs -/

def executor (validator : Query.Validator) (clock timer : Action σ Number) : Query.Executor σ :=
  ⟨catalog.resolver db, validator, clock, timer⟩

section Runs

variable (validator : Query.Validator) (clock timer : Action σ Number)

/-- The watched executor: the database notes statements, clock and timer note nothing. -/
def watchedExecutor : Query.Executor (Watched σ Statement) :=
  catalog.executor db.watched validator (watch clock) (watch timer)

theorem agree_clock {known : List Statement -> Prop} (clock : Action σ Number) :
    Agree (Tracks known) (fun _ => True) (fun _ => True) (watch clock) clock :=
  Agree.watch fun s => Ends.trivial (clock s).1

theorem interpret_eq (name : String) (chain : Query.Chain) :
    (catalog.executor db validator clock timer).interpret name chain =
      catalog.resolve? db name >>= fun answer =>
        match answer with
        | none => throw (.query (.unknownEntityType name))
        | some table => chain.evaluate (table.source db) clock := by
  unfold Query.Executor.interpret executor resolver
  dsimp only
  rw [bind_assoc]
  congr 1
  funext answer
  rw [pure_bind]
  cases answer with
  | none => rfl
  | some table => rfl

theorem agree_interpret (name : String) (chain : Query.Chain) :
    Agree (Tracks fun _ => True) (fun _ => True) (fun _ => True)
      ((catalog.watchedExecutor db validator clock timer).interpret name chain)
      ((catalog.executor db validator clock timer).interpret name chain) := by
  unfold watchedExecutor
  rw [interpret_eq, interpret_eq]
  apply (catalog.agree_resolve? db name).bind
  intro answer _
  cases answer with
  | none => exact Agree.throw trivial
  | some table =>
      have hsource := table.agree_source db (fun _ _ _ _ => trivial : forall s, table.Issued s ->
        forall noted : List Statement, True -> True)
      exact (Query.agree_evaluate (fun _ _ => trivial) hsource (agree_clock clock) chain).mono
        (fun _ _ => trivial) (fun _ h => h)

theorem interpret_prepares (name : String) (chain : Query.Chain)
    (s : Session (Watched σ Statement)) (hs : s.host.events = []) :
    catalog.Prepared db name s.forget
      ((catalog.watchedExecutor db validator clock timer).interpret name chain
        s).2.host.events := by
  rcases catalog.resolve?_prepares db name s hs with ⟨hprepared, htable⟩
  rcases catalog.agree_resolve? db name s s.forget ⟨rfl, trivial⟩ rfl with ⟨_, _, hresult, _⟩
  unfold watchedExecutor
  rw [interpret_eq, bind_apply]
  cases hrun : catalog.resolve? db.watched name s with
  | mk result t =>
      rw [hrun] at hprepared htable hresult
      cases result with
      | error failure => exact hprepared
      | ok answer =>
          cases answer with
          | none => exact hprepared
          | some table =>
              rcases htable table rfl with ⟨hname, hoffered, hevents⟩
              let known := fun noted : List Statement => exists data,
                noted = tablesStatement :: columnsStatement name :: data ∧
                  forall statement, statement ∈ data -> ReadOnly table statement
              have hknown : forall statement, table.Issued statement ->
                  forall noted, known noted -> known (noted ++ [statement]) := by
                rintro statement hissued noted ⟨data, rfl, hdata⟩
                refine ⟨data ++ [statement], rfl, ?_⟩
                intro other hother
                rcases List.mem_append.mp hother with hold | hnew
                · exact hdata other hold
                · rw [List.mem_singleton.mp hnew]
                  exact readOnly_of_issued hissued
              have hstart : known t.host.events := by
                refine ⟨[], hevents, ?_⟩
                intro statement hstatement
                cases hstatement
              have hagree := Query.agree_evaluate (fun _ _ => trivial)
                (table.agree_source db hknown) (agree_clock clock) chain
              rcases (hagree.watchedSide hstart).1 with ⟨data, hall, hdata⟩
              change catalog.Prepared db name s.forget
                (chain.evaluate (table.source db.watched) (watch clock) t).2.host.events
              rw [hall]
              exact .queries hoffered hname hresult.symm hdata

/-! ## The rest of a run -/

theorem agree_conclude {known : List Statement -> Prop} (name : String) (start : Number)
    (value : Value) :
    Agree (Tracks known) (fun _ => True) (fun _ => True)
      (do
        let finish ← watch timer
        let elapsed := Calendar.elapsedSeconds start finish
        Action.debug "Query executed"
          [("entityType", .text name), ("elapsedSeconds", .number elapsed)]
        return Query.Outcome.succeeded value elapsed)
      (do
        let finish ← timer
        let elapsed := Calendar.elapsedSeconds start finish
        Action.debug "Query executed"
          [("entityType", .text name), ("elapsedSeconds", .number elapsed)]
        return Query.Outcome.succeeded value elapsed) := by
  apply (agree_clock timer).bind
  intro finish _
  apply (Agree.log _).bind
  intro _ _
  exact Agree.pure trivial

theorem agree_recover {known : List Statement -> Prop} (name : String) (start : Number)
    (failure : Failure) :
    Agree (Tracks known) (fun _ => True) (fun _ => True)
      ((catalog.watchedExecutor db validator clock timer).recover name start failure)
      ((catalog.executor db validator clock timer).recover name start failure) := by
  apply (agree_clock timer).bind
  intro finish _
  apply (Agree.settle (Ends.trivial _)).bind
  rintro ⟨code, message⟩ _
  apply (Agree.log _).bind
  intro _ _
  exact Agree.pure trivial

theorem agree_evaluate (name : String) (chain : Query.Chain) (start : Number) :
    Agree (Tracks fun _ => True) (fun _ => True) (fun _ => True)
      ((catalog.watchedExecutor db validator clock timer).evaluate name chain start)
      ((catalog.executor db validator clock timer).evaluate name chain start) := by
  rw [Query.Executor.evaluate_eq, Query.Executor.evaluate_eq]
  apply (catalog.agree_interpret db validator clock timer name chain).bind
  intro value _
  exact agree_conclude timer name start value

theorem evaluate_prepares (name : String) (chain : Query.Chain) (start : Number)
    (s : Session (Watched σ Statement)) (hs : s.host.events = []) :
    catalog.Prepared db name s.forget
      ((catalog.watchedExecutor db validator clock timer).evaluate name chain
        start s).2.host.events := by
  have hprepared := catalog.interpret_prepares db validator clock timer name chain s hs
  rw [Query.Executor.evaluate_eq, bind_apply]
  cases hinterpret : (catalog.watchedExecutor db validator clock timer).interpret name chain s with
  | mk result t =>
      rw [hinterpret] at hprepared
      cases result with
      | error failure => exact hprepared
      | ok value => exact ((agree_conclude timer name start value).watchedSide hprepared).1

theorem agree_run (name expression : String) :
    Agree (Tracks fun _ => True) (fun _ => True) (fun _ => True)
      ((catalog.watchedExecutor db validator clock timer).run name expression)
      ((catalog.executor db validator clock timer).run name expression) := by
  apply (validator.agree_accept expression).bind
  intro chain _
  apply (agree_clock timer).bind
  intro start _
  apply (catalog.agree_evaluate db validator clock timer name chain start).attempt.bind
  intro outcome _
  cases outcome with
  | ok outcome => exact Agree.pure trivial
  | error failure => exact catalog.agree_recover db validator clock timer name start failure

theorem run_prepares (name expression : String) (s : Session σ) :
    catalog.Prepared db name (timer s).2
      ((catalog.watchedExecutor db validator clock timer).run name expression
        s.watched).2.host.events := by
  have hvalidator : (catalog.watchedExecutor db validator clock timer).validator = validator := rfl
  cases hverdict : validator.verdict expression with
  | rejected rejection =>
      rw [Query.Executor.run_rejected _ name (hvalidator ▸ hverdict)]
      have hlogged : (Query.Validator.logVerdict (.rejected rejection)
          (s.watched : Session (Watched σ Statement))).2.host.events = [] := by
        cases rejection with
        | disallowedVerb verb => rfl
        | disallowedPattern pattern => rfl
        | malformed detail => rfl
      rw [hlogged]
      exact .nothing
  | accepted chain =>
      unfold Query.Executor.run
      rw [bind_apply, hvalidator, Query.Validator.accept_apply, hverdict, next_ok, bind_apply]
      change catalog.Prepared db name (timer s).2
        (next _ (watch timer (s.watched : Session (Watched σ Statement)))).2.host.events
      have hevents : (watch timer (s.watched : Session (Watched σ Statement))).2.host.events = [] :=
        rfl
      have hforget : (watch timer (s.watched : Session (Watched σ Statement))).2.forget =
          (timer s).2 := rfl
      cases htimer : watch timer (s.watched : Session (Watched σ Statement)) with
      | mk result t =>
          rw [htimer] at hevents hforget
          cases result with
          | error failure =>
              rw [next_error, hevents]
              exact .nothing
          | ok start =>
              have hprepared :=
                catalog.evaluate_prepares db validator clock timer name chain start t hevents
              rw [hforget] at hprepared
              rw [next_ok, bind_apply, attempt_apply, next_ok]
              cases ((catalog.watchedExecutor db validator clock timer).evaluate name chain
                  start t).1 with
              | ok outcome => exact hprepared
              | error failure =>
                  exact ((catalog.agree_recover db validator clock timer name start
                    failure).watchedSide hprepared).1

/-- A run over a catalog prepares nothing but the questions of the catalog and read-only
statements about the one table that it was asked for, if that is on offer. -/
theorem run_prepares_readOnly (name expression : String) (s : Session σ) :
    let final := (catalog.watchedExecutor db validator clock timer).run name expression s.watched
    (final.1, final.2.forget) =
        (catalog.executor db validator clock timer).run name expression s ∧
      catalog.Prepared db name (timer s).2 final.2.host.events := by
  intro final
  constructor
  · exact (catalog.agree_run db validator clock timer name expression).forget_eq s.watched
  · exact catalog.run_prepares db validator clock timer name expression s

end Runs

end Catalog

end Sql

end OperatorConsole
