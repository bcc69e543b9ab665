import OperatorConsole.Proofs.Sql.Compiled

/-!
# Scope of aggregates

An aggregate takes its column from the rows of an inner statement, so the inner statement has to
offer that column: it selects everything, or it lists the column.  What a statement selects is read
off its text.

## Kept columns

The inner statement of a distinct or grouped plan keeps the columns that the plan asks for, and
the aggregated column is only held against the columns of the table.  An aggregate is in scope if
nothing is kept, if the plan asks for no columns of its own, or if it asks for the aggregated one.
-/

namespace OperatorConsole

namespace Sql

open Query (AggregateFunction Plan)

/-! ## Columns on offer -/

/-- What lexemes select: all that stands between their opening words and the first FROM. -/
def selectedOf (lexemes : List Lexeme) : List Lexeme :=
  (lexemes.dropWhile fun lexeme => lexeme == .word "SELECT" || lexeme == .word "DISTINCT").takeWhile
    fun lexeme => lexeme != .word "FROM"

namespace Statement

def selected (s : Statement) : List Lexeme :=
  selectedOf ((lex s.text.toList).getD [])

/-- Whether a statement around this one can refer to a column of its rows. -/
def Offers (s : Statement) (column : String) : Prop :=
  s.selected = [.mark '*'] ∨ .quoted column ∈ s.selected

instance (s : Statement) (column : String) : Decidable (s.Offers column) :=
  inferInstanceAs (Decidable (_ ∨ _))

def aggregateOver (fn : AggregateFunction) (column : String) (inner : Statement) : Statement where
  text := "SELECT " ++ functionWord fn ++ "(q." ++ quoteIdentifier column ++
    ") AS aggregate FROM (" ++ inner.text ++ ") AS q"
  parameters := inner.parameters

end Statement

/-! ## Lexemes of a selection -/

def lexemesOfColumns : List String -> List Lexeme
  | [] => [.mark '*']
  | column :: columns => .quoted column :: columns.flatMap fun other => [.mark ',', .quoted other]

theorem quoted_mem_lexemesOfColumns {columns : List String} {column : String} :
    .quoted column ∈ lexemesOfColumns columns ↔ column ∈ columns := by
  cases columns with
  | nil => simp [lexemesOfColumns]
  | cons first rest => simp [lexemesOfColumns]

theorem lexemesOfColumns_eq_all {columns : List String} :
    lexemesOfColumns columns = [.mark '*'] ↔ columns = [] := by
  cases columns with
  | nil => exact iff_of_true rfl rfl
  | cons first rest => simp [lexemesOfColumns]

/-- There is no FROM in a selection; a column of that name is quoted. -/
theorem from_not_mem_lexemesOfColumns (columns : List String) :
    forall lexeme, lexeme ∈ lexemesOfColumns columns -> (lexeme != .word "FROM") = true := by
  cases columns with
  | nil => decide
  | cons first rest =>
      intro lexeme hlexeme
      rcases List.mem_cons.mp hlexeme with hfirst | hothers
      · rw [hfirst]
        rfl
      · rcases List.mem_flatMap.mp hothers with ⟨other, _, hother⟩
        rcases List.mem_cons.mp hother with hcomma | hname
        · rw [hcomma]
          rfl
        · rw [List.mem_singleton.mp hname]
          rfl

def openingLexemes (distinct : Bool) : List Lexeme :=
  if distinct then [.word "SELECT", .word "DISTINCT"] else [.word "SELECT"]

theorem selectedOf_lexemes (distinct : Bool) (columns : List String) (rest : List Lexeme) :
    selectedOf (openingLexemes distinct ++ (lexemesOfColumns columns ++ .word "FROM" :: rest)) =
      lexemesOfColumns columns := by
  have hopened : (openingLexemes distinct ++ (lexemesOfColumns columns ++
      .word "FROM" :: rest)).dropWhile
        (fun lexeme => lexeme == .word "SELECT" || lexeme == .word "DISTINCT") =
      lexemesOfColumns columns ++ .word "FROM" :: rest := by
    cases distinct with
    | true => cases columns <;> rfl
    | false => cases columns <;> rfl
  unfold selectedOf
  rw [hopened, List.takeWhile_append_of_pos (from_not_mem_lexemesOfColumns columns)]
  exact List.append_nil _

theorem feed_behind_name (name : String) {c : Char} {rest : List Char} {lexemes : List Lexeme}
    {p : Partial} (hc : c ≠ '\x22') (hrest : feed .nothing (c :: rest) = some (lexemes, p)) :
    feed .nothing ((quoteIdentifier name).toList ++ c :: rest) =
      some (.quoted name :: lexemes, p) := by
  have hextend : (Partial.quotedEnd name.toList).extend? c = none := by
    simp [Partial.extend?, hc]
  have hfinish : (Partial.quotedEnd name.toList).finish? = some [.quoted name] := by
    simp [Partial.finish?]
  exact feed_append (feed_quoteIdentifier name) (feed_fresh hextend hfinish hrest)

theorem feed_selection (columns : List String) :
    feed .nothing ((draftSelection columns).text ++ " FROM ").toList =
      some (lexemesOfColumns columns ++ [.word "FROM"], .nothing) := by
  have hlisted : forall (first : String) (others : List String), feed .nothing
      (String.intercalate ", " ((first :: others).map quoteIdentifier) ++ " FROM ").toList =
        some (lexemesOfColumns (first :: others) ++ [.word "FROM"], .nothing) := by
    intro first others
    have hfrom : feed .nothing (' ' :: "FROM ".toList) = some ([.word "FROM"], .nothing) := by
      decide
    induction others generalizing first with
    | nil =>
        rw [List.map_singleton, String.intercalate_singleton, String.toList_append]
        exact feed_behind_name first (by decide) hfrom
    | cons next rest ih =>
        have hcomma : feed .nothing ", ".toList = some ([.mark ','], .nothing) := by decide
        have hrest := feed_append hcomma (ih next)
        rw [List.map_cons, List.map_cons, String.intercalate_cons_cons, String.append_assoc,
          String.append_assoc, String.toList_append, String.toList_append]
        exact feed_behind_name first (by decide) hrest
  cases columns with
  | nil => decide
  | cons first rest =>
      have htext : (draftSelection (first :: rest)).text =
          String.intercalate ", " ((first :: rest).map quoteIdentifier) := by
        rw [← text_draftColumns, ← Draft.text_joinWith]
        rfl
      rw [htext]
      exact hlisted first rest

/-! ## Selections of statements -/

theorem Sound.behind {names : List String} {ending : Edge} {first rest : Draft} {f : Fragment}
    (hsound : Sound names ending (first ++ f :: rest)) : Sound names f.closes rest := by
  induction first generalizing ending with
  | nil => exact hsound.2.2
  | cons g first ih => exact ih hsound.2.2

namespace Table

variable {table : Table}

theorem selected_draft {plan : Plan} (hknown : table.firstUnknown? (writtenColumns plan) = none) :
    (table.draft plan).statement.selected = lexemesOfColumns plan.columns := by
  let tail : Draft := .identifier table.name :: draftWhere plan.conditions ++
    Draft.headed " GROUP BY " ", " (draftColumns plan.groups) ++
    Draft.headed " HAVING " " AND " (plan.havings.map draftHaving) ++
    Draft.headed " ORDER BY " ", " (plan.orders.map draftOrder) ++
    draftPaging plan.limit plan.offset
  let opening := if plan.distinct then "SELECT DISTINCT " else "SELECT "
  have hdraft : table.draft plan =
      (.word opening :: draftSelection plan.columns) ++ .word " FROM " :: tail := by
    simp [draft, tail, opening]
  have htail : Sound table.names .free tail := by
    have hsound := sound_draft hknown
    rw [hdraft] at hsound
    exact hsound.behind
  have hopening : feed .nothing opening.toList = some (openingLexemes plan.distinct, .nothing) := by
    show feed .nothing (if plan.distinct then "SELECT DISTINCT " else "SELECT ").toList = _
    generalize plan.distinct = distinct
    cases distinct <;> decide
  rcases lex_of_sound htail with ⟨lexemes, hlexemes, _⟩
  have hlex : lex (table.draft plan).text.toList = some (openingLexemes plan.distinct ++
      (lexemesOfColumns plan.columns ++ .word "FROM" :: lexemes)) := by
    have htext : (table.draft plan).text =
        opening ++ ((draftSelection plan.columns).text ++ " FROM " ++ tail.text) := by
      rw [hdraft, Draft.text_append, Draft.text_word, Draft.text_word]
      simp only [String.append_assoc]
    have hselection := lex_append (feed_selection plan.columns) hlexemes
    rw [List.append_assoc, List.singleton_append] at hselection
    rw [htext, String.toList_append, String.toList_append]
    exact lex_append hopening hselection
  unfold Statement.selected
  change selectedOf ((lex (table.draft plan).text.toList).getD []) = _
  rw [hlex]
  exact selectedOf_lexemes _ _ _

theorem offers_iff {plan : Plan} {column : String}
    (hknown : table.firstUnknown? (writtenColumns plan) = none) :
    (table.draft plan).statement.Offers column ↔ plan.columns = [] ∨ column ∈ plan.columns := by
  unfold Statement.Offers
  rw [selected_draft hknown, lexemesOfColumns_eq_all, quoted_mem_lexemesOfColumns]

/-! ## Aggregates -/

theorem aggregated_columns (plan : Plan) :
    (aggregated plan).columns =
      if plan.distinct = false ∧ plan.groups = [] then [] else plan.columns := by
  unfold aggregated
  cases plan.distinct with
  | true => rfl
  | false =>
      cases plan.groups with
      | nil => rfl
      | cons group groups => rfl

theorem statement_aggregateOver (table : Table) (plan : Plan) (fn : AggregateFunction)
    (column : String) :
    (table.draftAggregate plan fn (some column)).statement =
      Statement.aggregateOver fn column (table.draft (aggregated plan)).statement := by
  rw [statement_draftAggregate, draftTarget, Draft.text_word, Draft.text_identifier,
    Draft.text_nil, String.append_empty]
  unfold Statement.aggregateOver
  simp only [String.append_assoc]
  rfl

/-- The column of an aggregate that is prepared is in scope just if the inner statement is that of
a plan which keeps no columns, asks for all of them, or asks for this one. -/
theorem aggregate_in_scope_iff (table : Table) {plan : Plan} {fn : AggregateFunction}
    {column : String} {s : Statement}
    (hprepared : table.aggregate plan fn (some column) = .ok s) :
    exists inner, table.select (aggregated plan) = .ok inner ∧
      s = Statement.aggregateOver fn column inner ∧
      (inner.Offers column ↔
        (plan.distinct = false ∧ plan.groups = []) ∨ plan.columns = [] ∨
          column ∈ plan.columns) := by
  rcases aggregate_eq_ok hprepared with ⟨hknown, hstatement⟩
  rw [firstUnknown?_append, Option.or_eq_none_iff] at hknown
  refine ⟨(table.draft (aggregated plan)).statement, select_of_known hknown.1, ?_, ?_⟩
  · rw [hstatement, statement_aggregateOver]
  · rw [offers_iff hknown.1, aggregated_columns]
    split
    case isTrue hplain => exact iff_of_true (Or.inl rfl) (Or.inl hplain)
    case isFalse hkept => exact (or_iff_right hkept).symm

def members : Table :=
  ⟨"members", ["id", "active", "age"], "id"⟩

def differentActive : Plan :=
  { Plan.empty with columns := ["active"], distinct := true }

theorem aggregate_in_scope_iff_distinct :
    exists s inner, members.aggregate differentActive .count (some "active") = .ok s ∧
      members.select (aggregated differentActive) = .ok inner ∧
      s = Statement.aggregateOver .count "active" inner ∧ inner.Offers "active" := by
  have hprepared : members.aggregate differentActive .count (some "active") =
      .ok (members.draftAggregate differentActive .count (some "active")).statement := rfl
  rcases members.aggregate_in_scope_iff hprepared with
    ⟨inner, hinner, hstatement, hscope⟩
  exact ⟨_, inner, hprepared, hinner, hstatement, hscope.mpr (Or.inr (Or.inr List.mem_cons_self))⟩

/-- A sum over the different values of another column refers to a column that its inner statement
does not offer. -/
theorem aggregate_out_of_scope :
    exists inner, members.select (aggregated differentActive) = .ok inner ∧
      members.aggregate differentActive .sum (some "age") =
        .ok (Statement.aggregateOver .sum "age" inner) ∧ ¬ inner.Offers "age" := by
  refine ⟨(members.draft differentActive).statement, rfl, rfl, ?_⟩
  decide

end Table

end Sql

end OperatorConsole
