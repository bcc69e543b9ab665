import OperatorConsole.Proofs.ExecutionLog.History
import OperatorConsole.Proofs.Query.Pages

/-!
# Listing an execution log

A filter becomes a statement whose clauses and parameters grow side by side.  So every
placeholder has its parameter, and each column is asked for what the filter gives for it.

## Pages

The executions that a filter lets through stand in one order, the newest first.  No two of them
share a place in it, since no two share an id.  Pages of any size cut this one list.
-/

namespace OperatorConsole

theorem Text.count_joinWith {c : Char} {separator : List Char} (hnone : separator.count c = 0)
    (parts : List (List Char)) :
    (joinWith separator parts).count c = (parts.map (List.count c)).sum := by
  induction parts with
  | nil => rfl
  | cons part rest ih =>
      cases rest with
      | nil => rfl
      | cons next others =>
          change (part ++ separator ++ joinWith separator (next :: others)).count c = _
          rw [List.count_append, List.count_append, ih, hnone, Nat.add_zero]
          rfl

/-! ## Clauses and their parameters -/

namespace ListStatement

section Clauses

variable {s : ListStatement} {clauses : List (ListColumn × String)}

/-- The statement has these clauses, and their parameters in the same order. -/
structure Asks (s : ListStatement) (clauses : List (ListColumn × String)) : Prop where
  columns_eq : s.columns = clauses.map Prod.fst
  parameters_eq : s.parameters = clauses.map fun clause => .text clause.2

theorem Asks.narrow (hasks : s.Asks clauses) (column : ListColumn) (wanted : Option String) :
    (s.narrow column wanted).Asks (clauses ++ (wanted.map (column, ·)).toList) := by
  cases wanted with
  | none =>
      change s.Asks (clauses ++ [])
      rw [List.append_nil]
      exact hasks
  | some text =>
      constructor
      case columns_eq =>
        change s.columns ++ [column] = _
        rw [hasks.columns_eq, List.map_append]
        rfl
      case parameters_eq =>
        change s.parameters ++ [.text text] = _
        rw [hasks.parameters_eq, List.map_append]
        rfl

theorem bind?_clauses (clauses : List (ListColumn × String)) (limit offset : Int) :
    bind? (clauses.map Prod.fst)
      ((clauses.map fun clause => .text clause.2) ++ [.whole limit, .whole offset]) =
        some (clauses, limit, offset) := by
  induction clauses with
  | nil => rfl
  | cons clause rest ih =>
      rw [List.map_cons, List.map_cons, List.cons_append, bind?, ih]

/-- Behind the clauses come the limit and the offset, and nothing is left over. -/
theorem Asks.run?_paged (hasks : s.Asks clauses) (limit offset : Int)
    (executions : List Execution) :
    (s.paged limit offset).run? executions =
      some (cut limit offset
        ((executions.filter (meets clauses)).mergeSort Execution.precedes)) := by
  have hbind : bind? (s.paged limit offset).columns (s.paged limit offset).parameters =
      some (clauses, limit, offset) := by
    change bind? s.columns (s.parameters ++ [.whole limit, .whole offset]) = _
    rw [hasks.columns_eq, hasks.parameters_eq]
    exact bind?_clauses clauses limit offset
  unfold run?
  rw [hbind]

theorem Asks.length_parameters (hasks : s.Asks clauses) (limit offset : Int) :
    (s.paged limit offset).parameters.length = (s.paged limit offset).columns.length + 2 := by
  change (s.parameters ++ [ListParameter.whole limit, .whole offset]).length =
    s.columns.length + 2
  rw [hasks.columns_eq, hasks.parameters_eq, List.length_append, List.length_map, List.length_map]
  rfl

end Clauses

/-! ## Placeholders -/

/-- Every placeholder of the text has its parameter, and no parameter is left over. -/
def IsBound (s : ListStatement) : Prop :=
  s.text.toList.count '?' = s.parameters.length

theorem count_clauses (columns : List ListColumn) :
    (Text.joinStrings " AND " (columns.map clause)).toList.count '?' = columns.length := by
  have hclause : forall column, (clause column).toList.count '?' = 1 := by
    intro column
    cases column <;> decide
  have hcounts : (columns.map clause).map (fun text => text.toList.count '?') =
      columns.map fun _ => 1 := by
    rw [List.map_map]
    exact List.map_congr_left fun column _ => hclause column
  unfold Text.joinStrings
  rw [String.toList_ofList, Text.count_joinWith (by decide), List.map_map]
  refine (congrArg List.sum hcounts).trans ?_
  rw [List.map_const', List.sum_replicate_nat, Nat.mul_one]

theorem count_placeholders (s : ListStatement) :
    s.text.toList.count '?' = s.columns.length + 2 := by
  have hplace : (if s.columns.isEmpty then "" else
      "WHERE " ++ Text.joinStrings " AND " (s.columns.map clause)).toList.count '?' =
        s.columns.length := by
    cases hcolumns : s.columns with
    | nil => rfl
    | cons column rest =>
        rw [← hcolumns, if_neg (by rw [hcolumns]; exact Bool.false_ne_true),
          String.toList_append, List.count_append, count_clauses]
        exact Nat.zero_add _
  change (("SELECT * FROM command_executions " ++ (if s.columns.isEmpty then "" else
    "WHERE " ++ Text.joinStrings " AND " (s.columns.map clause))) ++
      " ORDER BY created_at DESC, id DESC LIMIT ? OFFSET ?").toList.count '?' = _
  rw [String.toList_append, String.toList_append, List.count_append, List.count_append, hplace]
  change 0 + s.columns.length + 2 = _
  rw [Nat.zero_add]

end ListStatement

/-! ## Filters -/

namespace ExecutionFilter

structure Admits (filter : ExecutionFilter) (e : Execution) : Prop where
  command : forall text, filter.command = some text -> e.command = text
  userId : forall text, filter.userId = some text -> e.userId = some text
  environment : forall text, filter.environment = some text -> e.environment = text

def IsOpen (filter : ExecutionFilter) : Prop :=
  filter.command = none ∧ filter.userId = none ∧ filter.environment = none

def clauses (filter : ExecutionFilter) : List (ListColumn × String) :=
  ((filter.command.map (ListColumn.command, ·)).toList ++
    (filter.userId.map (ListColumn.userId, ·)).toList) ++
    (filter.environment.map (ListColumn.environment, ·)).toList

theorem asks_clauses (filter : ExecutionFilter) :
    (ListStatement.empty |>.narrow .command filter.command |>.narrow .userId filter.userId
      |>.narrow .environment filter.environment).Asks filter.clauses := by
  have hempty : ListStatement.empty.Asks [] := ⟨rfl, rfl⟩
  exact ((hempty.narrow .command _).narrow .userId _).narrow .environment _

theorem statement_isBound (filter : ExecutionFilter) : filter.statement.IsBound := by
  unfold ListStatement.IsBound
  rw [ListStatement.count_placeholders]
  exact (filter.asks_clauses.length_parameters _ _).symm

theorem meets_narrowed (column : ListColumn) (wanted : Option String) (e : Execution) :
    ListStatement.meets (wanted.map (column, ·)).toList e = true ↔
      forall text, wanted = some text -> column.held? e = some text := by
  cases wanted with
  | none => simp [ListStatement.meets]
  | some text => simp [ListStatement.meets]

theorem meets_clauses (filter : ExecutionFilter) (e : Execution) :
    ListStatement.meets filter.clauses e = true ↔ filter.Admits e := by
  have happend : forall first second, ListStatement.meets (first ++ second) e =
      (ListStatement.meets first e && ListStatement.meets second e) :=
    fun first second => List.all_append
  unfold clauses
  rw [happend, happend, Bool.and_eq_true, Bool.and_eq_true, meets_narrowed, meets_narrowed,
    meets_narrowed]
  constructor
  · intro hmeets
    rcases hmeets with ⟨⟨hcommand, huser⟩, henvironment⟩
    constructor
    case command => exact fun text htext => Option.some.inj (hcommand text htext)
    case userId => exact huser
    case environment => exact fun text htext => Option.some.inj (henvironment text htext)
  · intro hadmits
    exact ⟨⟨fun text htext => congrArg some (hadmits.command text htext), hadmits.userId⟩,
      fun text htext => congrArg some (hadmits.environment text htext)⟩

/-- The filter that asks for one page; the pages are counted from zero. -/
def page (filter : ExecutionFilter) (size place : Nat) : ExecutionFilter :=
  { filter with limit := some size, offset := some (place * size) }

end ExecutionFilter

/-! ## Order -/

namespace Execution

def IsListedBefore (a b : Execution) : Prop :=
  Number.lt b.createdAt a.createdAt = true ∨
    a.createdAt.equals b.createdAt = true ∧ b.id < a.id

def timePlace (e : Execution) : Int :=
  e.createdAt.place?.getD 0

/-- The order by which executions with a time are listed. -/
def leadsKey (a b : Execution) : Bool :=
  decide (b.timePlace < a.timePlace ∨ b.timePlace = a.timePlace ∧ b.id ≤ a.id)

theorem lt_timePlace {a b : Execution} (ha : a.createdAt.isNaN = false)
    (hb : b.createdAt.isNaN = false) :
    Number.lt b.createdAt a.createdAt = decide (b.timePlace < a.timePlace) ∧
      a.createdAt.equals b.createdAt = decide (b.timePlace = a.timePlace) := by
  rcases Number.place?_of_not_nan ha with ⟨x, hx⟩
  rcases Number.place?_of_not_nan hb with ⟨y, hy⟩
  unfold Number.lt Number.equals timePlace
  rw [hx, hy]
  refine ⟨rfl, ?_⟩
  exact decide_eq_decide.mpr eq_comm

theorem precedes_eq {a b : Execution} (ha : a.createdAt.isNaN = false)
    (hb : b.createdAt.isNaN = false) : a.precedes b = leadsKey a b := by
  rcases lt_timePlace ha hb with ⟨hlt, hequals⟩
  unfold precedes leadsKey
  rw [hlt, hequals]
  simp

theorem leadsKey_trans (a b c : Execution) (hab : leadsKey a b = true)
    (hbc : leadsKey b c = true) : leadsKey a c = true := by
  simp only [leadsKey, decide_eq_true_eq] at hab hbc ⊢
  omega

theorem leadsKey_total (a b : Execution) : (leadsKey a b || leadsKey b a) = true := by
  simp only [leadsKey, Bool.or_eq_true, decide_eq_true_eq]
  omega

theorem isListedBefore_of_leadsKey {a b : Execution} (ha : a.createdAt.isNaN = false)
    (hb : b.createdAt.isNaN = false) (hids : a.id ≠ b.id) (hab : leadsKey a b = true) :
    a.IsListedBefore b := by
  rcases lt_timePlace ha hb with ⟨hlt, hequals⟩
  unfold IsListedBefore
  rw [hlt, hequals]
  simp only [leadsKey, decide_eq_true_eq] at hab ⊢
  omega

end Execution

/-! ## Pages -/

namespace ExecutionLog

section Pages

variable {log : ExecutionLog} {filter : ExecutionFilter}

def listing (log : ExecutionLog) (filter : ExecutionFilter) : List Execution :=
  (log.executions.filter (ListStatement.meets filter.clauses)).mergeSort Execution.precedes

def pages (log : ExecutionLog) (filter : ExecutionFilter) (size count : Nat) : List Execution :=
  (List.range count).flatMap fun place => log.list (filter.page size place)

theorem list_eq (log : ExecutionLog) (filter : ExecutionFilter) :
    log.list filter = ListStatement.cut (filter.limit.getD ExecutionFilter.defaultPageSize)
      (filter.offset.getD 0) (log.listing filter) := by
  unfold list ExecutionFilter.statement
  rw [filter.asks_clauses.run?_paged]
  rfl

theorem list_page (log : ExecutionLog) (filter : ExecutionFilter) (size place : Nat) :
    log.list (filter.page size place) =
      Query.pageOfList (log.listing filter) size (place + 1) := by
  rw [list_eq]
  change ListStatement.cut (size : Int) (place * size : Int) (log.listing filter) = _
  have hoffset : (place * size : Int).toNat = place * size := by
    rw [← Int.natCast_mul, Int.toNat_natCast]
  unfold ListStatement.cut Query.pageOfList
  rw [if_neg (Int.not_lt.mpr (Int.natCast_nonneg size)), hoffset, Int.toNat_natCast,
    Nat.add_sub_cancel]

theorem pages_eq (log : ExecutionLog) (filter : ExecutionFilter) (size count : Nat) :
    log.pages filter size count = (log.listing filter).take (count * size) := by
  rw [← Query.take_pages]
  exact List.flatMap_congr fun place _ => log.list_page filter size place

theorem listing_perm (log : ExecutionLog) (filter : ExecutionFilter) :
    (log.listing filter).Perm (log.executions.filter (ListStatement.meets filter.clauses)) :=
  List.mergeSort_perm _ _

theorem mem_listing {e : Execution} :
    e ∈ log.listing filter ↔ e ∈ log.executions ∧ filter.Admits e := by
  rw [(log.listing_perm filter).mem_iff, List.mem_filter, ExecutionFilter.meets_clauses]

theorem length_listing (hopen : filter.IsOpen) : (log.listing filter).length = log.count := by
  rcases hopen with ⟨hcommand, huser, henvironment⟩
  have hclauses : filter.clauses = [] := by
    unfold ExecutionFilter.clauses
    rw [hcommand, huser, henvironment]
    rfl
  have hall : log.executions.filter (ListStatement.meets filter.clauses) = log.executions := by
    rw [hclauses]
    exact List.filter_eq_self.mpr fun e _ => rfl
  rw [(log.listing_perm filter).length_eq, hall]
  rfl

theorem IsTable.listing_ids (htable : log.IsTable) :
    ((log.listing filter).map Execution.id).Nodup := by
  have hsublist : (log.executions.filter (ListStatement.meets filter.clauses)).Sublist
      log.executions := List.filter_sublist
  rw [((log.listing_perm filter).map Execution.id).nodup_iff]
  exact htable.ids_unique.sublist (hsublist.map Execution.id)

/-- Executions with a time are sorted by an order in which any two can be compared. -/
theorem IsTable.listing_leads (htable : log.IsTable) :
    (log.listing filter).Pairwise (fun a b => Execution.leadsKey a b = true) := by
  have hsort : log.listing filter =
      (log.executions.filter (ListStatement.meets filter.clauses)).mergeSort
        Execution.leadsKey := by
    have hmap := List.map_mergeSort (f := id) (r := Execution.precedes)
      (s := Execution.leadsKey)
      (l := log.executions.filter (ListStatement.meets filter.clauses))
      (fun a ha b hb => Execution.precedes_eq (htable.timed a (List.mem_filter.mp ha).1)
        (htable.timed b (List.mem_filter.mp hb).1))
    rw [List.map_id, List.map_id] at hmap
    exact hmap
  rw [hsort]
  exact List.pairwise_mergeSort Execution.leadsKey_trans Execution.leadsKey_total _

theorem IsTable.listing_sorted (htable : log.IsTable) :
    (log.listing filter).Pairwise Execution.IsListedBefore := by
  have hids : (log.listing filter).Pairwise (fun a b => a.id ≠ b.id) :=
    List.pairwise_map.mp htable.listing_ids
  have htimed : forall e, e ∈ log.listing filter -> e.createdAt.isNaN = false :=
    fun e he => htable.timed e (mem_listing.mp he).1
  refine (htable.listing_leads.and hids).imp_of_mem ?_
  intro a b ha hb hab
  exact Execution.isListedBefore_of_leadsKey (htimed a ha) (htimed b hb) hab.2 hab.1

end Pages

/-- A list holds what the filter lets through, each execution once, the newest first. -/
structure IsListing (log : ExecutionLog) (filter : ExecutionFilter)
    (listed : List Execution) : Prop where
  complete : forall e, e ∈ listed <-> e ∈ log.executions ∧ filter.Admits e
  once : listed.Nodup
  newestFirst : listed.Pairwise Execution.IsListedBefore

/-- Pages lose nothing and repeat nothing.  Whatever a table holds and a filter asks for, each page
is asked for by a statement whose placeholders have their parameters.  There is one list of all
that the filter lets through, and the pages of any size are its parts in a row: the first of them
are its beginning, and enough of them are the whole list. -/
theorem pages_partition (log : ExecutionLog) (htable : log.IsTable) (filter : ExecutionFilter) :
    (forall size place, (filter.page size place).statement.IsBound) ∧
    exists listed, log.IsListing filter listed ∧
      (forall size count, 1 ≤ size -> log.pages filter size count = listed.take (count * size)) ∧
      (forall size count, 1 ≤ size -> listed.length ≤ count ->
        log.pages filter size count = listed) ∧
      (filter.IsOpen -> listed.length = log.count) := by
  refine ⟨fun size place => (filter.page size place).statement_isBound, log.listing filter, ?_,
    fun size count _ => log.pages_eq filter size count, ?_, length_listing⟩
  · constructor
    case complete => exact fun e => mem_listing
    case once => exact List.Nodup.of_map Execution.id htable.listing_ids
    case newestFirst => exact htable.listing_sorted
  · intro size count hsize henough
    rw [pages_eq]
    exact List.take_of_length_le (Nat.le_trans henough (Nat.le_mul_of_pos_right count hsize))

def sampleTable : ExecutionLog :=
  ⟨[⟨1, "data:query", none, some "ada", none, none, none, none, none, "staging", none, none, 1000,
      some 2000, 2000⟩,
    ⟨2, "audit:prune", none, none, none, none, none, none, none, "staging", none, none, 1000,
      some 1500, 1500⟩,
    ⟨4, "data:query", none, some "ada", none, none, none, none, none, "production", none, none,
      1500, some 2000, 2000⟩], 5⟩

theorem pages_partition_three :
    sampleTable.IsTable ∧ exists listed, sampleTable.IsListing .all listed ∧
      sampleTable.pages .all 2 3 = listed ∧ listed.length = 3 := by
  have htable : sampleTable.IsTable := by
    constructor
    case ids_unique => decide
    case ids_lt => decide
    case timed =>
      unfold IsTimed
      decide +kernel
  rcases pages_partition sampleTable htable .all with ⟨_, listed, hlisting, _, hwhole, hcount⟩
  have hlength : listed.length = 3 := hcount ⟨rfl, rfl, rfl⟩
  exact ⟨htable, listed, hlisting, hwhole 2 3 (by decide) (Nat.le_of_eq hlength), hlength⟩

end ExecutionLog

end OperatorConsole
