import OperatorConsole.Proofs.Query.Composed
import OperatorConsole.Proofs.Query.Window
import OperatorConsole.Proofs.Value.Assigned

/-!
# Columns by key

Plucking a column under the keys of another one gives a record.  Its keys are the texts of the key
column, each with the value of the last row that has it.

## The key of the base

The record is filled by assignment, so rows under `Fields.baseKey` are lost, up to and including
the first of them that holds null.
-/

namespace OperatorConsole

namespace Query

open OperatorConsole.Action Value

/-! ## Keys of rows -/

def Row.keyText? (row : Row) (column : String) : Option String :=
  (Record.get row column).text?

/-- The rows that have a key, in their order. -/
def rowsUnder (keyColumn key : String) (rows : List Row) : List Row :=
  rows.filter fun row => Row.keyText? row keyColumn = some key

def Row.entry? (valueColumn keyColumn : String) (row : Row) : Option (String × Value) :=
  (Row.keyText? row keyColumn).map fun key => (key, Row.at row valueColumn)

theorem keyText?_of_textOf {row : Row} {column key : String}
    (hkey : Failure.textOf (Record.get row column) = .ok key) :
    Row.keyText? row column = some key := by
  unfold Row.keyText?
  unfold Failure.textOf at hkey
  cases htext : (Record.get row column).text? with
  | none =>
      rw [htext] at hkey
      cases hkey
  | some text =>
      rw [htext] at hkey
      cases hkey
      rfl

section Entries

variable {valueColumn keyColumn : String}

/-- Rows whose keys have texts are stored by assignment, one after the other. -/
theorem keyedRecord_eq {rows : List Row} (hrows : forall row, row ∈ rows -> ScalarRow row) :
    keyedRecord valueColumn keyColumn rows =
      .ok (Record.empty.assignAll (rows.filterMap (Row.entry? valueColumn keyColumn))) := by
  unfold keyedRecord
  generalize Record.empty = record
  induction rows generalizing record with
  | nil => rfl
  | cons row rest ih =>
      rcases List.forall_mem_cons.mp hrows with ⟨hrow, hrest⟩
      rcases textOf_get hrow keyColumn with ⟨key, hkey⟩
      have hentry : Row.entry? valueColumn keyColumn row = some (key, Row.at row valueColumn) := by
        unfold Row.entry?
        rw [keyText?_of_textOf hkey]
        rfl
      rw [List.foldlM_cons, hkey, List.filterMap_cons_some hentry, Record.assignAll_cons]
      exact ih hrest (record.assign key (Row.at row valueColumn))

theorem valuesUnder_entries (key : String) (rows : List Row) :
    Fields.valuesUnder key (rows.filterMap (Row.entry? valueColumn keyColumn)) =
      (rowsUnder keyColumn key rows).map fun row => Row.at row valueColumn := by
  induction rows with
  | nil => rfl
  | cons row rest ih =>
      unfold rowsUnder at ih ⊢
      cases hkey : Row.keyText? row keyColumn with
      | none =>
          have hentry : Row.entry? valueColumn keyColumn row = none := by
            unfold Row.entry?
            rw [hkey]
            rfl
          rw [List.filterMap_cons_none hentry, List.filter_cons_of_neg (by simp [hkey]), ih]
      | some text =>
          have hentry : Row.entry? valueColumn keyColumn row =
              some (text, Row.at row valueColumn) := by
            unfold Row.entry?
            rw [hkey]
            rfl
          rw [List.filterMap_cons_some hentry]
          by_cases hsame : key = text
          · subst hsame
            rw [Fields.valuesUnder_cons_self, List.filter_cons_of_pos (by simp [hkey]),
              List.map_cons, ih]
          · have hother : ¬ text = key := fun heq => hsame heq.symm
            rw [Fields.valuesUnder_cons_other hsame,
              List.filter_cons_of_neg (by simp [hkey, hother]), ih]

theorem at_eq {row : Row} (hrow : ScalarRow row) (column : String) :
    Row.at row column =
      (row.fields.own? column).getD ((Fields.inherited? column).getD .null) := by
  cases hown : row.fields.own? column with
  | none => exact at_missing hrow hown
  | some v =>
      rcases own?_mem hown with ⟨field, hfield, rfl⟩
      have hscalar := hrow.2 field hfield
      unfold Row.at
      rw [Record.get_own hown]
      cases hvalue : field.2 with
      | absent =>
          rw [hvalue] at hscalar
          cases hscalar
      | _ => rfl

theorem at_isBareBase {row : Row} (hrow : ScalarRow row) (column : String) :
    (Row.at row column).IsBareBase := by
  intro hbase
  have hcell : (Row.at row column).scalar?.isSome ∨
      Inherits (fun _ => True) (Row.at row column) := at_scalarRow hrow True.intro
  rcases hcell with hscalar | ⟨name, _, hinherited⟩
  · left
    cases hvalue : Row.at row column with
    | null => rfl
    | bool | number | text =>
        rw [hvalue] at hbase
        cases hbase
    | _ =>
        rw [hvalue] at hscalar
        cases hscalar
  · right
    rcases Fields.inherited?_cases hinherited with hancestor | ⟨routine, hroutine⟩
    · rw [hancestor]
      exact ⟨rfl, rfl⟩
    · rw [hroutine]
      exact ⟨rfl, rfl⟩

/-! ## The record -/

/-- What a record has that was made of the values of a column under the keys of another one. -/
structure IsKeyed (valueColumn keyColumn : String) (rows : List Row) (record : Record) : Prop where
  distinct : record.fields.keys.Nodup
  keys : forall key, key ≠ Fields.baseKey ->
    (key ∈ record.fields.keys ↔ exists row, row ∈ rows ∧ Row.keyText? row keyColumn = some key)
  values : forall key row, key ≠ Fields.baseKey ->
    (rowsUnder keyColumn key rows).getLast? = some row ->
      record.fields.own? key = some (Row.at row valueColumn)
  /-- A missing cell counts as null, unless every record answers to the name of its column. -/
  cells : forall row, row ∈ rows -> Row.at row valueColumn =
    (row.fields.own? valueColumn).getD ((Fields.inherited? valueColumn).getD .null)
  /-- Rows under the key of the base count only behind the first of them that holds null. -/
  baseKey : record.fields.own? Fields.baseKey =
    (((rowsUnder keyColumn Fields.baseKey rows).map fun row =>
      Row.at row valueColumn).dropWhile fun v => v != .null).tail.getLast?

theorem keyedRecord_isKeyed {rows : List Row} (hrows : forall row, row ∈ rows -> ScalarRow row) :
    exists record, keyedRecord valueColumn keyColumn rows = .ok record ∧
      IsKeyed valueColumn keyColumn rows record := by
  refine ⟨_, keyedRecord_eq hrows, ?_⟩
  have hown : forall key, key ≠ Fields.baseKey ->
      (Record.empty.assignAll (rows.filterMap
        (Row.entry? valueColumn keyColumn))).fields.own? key =
          (rowsUnder keyColumn key rows).getLast?.map fun row => Row.at row valueColumn := by
    intro key hkey
    rw [Record.own?_assignAll _ _ hkey, valuesUnder_entries, List.getLast?_map]
    exact Option.or_none
  constructor
  case distinct =>
    have hempty : Record.empty.fields.IsOrdered := List.Pairwise.nil
    exact (Record.isOrdered_assignAll hempty _).nodup_keys
  case keys =>
    intro key hkey
    rw [Fields.mem_keys_iff, hown key hkey]
    constructor
    · intro hstored
      rcases hstored with ⟨v, hv⟩
      rcases Option.map_eq_some_iff.mp hv with ⟨row, hlast, _⟩
      rcases List.mem_filter.mp (List.mem_of_getLast? hlast) with ⟨hrow, htext⟩
      exact ⟨row, hrow, of_decide_eq_true htext⟩
    · intro hexists
      rcases hexists with ⟨row, hrow, htext⟩
      have hunder : row ∈ rowsUnder keyColumn key rows :=
        List.mem_filter.mpr ⟨hrow, decide_eq_true htext⟩
      cases hlast : (rowsUnder keyColumn key rows).getLast? with
      | none =>
          rw [List.getLast?_eq_none_iff.mp hlast] at hunder
          cases hunder
      | some last => exact ⟨_, rfl⟩
  case values =>
    intro key row hkey hlast
    rw [hown key hkey, hlast]
    rfl
  case cells => exact fun row hrow => at_eq (hrows row hrow) valueColumn
  case baseKey =>
    rw [Record.own?_assignAll_base rfl, valuesUnder_entries]
    intro v hv
    rw [valuesUnder_entries] at hv
    rcases List.mem_map.mp hv with ⟨row, hrow, hsame⟩
    rw [← hsame]
    exact at_isBareBase (hrows row (List.mem_of_mem_filter hrow)) valueColumn

end Entries

/-! ## Plucking -/

theorem inquiry_pluck (entity key : String) (plan : Plan) {valueColumn keyColumn : String}
    (hvalue : isColumnName valueColumn = true) (hkey : isColumnName keyColumn = true) :
    TerminalVerb.inquiry .pluck entity key plan
        (([.text valueColumn, .text keyColumn] : List Scalar).map .scalar) =
      .ok (.select (plan.withColumns [valueColumn, keyColumn]) fun rows =>
        (keyedRecord valueColumn keyColumn rows).map Record.toValue) := by
  change TerminalVerb.askPluck _ plan [.column valueColumn, .column keyColumn] = _
  unfold TerminalVerb.askPluck
  change columnOf _ (some (.column valueColumn)) >>= (fun value =>
    columnOf _ (some (.column keyColumn)) >>= _) = _
  rw [columnOf_column, columnOf_column, if_pos hvalue, if_pos hkey]
  rfl

namespace Chain

/-- Plucking a column under the keys of another one gives every key of the rows its last value.
Only the key of the base is lost, until a row under it holds null. -/
theorem evaluate_pluck_keyed {source : EntitySource σ} {clock : Action σ Number}
    {builders : Chain} {plan : Plan} {s t : Session σ}
    (hreaches : Reaches source clock builders s plan t) {call : Call}
    {valueColumn keyColumn : String} (hvalue : isColumnName valueColumn = true)
    (hkey : isColumnName keyColumn = true)
    (hcall : call.IsOf (TerminalVerb.text .pluck) [.text valueColumn, .text keyColumn])
    {rows : List Row}
    (hselect : (source.select (plan.withColumns [valueColumn, keyColumn]) t).1 = .ok rows)
    (hrows : forall row, row ∈ rows -> ScalarRow row) :
    exists record, (Chain.evaluate source clock (builders ++ [call]) s).1 = .ok record.toValue ∧
      IsKeyed valueColumn keyColumn rows record := by
  rcases @keyedRecord_isKeyed valueColumn keyColumn rows hrows with
    ⟨record, hrecord, hkeyed⟩
  refine ⟨record, ?_, hkeyed⟩
  rw [terminal_value hreaches hcall
    (inquiry_pluck source.name source.primaryKey plan hvalue hkey), Inquiry.select_value hselect,
    hrecord]
  rfl

theorem evaluate_pluck_keyed_numbers :
    let rows : List Row := [
      .ofFields [("v", .text "a"), ("k", .number 1)],
      .ofFields [("v", .text "b"), ("k", .null)],
      .ofFields [("v", .text "c"), ("k", .text "1")]]
    let pluck : Call := ⟨"pluck", [.scalar (.text "v"), .scalar (.text "k")], 0⟩
    let start : Session Unit := ⟨(), []⟩
    Reaches (listSource rows) (pure 0) [] start .empty start ∧
      pluck.IsOf (TerminalVerb.text .pluck) [.text "v", .text "k"] ∧
      (forall row, row ∈ rows -> ScalarRow row) ∧
      (rowsUnder "k" "1" rows).length = 2 ∧
      exists record, (Chain.evaluate (listSource rows) (pure 0) [pluck] start).1 =
          .ok record.toValue ∧
        IsKeyed "v" "k" rows record := by
  intro rows pluck start
  have hreaches : Reaches (listSource rows) (pure 0) [] start .empty start := rfl
  have hcall : pluck.IsOf (TerminalVerb.text .pluck) [.text "v", .text "k"] := ⟨rfl, rfl⟩
  have hselect : ((listSource rows).select (Plan.empty.withColumns ["v", "k"]) start).1 =
      .ok rows := by
    decide +kernel
  have hrows : forall row, row ∈ rows -> ScalarRow row := by
    unfold ScalarRow
    decide
  exact ⟨hreaches, hcall, hrows, by decide +kernel,
    evaluate_pluck_keyed hreaches rfl rfl hcall hselect hrows⟩

/-- A row whose key is the key of the base is not in the record. -/
theorem pluck_loses_baseKey :
    let rows : List Row := [.ofFields [("v", .text "x"), ("k", .text Fields.baseKey)]]
    let pluck : Call := ⟨"pluck", [.scalar (.text "v"), .scalar (.text "k")], 0⟩
    (Chain.evaluate (listSource rows) (pure 0) [pluck] ⟨(), []⟩).1 = .ok Record.empty.toValue := by
  decide +kernel

end Chain

end Query

end OperatorConsole
