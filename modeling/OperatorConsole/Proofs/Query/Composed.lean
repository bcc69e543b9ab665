import OperatorConsole.Proofs.Query.Course
import OperatorConsole.Proofs.Query.Outcome
import OperatorConsole.Proofs.Value.Fields

/-!
# What results are composed of

A row answers to the name of a column that it lacks with null, unless every record answers to
that name: then it answers with what it inherits, and the result holds something that no source
has supplied.  `Composed` says what a result is made of, relative to the columns that its chain
reads; if none of these is inherited, a result is data.
-/

namespace OperatorConsole

open OperatorConsole.Action Value

namespace Query

/-! ## Composition -/

def Inherits (names : String -> Prop) (v : Value) : Prop :=
  exists name, names name ∧ Fields.inherited? name = some v

/-- Values that are built of scalars, of lists and of records, and of what is inherited under some
names.  The document of something that is inherited can be missing. -/
inductive Composed (names : String -> Prop) : Value -> Prop where
  | scalar (s : Scalar) : Composed names s.toValue
  | list {items} (hitems : forall item, item ∈ items -> Composed names item) :
      Composed names (.list items)
  | record {fields base} (hfields : forall field, field ∈ fields -> Composed names field.2)
      (hbase : base = .ancestor ∨ base = .null ∨ Inherits names base) :
      Composed names (.record fields base)
  | inherited {v} (hinherits : Inherits names v) : Composed names v
  | missing {v} (hinherits : Inherits names v) : Composed names .absent

def IsPureData (v : Value) : Prop :=
  Composed (fun _ => False) v

theorem inherited?_of_builtIn? {name : String} {v : Value} (hv : Fields.builtIn? name = some v) :
    Fields.inherited? name = some v := by
  unfold Fields.inherited?
  split
  · rename_i hname
    rw [hname] at hv
    cases hv
  · exact hv

variable {names : String -> Prop}

theorem Composed.isPureData {v : Value} (hv : Composed names v)
    (hnames : forall name, names name -> Fields.inherited? name = none) : IsPureData v := by
  have hnone : forall {w}, ¬ Inherits names w := by
    rintro w ⟨name, hname, hw⟩
    rw [hnames name hname] at hw
    cases hw
  induction hv with
  | scalar s => exact .scalar s
  | list _ ih => exact .list ih
  | record _ hbase ih =>
      refine .record ih (hbase.imp_right (Or.imp_right fun hinherits => ?_))
      exact absurd hinherits hnone
  | inherited hinherits => exact absurd hinherits hnone
  | missing hinherits => exact absurd hinherits hnone

theorem Composed.inexact {v : Value} (hv : Composed names v) : Inexact v := by
  have hleaf : forall {w}, Inherits names w -> Inexact w := by
    rintro w ⟨name, _, hw⟩
    rcases Fields.inherited?_cases hw with rfl | ⟨routine, rfl⟩
    · rfl
    · rfl
  induction hv with
  | scalar s => exact inexact_scalar s
  | list _ ih => exact inexact_list.mpr ih
  | record _ hbase ih =>
      refine inexact_record.mpr ⟨ih, ?_⟩
      rcases hbase with rfl | rfl | hinherits
      · rfl
      · rfl
      · exact hleaf hinherits
  | inherited hinherits => exact hleaf hinherits
  | missing hinherits => rfl

theorem composed_null : Composed names .null :=
  .scalar .null

theorem composed_of_scalar? {v : Value} (hv : v.scalar?.isSome) : Composed names v := by
  cases v with
  | null => exact .scalar .null
  | bool b => exact .scalar (.bool b)
  | number x => exact .scalar (.number x)
  | text s => exact .scalar (.text s)
  | _ => cases hv

theorem Composed.orNull {v : Value} (hv : Composed names v) : Composed names v.orNull := by
  cases v with
  | absent => exact composed_null
  | _ => exact hv

/-! ## Reading columns -/

theorem own?_mem {fields : Fields} {name : String} {v : Value}
    (hown : fields.own? name = some v) : exists field, field ∈ fields ∧ field.2 = v := by
  rcases List.lookup_eq_some_iff.mp hown with ⟨before, after, hsplit, _⟩
  exact ⟨(name, v), by rw [hsplit]; simp, rfl⟩

theorem get_missing {row : Row} (hrow : ScalarRow row) {column : String}
    (hown : row.fields.own? column = none) :
    Record.get row column = (Fields.inherited? column).getD .absent := by
  rcases row with ⟨fields, base⟩
  rcases hrow with ⟨hbase, _⟩
  change base = .ancestor at hbase
  change fields.own? column = none at hown
  subst hbase
  exact Record.get_inherited hown

theorem at_missing {row : Row} (hrow : ScalarRow row) {column : String}
    (hown : row.fields.own? column = none) :
    Row.at row column = (Fields.inherited? column).getD .null := by
  unfold Row.at
  rw [get_missing hrow hown]
  cases hinherited : Fields.inherited? column with
  | none => rfl
  | some v =>
      rcases Fields.inherited?_cases hinherited with rfl | ⟨routine, rfl⟩
      · rfl
      · rfl

theorem textOf_get {row : Row} (hrow : ScalarRow row) (name : String) :
    exists text, Failure.textOf (Record.get row name) = .ok text := by
  cases hown : row.fields.own? name with
  | some v =>
      rw [Record.get_own hown]
      rcases own?_mem hown with ⟨field, hfield, rfl⟩
      have hscalar := hrow.2 field hfield
      cases hvalue : field.2 with
      | null | bool | number | text => exact ⟨_, rfl⟩
      | _ =>
          rw [hvalue] at hscalar
          cases hscalar
  | none =>
      rw [get_missing hrow hown]
      cases hinherited : Fields.inherited? name with
      | none => exact ⟨_, rfl⟩
      | some v =>
          rcases Fields.inherited?_cases hinherited with rfl | ⟨routine, rfl⟩
          · exact ⟨_, rfl⟩
          · exact ⟨_, rfl⟩

theorem at_scalarRow {row : Row} (hrow : ScalarRow row) {column : String} (hcolumn : names column) :
    (Row.at row column).scalar?.isSome ∨ Inherits names (Row.at row column) := by
  cases hown : row.fields.own? column with
  | none =>
      rw [at_missing hrow hown]
      cases hinherited : Fields.inherited? column with
      | none => exact Or.inl rfl
      | some v => exact Or.inr ⟨column, hcolumn, hinherited⟩
  | some v =>
      rcases own?_mem hown with ⟨field, hfield, rfl⟩
      have hscalar := hrow.2 field hfield
      unfold Row.at
      rw [Record.get_own hown]
      cases hvalue : field.2 with
      | absent => exact Or.inl rfl
      | _ =>
          rw [hvalue] at hscalar
          exact Or.inl hscalar

theorem composed_at {row : Row} (hrow : ScalarRow row) {column : String} (hcolumn : names column) :
    Composed names (Row.at row column) := by
  rcases at_scalarRow hrow hcolumn with hscalar | hinherits
  · exact composed_of_scalar? hscalar
  · exact .inherited hinherits

theorem builtIn?_orNull (name : String) :
    ((Fields.builtIn? name).getD .absent).orNull = (Fields.builtIn? name).getD .null := by
  unfold Fields.builtIn?
  repeat' split
  all_goals rfl

theorem composed_builtIn (column : String) (hcolumn : names column) :
    Composed names ((Fields.builtIn? column).getD .null) := by
  cases hbuiltIn : Fields.builtIn? column with
  | none => exact composed_null
  | some v => exact .inherited ⟨column, hcolumn, inherited?_of_builtIn? hbuiltIn⟩

/-- What has to hold of the parts of a value that is composed, and of a routine. -/
def PartsComposed (names : String -> Prop) : Value -> Prop
  | .list items => forall item, item ∈ items -> Composed names item
  | .record fields base =>
      (forall field, field ∈ fields -> Composed names field.2) ∧
        (base = .ancestor ∨ base = .null ∨ Inherits names base)
  | .routine name => Inherits names (.routine name)
  | _ => True

theorem Composed.parts {v : Value} (hv : Composed names v) : PartsComposed names v := by
  cases hv with
  | scalar s =>
      cases s with
      | _ => exact trivial
  | list hitems => exact hitems
  | record hfields hbase => exact ⟨hfields, hbase⟩
  | missing _ => exact trivial
  | inherited hinherits =>
      rcases hinherits with ⟨name, hname, hv⟩
      rcases Fields.inherited?_cases hv with rfl | ⟨routine, rfl⟩
      · exact trivial
      · exact ⟨name, hname, hv⟩

theorem stored?_base {base : Value} (hbase : base = .ancestor ∨ base = .null ∨ Inherits names base)
    (name : String) : base.stored? name = none := by
  rcases hbase with rfl | rfl | ⟨other, _, hother⟩
  · rfl
  · rfl
  · rcases Fields.inherited?_cases hother with rfl | ⟨routine, rfl⟩
    · rfl
    · rfl

theorem composed_stored {fields : Fields} {base : Value}
    (hv : Composed names (.record fields base)) {name : String} {w : Value}
    (hstored : stored? name (.record fields base) = some w) : Composed names w := by
  rcases hv.parts with ⟨hfields, hbase⟩
  rw [stored?] at hstored
  cases hown : Fields.own? fields name with
  | some v =>
      rw [hown] at hstored
      cases hstored
      rcases own?_mem hown with ⟨field, hfield, rfl⟩
      exact hfields field hfield
  | none =>
      rw [hown] at hstored
      dsimp only at hstored
      rw [stored?_base hbase] at hstored
      cases hstored

theorem composed_fieldOf {v : Value} (hv : Composed names v) {column : String}
    (hcolumn : names column) : Composed names (fieldOf column v) := by
  cases v with
  | record fields base =>
      change Composed names (Record.get ⟨fields, base⟩ column).orNull
      unfold Record.get
      split
      · rename_i w hstored
        exact (composed_stored hv hstored).orNull
      · split
        · exact composed_null
        · split
          · rename_i hkey
            rcases hv.parts.2 with rfl | rfl | hinherits
            · exact .inherited ⟨column, hcolumn, if_pos hkey⟩
            · exact composed_null
            · exact (Composed.inherited hinherits).orNull
          · rw [builtIn?_orNull]
            exact composed_builtIn column hcolumn
  | ancestor => exact composed_builtIn column hcolumn
  | _ => exact composed_null

/-! ## Conclusions of inquiries -/

theorem composed_row {row : Row} (hrow : ScalarRow row) : Composed names row.toValue :=
  .record (fun field hfield => composed_of_scalar? (hrow.2 field hfield)) (Or.inl hrow.1)

theorem composed_rows {rows : List Row} (hrows : forall row, row ∈ rows -> ScalarRow row) :
    Composed names (rowsValue rows) := by
  refine .list ?_
  intro item hitem
  rcases List.mem_map.mp hitem with ⟨row, hrow, rfl⟩
  exact composed_row (hrows row hrow)

theorem composed_rowOrNull {rows : List Row} (hrows : forall row, row ∈ rows -> ScalarRow row) :
    Composed names (rowOrNull rows.head?) := by
  cases rows with
  | nil => exact composed_null
  | cons row rest => exact composed_row (hrows row List.mem_cons_self)

theorem composed_numberOrNull (x : Option Number) : Composed names (numberOrNull x) := by
  cases x with
  | none => exact composed_null
  | some x => exact .scalar (.number x)

theorem composed_assign {record : Record} (hrecord : Composed names record.toValue) (key : String)
    {v : Value} (hv : v.scalar?.isSome ∨ Inherits names v) :
    Composed names (record.assign key v).toValue := by
  rcases hrecord.parts with ⟨hfields, hbase⟩
  unfold Record.assign
  split
  · split
    · rename_i hisBase
      refine .record hfields (Or.inr ?_)
      rcases hv with hscalar | hinherits
      · cases v with
        | null => exact Or.inl rfl
        | bool | number | text => cases hisBase
        | _ => cases hscalar
      · exact Or.inr hinherits
    · exact hrecord
  · refine .record ?_ hbase
    intro field hfield
    rcases Fields.mem_define hfield with hold | hnew
    · exact hfields field hold
    · rw [hnew]
      rcases hv with hscalar | hinherits
      · exact composed_of_scalar? hscalar
      · exact .inherited hinherits

theorem composed_keyedRecord {rows : List Row} (hrows : forall row, row ∈ rows -> ScalarRow row)
    {valueColumn : String} (hcolumn : names valueColumn) (keyColumn : String) :
    Ends (fun record => Composed names record.toValue) (fun _ => True)
      (keyedRecord valueColumn keyColumn rows) := by
  refine Ends.foldlM ?_ Record.empty (.record nofun (Or.inl rfl))
  intro record hrecord row hrow
  refine (Ends.trivial _).bind ?_
  intro key _
  exact composed_assign hrecord key (at_scalarRow (hrows row hrow) hcolumn)

theorem composed_page {rows : List Row} (hrows : forall row, row ∈ rows -> ScalarRow row)
    {others : Fields} (hothers : forall field, field ∈ others -> field.2.scalar?.isSome) :
    Composed names (.ofFields (("data", rowsValue rows) :: others)) := by
  refine .record ?_ (Or.inl rfl)
  intro field hfield
  rcases List.mem_cons.mp hfield with rfl | hother
  · exact composed_rows hrows
  · exact composed_of_scalar? (hothers field hother)

end Query

end OperatorConsole
