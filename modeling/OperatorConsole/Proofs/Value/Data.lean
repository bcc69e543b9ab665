import OperatorConsole.Options.Values
import OperatorConsole.Proofs.Value.Inexact

/-!
# Data

Data is what a host program can hand in without handing in code or exact integers: scalars,
nothing at all, bytes, and lists and records of data.  A record of data answers with data, or
with one of the routines that every record answers with.
-/

namespace OperatorConsole

namespace Value

inductive Data : Value -> Prop where
  | absent : Data .absent
  | scalar (s : Scalar) : Data s.toValue
  | bytes (bytes : List UInt8) : Data (.bytes bytes)
  | ancestor : Data .ancestor
  | list {items} (hitems : forall item, item ∈ items -> Data item) : Data (.list items)
  | record {fields base} (hfields : forall field, field ∈ fields -> Data field.2)
      (hbase : Data base) : Data (.record fields base)

theorem Data.ofFields {fields : Fields} (hfields : forall field, field ∈ fields -> Data field.2) :
    Data (.ofFields fields) :=
  .record hfields .ancestor

theorem Data.inexact {v : Value} (hv : Data v) : Inexact v := by
  induction hv with
  | absent => rfl
  | scalar s => exact inexact_scalar s
  | bytes bytes => rfl
  | ancestor => rfl
  | list hitems ih => exact inexact_list.mpr ih
  | record hfields hbase ihFields ihBase => exact inexact_record.mpr ⟨ihFields, ihBase⟩

theorem not_data_routine (name : String) : ¬ Data (.routine name) := by
  intro hdata
  generalize hv : Value.routine name = v at hdata
  cases hdata with
  | scalar s =>
      cases s with
      | _ => cases hv
  | _ => cases hv

theorem data_record {fields : Fields} {base : Value} :
    Data (.record fields base) ↔ (forall field, field ∈ fields -> Data field.2) ∧ Data base := by
  constructor
  · intro hdata
    generalize hv : Value.record fields base = v at hdata
    cases hdata with
    | record hfields hbase =>
        cases hv
        exact ⟨hfields, hbase⟩
    | scalar s =>
        cases s with
        | _ => cases hv
    | _ => cases hv
  · rintro ⟨hfields, hbase⟩
    exact .record hfields hbase

/-! ## Answers -/

theorem Data.own {fields : Fields} (hfields : forall field, field ∈ fields -> Data field.2)
    {name : String} {v : Value} (hown : fields.own? name = some v) : Data v := by
  rcases List.lookup_eq_some_iff.mp hown with ⟨before, after, hsplit, _⟩
  apply hfields (name, v)
  rw [hsplit]
  simp

theorem Data.item {items : List Value} (hitems : forall item, item ∈ items -> Data item)
    {name : String} {v : Value} (hitem : item? items name = some v) : Data v := by
  unfold item? at hitem
  split at hitem
  · cases hitem
    exact .scalar (.number _)
  · rcases Option.bind_eq_some_iff.mp hitem with ⟨n, _, hn⟩
    exact hitems v (List.mem_of_getElem? hn)

theorem Data.stored {name : String} {v w : Value} (hv : Data v)
    (hstored : v.stored? name = some w) : Data w := by
  induction hv with
  | @record fields base hfields hbase _ ihBase =>
      unfold stored? at hstored
      cases hown : Fields.own? fields name with
      | some v =>
          rw [hown] at hstored
          cases hstored
          exact Data.own hfields hown
      | none =>
          rw [hown] at hstored
          exact ihBase hstored
  | list hitems _ => exact Data.item hitems hstored
  | scalar s =>
      cases s with
      | _ => cases hstored
  | _ => cases hstored

/-- Data, or a routine that every record answers with. -/
inductive Answer : Value -> Prop where
  | data {v} (hv : Data v) : Answer v
  | routine (name : String) : Answer (.routine name)

end Value

open Value

theorem Fields.builtIn?_answer (name : String) : Answer ((Fields.builtIn? name).getD .absent) := by
  unfold Fields.builtIn?
  split
  · exact .routine _
  · split
    · exact .routine _
    · exact .data .absent

theorem Value.Data.ofValue? {v : Value} (hv : Data v) {r : Record}
    (hr : Record.ofValue? v = some r) : Data r.toValue := by
  have hempty {base : Value} (hbase : Data base) : Data (Record.mk [] base).toValue :=
    .record (fun _ hnone => by cases hnone) hbase
  cases v with
  | absent => cases hr
  | null => cases hr
  | record fields base =>
      cases hr
      exact hv
  | _ =>
      cases hr
      exact hempty hv

theorem Record.get_answer {r : Record} (hr : Data r.toValue) (name : String) :
    Answer (r.get name) := by
  unfold get
  cases hstored : r.toValue.stored? name with
  | some v => exact .data (hr.stored hstored)
  | none =>
      dsimp only
      split
      · exact .data .absent
      · split
        · exact .data (data_record.mp hr).2
        · exact Fields.builtIn?_answer name

/-! ## Option values -/

namespace Options

theorem given_of_data {options : Value} (hdata : Data options)
    (hanswers : options.isMissing = false) (schema : List OptionSpec) :
    exists values, given options schema = .ok values ∧ Data values.toValue := by
  have hasked : exists values, Record.ofValue? options = some values := by
    cases options with
    | absent => cases hanswers
    | null => cases hanswers
    | _ => exact ⟨_, rfl⟩
  rcases hasked with ⟨values, hvalues⟩
  refine ⟨values, ?_, hdata.ofValue? hvalues⟩
  unfold given
  rw [hvalues]

theorem resolved_answer {values : Record} (hvalues : Data values.toValue) {o : OptionSpec}
    (hdefault : forall v, o.default = some v -> Data v) : Answer (resolved values o) := by
  have hgiven := Record.get_answer hvalues o.key
  unfold resolved
  split
  · cases hnone : o.default with
    | none => exact .data .absent
    | some v => exact .data (hdefault v hnone)
  · exact hgiven

theorem assign_answers {r : Record} (hr : forall field, field ∈ r.fields -> Answer field.2)
    (key : String) {v : Value} (hv : Answer v) :
    forall field, field ∈ (r.assign key v).fields -> Answer field.2 := by
  intro field hfield
  unfold Record.assign at hfield
  split at hfield
  · split at hfield
    · exact hr field hfield
    · exact hr field hfield
  · rcases Fields.mem_define hfield with hold | hnew
    · exact hr field hold
    · rw [hnew]
      exact hv

theorem applyDefaults_answers {values : Record} (hvalues : Data values.toValue)
    {schema : List OptionSpec}
    (hdefaults : forall o, o ∈ schema -> forall v, o.default = some v -> Data v) :
    forall field, field ∈ (applyDefaults values schema).fields -> Answer field.2 := by
  unfold applyDefaults
  have hempty : forall field, field ∈ Record.empty.fields -> Answer field.2 := by
    intro field hnone
    cases hnone
  revert hempty
  generalize Record.empty = filled
  induction schema generalizing filled with
  | nil => exact fun hfilled => hfilled
  | cons o rest ih =>
      intro hfilled
      have hresolved := resolved_answer hvalues (hdefaults o List.mem_cons_self)
      apply ih fun other hother => hdefaults other (List.mem_cons_of_mem o hother)
      dsimp only
      split
      · exact hfilled
      · exact assign_answers hfilled o.key hresolved

end Options

end OperatorConsole
