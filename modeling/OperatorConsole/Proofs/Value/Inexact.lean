import OperatorConsole.Json.Printer
import OperatorConsole.Proofs.Value.Fields
import OperatorConsole.Scalar

/-!
# Values without exact integers

An exact integer makes a document unwritable.  A value is inexact if it holds none, neither
in its fields nor in its bases: then nothing that it answers holds one, and no record that is
built of inexact values does.
-/

namespace OperatorConsole

namespace Value

mutual

/-- Whether no exact integer occurs in a value or in a base. -/
def isInexact : Value -> Bool
  | .exact _ => false
  | .list items => areInexact items
  | .record fields base => haveInexact fields && isInexact base
  | _ => true

def areInexact : List Value -> Bool
  | [] => true
  | item :: items => isInexact item && areInexact items

def haveInexact : List (String × Value) -> Bool
  | [] => true
  | (_, v) :: fields => isInexact v && haveInexact fields

end

def Inexact (v : Value) : Prop :=
  v.isInexact = true

theorem areInexact_iff {items : List Value} :
    areInexact items = true ↔ forall item, item ∈ items -> Inexact item := by
  induction items with
  | nil => simp [areInexact]
  | cons item items ih =>
      rw [areInexact, Bool.and_eq_true, ih, List.forall_mem_cons]
      rfl

theorem haveInexact_iff {fields : Fields} :
    haveInexact fields = true ↔ forall field, field ∈ fields -> Inexact field.2 := by
  induction fields with
  | nil => simp [haveInexact]
  | cons field fields ih =>
      rw [haveInexact, Bool.and_eq_true, ih, List.forall_mem_cons]
      rfl

theorem inexact_list {items : List Value} :
    Inexact (.list items) ↔ forall item, item ∈ items -> Inexact item := by
  unfold Inexact
  rw [isInexact, areInexact_iff]
  rfl

theorem inexact_record {fields : Fields} {base : Value} :
    Inexact (.record fields base) ↔
      (forall field, field ∈ fields -> Inexact field.2) ∧ Inexact base := by
  unfold Inexact
  rw [isInexact, Bool.and_eq_true, haveInexact_iff]
  rfl

theorem Inexact.orNull {v : Value} (hv : Inexact v) : Inexact v.orNull := by
  cases v with
  | absent => rfl
  | _ => exact hv

theorem inexact_scalar (v : Scalar) : Inexact v.toValue := by
  cases v with
  | null => rfl
  | bool b => rfl
  | number x => rfl
  | text s => rfl

theorem inexact_of_scalar? {v : Value} (hv : v.scalar?.isSome) : Inexact v := by
  cases v with
  | exact n => cases hv
  | list items => cases hv
  | record fields base => cases hv
  | _ => rfl

/-! ## Documents -/

mutual

theorem isWritable_of_inexact : (v : Value) -> v.isInexact = true -> Json.isWritable v = true
  | .exact n, hv => by cases hv
  | .list items, hv => areWritable_of_inexact items hv
  | .record fields base, hv => by
      rw [isInexact, Bool.and_eq_true] at hv
      exact haveWritable_of_inexact fields hv.1
  | .absent, _ => rfl
  | .null, _ => rfl
  | .bool _, _ => rfl
  | .number _, _ => rfl
  | .text _, _ => rfl
  | .bytes _, _ => rfl
  | .ancestor, _ => rfl
  | .supplier _, _ => rfl
  | .routine _, _ => rfl

theorem areWritable_of_inexact :
    (items : List Value) -> areInexact items = true -> Json.areWritable items = true
  | [], _ => rfl
  | item :: items, hitems => by
      rw [areInexact, Bool.and_eq_true] at hitems
      rw [Json.areWritable, isWritable_of_inexact item hitems.1,
        areWritable_of_inexact items hitems.2]
      rfl

theorem haveWritable_of_inexact :
    (fields : List (String × Value)) -> haveInexact fields = true ->
      Json.haveWritable fields = true
  | [], _ => rfl
  | (key, v) :: fields, hfields => by
      rw [haveInexact, Bool.and_eq_true] at hfields
      rw [Json.haveWritable, isWritable_of_inexact v hfields.1,
        haveWritable_of_inexact fields hfields.2]
      rfl

end

theorem Inexact.writable {v : Value} (hv : Inexact v) : Json.isWritable v = true :=
  isWritable_of_inexact v hv

/-! ## Answers -/

theorem inexact_own {fields : Fields} (hfields : forall field, field ∈ fields -> Inexact field.2)
    {name : String} {v : Value} (hown : fields.own? name = some v) :
    Inexact v := by
  induction fields with
  | nil => cases hown
  | cons field fields ih =>
      unfold Fields.own? at hown
      rw [List.lookup_cons] at hown
      split at hown
      · cases hown
        exact hfields field List.mem_cons_self
      · exact ih (fun other hother => hfields other (List.mem_cons_of_mem field hother)) hown

theorem Inexact.item {items : List Value} (hitems : Inexact (.list items)) {name : String}
    {v : Value} (hitem : item? items name = some v) :
    Inexact v := by
  unfold item? at hitem
  split at hitem
  · cases hitem
    rfl
  · rcases Option.bind_eq_some_iff.mp hitem with ⟨n, _, hn⟩
    exact inexact_list.mp hitems v (List.mem_of_getElem? hn)

theorem Inexact.stored {name : String} {v w : Value} (hv : Inexact v)
    (hstored : v.stored? name = some w) :
    Inexact w := by
  fun_induction stored? name v with
  | case1 fields base w' hown =>
      cases hstored
      exact inexact_own (inexact_record.mp hv).1 hown
  | case2 fields base hown ih => exact ih (inexact_record.mp hv).2 hstored
  | case3 items => exact hv.item hstored
  | case4 => cases hstored

theorem inexact_builtIn {other : Value} (hother : Inexact other) (name : String) :
    Inexact ((Fields.builtIn? name).getD other) := by
  unfold Fields.builtIn?
  split
  · rfl
  · split
    · rfl
    · exact hother

end Value

/-! ## Records -/

open Value

namespace Record

theorem inexact_get {r : Record} (hr : Inexact r.toValue) (name : String) :
    Inexact (r.get name) := by
  unfold get
  split
  · rename_i v hstored
    exact hr.stored hstored
  · split
    · rfl
    · split
      · exact (inexact_record.mp hr).2
      · exact inexact_builtIn (show Inexact .absent from rfl) name

end Record

namespace Record

theorem inexact_assign {r : Record} (hr : Inexact r.toValue) (key : String) {v : Value}
    (hv : Inexact v) : Inexact (r.assign key v).toValue := by
  rcases inexact_record.mp hr with ⟨hfields, hbase⟩
  unfold assign
  split
  · split
    · exact inexact_record.mpr ⟨hfields, hv⟩
    · exact hr
  · refine inexact_record.mpr ⟨?_, hbase⟩
    intro field hfield
    rcases Fields.mem_define hfield with hold | hnew
    · exact hfields field hold
    · rw [hnew]
      exact hv

end Record

end OperatorConsole
