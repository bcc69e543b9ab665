import OperatorConsole.Value.Record

/-!
# Answers of plain records

A record that was given no base answers to an ordinary name with its own field.  Fields that
were written one after the other are looked up part by part.

A name that none of its fields has it answers with what every record inherits, which is nothing
for an ordinary name.
-/

namespace OperatorConsole

namespace Fields

@[simp]
theorem own?_append (fields others : Fields) (name : String) :
    own? (fields ++ others) name = (own? fields name).or (own? others name) :=
  List.lookup_append

@[simp]
theorem own?_nil (name : String) : own? [] name = none := rfl

@[simp]
theorem own?_cons (key name : String) (v : Value) (fields : Fields) :
    own? ((key, v) :: fields) name = if name = key then some v else own? fields name := by
  unfold own?
  rw [List.lookup_cons]
  by_cases hname : name = key
  · rw [if_pos hname, beq_iff_eq.mpr hname]
  · rw [if_neg hname, beq_eq_false_iff_ne.mpr hname]

@[simp]
theorem own?_ofOption (key name : String) (v : Option Value) :
    own? (ofOption key v) name = if name = key then v else none := by
  cases v with
  | none => simp [ofOption, own?_nil]
  | some v => simp [ofOption, own?_cons, own?_nil]

theorem own?_eq_none_of_hasOwn {fields : Fields} {key : String}
    (hmissing : fields.hasOwn key = false) : own? fields key = none := by
  unfold own?
  rw [List.lookup_eq_none_iff]
  intro field hfield
  unfold hasOwn at hmissing
  have hother := List.any_eq_false.mp hmissing field hfield
  simp only [beq_iff_eq] at hother
  simpa using fun hsame : key = field.1 => hother hsame.symm

theorem own?_replace {fields : Fields} {key : String} (hpresent : fields.hasOwn key = true)
    (v : Value) (name : String) :
    own? (fields.replace key v) name = if name = key then some v else own? fields name := by
  induction fields with
  | nil => cases hpresent
  | cons field rest ih =>
      rcases field with ⟨k, w⟩
      rw [replace]
      by_cases hkey : k = key
      · rw [if_pos hkey, own?_cons, own?_cons, hkey]
        split
        · rfl
        · rfl
      · have hrest : hasOwn rest key = true := by
          simpa [hasOwn, hkey] using hpresent
        rw [if_neg hkey, own?_cons, own?_cons, ih hrest]
        by_cases hname : name = k
        · have hother : ¬ k = key := hkey
          rw [if_pos hname, if_pos hname, if_neg (hname ▸ hother)]
        · rw [if_neg hname, if_neg hname]

theorem own?_insertIndex {fields : Fields} {key : String} (hmissing : own? fields key = none)
    (n : Nat) (v : Value) (name : String) :
    own? (fields.insertIndex n key v) name = if name = key then some v else own? fields name := by
  induction fields with
  | nil => rw [insertIndex, own?_cons]
  | cons field rest ih =>
      rcases field with ⟨k, w⟩
      rw [own?_cons] at hmissing
      split at hmissing
      · cases hmissing
      · rename_i hkey
        rw [insertIndex]
        split
        · split
          · rw [own?_cons, own?_cons, ih hmissing]
            by_cases hname : name = k
            · rw [if_pos hname, if_pos hname, if_neg (hname ▸ fun hsame => hkey hsame.symm)]
            · rw [if_neg hname, if_neg hname]
          · rw [own?_cons]
        · rw [own?_cons]

theorem own?_define (fields : Fields) (key : String) (v : Value) (name : String) :
    own? (fields.define key v) name = if name = key then some v else own? fields name := by
  unfold define
  cases hpresent : fields.hasOwn key with
  | true =>
      rw [if_pos rfl]
      exact own?_replace hpresent v name
  | false =>
      have hmissing := own?_eq_none_of_hasOwn hpresent
      rw [if_neg Bool.false_ne_true]
      cases index? key with
      | some n => exact own?_insertIndex hmissing n v name
      | none =>
          dsimp only
          rw [own?_append, own?_cons, own?_nil]
          by_cases hname : name = key
          · rw [if_pos hname, if_pos hname, hname, hmissing]
            rfl
          · rw [if_neg hname, if_neg hname, Option.or_none]

/-! ## Members -/

theorem mem_replace {key : String} {v : Value} {fields : Fields} {field : String × Value}
    (hfield : field ∈ fields.replace key v) : field ∈ fields ∨ field = (key, v) := by
  induction fields with
  | nil => cases hfield
  | cons first rest ih =>
      rw [replace] at hfield
      split at hfield
      case isTrue hkey =>
        rcases List.mem_cons.mp hfield with rfl | hrest
        · exact Or.inr (by rw [hkey])
        · exact Or.inl (List.mem_cons_of_mem _ hrest)
      case isFalse =>
        rcases List.mem_cons.mp hfield with rfl | hrest
        · exact Or.inl List.mem_cons_self
        · rcases ih hrest with hold | hnew
          · exact Or.inl (List.mem_cons_of_mem _ hold)
          · exact Or.inr hnew

theorem mem_insertIndex {n : Nat} {key : String} {v : Value} {fields : Fields}
    {field : String × Value} (hfield : field ∈ fields.insertIndex n key v) :
    field ∈ fields ∨ field = (key, v) := by
  have hfront : forall rest, field ∈ (key, v) :: rest -> field ∈ rest ∨ field = (key, v) :=
    fun rest hmem => (List.mem_cons.mp hmem).symm
  induction fields with
  | nil => exact hfront [] hfield
  | cons first rest ih =>
      rw [insertIndex] at hfield
      split at hfield
      · split at hfield
        · rcases List.mem_cons.mp hfield with rfl | hrest
          · exact Or.inl List.mem_cons_self
          · rcases ih hrest with hold | hnew
            · exact Or.inl (List.mem_cons_of_mem _ hold)
            · exact Or.inr hnew
        · exact hfront _ hfield
      · exact hfront _ hfield

theorem mem_define {key : String} {v : Value} {fields : Fields} {field : String × Value}
    (hfield : field ∈ fields.define key v) : field ∈ fields ∨ field = (key, v) := by
  unfold define at hfield
  split at hfield
  · exact mem_replace hfield
  · split at hfield
    · exact mem_insertIndex hfield
    · rcases List.mem_append.mp hfield with hold | hnew
      · exact Or.inl hold
      · exact Or.inr (List.mem_singleton.mp hnew)

theorem mem_ofList {members : List (String × Value)} {field : String × Value}
    (hfield : field ∈ ofList members) : field ∈ members := by
  have hfold : forall fields : Fields,
      field ∈ members.foldl (fun fields member => fields.define member.1 member.2) fields ->
        field ∈ fields ∨ field ∈ members := by
    clear hfield
    induction members with
    | nil => exact fun fields hmem => Or.inl hmem
    | cons member rest ih =>
        intro fields hmem
        rcases ih _ hmem with hdefined | hrest
        · rcases mem_define hdefined with hold | rfl
          · exact Or.inl hold
          · exact Or.inr List.mem_cons_self
        · exact Or.inr (List.mem_cons_of_mem _ hrest)
  rcases hfold [] hfield with hnone | hmember
  · cases hnone
  · exact hmember

/-! ## Inherited answers -/

/-- What a record with nothing special behind it answers to a name that none of its fields has. -/
def inherited? (name : String) : Option Value :=
  if name = baseKey then some .ancestor else builtIn? name

theorem inherited?_cases {name : String} {v : Value} (hv : inherited? name = some v) :
    v = .ancestor ∨ exists routine, v = .routine routine := by
  unfold inherited? builtIn? at hv
  repeat' split at hv
  all_goals cases hv
  · exact Or.inl rfl
  · exact Or.inr ⟨_, rfl⟩
  · exact Or.inr ⟨_, rfl⟩

end Fields

namespace Record

theorem assign_ordinary (r : Record) {key : String} (hkey : key ≠ Fields.baseKey) (v : Value) :
    r.assign key v = { r with fields := r.fields.define key v } := by
  unfold assign isBaseKey
  rw [decide_eq_false hkey]
  rfl

theorem own?_assign (r : Record) (key : String) (v : Value) {name : String}
    (hname : name ≠ Fields.baseKey) :
    (r.assign key v).fields.own? name = if name = key then some v else r.fields.own? name := by
  unfold assign
  split
  · rename_i hbase
    have hkey : key = Fields.baseKey := by
      unfold isBaseKey at hbase
      simp only [Bool.and_eq_true, decide_eq_true_eq] at hbase
      exact hbase.1.1
    have hother : ¬ name = key := fun hsame => hname (hsame.trans hkey)
    simp only [if_neg hother]
    split
    · rfl
    · rfl
  · exact Fields.own?_define r.fields key v name

theorem get_own {r : Record} {name : String} {v : Value} (hown : r.fields.own? name = some v) :
    r.get name = v := by
  unfold get toValue
  rw [Value.stored?, hown]

theorem get_inherited {fields : Fields} {name : String} (hown : fields.own? name = none) :
    (ofFields fields).get name = (Fields.inherited? name).getD .absent := by
  have hstored : Value.stored? name (.record fields .ancestor) = none := by
    rw [Value.stored?, hown]
    rfl
  unfold get toValue ofFields Fields.inherited?
  rw [hstored]
  change (if name = Fields.baseKey then Value.ancestor else
    (Fields.builtIn? name).getD .absent) = _
  split
  · rfl
  · rfl

theorem get_ordinary (r : Record) {name : String} (hbuiltIn : Fields.builtIn? name = none)
    (hbase : name ≠ Fields.baseKey) :
    r.get name = ((r.fields.own? name).or (r.base.stored? name)).getD .absent := by
  have hstored : r.toValue.stored? name = (r.fields.own? name).or (r.base.stored? name) := by
    unfold toValue
    rw [Value.stored?]
    cases r.fields.own? name with
    | none => rfl
    | some v => rfl
  unfold get
  rw [hstored, hbuiltIn, if_neg hbase]
  cases (r.fields.own? name).or (r.base.stored? name) with
  | none =>
      dsimp only
      split
      · rfl
      · rfl
  | some v => rfl

theorem get_ofFields {fields : Fields} {name : String} (hbuiltIn : Fields.builtIn? name = none)
    (hbase : name ≠ Fields.baseKey) :
    (ofFields fields).get name = (fields.own? name).getD .absent := by
  have hnothing : Value.ancestor.stored? name = none := rfl
  rw [get_ordinary _ hbuiltIn hbase]
  unfold ofFields
  rw [hnothing, Option.or_none]

end Record

end OperatorConsole
