import Mathlib.Data.List.Nodup
import OperatorConsole.Proofs.Options.Validated

/-!
# Options with their defaults

What a schema makes of the supplied values: each declared option has its own value if there is
one, else its default, and nothing else is there.  The result is built field by field, and a schema
names each key once, so no field is stored over another one.

## Keys that every record answers to

A map that does not contain an inherited name answers to it all the same, so an option with such
a key has what is inherited and not its default.  The key of the base holds no value at all: what
is stored under it becomes the base or is lost.
-/

namespace OperatorConsole

/-! ## Fields under distinct keys -/

namespace Fields

section Distinct

variable {members : List (String × Value)}

theorem own?_foldl_define (hkeys : (members.map Prod.fst).Nodup) (fields : Fields) {key : String}
    {v : Value} :
    own? (members.foldl (fun fields member => fields.define member.1 member.2) fields) key =
        some v ↔
      (key, v) ∈ members ∨ (key ∉ members.map Prod.fst ∧ own? fields key = some v) := by
  induction members generalizing fields with
  | nil => simp
  | cons member rest ih =>
      rcases member with ⟨first, w⟩
      rw [List.map_cons, List.nodup_cons] at hkeys
      rw [List.foldl_cons, ih hkeys.2, own?_define, List.mem_cons, List.map_cons, List.mem_cons,
        not_or]
      by_cases hkey : key = first
      · subst hkey
        have hnone : (key, v) ∉ rest := fun hmem => hkeys.1 (List.mem_map.mpr ⟨_, hmem, rfl⟩)
        simp [hnone, hkeys.1, eq_comm]
      · simp [hkey]

theorem own?_ofList_eq_some_iff (hkeys : (members.map Prod.fst).Nodup) {key : String} {v : Value} :
    own? (ofList members) key = some v ↔ (key, v) ∈ members := by
  unfold ofList
  rw [own?_foldl_define hkeys, own?_nil]
  simp

end Distinct

end Fields

namespace OptionSpec

/-- What an option is to have: its own value in a map unless that is absent, else its default. -/
def due (o : OptionSpec) (fields : Fields) : Value :=
  match fields.own o.key with
  | .absent => o.default.getD .absent
  | v => v

def entry? (values : Record) (o : OptionSpec) : Option (String × Value) :=
  if o.key = Fields.baseKey then none
  else (partOf? (Options.resolved values o)).map fun v => (o.key, v)

theorem partOf?_eq_some_iff {v w : Value} : partOf? v = some w ↔ v = w ∧ w ≠ .absent := by
  cases v with
  | absent =>
      constructor
      · nofun
      · rintro ⟨rfl, hsome⟩
        exact absurd rfl hsome
  | _ =>
      constructor
      · rintro ⟨⟩
        exact ⟨rfl, Value.noConfusion⟩
      · rintro ⟨rfl, _⟩
        rfl

theorem entry?_eq_some_iff {values : Record} {o : OptionSpec} {key : String} {v : Value} :
    o.entry? values = some (key, v) ↔
      o.key = key ∧ key ≠ Fields.baseKey ∧ Options.resolved values o = v ∧ v ≠ .absent := by
  unfold entry?
  split
  case isTrue hbase =>
    constructor
    · nofun
    · rintro ⟨rfl, hkey, _⟩
      exact absurd hbase hkey
  case isFalse hkey =>
    rw [Option.map_eq_some_iff]
    constructor
    · rintro ⟨w, hw, heq⟩
      cases heq
      exact ⟨rfl, hkey, partOf?_eq_some_iff.mp hw⟩
    · rintro ⟨rfl, _, hv⟩
      exact ⟨v, partOf?_eq_some_iff.mpr hv, rfl⟩

theorem entry?_ordinary {values : Record} {o : OptionSpec} (hkey : o.key ≠ Fields.baseKey) :
    o.entry? values = (partOf? (Options.resolved values o)).map fun v => (o.key, v) :=
  if_neg hkey

end OptionSpec

namespace Options

/-! ## Building the result -/

def fillIn (values result : Record) (o : OptionSpec) : Record :=
  match resolved values o with
  | .absent => result
  | v => result.assign o.key v

theorem fillIn_absent {values : Record} {o : OptionSpec} (hnone : resolved values o = .absent)
    (result : Record) : fillIn values result o = result := by
  unfold fillIn
  rw [hnone]

theorem fillIn_present {values : Record} {o : OptionSpec} (hsome : resolved values o ≠ .absent)
    (result : Record) : fillIn values result o = result.assign o.key (resolved values o) := by
  unfold fillIn
  split
  case h_1 hnone => exact absurd hnone hsome
  case h_2 => rfl

theorem fillIn_ordinary {values : Record} {o : OptionSpec} (hkey : o.key ≠ Fields.baseKey)
    (result : Record) :
    fillIn values result o =
      { result with
        fields := (o.entry? values).elim result.fields
          fun field => result.fields.define field.1 field.2 } := by
  rw [OptionSpec.entry?_ordinary hkey]
  by_cases hnone : resolved values o = .absent
  · rw [fillIn_absent hnone, hnone]
    rfl
  · rw [fillIn_present hnone, Record.assign_ordinary _ hkey,
      OptionSpec.partOf?_eq_some_iff.mpr ⟨rfl, hnone⟩]
    rfl

theorem fields_fillIn_base {values : Record} {o : OptionSpec} (hkey : o.key = Fields.baseKey)
    {result : Record} (hbase : result.isBaseKey Fields.baseKey = true) :
    (fillIn values result o).fields = result.fields := by
  by_cases hnone : resolved values o = .absent
  · rw [fillIn_absent hnone]
  · rw [fillIn_present hnone, hkey]
    unfold Record.assign
    rw [if_pos hbase]
    split
    · rfl
    · rfl

theorem isBaseKey_define {r : Record} (hbase : r.isBaseKey Fields.baseKey = true) {key : String}
    (hkey : key ≠ Fields.baseKey) (v : Value) :
    ({ r with fields := r.fields.define key v } : Record).isBaseKey Fields.baseKey = true := by
  unfold Record.isBaseKey Record.toValue Value.stored? at hbase ⊢
  rw [Fields.own?_define, if_neg hkey.symm]
  exact hbase

theorem isBaseKey_fillIn {values result : Record} {o : OptionSpec}
    (hkey : o.key ≠ Fields.baseKey) (hbase : result.isBaseKey Fields.baseKey = true) :
    (fillIn values result o).isBaseKey Fields.baseKey = true := by
  by_cases hnone : resolved values o = .absent
  · rwa [fillIn_absent hnone]
  · rw [fillIn_present hnone, Record.assign_ordinary _ hkey]
    exact isBaseKey_define hbase hkey _

/-- The fields of the result are the entries of the options, in the order of the schema. -/
theorem fields_applyDefaults (values : Record) {schema : List OptionSpec}
    (hkeys : (schema.map OptionSpec.key).Nodup) :
    (applyDefaults values schema).fields =
      .ofList (schema.filterMap (OptionSpec.entry? values)) := by
  have hfold : forall result : Record,
      (Fields.baseKey ∈ schema.map OptionSpec.key ->
        result.isBaseKey Fields.baseKey = true) ->
      (schema.foldl (fillIn values) result).fields =
        (schema.filterMap (OptionSpec.entry? values)).foldl
          (fun fields member => fields.define member.1 member.2) result.fields := by
    induction schema with
    | nil => exact fun _ _ => rfl
    | cons o rest ih =>
        intro result hbase
        rw [List.map_cons, List.nodup_cons] at hkeys
        rw [List.map_cons] at hbase
        rw [List.foldl_cons]
        by_cases hkey : o.key = Fields.baseKey
        · have hnone : o.entry? values = none := if_pos hkey
          rw [ih hkeys.2, List.filterMap_cons_none hnone,
            fields_fillIn_base hkey (hbase (hkey ▸ List.mem_cons_self))]
          intro hagain
          exact absurd (hkey ▸ hagain) hkeys.1
        · rw [ih hkeys.2, fillIn_ordinary hkey]
          · cases hentry : o.entry? values with
            | none => rw [List.filterMap_cons_none hentry, Option.elim_none]
            | some field =>
                rw [List.filterMap_cons_some hentry, Option.elim_some, List.foldl_cons]
          · exact fun hrest => isBaseKey_fillIn hkey (hbase (List.mem_cons_of_mem _ hrest))
  exact hfold .empty fun _ => rfl

section Entries

variable {values : Record} {schema : List OptionSpec}

theorem nodup_entries (hkeys : (schema.map OptionSpec.key).Nodup) :
    ((schema.filterMap (OptionSpec.entry? values)).map Prod.fst).Nodup := by
  unfold List.Nodup at hkeys ⊢
  rw [List.pairwise_map] at hkeys ⊢
  rw [List.pairwise_filterMap]
  refine hkeys.imp ?_
  intro o other hother field hfield otherField hotherField
  rwa [← (OptionSpec.entry?_eq_some_iff.mp hfield).1,
    ← (OptionSpec.entry?_eq_some_iff.mp hotherField).1]

theorem own?_applyDefaults_eq_some_iff (hkeys : (schema.map OptionSpec.key).Nodup) {key : String}
    {v : Value} :
    (applyDefaults values schema).fields.own? key = some v ↔
      exists o, o ∈ schema ∧ o.key = key ∧ key ≠ Fields.baseKey ∧ resolved values o = v ∧
        v ≠ .absent := by
  rw [fields_applyDefaults values hkeys, Fields.own?_ofList_eq_some_iff (nodup_entries hkeys),
    List.mem_filterMap]
  simp only [OptionSpec.entry?_eq_some_iff]

end Entries

/-! ## What an option has -/

theorem own_eq (fields : Fields) (key : String) :
    fields.own key = (fields.own? key).getD .absent := rfl

theorem resolved_eq_due {fields : Fields} {o : OptionSpec}
    (hkey : fields.own? o.key = none -> Fields.inherited? o.key = none) :
    resolved (.ofFields fields) o = o.due fields := by
  have hget : (Record.ofFields fields).get o.key = fields.own o.key := by
    rw [get_eq]
    cases hown : fields.own? o.key with
    | some v => rw [own_eq, hown, Option.getD_some, Option.getD_some]
    | none => rw [own_eq, hown, hkey hown, Option.getD_none, Option.getD_none]
  unfold resolved OptionSpec.due
  generalize (Record.ofFields fields).get o.key = v at hget ⊢
  subst hget
  cases fields.own o.key with
  | _ => rfl

theorem inherited_present {key : String} {w : Value} (hw : Fields.inherited? key = some w) :
    w ≠ .absent := by
  rcases Fields.inherited?_cases hw with rfl | ⟨routine, rfl⟩
  · exact Value.noConfusion
  · exact Value.noConfusion

theorem inherited_eq_absent_iff {key : String} :
    (Fields.inherited? key).getD .absent = .absent ↔ Fields.inherited? key = none := by
  cases hinherited : Fields.inherited? key with
  | none => simp
  | some w => simp [inherited_present hinherited]

theorem resolved_inherited {fields : Fields} {o : OptionSpec} {w : Value}
    (hown : fields.own? o.key = none) (hw : Fields.inherited? o.key = some w) :
    resolved (.ofFields fields) o = w := by
  have hget : (Record.ofFields fields).get o.key = w := by
    rw [get_eq, hown, hw]
    rfl
  unfold resolved
  rw [hget]
  rcases Fields.inherited?_cases hw with rfl | ⟨routine, rfl⟩
  · rfl
  · rfl

/-- An option whose key is inherited has nothing just if the map holds an absent value under that
key and there is no default. -/
theorem resolved_eq_absent_iff {fields : Fields} {o : OptionSpec}
    (hinherited : Fields.inherited? o.key ≠ none) :
    resolved (.ofFields fields) o = .absent ↔
      fields.own? o.key = some .absent ∧ o.due fields = .absent := by
  cases hown : fields.own? o.key with
  | none =>
      rcases Option.ne_none_iff_exists'.mp hinherited with ⟨w, hw⟩
      rw [resolved_inherited hown hw]
      simp [inherited_present hw]
  | some v =>
      rw [resolved_eq_due fun hnone => absurd (hown.symm.trans hnone) nofun]
      constructor
      · intro hdue
        refine ⟨congrArg some ?_, hdue⟩
        unfold OptionSpec.due at hdue
        rw [own_eq, hown, Option.getD_some] at hdue
        split at hdue
        case h_1 => rfl
        case h_2 => exact hdue
      · exact And.right

theorem own_cases {fields : Fields} (hfields : IsOptionMap fields) (key : String) :
    fields.own key = .absent ∨ exists s : Scalar, fields.own key = s.toValue := by
  rw [own_eq]
  cases hown : fields.own? key with
  | none => exact Or.inl rfl
  | some v =>
      rcases List.lookup_eq_some_iff.mp hown with ⟨before, after, hsplit, _⟩
      exact hfields (key, v) (hsplit ▸ List.mem_append_right before List.mem_cons_self)

def HasScalarDefault (o : OptionSpec) : Prop :=
  forall v, o.default = some v -> exists s : Scalar, v = s.toValue

theorem due_cases {fields : Fields} (hfields : IsOptionMap fields) {o : OptionSpec}
    (hdefault : HasScalarDefault o) :
    o.due fields = .absent ∨ exists s : Scalar, o.due fields = s.toValue := by
  unfold OptionSpec.due
  split
  case h_1 =>
    cases hnone : o.default with
    | none => exact Or.inl rfl
    | some v => exact Or.inr (hdefault v hnone)
  case h_2 => exact own_cases hfields o.key

/-! ## The base of the result -/

/-- Scalars leave the base of a record as it is, except that null takes it away. -/
theorem base_assign {r : Record} (hr : r.base = .ancestor ∨ r.base = .null) (key : String)
    {v : Value} (hv : v = .ancestor ∨ exists s : Scalar, v = s.toValue) :
    (r.assign key v).base = .ancestor ∨ (r.assign key v).base = .null := by
  unfold Record.assign
  split
  · split
    case isTrue hbase =>
      rcases hv with rfl | ⟨s, rfl⟩
      · exact Or.inl rfl
      · cases s with
        | null => exact Or.inr rfl
        | _ => cases hbase
    case isFalse => exact hr
  · exact hr

section Base

variable {fields : Fields} (hfields : IsOptionMap fields)

include hfields

theorem resolved_baseKey {o : OptionSpec} (hkey : o.key = Fields.baseKey)
    (hdefault : HasScalarDefault o) (hsome : resolved (.ofFields fields) o ≠ .absent) :
    resolved (.ofFields fields) o = .ancestor ∨
      exists s : Scalar, resolved (.ofFields fields) o = s.toValue := by
  cases hown : fields.own? o.key with
  | none => exact Or.inl (resolved_inherited hown (if_pos hkey))
  | some v =>
      have hdue : resolved (.ofFields fields) o = o.due fields := by
        apply resolved_eq_due
        rw [hown]
        nofun
      rw [hdue] at hsome ⊢
      exact Or.inr ((due_cases hfields hdefault).resolve_left hsome)

theorem base_fillIn {o : OptionSpec} (hdefault : HasScalarDefault o) {result : Record}
    (hresult : result.base = .ancestor ∨ result.base = .null) :
    (fillIn (.ofFields fields) result o).base = .ancestor ∨
      (fillIn (.ofFields fields) result o).base = .null := by
  by_cases hnone : resolved (.ofFields fields) o = .absent
  · rwa [fillIn_absent hnone]
  · rw [fillIn_present hnone]
    by_cases hkey : o.key = Fields.baseKey
    · exact base_assign hresult o.key (resolved_baseKey hfields hkey hdefault hnone)
    · rwa [Record.assign_ordinary _ hkey]

theorem base_applyDefaults {schema : List OptionSpec}
    (hdefaults : forall o, o ∈ schema -> HasScalarDefault o) :
    (applyDefaults (.ofFields fields) schema).base = .ancestor ∨
      (applyDefaults (.ofFields fields) schema).base = .null := by
  have hfold : forall result : Record, result.base = .ancestor ∨ result.base = .null ->
      (schema.foldl (fillIn (.ofFields fields)) result).base = .ancestor ∨
        (schema.foldl (fillIn (.ofFields fields)) result).base = .null := by
    induction schema with
    | nil => exact fun _ hresult => hresult
    | cons o rest ih =>
        intro result hresult
        exact ih (fun other hother => hdefaults other (List.mem_cons_of_mem o hother)) _
          (base_fillIn hfields (hdefaults o List.mem_cons_self) hresult)
  exact hfold .empty (Or.inl rfl)

end Base

/-! ## Filling in once more -/

theorem default_of_resolved_absent {values : Record} {o : OptionSpec}
    (hnone : resolved values o = .absent) : o.default.getD .absent = .absent := by
  unfold resolved at hnone
  split at hnone
  case h_1 => exact hnone
  case h_2 hsome => exact absurd hnone hsome

theorem resolved_own {r : Record} {o : OptionSpec} {v : Value} (hown : r.fields.own? o.key = some v)
    (hv : v ≠ .absent) : resolved r o = v := by
  unfold resolved
  rw [Record.get_own hown]
  split
  case h_1 => exact absurd rfl hv
  case h_2 => rfl

theorem resolved_missing {r : Record} (hbase : r.base = .ancestor ∨ r.base = .null) {o : OptionSpec}
    (hown : r.fields.own? o.key = none) (hdefault : o.default.getD .absent = .absent) :
    resolved r o =
      if r.base = .ancestor then (Fields.inherited? o.key).getD .absent else .absent := by
  rcases r with ⟨fields, base⟩
  have hget : (Record.mk fields base).get o.key =
      if base = .ancestor then (Fields.inherited? o.key).getD .absent else .absent := by
    rcases hbase with hbase | hbase
    · change base = .ancestor at hbase
      rw [hbase, if_pos rfl]
      exact Record.get_inherited hown
    · change base = .null at hbase
      have hstored : Value.stored? o.key (.record fields .null) = none := by
        rw [Value.stored?]
        change fields.own? o.key = none at hown
        rw [hown]
        rfl
      rw [hbase, if_neg Value.noConfusion]
      unfold Record.get Record.toValue
      rw [hstored]
      rfl
  unfold resolved
  rw [hget, hdefault]
  split
  case h_1 habsent => exact habsent.symm
  case h_2 => rfl

section Again

variable {values : Record} {schema : List OptionSpec}
  (hkeys : (schema.map OptionSpec.key).Nodup)

include hkeys

theorem own?_applyDefaults_declared {o : OptionSpec} (ho : o ∈ schema)
    (hkey : o.key ≠ Fields.baseKey) {v : Value} :
    (applyDefaults values schema).fields.own? o.key = some v ↔
      resolved values o = v ∧ v ≠ .absent := by
  rw [own?_applyDefaults_eq_some_iff hkeys]
  constructor
  · rintro ⟨other, hother, hsame, _, hv⟩
    rwa [List.inj_on_of_nodup_map hkeys hother ho hsame] at hv
  · exact fun hv => ⟨o, ho, rfl, hkey, hv⟩

theorem resolved_again {o : OptionSpec} (ho : o ∈ schema) (hkey : o.key ≠ Fields.baseKey)
    (hbase : (applyDefaults values schema).base = .ancestor ∨
      (applyDefaults values schema).base = .null) :
    resolved (applyDefaults values schema) o = resolved values o ↔
      (resolved values o = .absent -> (applyDefaults values schema).base = .ancestor ->
        Fields.inherited? o.key = none) := by
  by_cases hnone : resolved values o = .absent
  · have hmissing : (applyDefaults values schema).fields.own? o.key = none := by
      apply Option.eq_none_iff_forall_ne_some.mpr
      intro v hv
      rcases (own?_applyDefaults_declared hkeys ho hkey).mp hv with ⟨rfl, hsome⟩
      exact hsome hnone
    rw [resolved_missing hbase hmissing (default_of_resolved_absent hnone), hnone]
    by_cases hancestor : (applyDefaults values schema).base = .ancestor
    · rw [if_pos hancestor, inherited_eq_absent_iff]
      exact ⟨fun hinherited _ _ => hinherited, fun hall => hall rfl hancestor⟩
    · rw [if_neg hancestor]
      exact ⟨fun _ _ hsame => absurd hsame hancestor, fun _ => rfl⟩
  · have hown := (own?_applyDefaults_declared hkeys ho hkey).mpr ⟨rfl, hnone⟩
    rw [resolved_own hown hnone]
    exact ⟨fun _ hsame => absurd hsame hnone, fun _ => rfl⟩

theorem fields_again_iff :
    (applyDefaults (applyDefaults values schema) schema).fields =
        (applyDefaults values schema).fields ↔
      forall o, o ∈ schema -> o.key ≠ Fields.baseKey ->
        resolved (applyDefaults values schema) o = resolved values o := by
  constructor
  · intro hsame o ho hkey
    have hown (v : Value) :
        (resolved (applyDefaults values schema) o = v ∧ v ≠ .absent) ↔
          (resolved values o = v ∧ v ≠ .absent) := by
      rw [← own?_applyDefaults_declared hkeys ho hkey, ← own?_applyDefaults_declared hkeys ho hkey,
        hsame]
    by_cases hagain : resolved (applyDefaults values schema) o = .absent
    · by_cases hnone : resolved values o = .absent
      · rw [hagain, hnone]
      · exact ((hown _).mpr ⟨rfl, hnone⟩).1
    · exact ((hown _).mp ⟨rfl, hagain⟩).1.symm
  · intro hsame
    rw [fields_applyDefaults _ hkeys, fields_applyDefaults values hkeys]
    refine congrArg Fields.ofList (List.filterMap_congr fun o ho => ?_)
    unfold OptionSpec.entry?
    split
    · rfl
    case isFalse hkey => rw [hsame o ho hkey]

end Again

/-! ## The whole result -/

/-- What the result has for the options of a schema. -/
structure IsFilled (fields : Fields) (schema : List OptionSpec) (result : Record) : Prop where
  /-- A field under a key that is not inherited is the value due to the option with that key. -/
  ordinary : forall key v, Fields.inherited? key = none ->
    (result.fields.own? key = some v ↔
      exists o, o ∈ schema ∧ o.key = key ∧ o.due fields = v ∧ v ≠ .absent)
  /-- An inherited key has what is inherited instead, if the map does not contain it. -/
  inherited : forall key v w, Fields.inherited? key = some w -> key ≠ Fields.baseKey ->
    (result.fields.own? key = some v ↔
      exists o, o ∈ schema ∧ o.key = key ∧
        (if fields.own? key = none then w = v else o.due fields = v ∧ v ≠ .absent))
  baseKey : result.fields.own? Fields.baseKey = none
  again_ordinary : (forall o, o ∈ schema -> Fields.inherited? o.key = none) ->
    applyDefaults result schema = result
  /-- Only an absent value under an inherited key is not absent any more the second time. -/
  again : (applyDefaults result schema).fields = result.fields ↔
    forall o, o ∈ schema -> fields.own? o.key = some .absent -> o.due fields = .absent ->
      result.base = .ancestor -> Fields.inherited? o.key = none ∨ o.key = Fields.baseKey

theorem applyDefaults_isFilled {fields : Fields} (hfields : IsOptionMap fields)
    {schema : List OptionSpec} (hkeys : (schema.map OptionSpec.key).Nodup)
    (hdefaults : forall o, o ∈ schema -> HasScalarDefault o) :
    IsFilled fields schema (applyDefaults (.ofFields fields) schema) where
  ordinary := by
    intro key v hinherited
    have hkey : key ≠ Fields.baseKey := by
      rintro rfl
      cases hinherited
    rw [own?_applyDefaults_eq_some_iff hkeys]
    constructor
    · rintro ⟨o, ho, rfl, _, hv, hsome⟩
      rw [resolved_eq_due fun _ => hinherited] at hv
      exact ⟨o, ho, rfl, hv, hsome⟩
    · rintro ⟨o, ho, rfl, hv, hsome⟩
      rw [← resolved_eq_due fun _ => hinherited] at hv
      exact ⟨o, ho, rfl, hkey, hv, hsome⟩
  inherited := by
    intro key v w hw hkey
    rw [own?_applyDefaults_eq_some_iff hkeys]
    split
    case isTrue hown =>
      constructor
      · rintro ⟨o, ho, rfl, _, hv, _⟩
        exact ⟨o, ho, rfl, (resolved_inherited hown hw).symm.trans hv⟩
      · rintro ⟨o, ho, rfl, rfl⟩
        exact ⟨o, ho, rfl, hkey, resolved_inherited hown hw, inherited_present hw⟩
    case isFalse hown =>
      constructor
      · rintro ⟨o, ho, rfl, _, hv, hsome⟩
        rw [resolved_eq_due fun hnone => absurd hnone hown] at hv
        exact ⟨o, ho, rfl, hv, hsome⟩
      · rintro ⟨o, ho, rfl, hv, hsome⟩
        rw [← resolved_eq_due fun hnone => absurd hnone hown] at hv
        exact ⟨o, ho, rfl, hkey, hv, hsome⟩
  baseKey := by
    apply Option.eq_none_iff_forall_ne_some.mpr
    intro v hv
    rcases (own?_applyDefaults_eq_some_iff hkeys).mp hv with ⟨_, _, _, hkey, _⟩
    exact hkey rfl
  again_ordinary := by
    intro hordinary
    refine List.foldl_ext _ _ _ fun result o ho => ?_
    have hkey : o.key ≠ Fields.baseKey := by
      intro hsame
      have hinherited := hordinary o ho
      rw [hsame] at hinherited
      cases hinherited
    have hresolved := (resolved_again hkeys ho hkey (base_applyDefaults hfields hdefaults)).mpr
      fun _ _ => hordinary o ho
    rw [hresolved]
  again := by
    rw [fields_again_iff hkeys]
    refine forall₂_congr fun o ho => ?_
    constructor
    · intro hagain hown hdue hbase
      refine or_iff_not_imp_right.mpr fun hkey => ?_
      by_contra hinherited
      exact hinherited ((resolved_again hkeys ho hkey (base_applyDefaults hfields hdefaults)).mp
        (hagain hkey) ((resolved_eq_absent_iff hinherited).mpr ⟨hown, hdue⟩) hbase)
    · intro hagain hkey
      refine (resolved_again hkeys ho hkey (base_applyDefaults hfields hdefaults)).mpr ?_
      intro hnone hbase
      by_contra hinherited
      rcases (resolved_eq_absent_iff hinherited).mp hnone with ⟨hown, hdue⟩
      rcases hagain hown hdue hbase with hnone | hsame
      · exact hinherited hnone
      · exact hkey hsame

def sampleDefaults : List OptionSpec :=
  [⟨"days", "Days", .text, false, some (.text "90"), true, none, none, [], none, none⟩,
    ⟨"dry_run", "Dry run", .boolean, false, some (.bool true), false, none, none, [], none, none⟩,
    ⟨"note", "Note", .text, false, none, false, none, none, [], none, none⟩]

def sampleValues : Fields :=
  [("extra", .text "x"), ("note", .null), ("dry_run", .bool false)]

theorem applyDefaults_isFilled_mixed :
    IsOptionMap sampleValues ∧ (sampleDefaults.map OptionSpec.key).Nodup ∧
      (forall o, o ∈ sampleDefaults -> HasScalarDefault o) ∧
      let result := applyDefaults (.ofFields sampleValues) sampleDefaults
      result.fields.own? "days" = some (.text "90") ∧
        result.fields.own? "dry_run" = some (.bool false) ∧
        result.fields.own? "note" = some .null ∧ applyDefaults result sampleDefaults = result := by
  have hfields : IsOptionMap sampleValues := by
    intro field hfield
    simp only [sampleValues, List.mem_cons, List.not_mem_nil, or_false] at hfield
    rcases hfield with rfl | rfl | rfl
    · exact Or.inr ⟨.text "x", rfl⟩
    · exact Or.inr ⟨.null, rfl⟩
    · exact Or.inr ⟨.bool false, rfl⟩
  have hkeys : (sampleDefaults.map OptionSpec.key).Nodup := by decide
  have hdefaults : forall o, o ∈ sampleDefaults -> HasScalarDefault o := by
    intro o ho v hv
    simp only [sampleDefaults, List.mem_cons, List.not_mem_nil, or_false] at ho
    rcases ho with rfl | rfl | rfl
    · exact ⟨.text "90", (Option.some.inj hv).symm⟩
    · exact ⟨.bool true, (Option.some.inj hv).symm⟩
    · cases hv
  have hfilled := applyDefaults_isFilled hfields hkeys hdefaults
  refine ⟨hfields, hkeys, hdefaults, ?_, ?_, ?_, hfilled.again_ordinary (by decide)⟩
  · exact (hfilled.ordinary "days" _ rfl).mpr
      ⟨sampleDefaults[0], by decide, rfl, rfl, Value.noConfusion⟩
  · exact (hfilled.ordinary "dry_run" _ rfl).mpr
      ⟨sampleDefaults[1], by decide, rfl, rfl, Value.noConfusion⟩
  · exact (hfilled.ordinary "note" _ rfl).mpr
      ⟨sampleDefaults[2], by decide, rfl, rfl, Value.noConfusion⟩

def withheldOption : OptionSpec :=
  ⟨"toString", "Text", .text, false, some (.text "x"), false, none, none, [], none, none⟩

/-- The map does not contain the key, and yet the option does not have its default. -/
theorem default_withheld :
    Fields.own? [] withheldOption.key = none ∧ withheldOption.due [] = .text "x" ∧
      (applyDefaults (.ofFields []) [withheldOption]).fields.own? withheldOption.key =
        some (.routine "toString") :=
  ⟨rfl, rfl, rfl⟩

end Options

end OperatorConsole
